import Federation.KeyMap
import Federation.Remote
import Federation.Text.Blank

/-!
# Manifests

A manifest records which remotes an application was built with: the host's uid and, per remote name, where the
remote lies. Names are unique and listed in order. A manifest is *valid* when the host and every dependency
have a uid and every entry URL is absolute.
-/

namespace Federation

/-- One remote in a manifest; its name is the key. -/
structure ManifestDependency where
  applicationUid : String
  remoteEntryUrl : String
  publicPath : String
  version : String
deriving DecidableEq, Repr

/-- The remotes that one application was built with. -/
structure Manifest where
  version : String
  timestamp : String
  applicationUid : String
  dependencies : KeyMap ManifestDependency
deriving DecidableEq

/-- Why a document is no valid manifest. -/
inductive ManifestError where
  | json
  | missingApplicationUid
  | relativeEntryUrl (name url : String)
  | missingDependencyUid (name : String)
deriving DecidableEq, Repr

namespace ManifestDependency

/-- The entry that a remote leaves in a manifest. -/
def ofRemote (r : Remote) : ManifestDependency :=
  ⟨r.applicationUid, r.remoteEntryUrl, r.publicPath, r.version⟩

theorem ofRemote_eq_iff {r : Remote} {d : ManifestDependency} :
    ofRemote r = d ↔ d.applicationUid = r.applicationUid ∧ d.remoteEntryUrl = r.remoteEntryUrl ∧
      d.publicPath = r.publicPath ∧ d.version = r.version := by
  obtain ⟨uid, url, path, version⟩ := d
  constructor
  · rintro ⟨⟩
    exact ⟨rfl, rfl, rfl, rfl⟩
  · rintro ⟨rfl, rfl, rfl, rfl⟩
    rfl

/-- The remote of an entry under a name. -/
def toRemote (name : String) (d : ManifestDependency) : Remote :=
  ⟨name, d.applicationUid, d.remoteEntryUrl, d.publicPath, d.version⟩

/-- The fault of an entry: a blank uid goes before a relative URL. -/
def fault? (name : String) (d : ManifestDependency) : Option ManifestError :=
  if isBlank d.applicationUid then some (.missingDependencyUid name)
  else if !isAbsoluteUrl d.remoteEntryUrl then some (.relativeEntryUrl name d.remoteEntryUrl)
  else none

end ManifestDependency

namespace Manifest

/-- The version of the manifest format. -/
def formatVersion : String := "1.0.0"

/-- The file name under which manifests are written and served. -/
def defaultFileName : String := "zephyr-manifest.json"

/-- The remote of a name. -/
def remote? (m : Manifest) (name : String) : Option Remote :=
  (m.dependencies.get? name).map (ManifestDependency.toRemote name)

/-- All remotes, in the order of their names. -/
def remotes (m : Manifest) : List Remote :=
  m.dependencies.entries.map fun e => e.2.toRemote e.1

/-- The first fault of a manifest: the host's uid, then the dependencies in the order of their names. -/
def fault? (m : Manifest) : Option ManifestError :=
  if isBlank m.applicationUid then some .missingApplicationUid
  else m.dependencies.entries.findSome? fun e => e.2.fault? e.1

/-- Succeeds exactly on manifests without a fault. -/
def validate (m : Manifest) : Except ManifestError Unit :=
  match m.fault? with
  | some e => .error e
  | none => .ok ()

/-- The manifest of a build; of several remotes with one name the last stays. -/
def ofRemotes (applicationUid timestamp version : String) (rs : List Remote) : Manifest :=
  ⟨version, timestamp, applicationUid, KeyMap.ofList (rs.map fun r => (r.name, .ofRemote r))⟩

end Manifest

end Federation
