import Federation.Manifest.Basic

/-!
# Moved remotes

Between two manifests of one application a remote has *moved* when both have it, with different entry URLs.
Remotes that come or go have not moved.
-/

namespace Federation

/-- A remote that moved. -/
structure RemoteChange where
  remoteName : String
  oldUrl : String
  newUrl : String
  /-- The manifest in which the remote has its new URL. -/
  manifest : Manifest
deriving DecidableEq

namespace Manifest

/-- The change of one dependency of the new manifest, if it moved. -/
def changeOf (old new : Manifest) (name : String) (d : ManifestDependency) : Option RemoteChange := do
  let before ← old.dependencies.get? name
  if before.remoteEntryUrl = d.remoteEntryUrl then none
  else pure ⟨name, before.remoteEntryUrl, d.remoteEntryUrl, new⟩

/-- The remotes that moved, in the order of their names. -/
def changes (old new : Manifest) : List RemoteChange :=
  new.dependencies.entries.filterMap fun e => changeOf old new e.1 e.2

end Manifest

end Federation
