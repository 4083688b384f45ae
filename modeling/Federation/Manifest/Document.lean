import Federation.Error
import Federation.Json.Record
import Federation.Manifest.Basic

/-!
# Manifest documents

The JSON form of a manifest. `Manifest.document` writes it, a member per line; `Manifest.ofDocument` reads and
validates it. Reading what was written gives the manifest back exactly when it is valid.
-/

namespace Federation

/-- The wording of a manifest error. -/
def ManifestError.message : ManifestError → String
  | json => s!"invalid manifest JSON: {foreignDetail}"
  | missingApplicationUid => "manifest application_uid cannot be empty"
  | relativeEntryUrl name url => s!"dependency '{name}' has a non-absolute remote_entry_url: {url}"
  | missingDependencyUid name => s!"dependency '{name}' has an empty application_uid"

namespace ManifestDependency

/-- The members of an entry. -/
def toJson (d : ManifestDependency) : Json :=
  .object [("application_uid", .string d.applicationUid), ("remote_entry_url", .string d.remoteEntryUrl),
    ("public_path", .string d.publicPath), ("version", .string d.version)]

/-- The fields of an entry. -/
def fields : List RecordField :=
  [⟨["application_uid"], false⟩, ⟨["remote_entry_url"], false⟩, ⟨["public_path"], false⟩, ⟨["version"], false⟩]

/-- Reads an entry. -/
def ofSyntax? (x : JsonSyntax) : Option ManifestDependency := do
  match ← x.record? fields with
  | [uid, url, path, version] =>
    let uid ← JsonSyntax.required? JsonSyntax.text? uid
    let url ← JsonSyntax.required? JsonSyntax.text? url
    let path ← JsonSyntax.required? JsonSyntax.text? path
    let version ← JsonSyntax.required? JsonSyntax.text? version
    pure ⟨uid, url, path, version⟩
  | _ => none

end ManifestDependency

namespace Manifest

/-- The members of a manifest. -/
def toJson (m : Manifest) : Json :=
  .object [("version", .string m.version), ("timestamp", .string m.timestamp),
    ("application_uid", .string m.applicationUid),
    ("dependencies", .object (m.dependencies.entries.map fun e => (e.1, e.2.toJson)))]

/-- The text of a manifest file. -/
def document (m : Manifest) : String := m.toJson.pretty

/-- The fields of a manifest. -/
def fields : List RecordField :=
  [⟨["version"], false⟩, ⟨["timestamp"], false⟩, ⟨["application_uid"], false⟩, ⟨["dependencies"], true⟩]

/-- Reads the dependencies; of two entries with one key the later stays. -/
def dependenciesOfSyntax? : JsonSyntax → Option (KeyMap ManifestDependency)
  | .object ms => do
    let es ← ms.mapM fun m => do pure (← m.1, ← ManifestDependency.ofSyntax? m.2)
    pure (KeyMap.ofList es)
  | _ => none

/-- Reads a manifest without validating it. -/
def ofSyntax? (x : JsonSyntax) : Option Manifest := do
  match ← x.record? fields with
  | [version, timestamp, uid, deps] =>
    let version ← JsonSyntax.required? JsonSyntax.text? version
    let timestamp ← JsonSyntax.required? JsonSyntax.text? timestamp
    let uid ← JsonSyntax.required? JsonSyntax.text? uid
    let deps ← JsonSyntax.withDefault? dependenciesOfSyntax? KeyMap.empty deps
    pure ⟨version, timestamp, uid, deps⟩
  | _ => none

/-- Reads and validates the text of a manifest file. -/
def ofDocument (s : String) : Except ManifestError Manifest := do
  match (JsonSyntax.parse? s.toList).bind ofSyntax? with
  | none => throw .json
  | some m =>
    m.validate
    pure m

end Manifest

end Federation
