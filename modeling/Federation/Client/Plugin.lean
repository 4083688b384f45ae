import Federation.Descriptor
import Federation.Json.Record
import Federation.Manifest.Basic

/-!
# Redirecting requests for remotes

A host declares its remotes with fixed entry URLs. Before it loads a module of one of them, the plugin puts in
the entry URL of the current manifest, or of an override for this session. It changes one entry at most and
leaves a request alone whenever something is missing.
-/

namespace Federation

/-- A remote as the host declares it. -/
structure RemoteDeclaration where
  name : String
  /-- Another name of the remote. -/
  otherName : Option String
  entry : String
deriving DecidableEq, Repr

/-- A request for a module of a remote: the id is the name of the remote, a slash and the name of the module. -/
structure ModuleRequest where
  id : String
  remotes : List RemoteDeclaration
deriving DecidableEq, Repr

/-- The entry URLs of a session, by application uid. -/
abbrev SessionOverrides := KeyMap String

namespace RemoteDeclaration

/-- Whether the host knows the remote by a name. -/
def isCalled (r : RemoteDeclaration) (name : String) : Bool := r.name == name || r.otherName == some name

/-- The fields of a declaration. -/
def fields : List RecordField := [⟨["name"], false⟩, ⟨["alias"], true⟩, ⟨["entry"], false⟩]

/-- Reads a declaration. -/
def ofSyntax? (x : JsonSyntax) : Option RemoteDeclaration := do
  match ← x.record? fields with
  | [name, other, entry] =>
    let name ← JsonSyntax.required? JsonSyntax.text? name
    let other ← JsonSyntax.optional? JsonSyntax.text? other
    let entry ← JsonSyntax.required? JsonSyntax.text? entry
    pure ⟨name, other, entry⟩
  | _ => none

/-- The dependency of a manifest that a remote stands for: by its name, else by its alias. -/
def dependencyKey? (m : Manifest) (r : RemoteDeclaration) : Option String :=
  (r.name :: r.otherName.toList).find? m.dependencies.contains

end RemoteDeclaration

namespace ModuleRequest

/-- The name of the remote. -/
def remoteName (r : ModuleRequest) : String := String.ofList (r.id.toList.takeWhile (· != '/'))

/-- Reads the options of a request. -/
def remotesOfSyntax? (x : JsonSyntax) : Option (List RemoteDeclaration) := do
  match ← x.record? [⟨["remotes"], true⟩] with
  | [remotes] => JsonSyntax.withDefault? (JsonSyntax.list? RemoteDeclaration.ofSyntax?) [] remotes
  | _ => none

/-- Reads a request. -/
def ofSyntax? (x : JsonSyntax) : Option ModuleRequest := do
  match ← x.record? [⟨["id"], false⟩, ⟨["options"], true⟩] with
  | [id, options] =>
    let id ← JsonSyntax.required? JsonSyntax.text? id
    let remotes ← JsonSyntax.withDefault? remotesOfSyntax? [] options
    pure ⟨id, remotes⟩
  | _ => none

/-- The request with another entry URL for the first remote of a name. -/
def withEntry (r : ModuleRequest) (name url : String) : ModuleRequest :=
  match r.remotes.findIdx? (·.isCalled name) with
  | none => r
  | some i => { r with remotes := r.remotes.modify i fun d => { d with entry := url } }

end ModuleRequest

namespace Text

/-- The rests of a text behind each at sign. -/
def afterAtSigns : List Char → List (List Char)
  | [] => []
  | c :: r => if c = '@' then r :: afterAtSigns r else afterAtSigns r

end Text

/-- A URL without a name in front: what follows the first at sign that introduces a URL. A URL stays as it is,
and so does a text in which there is none. -/
def withoutVersionPrefix (s : String) : String :=
  if isLiteralUrl s then s
  else (((Text.afterAtSigns s.toList).map String.ofList).find? isLiteralUrl).getD s

/-- The names of declared remotes, with the dependency of the manifest that each stands for. -/
abbrev RemoteTable := KeyMap String

namespace RemoteTable

/-- Adds a remote under its name and alias, if the manifest has it. -/
def add (m : Manifest) (t : RemoteTable) (r : RemoteDeclaration) : RemoteTable :=
  match r.dependencyKey? m with
  | none => t
  | some key =>
    match r.otherName with
    | none => t.insert r.name key
    | some a => (t.insert r.name key).insert a key

/-- The table of declared remotes. Where two bear the same name, the later one counts. -/
def ofRemotes (m : Manifest) (rs : List RemoteDeclaration) : RemoteTable := rs.foldl (add m) KeyMap.empty

end RemoteTable

/-- A plugin: the table of remotes, once it was made. It is made at the first request that needs it and kept. -/
structure RequestPlugin where
  table : Option RemoteTable

namespace RequestPlugin

/-- The name of the plugin. -/
def name : String := "zephyr-runtime-plugin"

/-- A plugin without a table. -/
def fresh : RequestPlugin := ⟨none⟩

/-- The entry URL for the remote of a name. -/
def entryFor? (t : RemoteTable) (overrides : SessionOverrides) (m : Manifest) (name : String) : Option String := do
  let key ← t.get? name
  let d ← m.dependencies.get? key
  pure (withoutVersionPrefix ((overrides.get? d.applicationUid).getD d.remoteEntryUrl))

/-- Whether a manifest is needed for a request: only if it names a remote. -/
def needsManifest (r : ModuleRequest) : Bool := !r.remoteName.isEmpty

/-- The request as it is to be sent, where `manifest` is the current one, if there is one. -/
def redirect (p : RequestPlugin) (overrides : SessionOverrides) (manifest : Option Manifest) (r : ModuleRequest) :
    ModuleRequest × RequestPlugin :=
  match needsManifest r, manifest with
  | true, some m =>
    let t := p.table.getD (.ofRemotes m r.remotes)
    let r := match entryFor? t overrides m r.remoteName with
      | some url => r.withEntry r.remoteName url
      | none => r
    (r, ⟨some t⟩)
  | _, _ => (r, p)

end RequestPlugin

end Federation
