import Federation.Error
import Federation.Http
import Federation.Json.Record
import Federation.Descriptor
import Federation.Remote
import Federation.Text.Blank
import Federation.Text.Percent

/-!
# The registry

A registry is asked for one application and one version at a time and answers with a `Resolution`, in which
every field may be missing. `Resolution.toRemote` turns it into a remote: what is missing is taken from the
question, and the entry URL must be absolute.
-/

namespace Federation

/-- What the registry knows of a deployed remote. -/
structure Resolution where
  applicationUid : Option String
  remoteEntryUrl : Option String
  defaultUrl : Option String
  publicPath : Option String
  version : Option String
deriving DecidableEq

/-- The version to ask for: any version, where the workspace did not know its own. -/
def requestedVersion (version : String) : String := if version == workspaceAny then "*" else version

namespace Resolution

/-- The fields of a resolution. -/
def fields : List RecordField :=
  [⟨["application_uid"], true⟩, ⟨["remote_entry_url"], true⟩, ⟨["default_url"], true⟩, ⟨["public_path"], true⟩,
    ⟨["version"], true⟩]

/-- Reads a resolution. -/
def ofSyntax? (x : JsonSyntax) : Option Resolution := do
  match ← x.record? fields with
  | [uid, entry, dflt, path, version] =>
    let uid ← JsonSyntax.optional? JsonSyntax.text? uid
    let entry ← JsonSyntax.optional? JsonSyntax.text? entry
    let dflt ← JsonSyntax.optional? JsonSyntax.text? dflt
    let path ← JsonSyntax.optional? JsonSyntax.text? path
    let version ← JsonSyntax.optional? JsonSyntax.text? version
    pure ⟨uid, entry, dflt, path, version⟩
  | _ => none

/-- Reads the text of a resolution. -/
def ofDocument? (s : String) : Option Resolution := (JsonSyntax.parse? s.toList).bind ofSyntax?

/-- Reads the body of an answer, in which the resolution may be missing. -/
def ofEnvelope? (body : List Char) : Option (Option Resolution) := do
  match ← (← JsonSyntax.parse? body).record? [⟨["value"], false⟩] with
  | [value] => JsonSyntax.optional? ofSyntax? value
  | _ => none

/-- A text that has more than white space in it. -/
def visible? (s : Option String) : Option String := s.filter fun t => !isBlank t

/-- The public path of a resolution, seen from the entry URL; without one it is the directory of the entry. -/
def publicPathFrom (uid : String) (entry : Url) (path : Option String) : Except Error String :=
  match visible? path with
  | none => .ok (publicPathOf entry.text)
  | some p =>
    match entry.join (withProtocol p) with
    | .ok u => .ok u.text
    | .error e => .error (.invalidResolution uid s!"bad public_path '{p}': {e.message}")

/-- The remote of a resolution, under the name that the host gives it. -/
def toRemote (r : Resolution) (name uid version : String) : Except Error Remote :=
  match visible? (r.remoteEntryUrl.or r.defaultUrl) with
  | none => .error (.invalidResolution uid "no remote_entry_url")
  | some raw =>
    match absoluteUrl? raw with
    | none => .error (.invalidResolution uid s!"'{raw}' is not an absolute URL")
    | some entry => do
      let path ← publicPathFrom uid entry r.publicPath
      pure ⟨name, r.applicationUid.getD uid, entry.text, path, r.version.getD version⟩

end Resolution

namespace Registry

/-- Where the registry answers for a version of an application. -/
def resolveUrl (base uid version : String) : String :=
  let base := String.ofList (Text.dropEndWhile (· == '/') base.toList)
  base ++ "/resolve/" ++ String.ofList (Percent.encodeComponent uid.toList) ++ "/" ++
    String.ofList (Percent.encodeComponent version.toList)

/-- What an answer of the registry means. -/
def readAnswer (uid version : String) (r : HttpResponse) : Except Error Resolution :=
  if !r.isSuccess then .error (.resolutionFailed uid version s!"HTTP {Http.statusText r.status}: {r.text}")
  else
    match r.text?.bind Resolution.ofEnvelope? with
    | none => .error (.invalidResolution uid foreignDetail)
    | some none => .error (.invalidResolution uid "response has no value")
    | some (some v) => .ok v

/-- Asks the registry for a version of an application. -/
def resolve {m : Type → Type} [Monad m] (transport : Transport m) (base token uid version : String) :
    m (Except Error Resolution) := do
  let url := resolveUrl base uid version
  match ← Http.send transport "GET" url [Http.bearer token] none with
  | none => pure (.error (.registryUnreachable s!"GET {url} failed: {foreignDetail}"))
  | some r => pure (readAnswer uid version r)

end Registry

end Federation
