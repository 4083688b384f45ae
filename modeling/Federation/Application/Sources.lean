import Federation.Application.Uid
import Federation.Disk.Basic
import Federation.Environment
import Federation.Json.Syntax

/-!
# Where the context of an application comes from

Organization and project come together from one source: the environment, if it has both; else the address of
the repository's origin; else the `repository` field of the package file.
-/

namespace Federation

/-- What asking the version control for the address of the origin came to. -/
inductive OriginQuery where
  /-- It could not be asked. -/
  | unavailable
  /-- It knows no origin. -/
  | failed
  /-- It printed some octets. -/
  | printed (octets : List UInt8)

/-- The address that was printed, unless it is blank. Octets that are no text count as unreadable characters. -/
def OriginQuery.address? : OriginQuery → Option String
  | printed bs => nonBlank? (String.ofList (Utf8.decodeLossy bs))
  | _ => none

/-- What stands for the version control: the answer to the question for the origin, asked in a directory. -/
abbrev OriginLookup := (workdir : List Char) → OriginQuery

/-- The address of the repository in a package file: a text, or the `url` of an object. -/
def repositoryField? (package : Json) : Option String :=
  match package.member? "repository" with
  | some (.string s) => some s
  | some (.object ms) => ((Json.object ms).member? "url").bind Json.text?
  | _ => none

namespace AppContext

/-- The names of the settings for organization and project. -/
def orgSetting : String := "ZE_APP_ORG"
def projectSetting : String := "ZE_APP_PROJECT"

/-- The context that the environment sets, if it sets both parts. -/
def ofEnvironment? (env : Environment) : Option AppContext :=
  match env.get? orgSetting, env.get? projectSetting with
  | some org, some project => some (ofNames org project)
  | _, _ => none

/-- The context that the text of a package file shows. -/
def ofPackage? (text : String) : Option AppContext := do
  let package ← Json.parse? text
  let address ← repositoryField? package
  ofRepository? address

/-- The first context that a source gives: environment, origin, package file. -/
def ofSources? (env : Environment) (origin : OriginQuery) (package : Option String) : Option AppContext :=
  (ofEnvironment? env).or ((origin.address?.bind ofRepository?).or (package.bind ofPackage?))

/-- The context of the application in a directory. -/
def discover? (env : Environment) (origin : OriginLookup) (d : Disk) (cwd : Location) (workdir : List Char) :
    Option AppContext :=
  ofSources? env (origin workdir) (d.readText? cwd (Path.join workdir "package.json".toList))

end AppContext

end Federation
