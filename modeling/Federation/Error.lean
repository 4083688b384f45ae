import Federation.Json.Printer

/-!
# Errors

Everything that can go wrong between reading a dependency table and handing out a manifest, by cause. Each
cause has a number, a message and, for some, data for machines. The wording of foreign parties (the operating
system, a decoder, the network) is not this library's; `foreignDetail` stands in its place.
-/

namespace Federation

/-- Stands for a text whose wording belongs to someone else. -/
def foreignDetail : String := "<detail>"

/-- The causes of failure. -/
inductive Error where
  | invalidDependencyValue (key : String) (value : Json)
  | platformRequired (key : String)
  | missingOrgProject (uid : String)
  | missingAuthToken
  | missingUserEmail
  | tokenExchangeFailed (why : String)
  | invalidConfig (why : String)
  | resolutionFailed (uid version why : String)
  | invalidResolution (uid why : String)
  | registryUnreachable (why : String)
  | manifestIo (why : String)
  | manifestInvalid (why : String)

namespace Error

/-- The number of a cause: 1xxxx for the table, 2xxxx for the setting, 3xxxx for the registry, 4xxxx for
manifests. -/
def code : Error → Nat
  | invalidDependencyValue .. => 10001
  | platformRequired .. => 10002
  | missingOrgProject .. => 20001
  | missingAuthToken => 20002
  | missingUserEmail => 20003
  | tokenExchangeFailed .. => 20004
  | invalidConfig .. => 20005
  | resolutionFailed .. => 30001
  | invalidResolution .. => 30002
  | registryUnreachable .. => 30003
  | manifestIo .. => 40001
  | manifestInvalid .. => 40002

/-- The tag of a cause. -/
def tag (e : Error) : String := s!"ZE{e.code}"

/-- What went wrong, in words. -/
def message : Error → String
  | invalidDependencyValue key value =>
    s!"Dependency '{key}' must be a string or a platform map, got {value.render}"
  | platformRequired key => s!"Dependency '{key}' is declared per platform but no target platform was given"
  | missingOrgProject uid =>
    s!"Cannot qualify '{uid}': set ZE_APP_ORG and ZE_APP_PROJECT, add a git remote or a package.json repository field"
  | missingAuthToken => "No auth token available: set ZE_SECRET_TOKEN, ZE_AUTH_TOKEN, ZE_TOKEN or ZE_SERVER_TOKEN"
  | missingUserEmail => "ZE_SERVER_TOKEN is set but ZE_USER_EMAIL is missing"
  | tokenExchangeFailed why => why
  | invalidConfig why => why
  | resolutionFailed uid version why => s!"Failed to resolve {uid}@{version}: {why}"
  | invalidResolution uid why => s!"Registry returned an unusable resolution for {uid}: {why}"
  | registryUnreachable why => why
  | manifestIo why => why
  | manifestInvalid why => why

/-- Tag and message. -/
def display (e : Error) : String := s!"[{e.tag}] {e.message}"

/-- What a cause is about, as a value. -/
def data? : Error → Option Json
  | invalidDependencyValue key value => some (.object [("key", .string key), ("value", value)])
  | resolutionFailed uid version _ => some (.object [("application_uid", .string uid), ("version", .string version)])
  | _ => none

end Error

end Federation
