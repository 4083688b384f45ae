import Federation.Environment
import Federation.Error
import Federation.Json.Record
import Federation.Manifest.Basic

/-!
# Settings of the registry client

The settings have defaults, may be read from a JSON file, and are overlaid by the environment; after that they
must be usable: the base URL is an `http` or `https` URL and the timeout is not zero.
-/

namespace Federation

/-- Where the registry is, how long a request may take, and what the manifest file is called. -/
structure Config where
  apiBaseUrl : String
  tokenExchangePath : String
  requestTimeoutSecs : Nat
  manifestFileName : String
deriving DecidableEq, Repr

/-- A text as a whole number of 64 bits: digits, with at most one plus sign in front. -/
def word? (s : String) : Option Nat :=
  let ds := (Text.dropPrefix? ['+'] s.toList).getD s.toList
  let n := ds.foldl (fun n c => n * 10 + (c.toNat - 48)) 0
  if ds.isEmpty || !ds.all Char.isDigit || Nat.pow 2 64 ≤ n then none else some n

namespace Config

/-- The settings where nothing else is said. -/
def default : Config :=
  ⟨"https://api.zephyr-cloud.io", "/v2/auth/server-token/exchange", 30, Manifest.defaultFileName⟩

/-- The fields of a settings file. -/
def fields : List RecordField :=
  [⟨["apiBaseUrl"], true⟩, ⟨["tokenExchangePath"], true⟩, ⟨["requestTimeoutSecs"], true⟩,
    ⟨["manifestFilename"], true⟩]

/-- Reads a settings file; what it does not set keeps its default. -/
def ofSyntax? (x : JsonSyntax) : Option Config := do
  match ← x.record? fields with
  | [base, exchange, timeout, file] =>
    let base ← JsonSyntax.withDefault? JsonSyntax.text? default.apiBaseUrl base
    let exchange ← JsonSyntax.withDefault? JsonSyntax.text? default.tokenExchangePath exchange
    let timeout ← JsonSyntax.withDefault? JsonSyntax.word? default.requestTimeoutSecs timeout
    let file ← JsonSyntax.withDefault? JsonSyntax.text? default.manifestFileName file
    pure ⟨base, exchange, timeout, file⟩
  | _ => none

/-- Reads the text of a settings file. -/
def ofDocument? (s : String) : Option Config := (JsonSyntax.parse? s.toList).bind ofSyntax?

/-- Whether the settings are usable: the URL is looked at first, then the timeout. -/
def validate (c : Config) : Except Error Unit :=
  match Url.parse c.apiBaseUrl with
  | .error e => .error (.invalidConfig s!"Invalid API base URL '{c.apiBaseUrl}': {e.message}")
  | .ok u =>
    if !(u.scheme == "http".toList || u.scheme == "https".toList) then
      .error (.invalidConfig s!"API base URL must be http(s): {c.apiBaseUrl}")
    else if c.requestTimeoutSecs = 0 then .error (.invalidConfig "Request timeout cannot be zero")
    else .ok ()

/-- The settings with those of the environment over them, validated. -/
def overlay (c : Config) (env : Environment) : Except Error Config := do
  let c := { c with apiBaseUrl := (env.get? "ZE_API").getD c.apiBaseUrl }
  let c ← match env.get? "ZE_API_TIMEOUT_SECS" with
    | none => pure c
    | some raw =>
      match word? raw with
      | some n => pure { c with requestTimeoutSecs := n }
      | none => throw (.invalidConfig s!"ZE_API_TIMEOUT_SECS must be a whole number of seconds, got '{raw}'")
  c.validate
  pure c

/-- The default settings with those of the environment over them. -/
def ofEnvironment (env : Environment) : Except Error Config := default.overlay env

/-- The base URL without slashes at its end. -/
def apiBase (c : Config) : String := String.ofList (Text.dropEndWhile (· == '/') c.apiBaseUrl.toList)

/-- Where a server token is exchanged. -/
def tokenExchangeUrl (c : Config) : String :=
  c.apiBase ++ "/" ++ String.ofList (c.tokenExchangePath.toList.dropWhile (· == '/'))

end Config

end Federation
