import Federation.Http
import Federation.Manifest.Document

/-!
# Fetching manifests

A running application fetches its manifest from a URL. Caches on the way are told not to answer, because a
refresh has to see the latest deployment.
-/

namespace Federation

/-- Why a fetch gave no manifest. -/
inductive FetchError where
  | connection (url : String)
  | status (url : String) (status : Nat)
  | invalid (url : String) (error : ManifestError)
  | other (text : String)
deriving DecidableEq, Repr

/-- The wording of a fetch error. -/
def FetchError.message : FetchError → String
  | connection url => s!"manifest request to {url} failed: {foreignDetail}"
  | status url n => s!"manifest request to {url} returned HTTP {n}"
  | invalid url e => s!"manifest from {url} is invalid: {e.message}"
  | other text => text

/-- What a fetch comes to. -/
abbrev FetchOutcome := Except FetchError Manifest

namespace Manifest

/-- The manifest in a text that came from a URL. -/
def ofFetched (url text : String) : FetchOutcome :=
  match ofDocument text with
  | .ok m => .ok m
  | .error e => .error (.invalid url e)

/-- What an answer to a fetch means. -/
def ofAnswer (url : String) (r : HttpResponse) : FetchOutcome :=
  if r.isSuccess then ofFetched url r.text else .error (.status url r.status)

/-- A fetch must be given some time. -/
def checkTimeout (milliseconds : Nat) : Except Error Unit :=
  if milliseconds = 0 then .error (.invalidConfig "Manifest timeout cannot be zero") else .ok ()

/-- Fetches a manifest. -/
def fetch {m : Type → Type} [Monad m] (transport : Transport m) (url : String) : m FetchOutcome := do
  match ← Http.send transport "GET" url [("cache-control", "no-cache")] none with
  | none => pure (.error (.connection url))
  | some r => pure (ofAnswer url r)

end Manifest

end Federation
