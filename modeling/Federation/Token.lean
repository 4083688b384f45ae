import Federation.Environment
import Federation.Error
import Federation.Http
import Federation.Json.Record
import Federation.Text.Quoted

/-!
# Access tokens

The registry wants a bearer token. It comes from the first source that has one: the caller, one of three
settings, or the exchange of a server token together with a user's email address. Only the exchange needs the
network, and it is tried only when nothing else gives a token.
-/

namespace Federation

/-- Where a token came from. -/
inductive TokenSource where
  | explicit
  | environment (setting : String)
  | exchange
deriving DecidableEq, Repr

/-- A token and its source. -/
structure AuthToken where
  value : String
  source : TokenSource
deriving DecidableEq

/-- The name of a source. -/
def TokenSource.text : TokenSource → String
  | explicit => "Explicit"
  | environment setting => "Environment(" ++ quoted setting ++ ")"
  | exchange => "ServerTokenExchange"

namespace AuthToken

/-- A description of a token that may be shown, because the token is not in it. -/
def redacted (t : AuthToken) : String :=
  "AuthToken \x7b value: " ++ quoted "[REDACTED]" ++ ", source: " ++ t.source.text ++ " \x7d"

/-- The settings that hold a token, in the order in which they are looked at. -/
def settings : List String := ["ZE_SECRET_TOKEN", "ZE_AUTH_TOKEN", "ZE_TOKEN"]

/-- The setting that holds a server token. -/
def serverTokenSetting : String := "ZE_SERVER_TOKEN"

/-- The setting that holds the email address of the user for whom a server token is exchanged. -/
def userEmailSetting : String := "ZE_USER_EMAIL"

/-- What the sources at hand amount to. -/
inductive Search where
  | found (token : AuthToken)
  /-- A server token has to be exchanged. -/
  | exchange (serverToken userEmail : String)
  | failed (error : Error)

/-- Looks through the sources at hand. -/
def search (env : Environment) (explicit : Option String) : Search :=
  match explicit.bind nonBlank? with
  | some t => .found ⟨t, .explicit⟩
  | none =>
    match env.firstOf? settings with
    | some (name, t) => .found ⟨t, .environment name⟩
    | none =>
      match env.get? serverTokenSetting with
      | none => .failed .missingAuthToken
      | some server =>
        match env.get? userEmailSetting with
        | none => .failed .missingUserEmail
        | some email => .exchange server email

/-- The body of an exchange. -/
def exchangeBody (serverToken userEmail : String) : String :=
  (Json.object [("server_token", .string serverToken), ("user_email", .string userEmail)]).render

/-- The token in the body of an answer; its member has two names. -/
def ofExchangeBody? (body : List Char) : Option String := do
  match ← (← JsonSyntax.parse? body).record? [⟨["access_token", "token"], false⟩] with
  | [token] => JsonSyntax.required? JsonSyntax.text? token
  | _ => none

/-- What an answer to an exchange means. -/
def readExchange (r : HttpResponse) : Except Error String :=
  if !r.isSuccess then .error (.tokenExchangeFailed s!"HTTP {Http.statusText r.status} error: {r.text}")
  else
    match r.text?.bind ofExchangeBody? with
    | none => .error (.tokenExchangeFailed s!"Invalid token exchange response: {foreignDetail}")
    | some t => if isBlank t then .error (.tokenExchangeFailed "Empty access_token in response") else .ok t

variable {m : Type → Type} [Monad m]

/-- Exchanges a server token. -/
def exchange (transport : Transport m) (url serverToken userEmail : String) : m (Except Error String) := do
  let headers := [("content-type", "application/json")]
  match ← Http.send transport "POST" url headers (some (exchangeBody serverToken userEmail)) with
  | none => pure (.error (.tokenExchangeFailed s!"HTTP request failed: {foreignDetail}"))
  | some r => pure (readExchange r)

/-- The token of the first source that has one. -/
def obtain (transport : Transport m) (exchangeUrl : String) (env : Environment) (explicit : Option String) :
    m (Except Error AuthToken) := do
  match search env explicit with
  | .found t => pure (.ok t)
  | .failed e => pure (.error e)
  | .exchange server email =>
    match ← exchange transport exchangeUrl server email with
    | .error e => pure (.error e)
    | .ok t => pure (.ok ⟨t, .exchange⟩)

end AuthToken

end Federation
