import Federation.Text.Utf8
import Federation.Url.Parser

/-!
# HTTP

Requests and answers as values. A `Transport` carries a request to its server and brings back the answer, or
nothing when the connection fails; what is built on it works with any transport, so that it can be run and
reasoned about without a network.
-/

namespace Federation

/-- A request. The URL is parsed, so the request target is normalized. -/
structure HttpRequest where
  method : String
  url : Url
  headers : List (String × String)
  body : Option String

/-- An answer: its status and the octets of its body. -/
structure HttpResponse where
  status : Nat
  body : List UInt8

/-- Carries a request over a network; `none` is a failure of the connection. -/
abbrev Transport (m : Type → Type) := HttpRequest → m (Option HttpResponse)

namespace Http

/-- What the requests of this library call themselves. -/
def userAgent : String := "zephyr-core/0.1.0"

/-- Whether a text can be the value of a header: no controls besides the tab. -/
def isHeaderValue (s : String) : Bool :=
  s.toList.all fun c => c == '\t' || (0x20 ≤ c.toNat && c.toNat != 0x7F)

/-- The schemes that are spoken. -/
def schemes : List (List Char) := ["http".toList, "https".toList]

/-- The request that is sent for a URL text, if it can be sent at all. -/
def request? (method url : String) (headers : List (String × String)) (body : Option String) : Option HttpRequest :=
  match Url.parse url with
  | .ok u =>
    if schemes.contains u.scheme && headers.all (fun h => isHeaderValue h.2) then
      some ⟨method, u, ("user-agent", userAgent) :: headers, body⟩
    else none
  | .error _ => none

variable {m : Type → Type} [Monad m]

/-- Sends a request if it can be sent. -/
def send (transport : Transport m) (method url : String) (headers : List (String × String))
    (body : Option String) : m (Option HttpResponse) :=
  match request? method url headers body with
  | some r => transport r
  | none => pure none

/-- The header that carries a bearer token. -/
def bearer (token : String) : String × String := ("authorization", "Bearer " ++ token)

/-- The registered reason phrases. -/
def reasons : List (Nat × String) :=
  [(100, "Continue"), (101, "Switching Protocols"), (102, "Processing"), (103, "Early Hints"), (200, "OK"),
    (201, "Created"), (202, "Accepted"), (203, "Non Authoritative Information"), (204, "No Content"),
    (205, "Reset Content"), (206, "Partial Content"), (207, "Multi-Status"), (208, "Already Reported"),
    (226, "IM Used"), (300, "Multiple Choices"), (301, "Moved Permanently"), (302, "Found"), (303, "See Other"),
    (304, "Not Modified"), (305, "Use Proxy"), (307, "Temporary Redirect"), (308, "Permanent Redirect"),
    (400, "Bad Request"), (401, "Unauthorized"), (402, "Payment Required"), (403, "Forbidden"),
    (404, "Not Found"), (405, "Method Not Allowed"), (406, "Not Acceptable"),
    (407, "Proxy Authentication Required"), (408, "Request Timeout"), (409, "Conflict"), (410, "Gone"),
    (411, "Length Required"), (412, "Precondition Failed"), (413, "Payload Too Large"), (414, "URI Too Long"),
    (415, "Unsupported Media Type"), (416, "Range Not Satisfiable"), (417, "Expectation Failed"),
    (418, "I'm a teapot"), (421, "Misdirected Request"), (422, "Unprocessable Entity"), (423, "Locked"),
    (424, "Failed Dependency"), (425, "Too Early"), (426, "Upgrade Required"), (428, "Precondition Required"),
    (429, "Too Many Requests"), (431, "Request Header Fields Too Large"), (451, "Unavailable For Legal Reasons"),
    (500, "Internal Server Error"), (501, "Not Implemented"), (502, "Bad Gateway"),
    (503, "Service Unavailable"), (504, "Gateway Timeout"), (505, "HTTP Version Not Supported"),
    (506, "Variant Also Negotiates"), (507, "Insufficient Storage"), (508, "Loop Detected"),
    (510, "Not Extended"), (511, "Network Authentication Required")]

/-- The reason phrase of a status. -/
def reason (status : Nat) : String := ((reasons.find? (·.1 == status)).map (·.2)).getD "<unknown status code>"

/-- A status with its reason phrase. -/
def statusText (status : Nat) : String := toString status ++ " " ++ reason status

end Http

namespace HttpResponse

/-- Whether the request was carried out. -/
def isSuccess (r : HttpResponse) : Bool := 200 ≤ r.status && r.status < 300

/-- The body as text; octets that are no text count as unreadable characters. -/
def text (r : HttpResponse) : String := String.ofList (Utf8.decodeLossy r.body)

/-- The body as text, if it is text. -/
def text? (r : HttpResponse) : Option (List Char) := Utf8.decode? r.body

end HttpResponse

end Federation
