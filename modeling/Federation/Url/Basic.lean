import Federation.Text.Percent
import Federation.Text.Split

/-!
# URLs

A URL as the URL standard models it: scheme, user info, host, port, path, query and fragment, each already in
its serialized (percent-encoded, ASCII) form. `Url.text` writes it.

The path is *opaque* in a URL such as `mailto:a@b`, which cannot be a base for relative references;
otherwise it is a list of segments, each written after a slash.
-/

namespace Federation

/-- Why a text is no URL. -/
inductive UrlError where
  | emptyHost
  | invalidDomainName
  | invalidPort
  | invalidIpv4
  | invalidIpv6
  | invalidHostCharacter
  | relativeWithoutBase
  | relativeToOpaqueBase
deriving DecidableEq, Repr

/-- The wording of a URL error. -/
def UrlError.message : UrlError → String
  | emptyHost => "empty host"
  | invalidDomainName => "invalid international domain name"
  | invalidPort => "invalid port number"
  | invalidIpv4 => "invalid IPv4 address"
  | invalidIpv6 => "invalid IPv6 address"
  | invalidHostCharacter => "invalid domain character"
  | relativeWithoutBase => "relative URL without a base"
  | relativeToOpaqueBase => "relative URL with a cannot-be-a-base base"

/-- A host. -/
inductive UrlHost where
  /-- A name, in its ASCII form for the schemes that the standard calls special. -/
  | name (s : List Char)
  /-- An IPv4 address of 32 bits. -/
  | ipv4 (n : Nat)
  /-- An IPv6 address of eight pieces of 16 bits. -/
  | ipv6 (pieces : List Nat)
deriving DecidableEq

/-- What stands before the path of a URL that has two slashes after its scheme. -/
structure UrlAuthority where
  username : List Char
  /-- The password, if one is written. -/
  password : Option (List Char)
  /-- The host; it may be missing in `file` URLs and in those of other schemes. -/
  host : Option UrlHost
  port : Option Nat
deriving DecidableEq

/-- The path of a URL. -/
inductive UrlPath where
  /-- A path that is just text. -/
  | opaqueText (s : List Char)
  /-- Segments, each with a slash before it. -/
  | segments (ss : List (List Char))
deriving DecidableEq

/-- A parsed URL. -/
structure Url where
  scheme : List Char
  authority : Option UrlAuthority
  path : UrlPath
  query : Option (List Char)
  fragment : Option (List Char)
deriving DecidableEq

namespace UrlHost

/-- Four numbers joined by points. -/
def ipv4Text (n : Nat) : List Char :=
  Text.join ['.'] ([n / 16777216 % 256, n / 65536 % 256, n / 256 % 256, n % 256].map (Nat.toDigits 10))

/-- Start and length of the first of the longest runs of zero pieces, counted from position `at`. -/
def longestZeros : (at_ : Nat) → List Nat → Nat × Nat
  | _, [] => (0, 0)
  | i, p :: ps =>
    let run := ((p :: ps).takeWhile (· == 0)).length
    let (j, best) := longestZeros (i + 1) ps
    if best ≤ run ∧ 0 < run then (i, run) else (j, best)

/-- The pieces in hexadecimal, joined by colons; the longest run of at least two zeros is left out. -/
def ipv6Text (pieces : List Nat) : List Char :=
  let hex (ps : List Nat) : List Char := Text.join [':'] (ps.map (Nat.toDigits 16))
  let (i, n) := longestZeros 0 pieces
  if n < 2 then hex pieces else hex (pieces.take i) ++ ':' :: ':' :: hex (pieces.drop (i + n))

/-- The written form of a host. -/
def text : UrlHost → List Char
  | name s => s
  | ipv4 n => ipv4Text n
  | ipv6 ps => '[' :: (ipv6Text ps ++ [']'])

end UrlHost

namespace UrlAuthority

/-- The user info with its `@`, if there is any. -/
def userInfo (a : UrlAuthority) : List Char :=
  match a.username, a.password with
  | [], none => []
  | u, none => u ++ ['@']
  | u, some p => u ++ ':' :: (p ++ ['@'])

/-- The written form of an authority. -/
def text (a : UrlAuthority) : List Char :=
  a.userInfo ++ (a.host.map UrlHost.text).getD [] ++
    (match a.port with
    | none => []
    | some n => ':' :: Nat.toDigits 10 n)

end UrlAuthority

namespace UrlPath

/-- The written form of a path. -/
def text : UrlPath → List Char
  | opaqueText s => s
  | segments ss => ss.flatMap ('/' :: ·)

end UrlPath

namespace Url

/-- Whether the URL can be the base of a relative reference. -/
def canBeBase (u : Url) : Bool :=
  match u.path with
  | .opaqueText _ => false
  | .segments _ => true

/-- A path that begins with two slashes is kept apart from an authority by `/.`. -/
def pathGuard (u : Url) : List Char :=
  match u.authority, u.path with
  | none, .segments ([] :: _ :: _) => ['/', '.']
  | _, _ => []

/-- What stands before the path. -/
def beforePath (u : Url) : List Char :=
  u.scheme ++ ':' ::
    (match u.authority with
    | none => []
    | some a => '/' :: '/' :: a.text)

/-- The written form of a URL. -/
def toList (u : Url) : List Char :=
  u.beforePath ++ u.pathGuard ++ u.path.text ++
    (match u.query with
    | none => []
    | some q => '?' :: q) ++
    (match u.fragment with
    | none => []
    | some f => '#' :: f)

/-- The written form of a URL. -/
def text (u : Url) : String := String.ofList u.toList

/-- The path and the query, as a request names its target. -/
def target (u : Url) : List Char :=
  u.path.text ++
    (match u.query with
    | none => []
    | some q => '?' :: q)

end Url

end Federation
