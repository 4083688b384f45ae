import Federation.Url.Host
import Federation.Url.Path

/-!
# Parsing URLs

`Url.parse` reads an absolute URL and `Url.join` a reference relative to a base, as the URL standard lays
down: characters outside the components' alphabets are escaped, hosts are brought into one form, the default
port of a scheme is left out, and the path is free of dot segments.

Three kinds of scheme are told apart. `http`, `https`, `ws`, `wss` and `ftp` are special: they need a host and
take a backslash for a slash. `file` is special too, but its host may be empty and drive letters play a part.
All other schemes may have an opaque path.
-/

namespace Federation

/-- The kinds of scheme that are parsed differently. -/
inductive SchemeKind where
  | file
  | network
  | other
deriving DecidableEq

namespace SchemeKind

/-- Whether a backslash counts as a slash. -/
def isSpecial : SchemeKind → Bool
  | other => false
  | _ => true

/-- The default port of a scheme. -/
def defaultPort? (scheme : List Char) : Option Nat :=
  match String.ofList scheme with
  | "http" | "ws" => some 80
  | "https" | "wss" => some 443
  | "ftp" => some 21
  | _ => none

/-- The kind of a scheme. -/
def ofScheme (scheme : List Char) : SchemeKind :=
  if scheme = ['f', 'i', 'l', 'e'] then file
  else if (defaultPort? scheme).isSome then network
  else other

end SchemeKind

namespace Url

/-- A scheme in lower case and what follows its colon. -/
def scheme? : List Char → Option (List Char × List Char)
  | [] => none
  | c :: r =>
    if !c.isAlpha then none
    else
      let isSchemeChar (c : Char) : Bool := c.isAlphanum || c == '+' || c == '-' || c == '.'
      let s := r.takeWhile isSchemeChar
      match r.dropWhile isSchemeChar with
      | ':' :: rest => some ((c :: s).map Char.toLower, rest)
      | _ => none

/-- Whether a character ends the path. -/
def endsPath (c : Char) : Bool := c == '?' || c == '#'

/-- The characters that are escaped in a query. -/
def querySet (special : Bool) (c : Char) : Bool :=
  c.toNat < 0x20 || c.toNat == 0x7F || c == ' ' || c == '"' || c == '#' || c == '<' || c == '>' ||
    (special && c.toNat == 0x27)

/-- The characters that are escaped in user info. -/
def userInfoSet (c : Char) : Bool :=
  UrlPath.pathSet c || c == '/' || c == ':' || c == ';' || c == '=' || c == '@' || c == '[' || c == '\\' ||
    c == ']' || c == '^' || c == '|'

/-- Query and fragment from the text after a path. -/
def queryAndFragment (kind : SchemeKind) : List Char → Option (List Char) × Option (List Char)
  | '?' :: r =>
    let q := Percent.encode (querySet kind.isSpecial) (r.takeWhile (· ≠ '#'))
    match r.dropWhile (· ≠ '#') with
    | _ :: f => (some q, some (Percent.encode UrlPath.fragmentSet f))
    | [] => (some q, none)
  | '#' :: f => (none, some (Percent.encode UrlPath.fragmentSet f))
  | _ => (none, none)

/-- Puts query and fragment from the text after a path to the other parts. -/
def finish (kind : SchemeKind) (scheme : List Char) (authority : Option UrlAuthority) (path : UrlPath)
    (rest : List Char) : Url :=
  let (q, f) := queryAndFragment kind rest
  ⟨scheme, authority, path, q, f⟩

/-- A slash, or a backslash in a special URL. -/
def isSlash (kind : SchemeKind) (c : Char) : Bool := c == '/' || (kind.isSpecial && c == '\\')

/-- Path, query and fragment after an authority. -/
def afterAuthority (kind : SchemeKind) (scheme : List Char) (a : UrlAuthority) (s : List Char) : Url :=
  let p := s.takeWhile fun c => !endsPath c
  let rest := s.dropWhile fun c => !endsPath c
  let path : UrlPath :=
    match p with
    | [] => if kind.isSpecial then .segments [[]] else .segments []
    | c :: r => UrlPath.resolve kind.isSpecial (kind == .file) [] (if isSlash kind c then r else c :: r)
  finish kind scheme (some a) path rest

/-- User name and password from the text before the last `@`. -/
def credentials (s : List Char) : List Char × Option (List Char) :=
  match Text.splitFirst ':' s with
  | none => (Percent.encode userInfoSet s, none)
  | some (u, []) => (Percent.encode userInfoSet u, none)
  | some (u, p) => (Percent.encode userInfoSet u, some (Percent.encode userInfoSet p))

/-- Cuts a host from a port: at the first colon outside brackets. -/
def splitPort : (bracketed : Bool) → List Char → List Char × Option (List Char)
  | _, [] => ([], none)
  | bracketed, c :: r =>
    if c == ':' && !bracketed then ([], some r)
    else
      let b := if c == '[' then true else if c == ']' then false else bracketed
      let (h, p) := splitPort b r
      (c :: h, p)

/-- A port of at most 16 bits; nothing between the colon and the path stands for the default. -/
def port (scheme s : List Char) : Except UrlError (Option Nat) :=
  let n := s.foldl (fun n c => n * 10 + (c.toNat - 48)) 0
  if !s.all Char.isDigit then .error .invalidPort
  else if s.isEmpty then .ok none
  else if 65535 < n then .error .invalidPort
  else .ok (if SchemeKind.defaultPort? scheme = some n then none else some n)

/-- The host in an authority; a special URL must have one. -/
def authorityHost (kind : SchemeKind) (s : List Char) : Except UrlError (Option UrlHost) :=
  if !kind.isSpecial then UrlHost.ofOther s
  else if s.isEmpty then .error .emptyHost
  else (UrlHost.ofSpecial s).map some

/-- An authority of a host, the user info before it and the text of a port behind it, which need a host. -/
def makeAuthority (scheme : List Char) (info : List Char × Option (List Char)) (host : Option UrlHost)
    (p : Option (List Char)) : Except UrlError UrlAuthority :=
  match host, p with
  | none, some _ => .error .emptyHost
  | none, none => if !info.1.isEmpty || info.2.isSome then .error .emptyHost else .ok ⟨info.1, info.2, none, none⟩
  | some h, none => .ok ⟨info.1, info.2, some h, none⟩
  | some h, some p => (port scheme p).map fun n => ⟨info.1, info.2, some h, n⟩

/-- The user info before the last `@`, if there is any, and what follows it. -/
def splitInfo (s : List Char) : Option (List Char) × List Char :=
  match Text.splitLast '@' s with
  | none => (none, s)
  | some (i, h) => (some i, h)

/-- Cuts the text of a port at a backslash, which ends it in every scheme. -/
def cutPort : Option (List Char) → Option (List Char) × List Char
  | none => (none, [])
  | some p => (some (p.takeWhile (· ≠ '\\')), p.dropWhile (· ≠ '\\'))

/-- Everything after the two slashes that begin an authority. -/
def ofAuthority (kind : SchemeKind) (scheme s : List Char) : Except UrlError Url :=
  let inAuthority (c : Char) : Bool := !(isSlash kind c || endsPath c)
  let rest := s.dropWhile inAuthority
  let (info, hostPort) := splitInfo (s.takeWhile inAuthority)
  if info = some [] ∧ hostPort.isEmpty ∧ !rest.isEmpty then .error .emptyHost
  else
    let (h, p) := splitPort false hostPort
    let (p, back) := cutPort p
    match authorityHost kind h with
    | .error e => .error e
    | .ok host =>
      match makeAuthority scheme (credentials (info.getD [])) host p with
      | .error e => .error e
      | .ok a => .ok (afterAuthority kind scheme a (back ++ rest))

/-- A URL with an authority that holds at most a host. -/
def hostOnly (host : Option UrlHost) : UrlAuthority := ⟨[], none, host, none⟩

/-- The host of a `file` URL, if the text is one: neither a drive letter nor `localhost`. -/
def fileHost (s : List Char) : Except UrlError (Option UrlHost) :=
  if s.isEmpty || UrlPath.isDriveLetter s then .ok none
  else (UrlHost.ofSpecial s).map fun host => if host = .name "localhost".toList then none else some host

/-- A `file` URL from the text after two slashes. -/
def fileWithHost (s : List Char) : Except UrlError Url :=
  let inHost (c : Char) : Bool := !(isSlash .file c || endsPath c)
  let h := s.takeWhile inHost
  let s := if UrlPath.isDriveLetter h then s else s.dropWhile inHost
  match fileHost h with
  | .error e => .error e
  | .ok none =>
    let p := s.takeWhile fun c => !endsPath c
    let rest := s.dropWhile fun c => !endsPath c
    .ok (finish .file "file".toList (some (hostOnly none)) (UrlPath.resolve true true [] p) rest)
  | .ok (some host) =>
    let u := afterAuthority .file "file".toList (hostOnly (some host)) s
    .ok (if u.path.hasDrive then { u with authority := some (hostOnly none) } else u)

/-- The segments of a base path without the last one; a drive letter that stands last stays. -/
def baseDirs (kind : SchemeKind) (base : Url) : List (List Char) :=
  match base.path with
  | .opaqueText _ => []
  | .segments ss =>
    match kind, ss.getLast? with
    | .file, some d => if UrlPath.isDriveLetter d && d[1]? == some ':' then ss else ss.dropLast
    | _, _ => ss.dropLast

/-- Path, query and fragment of a reference that keeps the base's authority, from the directories `dirs`. -/
def underBase (kind : SchemeKind) (base : Url) (dirs : List (List Char)) (s : List Char) : Url :=
  let p := s.takeWhile fun c => !endsPath c
  let rest := s.dropWhile fun c => !endsPath c
  finish kind base.scheme base.authority (UrlPath.resolve kind.isSpecial (kind == .file) dirs p) rest

/-- A `file` URL without a host, from a path without its first slash. -/
def fileWithoutHost (s : List Char) : Url :=
  let p := s.takeWhile fun c => !endsPath c
  finish .file "file".toList (some (hostOnly none)) (UrlPath.resolve true true [] p)
    (s.dropWhile fun c => !endsPath c)

/-- A `file` URL from the text after a single slash; it keeps the base's host and drive letter. -/
def fileFromRoot (base : Option Url) (s : List Char) : Url :=
  match base.filter fun _ => !UrlPath.startsWithDriveLetter s with
  | none => fileWithoutHost s
  | some b =>
    match b.path with
    | .segments (d :: _) => underBase .file b (if b.path.hasDrive then [d] else []) s
    | _ => underBase .file b [] s

/-- A `file` URL; `base` is the base if it is one too. -/
def ofFile (base : Option Url) (s : List Char) : Except UrlError Url :=
  match s with
  | [] => .ok ((base.map fun b => { b with fragment := none }).getD (fileWithoutHost []))
  | c :: r =>
    if isSlash .file c then
      match r with
      | d :: r' => if isSlash .file d then fileWithHost r' else .ok (fileFromRoot base r)
      | [] => .ok (fileFromRoot base [])
    else
      match base with
      | none => .ok (fileWithoutHost s)
      | some b =>
        if c == '?' then .ok (finish .file b.scheme b.authority b.path s)
        else if c == '#' then .ok { b with fragment := some (Percent.encode UrlPath.fragmentSet r) }
        else if UrlPath.startsWithDriveLetter s then .ok (fileWithoutHost s)
        else .ok (underBase .file b (baseDirs .file b) s)

/-- A reference without a scheme of its own, relative to a base of the given kind that is not a `file` URL. -/
def ofRelative (kind : SchemeKind) (base : Url) (s : List Char) : Except UrlError Url :=
  match s with
  | [] => .ok { base with fragment := none }
  | c :: r =>
    if c == '?' then .ok (finish kind base.scheme base.authority base.path s)
    else if c == '#' then .ok { base with fragment := some (Percent.encode UrlPath.fragmentSet r) }
    else if c == '/' || c == '\\' then
      match r with
      | d :: r' =>
        if d == '/' || d == '\\' then
          let after := if c == '/' && d == '/' then r' else s.dropWhile fun c => c == '/' || c == '\\'
          ofAuthority kind base.scheme (if kind.isSpecial then after.dropWhile (isSlash kind) else after)
        else .ok (underBase kind base [] r)
      | [] => .ok (underBase kind base [] r)
    else .ok (underBase kind base (baseDirs kind base) s)

/-- A URL from the text after its scheme. -/
def ofScheme (base : Option Url) (scheme s : List Char) : Except UrlError Url :=
  match SchemeKind.ofScheme scheme with
  | .file => ofFile (base.filter (·.scheme == scheme)) s
  | .network =>
    let slashes := (s.takeWhile (isSlash .network)).length
    match base.filter fun b => b.scheme == scheme && slashes < 2 with
    | some b => ofRelative .network b s
    | none => ofAuthority .network scheme (s.dropWhile (isSlash .network))
  | .other =>
    match s with
    | '/' :: '/' :: r => ofAuthority .other scheme r
    | '/' :: r =>
      let p := r.takeWhile fun c => !endsPath c
      .ok (finish .other scheme none (UrlPath.resolve false false [] p) (r.dropWhile fun c => !endsPath c))
    | s =>
      let p := s.takeWhile fun c => !endsPath c
      .ok (finish .other scheme none (.opaqueText (Percent.encode UrlHost.isControl p))
        (s.dropWhile fun c => !endsPath c))

/-- The input without controls and blanks at its ends, and without tabs and line ends anywhere. -/
def clean (s : List Char) : List Char :=
  let isEdge (c : Char) : Bool := c.toNat ≤ 0x20
  (Text.dropEndWhile isEdge (s.dropWhile isEdge)).filter fun c => !(c == '\t' || c == '\n' || c == '\r')

/-- Parses a URL, relative to a base if there is one. -/
def parseWith (base : Option Url) (s : List Char) : Except UrlError Url :=
  let s := clean s
  match scheme? s with
  | some (scheme, rest) => ofScheme base scheme rest
  | none =>
    match base with
    | none => .error .relativeWithoutBase
    | some b =>
      match s with
      | '#' :: r => .ok { b with fragment := some (Percent.encode UrlPath.fragmentSet r) }
      | s =>
        if !b.canBeBase then .error .relativeToOpaqueBase
        else
          match SchemeKind.ofScheme b.scheme with
          | .file => ofFile (some b) s
          | kind => ofRelative kind b s

/-- Parses an absolute URL. -/
def parse (s : String) : Except UrlError Url := parseWith none s.toList

/-- Resolves a reference against a base. -/
def join (base : Url) (reference : String) : Except UrlError Url := parseWith (some base) reference.toList

/-- The URL of the directory that holds what the URL names: no query, no fragment, the path up to its last
slash. -/
def directory (u : Url) : Url :=
  { u with
    path := u.path.directory (SchemeKind.ofScheme u.scheme == .file)
    query := none
    fragment := none }

end Url

end Federation
