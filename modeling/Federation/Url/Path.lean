import Federation.Text.Blank
import Federation.Url.Basic

/-!
# Paths of URLs

Parsing a path cuts it at slashes (for special schemes at backslashes too) and handles `.` and `..` segments,
also where their dots are escaped. Segments that look like a Windows drive letter are never removed by `..`,
and the first segment of a `file` URL is normalized if it is one.

`UrlPath.directory` is the path up to its last slash.
-/

namespace Federation.UrlPath

/-- The characters that are escaped in a fragment. -/
def fragmentSet (c : Char) : Bool :=
  c.toNat < 0x20 || c.toNat == 0x7F || c == ' ' || c == '"' || c == '<' || c == '>' || c.toNat == 0x60

/-- The characters that are escaped in a path. -/
def pathSet (c : Char) : Bool := fragmentSet c || c == '#' || c == '?' || c == '\x7b' || c == '\x7d'

/-- One or two characters for a dot: the dot itself, or its escape in either case. -/
def dropDot? : List Char → Option (List Char)
  | '.' :: r => some r
  | '%' :: '2' :: 'e' :: r => some r
  | '%' :: '2' :: 'E' :: r => some r
  | _ => none

/-- A segment that means the directory itself. -/
def isSingleDot (s : List Char) : Bool := dropDot? s = some []

/-- A segment that means the directory above. -/
def isDoubleDot (s : List Char) : Bool := (dropDot? s).bind dropDot? = some []

/-- A letter and a colon, or a bar in its place. -/
def isDriveLetter : List Char → Bool
  | [c, d] => c.isAlpha && (d == ':' || d == '|')
  | _ => false

/-- Whether a text begins with a drive letter that ends there or before a delimiter. -/
def startsWithDriveLetter : List Char → Bool
  | [c, d] => isDriveLetter [c, d]
  | c :: d :: e :: _ => isDriveLetter [c, d] && (e == '/' || e == '\\' || e == '?' || e == '#')
  | _ => false

/-- A drive letter with its colon. -/
def normalizeDrive : List Char → List Char
  | c :: _ :: r => c :: ':' :: r
  | s => s

/-- The directories above the last one; a drive letter stays. -/
def parent (dirs : List (List Char)) : List (List Char) :=
  match dirs.getLast? with
  | some d => if isDriveLetter d then dirs else dirs.dropLast
  | none => []

/-- Splits a first `file` segment such as `C:x` behind its drive letter. -/
def splitDrive (seg : List Char) : List (List Char) :=
  match seg with
  | c :: ':' :: e :: r => if c.isAlpha then [[c, ':'], e :: r] else [seg]
  | _ => [seg]

/-- Segments that a plain segment adds after `dirs`. -/
def place (isFile : Bool) (dirs : List (List Char)) (seg : List Char) : List (List Char) :=
  if isFile && dirs.isEmpty then
    if isDriveLetter seg then [normalizeDrive seg] else splitDrive seg
  else dirs ++ [seg]

/-- Walks the segments of a reference from the directories `dirs`. -/
def walk (isFile : Bool) (dirs : List (List Char)) : List (List Char) → List (List Char)
  | [] => dirs ++ [[]]
  | [seg] =>
    if isDoubleDot seg then parent dirs ++ [[]]
    else if isSingleDot seg then dirs ++ [[]]
    else place isFile dirs seg
  | seg :: segs =>
    if isDoubleDot seg then walk isFile (parent dirs) segs
    else if isSingleDot seg then walk isFile dirs segs
    else walk isFile (place isFile dirs seg) segs

/-- A `file` path has no empty segments in front. -/
def dropLeadingEmpty : List (List Char) → List (List Char)
  | [] :: s :: ss => dropLeadingEmpty (s :: ss)
  | ss => ss

/-- Parses a path without its first slash, from the directories `dirs`. -/
def resolve (special isFile : Bool) (dirs : List (List Char)) (s : List Char) : UrlPath :=
  let segs := (Text.pieces (fun c => c == '/' || (special && c == '\\')) s).map (Percent.encode pathSet)
  let ss := walk isFile dirs segs
  .segments (if isFile then dropLeadingEmpty ss else ss)

/-- Whether the path of a `file` URL begins with a drive letter, so that the URL has no host. -/
def hasDrive : UrlPath → Bool
  | .segments (s :: _) => isDriveLetter s && s[1]? == some ':'
  | _ => false

/-- The path up to its last slash, or the root if it has none. -/
def directory (isFile : Bool) : UrlPath → UrlPath
  | .opaqueText s =>
    match Text.splitLast '/' s with
    | some (d, _) => .opaqueText (d ++ ['/'])
    | none => .opaqueText ['%', '2', 'F']
  | .segments ss =>
    match ss.dropLast with
    | [] => .segments [[]]
    | d :: ds => .segments ((if isFile && isDriveLetter d then normalizeDrive d else d) :: ds ++ [[]])

end Federation.UrlPath
