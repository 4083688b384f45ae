import Federation.Text.Split

/-!
# Path texts

Paths as texts, taken apart without looking at any disk: names between slashes, where empty names and a `.`
after the first name mean nothing. The parts of a path keep their spelling, so that a message shows a path the
way its user wrote it.
-/

namespace Federation.Path

/-- The text between slashes. -/
abbrev Name := List Char

/-- Whether a path begins at the root. -/
def isAbsolute (p : List Char) : Bool := p.head? == some '/'

/-- The names of a path as they are written, empty ones included. -/
def rawNames (p : List Char) : List Name := Text.pieces (· == '/') p

/-- A name that stands for no step. -/
def isIdle (n : Name) : Bool := n.isEmpty || n == ['.']

/-- Drops idle names at the end of a (reversed) list of names, but never the first name. -/
def dropIdle : List Name → List Name
  | n :: m :: r => if isIdle n then dropIdle (m :: r) else n :: m :: r
  | r => r

/-- The text of a reversed list of names; one empty name is the root. -/
def textOf : List Name → List Char
  | [[]] => ['/']
  | ns => Text.join ['/'] ns.reverse

/-- The path without its last name; none for the root and the empty path. -/
def parent? (p : List Char) : Option (List Char) :=
  match dropIdle (rawNames p).reverse with
  | [] => none
  | [n] => if n.isEmpty then none else some []
  | _ :: r => some (textOf (dropIdle r))

/-- The last name, unless the path ends with `..` or has no name. -/
def fileName? (p : List Char) : Option Name :=
  match dropIdle (rawNames p).reverse with
  | n :: _ => if isIdle n || n == ['.', '.'] then none else some n
  | [] => none

/-- A path below another; an absolute one replaces it. -/
def join (p q : List Char) : List Char :=
  if isAbsolute q || p.isEmpty then q
  else if p.getLast? == some '/' then p ++ q
  else p ++ '/' :: q

/-- A name up to its last point and what follows it, unless that point is its first character. -/
def splitExtension (n : Name) : Name × Option Name :=
  match Text.splitLast '.' n with
  | some (c :: r, e) => (c :: r, some e)
  | _ => (n, none)

/-- What follows the last point of the last name. -/
def extension? (p : List Char) : Option Name := (fileName? p).bind fun n => (splitExtension n).2

/-- Puts an extension in the place of the last name's; a path without a last name stays as it is. -/
def setExtension (p ext : List Char) : List Char :=
  match fileName? p, dropIdle (rawNames p).reverse with
  | some n, _ :: r => Text.join ['/'] (((splitExtension n).1 ++ '.' :: ext) :: r).reverse
  | _, _ => p

/-- The path with another extension on its last name. The old extension is taken off first, so a name that is
only `..` before it is left without a name to extend. -/
def withExtension (p ext : List Char) : List Char :=
  setExtension (p.take (p.length - ((extension? p).getD []).length)) ext

/-- The path and all paths above it. -/
def ancestorsWithin : (fuel : Nat) → List Char → List (List Char)
  | 0, p => [p]
  | fuel + 1, p =>
    match parent? p with
    | none => [p]
    | some q => p :: ancestorsWithin fuel q

/-- The path and all paths above it, the nearest first. -/
def ancestors (p : List Char) : List (List Char) := ancestorsWithin p.length p

/-- The names of a path that are steps. -/
def names (p : List Char) : List Name :=
  match rawNames p with
  | [] => []
  | n :: r => (if n.isEmpty then [] else [n]) ++ r.filter fun n => !isIdle n

/-- The written names of a path behind those of a base; idle names before the next step are dropped. -/
def namesBelow? : (base written : List Name) → Option (List Name)
  | [], ns => some (ns.dropWhile isIdle)
  | _ :: _, [] => none
  | b :: bs, n :: ns =>
    if isIdle n then namesBelow? (b :: bs) ns else if b = n then namesBelow? bs ns else none

/-- The path seen from `base`, if it lies there. -/
def relativeTo? (base p : List Char) : Option (List Char) :=
  if base.isEmpty then some p
  else
    match isAbsolute base, isAbsolute p with
    | true, true => (namesBelow? (names base) (rawNames p)).map (Text.join ['/'])
    | false, false =>
      match names base, rawNames p with
      | b :: bs, n :: ns => if b = n then (namesBelow? bs ns).map (Text.join ['/']) else none
      | _, _ => none
    | _, _ => none

end Federation.Path
