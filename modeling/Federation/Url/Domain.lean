import Federation.Text.Split
import Federation.Text.Utf8
import Federation.Unicode.Composition
import Federation.Unicode.HostMapping
import Federation.Url.Punycode

/-!
# Domain names

`Domain.toAscii?` gives the ASCII form of a domain name: it is mapped (UTS #46, without the transitional
rules), composed, checked label by label, and each label outside ASCII is written in Punycode after `xn--`.
A name that cannot be written that way, or that then holds a character forbidden in hosts, has none.
-/

namespace Federation.Domain

/-- The ASCII characters that no host may hold. -/
def isForbidden (c : Char) : Bool :=
  c.toNat ≤ 0x20 || c == '#' || c == '/' || c == ':' || c == '<' || c == '>' || c == '?' || c == '@' ||
    c == '[' || c == '\\' || c == ']' || c == '^' || c == '|' || c == '%' || c.toNat == 0x7F

def isAscii (c : Char) : Bool := c.toNat < 0x80

/-- The mapped form of a character; none if it is not allowed. -/
def image? (c : Char) : Option (List Char) :=
  if isAscii c then some [c.toLower]
  else if Unicode.disallowed.contains c then none
  else some (Unicode.hostImage c)

/-- A character that stands for itself. -/
def isValid (c : Char) : Bool :=
  if isAscii c then !isForbidden c && c.toLower == c
  else !Unicode.disallowed.contains c && Unicode.hostImage c == [c]

/-- The two invisible joiners. -/
def isJoiner (c : Char) : Bool := c == '\u200C' || c == '\u200D'

/-- Joiners stand only after a virama. -/
def joinersOk : (before : Option Char) → List Char → Bool
  | _, [] => true
  | before, c :: r =>
    (!isJoiner c || (before.map fun b => Unicode.markClass b.toNat == 9).getD false) && joinersOk (some c) r

/-- Whether a label in Unicode may stand in a name. -/
def labelOk (s : List Char) : Bool :=
  s.all isValid && joinersOk none s && !(s.head?.map Unicode.marks.contains).getD false

/-- The ASCII form of a mapped label. -/
def labelToAscii? (s : List Char) : Option (List Char) :=
  match Text.dropPrefix? ['x', 'n', '-', '-'] s with
  | some enc =>
    if !enc.all isAscii then none
    else
      match Punycode.decode? enc with
      | some u =>
        if u.all isAscii || !labelOk u || Unicode.normalize u != u || Punycode.encode u != enc then none else some s
      | none => none
  | none =>
    if s.all isAscii then if s.any isForbidden then none else some s
    else if labelOk s then some ('x' :: 'n' :: '-' :: '-' :: Punycode.encode s)
    else none

/-- The ASCII form of a domain name. -/
def toAscii? (s : List Char) : Option (List Char) := do
  let images ← s.mapM image?
  let labels := Text.pieces (· == '.') (if s.all isAscii then images.flatten else Unicode.normalize images.flatten)
  let labels ← labels.mapM labelToAscii?
  pure (Text.join ['.'] labels)

/-- The ASCII form of a domain name given by octets, which must be UTF-8. -/
def ofOctets? (bs : List UInt8) : Option (List Char) := (Utf8.decode? bs).bind toAscii?

end Federation.Domain
