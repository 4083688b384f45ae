import Federation.Text.Utf8

/-!
# Percent-encoding

An octet is written as `%` and two upper-case hexadecimal digits. Which characters are written that way is
a set, passed as a predicate on `Char`; a character outside ASCII is always encoded, octet by octet of its
UTF-8 form.
-/

namespace Federation.Percent

/-- The hexadecimal digit of a value below 16, in upper case. -/
def hexDigit (n : Nat) : Char :=
  if n < 10 then Char.ofNat (48 + n) else Char.ofNat (55 + n)

/-- The value of a hexadecimal digit in either case. -/
def hexValue? (c : Char) : Option Nat :=
  let n := c.toNat
  if 48 ≤ n ∧ n ≤ 57 then some (n - 48)
  else if 65 ≤ n ∧ n ≤ 70 then some (n - 55)
  else if 97 ≤ n ∧ n ≤ 102 then some (n - 87)
  else none

/-- The written form of one octet. -/
def escape (b : UInt8) : List Char := ['%', hexDigit (b.toNat / 16), hexDigit (b.toNat % 16)]

/-- One character, escaped if it is in the set `inSet` or not ASCII. -/
def encodeChar (inSet : Char → Bool) (c : Char) : List Char :=
  if c.toNat < 0x80 && !inSet c then [c] else (String.utf8EncodeChar c).flatMap escape

/-- A text with every character of `inSet`, and every character outside ASCII, escaped. -/
def encode (inSet : Char → Bool) (s : List Char) : List Char := s.flatMap (encodeChar inSet)

/-- The octets of a text after its escapes are undone; a `%` without two digits stands for itself. -/
def decodeOctets : List Char → List UInt8
  | [] => []
  | '%' :: h :: l :: r =>
    match hexValue? h, hexValue? l with
    | some a, some b => UInt8.ofNat (a * 16 + b) :: decodeOctets r
    | _, _ => 0x25 :: decodeOctets (h :: l :: r)
  | c :: r => String.utf8EncodeChar c ++ decodeOctets r

/-- The characters that a URL component keeps: letters, digits, and `-_.~`. -/
def isUnreserved (c : Char) : Bool := c.isAlphanum || c == '-' || c == '_' || c == '.' || c == '~'

/-- A text as one component of a URL. -/
def encodeComponent (s : List Char) : List Char := encode (fun c => !isUnreserved c) s

end Federation.Percent
