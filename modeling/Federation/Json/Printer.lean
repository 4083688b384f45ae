import Federation.Decimal.Shortest
import Federation.Json.Value
import Federation.Text.Percent

/-!
# Writing JSON

`Json.compact` writes without blanks, `Json.pretty` with a line per member and two blanks per level. Text
outside ASCII is written as it is; of the control characters, five have short escapes and the others are
written with four hexadecimal digits.
-/

namespace Federation.Json

/-- Doubles are positional with at most 16 digits before the point and at most four zeros after it. -/
def doubleFormat : Decimal.DoubleFormat := ⟨16, 4, ['+']⟩

/-- The hexadecimal digit of a value below 16, in lower case. -/
def hexDigit (n : Nat) : Char :=
  if n < 10 then Char.ofNat (48 + n) else Char.ofNat (87 + n)

/-- A character inside a quoted string. -/
def escapeChar (c : Char) : List Char :=
  if c = '"' then ['\\', '"']
  else if c = '\\' then ['\\', '\\']
  else if c = '\x08' then ['\\', 'b']
  else if c = '\x0c' then ['\\', 'f']
  else if c = '\n' then ['\\', 'n']
  else if c = '\r' then ['\\', 'r']
  else if c = '\t' then ['\\', 't']
  else if c.toNat < 0x20 then ['\\', 'u', '0', '0', hexDigit (c.toNat / 16), hexDigit (c.toNat % 16)]
  else [c]

/-- A quoted string. -/
def quote (s : List Char) : List Char := '"' :: (s.flatMap escapeChar ++ ['"'])

/-- A whole number in decimal. -/
def intText (z : Int) : List Char :=
  if z < 0 then '-' :: Decimal.digits z.natAbs else Decimal.digits z.natAbs

/-- A number. -/
def numberText : JsonNumber → List Char
  | .int z => intText z
  | .float x => doubleFormat.write x

mutual

/-- Writes a value without blanks. -/
def compact : Json → List Char
  | null => ['n', 'u', 'l', 'l']
  | bool true => ['t', 'r', 'u', 'e']
  | bool false => ['f', 'a', 'l', 's', 'e']
  | number n => numberText n
  | string s => quote s.toList
  | array [] => ['[', ']']
  | array (x :: xs) => '[' :: (compact x ++ compactElements xs)
  | object [] => ['\x7b', '\x7d']
  | object (m :: ms) => '\x7b' :: (quote m.1.toList ++ ':' :: (compact m.2 ++ compactMembers ms))

/-- Writes the elements after the first one, and the closing bracket. -/
def compactElements : List Json → List Char
  | [] => [']']
  | x :: xs => ',' :: (compact x ++ compactElements xs)

/-- Writes the members after the first one, and the closing brace. -/
def compactMembers : List (String × Json) → List Char
  | [] => ['\x7d']
  | m :: ms => ',' :: (quote m.1.toList ++ ':' :: (compact m.2 ++ compactMembers ms))

end

/-- A new line at a level of nesting. -/
def newline (level : Nat) : List Char := '\n' :: List.replicate (2 * level) ' '

mutual

/-- Writes a value at a level of nesting, a line per element and member. -/
def prettyAt (level : Nat) : Json → List Char
  | array (x :: xs) => '[' :: (newline (level + 1) ++ prettyAt (level + 1) x ++ prettyElements level xs)
  | object (m :: ms) =>
    '\x7b' :: (newline (level + 1) ++ quote m.1.toList ++ ':' :: ' ' :: prettyAt (level + 1) m.2 ++
      prettyMembers level ms)
  | array [] => ['[', ']']
  | object [] => ['\x7b', '\x7d']
  | null => ['n', 'u', 'l', 'l']
  | bool true => ['t', 'r', 'u', 'e']
  | bool false => ['f', 'a', 'l', 's', 'e']
  | number n => numberText n
  | string s => quote s.toList

/-- Writes the elements after the first one, and the closing bracket on its own line. -/
def prettyElements (level : Nat) : List Json → List Char
  | [] => newline level ++ [']']
  | x :: xs => ',' :: (newline (level + 1) ++ prettyAt (level + 1) x ++ prettyElements level xs)

/-- Writes the members after the first one, and the closing brace on its own line. -/
def prettyMembers (level : Nat) : List (String × Json) → List Char
  | [] => newline level ++ ['\x7d']
  | m :: ms =>
    ',' :: (newline (level + 1) ++ quote m.1.toList ++ ':' :: ' ' :: prettyAt (level + 1) m.2 ++
      prettyMembers level ms)

end

/-- The text of a value on one line. -/
def render (j : Json) : String := String.ofList (compact j)

/-- The text of a value with a line per member. -/
def pretty (j : Json) : String := String.ofList (prettyAt 0 j)

end Federation.Json
