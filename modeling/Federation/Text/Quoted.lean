import Federation.Unicode.Hidden

/-!
# Quoted text

Messages quote paths and names so that nothing in them is invisible: between double quotes, with short
escapes for a quote, a backslash and four controls, and `\u` with the number in braces for every other
hidden character.
-/

namespace Federation.Text

/-- The lower-case hexadecimal digits of a number. -/
def hexText (n : Nat) : List Char := Nat.toDigits 16 n

/-- A character between quotes. -/
def quotedChar (c : Char) : List Char :=
  if c = '"' then ['\\', '"']
  else if c = '\\' then ['\\', '\\']
  else if c = '\t' then ['\\', 't']
  else if c = '\r' then ['\\', 'r']
  else if c = '\n' then ['\\', 'n']
  else if c = '\x00' then ['\\', '0']
  else if Unicode.hidden.contains c then '\\' :: 'u' :: '\x7b' :: (hexText c.toNat ++ ['\x7d'])
  else [c]

end Federation.Text

namespace Federation

/-- A text between double quotes, with everything invisible made visible. -/
def quoted (s : String) : String := String.ofList ('"' :: (s.toList.flatMap Text.quotedChar ++ ['"']))

end Federation
