import Federation.Json.Value
import Federation.Text.Percent

/-!
# Reading JSON text

Reading has two steps. `JsonSyntax.parse?` checks the grammar and keeps everything as it was written: each
repeated member, each number's digits, nesting of any depth. What is then made of the syntax depends on the
reader: an untyped value (`JsonSyntax.value?`, with its limits on nesting and on the size of numbers) or a
record with known fields, which looks only at the members it knows.

A string whose escapes hold half of a surrogate pair obeys the grammar but has no text; it is kept as `none`
and refused by whoever needs its text.
-/

namespace Federation

/-- A number as written: the digits of its parts, the exponent with the fact whether it is negative. -/
structure NumberSyntax where
  negative : Bool
  whole : List Char
  fraction : List Char
  exponent : Option (Bool × List Char)
deriving DecidableEq

/-- A JSON text's structure, before any reading of it as a value. -/
inductive JsonSyntax where
  | null
  | bool (b : Bool)
  | number (n : NumberSyntax)
  | string (s : Option String)
  | array (elements : List JsonSyntax)
  | object (members : List (Option String × JsonSyntax))

namespace JsonSyntax

/-- The four characters that may stand between the parts of a JSON text. -/
def isSpace (c : Char) : Bool := c == ' ' || c == '\n' || c == '\t' || c == '\r'

def skipSpace (s : List Char) : List Char := s.dropWhile isSpace

/-- A part of a quoted string: a character, or the code unit of a `\u` escape. -/
inductive Unit16 where
  | char (c : Char)
  | code (n : Nat)

/-- Joins surrogate pairs; half a pair has no text. -/
def textOfUnits : List Unit16 → Option (List Char)
  | [] => some []
  | .char c :: r => (textOfUnits r).map (c :: ·)
  | .code a :: r =>
    if 0xD800 ≤ a ∧ a < 0xDC00 then
      match r with
      | .code b :: r' =>
        if 0xDC00 ≤ b ∧ b < 0xE000 then
          (textOfUnits r').map (Char.ofNat (0x10000 + (a - 0xD800) * 0x400 + (b - 0xDC00)) :: ·)
        else none
      | _ => none
    else if 0xDC00 ≤ a ∧ a < 0xE000 then none
    else (textOfUnits r).map (Char.ofNat a :: ·)

/-- The character of a one-letter escape. -/
def shortEscape? : Char → Option Char
  | '"' => some '"'
  | '\\' => some '\\'
  | '/' => some '/'
  | 'b' => some '\x08'
  | 'f' => some '\x0c'
  | 'n' => some '\n'
  | 'r' => some '\r'
  | 't' => some '\t'
  | _ => none

/-- The value of four hexadecimal digits. -/
def hex4? (a b c d : Char) : Option Nat := do
  let a ← Percent.hexValue? a
  let b ← Percent.hexValue? b
  let c ← Percent.hexValue? c
  let d ← Percent.hexValue? d
  pure (((a * 16 + b) * 16 + c) * 16 + d)

/-- The rest of a quoted string after its opening quote, and what follows the closing one. -/
def units? : List Char → Option (List Unit16 × List Char)
  | [] => none
  | '"' :: r => some ([], r)
  | '\\' :: 'u' :: a :: b :: c :: d :: r => do
    let n ← hex4? a b c d
    let (us, rest) ← units? r
    pure (.code n :: us, rest)
  | '\\' :: e :: r => do
    let c ← shortEscape? e
    let (us, rest) ← units? r
    pure (.char c :: us, rest)
  | c :: r =>
    if c.toNat < 0x20 ∨ c = '\\' then none
    else do
      let (us, rest) ← units? r
      pure (.char c :: us, rest)

/-- A quoted string after its opening quote. -/
def quoted? (s : List Char) : Option (Option String × List Char) :=
  (units? s).map fun (us, r) => ((textOfUnits us).map String.ofList, r)

/-- The longest run of digits in front. -/
def spanDigits (s : List Char) : List Char × List Char :=
  (s.takeWhile Char.isDigit, s.dropWhile Char.isDigit)

/-- The whole part: a zero alone, or digits that do not begin with zero. -/
def whole? (s : List Char) : Option (List Char × List Char) :=
  match spanDigits s with
  | ([], _) => none
  | ('0' :: _ :: _, _) => none
  | (ds, r) => some (ds, r)

/-- The fraction, if a point follows; a point needs a digit after it. -/
def fraction? : List Char → Option (List Char × List Char)
  | '.' :: s =>
    match spanDigits s with
    | ([], _) => none
    | (ds, r) => some (ds, r)
  | s => some ([], s)

/-- The sign of an exponent. -/
def exponentSign : List Char → Bool × List Char
  | '-' :: r => (true, r)
  | '+' :: r => (false, r)
  | r => (false, r)

/-- The exponent, if `e` or `E` follows; it needs a digit. -/
def exponent? (s : List Char) : Option (Option (Bool × List Char) × List Char) :=
  match s with
  | c :: r =>
    if c = 'e' ∨ c = 'E' then
      let (neg, r) := exponentSign r
      match spanDigits r with
      | ([], _) => none
      | (ds, r) => some (some (neg, ds), r)
    else some (none, s)
  | [] => some (none, [])

/-- A number at the front of the text. -/
def number? (negative : Bool) (s : List Char) : Option (JsonSyntax × List Char) := do
  let (w, s) ← whole? s
  let (f, s) ← fraction? s
  let (e, s) ← exponent? s
  pure (number ⟨negative, w, f, e⟩, s)

mutual

/-- A value at the front of the text, which begins without a blank. -/
def parseValue : (fuel : Nat) → List Char → Option (JsonSyntax × List Char)
  | 0, _ => none
  | _ + 1, 'n' :: 'u' :: 'l' :: 'l' :: r => some (null, r)
  | _ + 1, 't' :: 'r' :: 'u' :: 'e' :: r => some (bool true, r)
  | _ + 1, 'f' :: 'a' :: 'l' :: 's' :: 'e' :: r => some (bool false, r)
  | _ + 1, '"' :: r => (quoted? r).map fun (s, r) => (string s, r)
  | fuel + 1, '[' :: r =>
    match skipSpace r with
    | ']' :: r => some (array [], r)
    | r => (parseElements fuel r).map fun (xs, r) => (array xs, r)
  | fuel + 1, '\x7b' :: r =>
    match skipSpace r with
    | '\x7d' :: r => some (object [], r)
    | r => (parseMembers fuel r).map fun (ms, r) => (object ms, r)
  | _ + 1, '-' :: r => number? true r
  | _ + 1, r => number? false r

/-- The elements of an array that has some, up to its closing bracket. -/
def parseElements : (fuel : Nat) → List Char → Option (List JsonSyntax × List Char)
  | 0, _ => none
  | fuel + 1, s => do
    let (x, s) ← parseValue fuel s
    match skipSpace s with
    | ']' :: r => pure ([x], r)
    | ',' :: r => do
      let (xs, r) ← parseElements fuel (skipSpace r)
      pure (x :: xs, r)
    | _ => none

/-- The members of an object that has some, up to its closing brace. -/
def parseMembers : (fuel : Nat) → List Char → Option (List (Option String × JsonSyntax) × List Char)
  | 0, _ => none
  | fuel + 1, s =>
    match s with
    | '"' :: s => do
      let (k, s) ← quoted? s
      match skipSpace s with
      | ':' :: s => do
        let (x, s) ← parseValue fuel (skipSpace s)
        match skipSpace s with
        | '\x7d' :: r => pure ([(k, x)], r)
        | ',' :: r => do
          let (ms, r) ← parseMembers fuel (skipSpace r)
          pure ((k, x) :: ms, r)
        | _ => none
      | _ => none
    | _ => none

end

/-- The syntax of a whole text: one value, with blanks around it. Each step of the fuel takes at least one
character, so the length of the text is enough. -/
def parse? (s : List Char) : Option JsonSyntax := do
  let (x, r) ← parseValue (s.length + 1) (skipSpace s)
  if (skipSpace r).isEmpty then pure x else none

end JsonSyntax

namespace NumberSyntax

/-- The greatest value of 64 bits. -/
def maxWord : Nat := Nat.pow 2 64 - 1

/-- Appends digits to `n` as long as the result fits 64 bits; gives how many were taken and the rest. -/
def accumulate (n : Nat) : (taken : Nat) → List Char → Nat × Nat × List Char
  | taken, [] => (n, taken, [])
  | taken, d :: ds =>
    let n' := n * 10 + (d.toNat - 48)
    if n' ≤ maxWord then accumulate n' (taken + 1) ds else (n, taken, d :: ds)

/-- The power of ten as a double. -/
def power (n : Nat) : Float := Float.ofScientific 1 false n

/-- `x * 10 ^ e` by one multiplication or by divisions; none if it exceeds every double. -/
def scale (x : Float) : (fuel : Nat) → (e : Int) → Option Float
  | 0, _ => some x
  | fuel + 1, e =>
    if e.natAbs ≤ 308 then
      if 0 ≤ e then
        let y := x * power e.natAbs
        if y.isInf then none else some y
      else some (x / power e.natAbs)
    else if x == 0 then some x
    else if 0 ≤ e then none
    else scale (x / power 308) fuel (e + 308)

/-- The greatest exponent that is looked at digit by digit. -/
def maxExponent : Nat := Nat.pow 2 31 - 1

/-- The value of a number, if it is in range. A whole number of 64 bits is exact; any other number takes
its leading digits that fit 64 bits and scales them in double arithmetic, and negative zero is a double. -/
def value? (n : NumberSyntax) : Option JsonNumber :=
  let (sig, _, restWhole) := accumulate 0 0 n.whole
  let signed (x : Float) : JsonNumber := .float (if n.negative then -x else x)
  match restWhole, n.fraction, n.exponent with
  | [], [], none =>
    if !n.negative then some (.int sig)
    else if sig = 0 ∨ Nat.pow 2 63 < sig then some (signed (UInt64.ofNat sig).toFloat)
    else some (.int (-sig))
  | restWhole, fraction, exponent =>
    let (sig, taken, _) := accumulate sig 0 fraction
    let e : Int := (restWhole.length : Int) - taken
    let x := (UInt64.ofNat sig).toFloat
    match exponent with
    | none => (scale x (e.natAbs + 1) e).map signed
    | some (neg, ds) =>
      let p := ds.foldl (fun p d => min (p * 10 + (d.toNat - 48)) (maxExponent + 1)) 0
      if maxExponent < p then
        if sig ≠ 0 ∧ !neg then none else some (signed 0)
      else
        let e := if neg then e - p else e + p
        (scale x (min e.natAbs 4000 + 1) e).map signed

end NumberSyntax

namespace JsonSyntax

mutual

/-- The value of a text whose nesting is at most `depth`. A repeated member keeps its first place and its
last value. -/
def valueWithin : (depth : Nat) → JsonSyntax → Option Json
  | _, null => some .null
  | _, bool b => some (.bool b)
  | _, number n => n.value?.map .number
  | _, string s => s.map .string
  | 0, array _ => none
  | 0, object _ => none
  | depth + 1, array xs => (elementsWithin depth xs).map .array
  | depth + 1, object ms => (membersWithin depth [] ms).map .object

def elementsWithin : (depth : Nat) → List JsonSyntax → Option (List Json)
  | _, [] => some []
  | depth, x :: xs => do
    let v ← valueWithin depth x
    let vs ← elementsWithin depth xs
    pure (v :: vs)

def membersWithin : (depth : Nat) → List (String × Json) → List (Option String × JsonSyntax) →
    Option (List (String × Json))
  | _, acc, [] => some acc
  | depth, acc, m :: ms => do
    let k ← m.1
    let v ← valueWithin depth m.2
    membersWithin depth (Json.setMember k v acc) ms

end

/-- The deepest nesting of an untyped value. -/
def maxDepth : Nat := 127

/-- The untyped value of a text. -/
def value? (s : JsonSyntax) : Option Json := valueWithin maxDepth s

end JsonSyntax

/-- Reads a text as an untyped value. -/
def Json.parse? (s : String) : Option Json := (JsonSyntax.parse? s.toList).bind JsonSyntax.value?

end Federation
