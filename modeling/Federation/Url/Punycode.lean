/-!
# Punycode (RFC 3492)

A label with characters outside ASCII is written as its ASCII characters, a hyphen, and the positions and
values of the others as a string of base-36 digits of varying weight.
-/

namespace Federation.Punycode

/-- The digit of a value below 36: letters first. -/
def digit (n : Nat) : Char := if n < 26 then Char.ofNat (97 + n) else Char.ofNat (22 + n)

/-- The value of a digit in either case. -/
def digitValue? (c : Char) : Option Nat :=
  let n := c.toNat
  if 48 ≤ n ∧ n ≤ 57 then some (n - 22)
  else if 65 ≤ n ∧ n ≤ 90 then some (n - 65)
  else if 97 ≤ n ∧ n ≤ 122 then some (n - 97)
  else none

/-- Shrinks a delta until it fits the last digit, counting the steps. -/
def shrink : (fuel : Nat) → (delta k : Nat) → Nat × Nat
  | 0, delta, k => (delta, k)
  | fuel + 1, delta, k => if 455 < delta then shrink fuel (delta / 35) (k + 36) else (delta, k)

/-- The bias after a delta over `points` handled points. -/
def adapt (delta points : Nat) (first : Bool) : Nat :=
  let delta := if first then delta / 700 else delta / 2
  let delta := delta + delta / points
  let (delta, k) := shrink delta delta 0
  k + 36 * delta / (delta + 38)

/-- The threshold of the digit at position `k`. -/
def threshold (k bias : Nat) : Nat := if k ≤ bias then 1 else if bias + 26 ≤ k then 26 else k - bias

/-- The digits of a delta, the first one at position `k`. -/
def integerDigits (bias : Nat) : (fuel : Nat) → (q k : Nat) → List Char
  | 0, q, _ => [digit q]
  | fuel + 1, q, k =>
    let t := threshold k bias
    if q < t then [digit q] else digit (t + (q - t) % (36 - t)) :: integerDigits bias fuel ((q - t) / (36 - t)) (k + 36)

/-- Handles all occurrences of the code point `n`: `h` points are handled, `bias` and `delta` are the state. -/
def encodePoint (n : Nat) (b : Nat) : (h bias delta : Nat) → List Nat → List Char × Nat × Nat × Nat
  | h, bias, delta, [] => ([], h, bias, delta)
  | h, bias, delta, c :: cs =>
    if c < n then encodePoint n b h bias (delta + 1) cs
    else if c = n then
      let ds := integerDigits bias delta delta 36
      let (r, st) := encodePoint n b (h + 1) (adapt delta (h + 1) (h == b)) 0 cs
      (ds ++ r, st)
    else encodePoint n b h bias delta cs

/-- Handles the code points of a rising list, `n` being the one expected next. -/
def encodeRest (input : List Nat) (b : Nat) : (points : List Nat) → (n h bias delta : Nat) → List Char
  | [], _, _, _, _ => []
  | m :: ms, n, h, bias, delta =>
    let (out, h', bias', delta') := encodePoint m b h bias (delta + (m - n) * (h + 1)) input
    out ++ encodeRest input b ms (m + 1) h' bias' (delta' + 1)

/-- Puts a number into a rising list, once. -/
def insertPoint (n : Nat) : List Nat → List Nat
  | [] => [n]
  | m :: ms => if n < m then n :: m :: ms else if n = m then m :: ms else m :: insertPoint n ms

/-- The encoded form of a label. -/
def encode (s : List Char) : List Char :=
  let input := s.map Char.toNat
  let basic := s.filter fun c => decide (c.toNat < 0x80)
  let rising := (input.filter fun n => decide (0x80 ≤ n)).foldl (fun acc n => insertPoint n acc) []
  let b := basic.length
  basic ++ (if b = 0 then [] else ['-']) ++ encodeRest input b rising 0x80 b 72 0

/-- Reads one delta: the digits from position `k` on, with weight `w`. -/
def readInteger (bias : Nat) : (i w k : Nat) → List Char → Option (Nat × List Char)
  | _, _, _, [] => none
  | i, w, k, c :: cs => do
    let d ← digitValue? c
    let i := i + d * w
    let t := threshold k bias
    if d < t then pure (i, cs) else readInteger bias i (w * (36 - t)) (k + 36) cs

/-- Inserts points until the digits are used up. -/
def decodeRest : (fuel : Nat) → (n i bias : Nat) → (out : List Nat) → List Char → Option (List Nat)
  | _, _, _, _, out, [] => some out
  | 0, _, _, _, _, _ => none
  | fuel + 1, n, i, bias, out, cs => do
    let (i', rest) ← readInteger bias i 1 36 cs
    let len := out.length + 1
    let bias' := adapt (i' - i) len (i == 0)
    let n' := n + i' / len
    let at' := i' % len
    if 0x10FFFF < n' ∨ (0xD800 ≤ n' ∧ n' < 0xE000) then none
    else decodeRest fuel n' (at' + 1) bias' (out.take at' ++ n' :: out.drop at') rest

/-- The parts before and after the last hyphen; without one, everything is after it. -/
def splitHyphen (s : List Char) : List Char × List Char :=
  let back := s.reverse
  let tail := back.takeWhile (· ≠ '-')
  if tail.length = s.length then ([], s) else ((back.drop (tail.length + 1)).reverse, tail.reverse)

/-- The label that an encoded form stands for. -/
def decode? (s : List Char) : Option (List Char) := do
  let (basic, ext) := splitHyphen s
  if basic.all fun c => decide (c.toNat < 0x80) then
    let ns ← decodeRest (ext.length + 1) 0x80 0 72 (basic.map Char.toNat) ext
    pure (ns.map Char.ofNat)
  else none

end Federation.Punycode
