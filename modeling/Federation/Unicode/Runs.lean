import Federation.Text.Split

/-!
# Tables of code points

A set of code points is written as the lengths of its alternating runs: so many outside, so many inside, and
so on from U+0000; what follows the last run is outside. A table of records is written as groups of numbers,
the numbers of one group joined by points. All numbers are hexadecimal.
-/

namespace Federation.Unicode

/-- The value of a lower-case hexadecimal digit. -/
def digitValue (c : Char) : Nat := if c.toNat < 58 then c.toNat - 48 else c.toNat - 87

/-- The number that hexadecimal digits mean. -/
def hexNumber (s : List Char) : Nat := s.foldl (fun n c => n * 16 + digitValue c) 0

/-- The groups of numbers in a table's text; blanks and line breaks stand between groups. -/
def groups (text : String) : List (List Nat) :=
  let words := (Text.pieces (fun c => c == ' ' || c == '\n') text.toList).filter fun w => !w.isEmpty
  words.map fun w => (Text.pieces (· == '.') w).map hexNumber

/-- A set of code points as alternating run lengths. -/
structure RunSet where
  runs : List Nat

/-- Reads a set from its text. -/
def RunSet.ofText (text : String) : RunSet := ⟨(groups text).map fun g => g.headD 0⟩

/-- Whether the code point that lies `n` after the start of the first run is in the set. -/
def RunSet.scan (n : Nat) : (inside : Bool) → List Nat → Bool
  | _, [] => false
  | inside, r :: rs => if n < r then inside else scan (n - r) (!inside) rs

/-- Membership of a character. -/
def RunSet.contains (s : RunSet) (c : Char) : Bool := RunSet.scan c.toNat false s.runs

end Federation.Unicode
