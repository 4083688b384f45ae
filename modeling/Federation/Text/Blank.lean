/-!
# White space

`isBlankChar` is Unicode's `White_Space` property. Text is *blank* when it has nothing else, and trimming
removes the longest blank run at either end; both are defined on `List Char` and lifted to `String`.
Core's `Char.isWhitespace` knows four ASCII characters only, so it decides neither.
-/

namespace Federation

/-- Membership in Unicode's `White_Space` property. -/
def isBlankChar (c : Char) : Bool :=
  let n := c.val.toNat
  (0x09 ≤ n && n ≤ 0x0D) || n == 0x20 || n == 0x85 || n == 0xA0 || n == 0x1680 ||
    (0x2000 ≤ n && n ≤ 0x200A) || n == 0x2028 || n == 0x2029 || n == 0x202F || n == 0x205F || n == 0x3000

namespace Text

/-- Drops the longest suffix whose characters all satisfy `p`. -/
def dropEndWhile (p : Char → Bool) (s : List Char) : List Char :=
  (s.reverse.dropWhile p).reverse

/-- Drops blanks at the front. -/
def trimStart (s : List Char) : List Char := s.dropWhile isBlankChar

/-- Drops blanks at the end. -/
def trimEnd (s : List Char) : List Char := dropEndWhile isBlankChar s

/-- Drops blanks at both ends. -/
def trim (s : List Char) : List Char := trimEnd (trimStart s)

/-- Text without a visible character. -/
def isBlank (s : List Char) : Bool := s.all isBlankChar

end Text

/-- `s` without the blanks at its ends. -/
def trim (s : String) : String := String.ofList (Text.trim s.toList)

/-- Whether `s` is empty or white space only. -/
def isBlank (s : String) : Bool := Text.isBlank s.toList

/-- The trimmed text, unless nothing is left of it. -/
def nonBlank? (s : String) : Option String :=
  if isBlank s then none else some (trim s)

theorem nonBlank?_eq_some {s t : String} : nonBlank? s = some t ↔ isBlank s = false ∧ trim s = t := by
  unfold nonBlank?
  cases isBlank s <;> simp

end Federation
