/-!
# UTF-8

Encoding of text to octets, and the two ways back: `decode?` accepts well-formed octets only, `decodeLossy`
puts U+FFFD for each maximal ill-formed part, as the Unicode standard recommends (chapter 3, "U+FFFD
substitution of maximal subparts").
-/

namespace Federation.Utf8

/-- The octets of a text. -/
def encode (s : List Char) : List UInt8 := s.flatMap String.utf8EncodeChar

/-- What a first octet announces: how many octets follow, the bits it carries, and the range of the second. -/
def lead? (b : UInt8) : Option (Nat × Nat × Nat × Nat) :=
  let n := b.toNat
  if n < 0x80 then some (0, n, 0, 0)
  else if n < 0xC2 then none
  else if n < 0xE0 then some (1, n - 0xC0, 0x80, 0xBF)
  else if n = 0xE0 then some (2, 0, 0xA0, 0xBF)
  else if n = 0xED then some (2, 0xD, 0x80, 0x9F)
  else if n < 0xF0 then some (2, n - 0xE0, 0x80, 0xBF)
  else if n = 0xF0 then some (3, 0, 0x90, 0xBF)
  else if n < 0xF4 then some (3, n - 0xF0, 0x80, 0xBF)
  else if n = 0xF4 then some (3, 4, 0x80, 0x8F)
  else none

/-- Reads up to `k` continuation octets onto `acc`, the first of them in `lo..hi`; gives the code point
if all are there, and what is left either way. -/
def tail : (k acc lo hi : Nat) → List UInt8 → Option Nat × List UInt8
  | 0, acc, _, _, bs => (some acc, bs)
  | _ + 1, _, _, _, [] => (none, [])
  | k + 1, acc, lo, hi, b :: bs =>
    if lo ≤ b.toNat ∧ b.toNat ≤ hi then tail k (acc * 64 + b.toNat % 64) 0x80 0xBF bs else (none, b :: bs)

theorem tail_length (k acc lo hi : Nat) (bs : List UInt8) : (tail k acc lo hi bs).2.length ≤ bs.length := by
  fun_induction tail k acc lo hi bs with
  | case1 => simp
  | case2 => simp
  | case3 k acc lo hi b bs h ih => exact Nat.le_succ_of_le ih
  | case4 => simp

/-- The next character, or none for a maximal ill-formed part, and the octets after it. -/
def next (b : UInt8) (bs : List UInt8) : Option Char × List UInt8 :=
  match lead? b with
  | none => (none, bs)
  | some (k, acc, lo, hi) =>
    let (n, rest) := tail k acc lo hi bs
    (n.map Char.ofNat, rest)

theorem next_length (b : UInt8) (bs : List UInt8) : (next b bs).2.length ≤ bs.length := by
  rw [next]
  split
  · simp
  · exact tail_length ..

/-- The text that well-formed octets encode. -/
def decode? : List UInt8 → Option (List Char)
  | [] => some []
  | b :: bs =>
    match _h : next b bs with
    | (none, _) => none
    | (some c, rest) => (decode? rest).map (c :: ·)
termination_by bs => bs.length
decreasing_by
  have := next_length b bs
  rw [_h] at this
  exact Nat.lt_succ_of_le this

/-- The text of any octets, with U+FFFD for every ill-formed part. -/
def decodeLossy : List UInt8 → List Char
  | [] => []
  | b :: bs =>
    match _h : next b bs with
    | (c, rest) => c.getD '\uFFFD' :: decodeLossy rest
termination_by bs => bs.length
decreasing_by
  have := next_length b bs
  rw [_h] at this
  exact Nat.lt_succ_of_le this

end Federation.Utf8
