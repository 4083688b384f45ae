/-!
# Shortest decimals

A binary floating-point number stands for the interval of reals that round to it. `shortest` gives the
decimal with the fewest digits in that interval and, of several, the one nearest to the number; an exact tie
goes to the even digit. All of it is exact arithmetic on the significand and the exponent.

`DoubleFormat` holds the decisions of a written form; `DoubleFormat.write` applies them.
-/

namespace Federation.Decimal

/-- A positive number `m * 2 ^ q`, with the fact whether the spacing below it is half the spacing above. -/
structure Binary where
  m : Nat
  q : Int
  narrowBelow : Bool

/-- A decimal `digits * 10 ^ exponent`. -/
structure Scaled where
  digits : Nat
  exponent : Int

/-- Numerator and denominator of `n * 2 ^ q`. -/
def ratio (n : Nat) (q : Int) : Nat × Nat :=
  if 0 ≤ q then (n * Nat.pow 2 q.toNat, 1) else (n, Nat.pow 2 (-q).toNat)

/-- The quotient of `num / den` by `10 ^ k` as a fraction. -/
def scaleDown (x : Nat × Nat) (k : Int) : Nat × Nat :=
  if 0 ≤ k then (x.1, x.2 * Nat.pow 10 k.toNat) else (x.1 * Nat.pow 10 (-k).toNat, x.2)

/-- The greatest `e` with `10 ^ e ≤ x`, searched downward from `e`. -/
def magnitude (x : Nat × Nat) : (fuel : Nat) → (e : Int) → Int
  | 0, e => e
  | fuel + 1, e => let (n, d) := scaleDown x e; if d ≤ n then e else magnitude x fuel (e - 1)

/-- The two grid points of `10 ^ k` around `b` that round to `b`, nearest first. -/
def candidate? (b : Binary) (k : Int) : Option Nat :=
  let (n, d) := scaleDown (ratio (4 * b.m) (b.q - 2)) k
  let (lo, loD) := scaleDown (ratio (4 * b.m - (if b.narrowBelow then 1 else 2)) (b.q - 2)) k
  let (hi, hiD) := scaleDown (ratio (4 * b.m + 2) (b.q - 2)) k
  let closed := b.m % 2 == 0
  let inside (c : Nat) : Bool :=
    (if closed then lo ≤ c * loD else lo < c * loD) && (if closed then c * hiD ≤ hi else c * hiD < hi)
  let down := n / d
  let up := down + 1
  let below := n - down * d
  let above := up * d - n
  match inside down && 0 < down, inside up with
  | true, true => if below < above || (below == above && down % 2 == 0) then some down else some up
  | true, false => some down
  | false, true => some up
  | false, false => none

/-- Tries grids of more and more digits until one has a point that reads back. -/
def search (b : Binary) (e : Int) : (fuel : Nat) → (count : Nat) → Scaled
  | 0, count => ⟨(ratio b.m b.q).1, e - count⟩
  | fuel + 1, count =>
    match candidate? b (e - count) with
    | some c => ⟨c, e - count⟩
    | none => search b e fuel (count + 1)

/-- Moves trailing zeros of the digits into the exponent. -/
def Scaled.strip (s : Scaled) : (fuel : Nat) → Scaled
  | 0 => s
  | fuel + 1 => if s.digits ≠ 0 ∧ s.digits % 10 = 0 then strip ⟨s.digits / 10, s.exponent + 1⟩ fuel else s

/-- The shortest decimal that rounds to `b`. -/
def shortest (b : Binary) : Scaled :=
  (search b (magnitude (ratio b.m b.q) 660 309) 18 0).strip 20

/-- Significand and exponent of a finite, nonzero double, given by its bits without the sign. -/
def Binary.ofBits (bits : Nat) : Binary :=
  let frac := bits % Nat.pow 2 52
  let exp : Nat := bits / Nat.pow 2 52 % Nat.pow 2 11
  if exp = 0 then ⟨frac, -1074, false⟩ else ⟨Nat.pow 2 52 + frac, Int.ofNat exp - 1075, frac == 0 && 1 < exp⟩

/-- The decisions of a written form of doubles. -/
structure DoubleFormat where
  /-- The most digits before the point in positional notation. -/
  maxWhole : Int
  /-- The most zeros after the point in positional notation. -/
  maxZeros : Int
  /-- What stands before a positive exponent. -/
  plus : List Char

/-- The digits of a natural number. -/
def digits (n : Nat) : List Char := Nat.toDigits 10 n

/-- Writes a finite double; zero keeps its sign, and positional notation always has a point. -/
def DoubleFormat.write (f : DoubleFormat) (x : Float) : List Char :=
  let bits := x.toBits.toNat
  let sign : List Char := if bits / Nat.pow 2 63 = 1 then ['-'] else []
  let bits := bits % Nat.pow 2 63
  if bits = 0 then sign ++ ['0', '.', '0']
  else
    let s := shortest (Binary.ofBits bits)
    let ds := digits s.digits
    let point : Int := ds.length + s.exponent
    let body : List Char :=
      if 0 ≤ s.exponent ∧ point ≤ f.maxWhole then ds ++ List.replicate s.exponent.toNat '0' ++ ['.', '0']
      else if 0 < point ∧ point ≤ f.maxWhole then ds.take point.toNat ++ '.' :: ds.drop point.toNat
      else if -f.maxZeros ≤ point ∧ point ≤ 0 then
        '0' :: '.' :: (List.replicate (-point).toNat '0' ++ ds)
      else
        let e := point - 1
        let tail := if e < 0 then '-' :: digits (-e).toNat else f.plus ++ digits e.toNat
        match ds with
        | [d] => d :: 'e' :: tail
        | d :: r => d :: '.' :: (r ++ 'e' :: tail)
        | [] => []
    sign ++ body

end Federation.Decimal
