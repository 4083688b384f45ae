/-!
# Timestamps (RFC 3339)

An instant is counted in seconds since 1970 and nanoseconds; nanoseconds from 10⁹ on belong to a leap second.
It is written in UTC with milliseconds, the rest cut off. Years outside 0..9999 carry a sign.
-/

namespace Federation

/-- An instant in UTC. -/
structure Instant where
  seconds : Int
  nanos : Nat
deriving DecidableEq

namespace Instant

/-- Year, month and day of a day counted from 1970-01-01, by eras of 400 years that begin in March. -/
def civil (day : Int) : Int × Nat × Nat :=
  let z := day + 719468
  let era := Int.fdiv z 146097
  let doe := (z - era * 146097).toNat
  let yoe := (doe - doe / 1460 + doe / 36524 - doe / 146096) / 365
  let doy := doe - (365 * yoe + yoe / 4 - yoe / 100)
  let mp := (5 * doy + 2) / 153
  let d := doy - (153 * mp + 2) / 5 + 1
  let m := if mp < 10 then mp + 3 else mp - 9
  let y : Int := yoe + era * 400 + (if m ≤ 2 then 1 else 0)
  (y, m, d)

/-- A number with zeros in front up to a width. -/
def padded (width n : Nat) : String :=
  let ds := Nat.toDigits 10 n
  String.ofList (List.replicate (width - ds.length) '0' ++ ds)

/-- A year; outside 0..9999 it has a sign and at least four digits. -/
def yearText (y : Int) : String :=
  if 0 ≤ y ∧ y ≤ 9999 then padded 4 y.toNat
  else (if y < 0 then "-" else "+") ++ padded 4 y.natAbs

/-- The written form. -/
def text (t : Instant) : String :=
  let day := Int.fdiv t.seconds 86400
  let s := (t.seconds - day * 86400).toNat
  let (y, m, d) := civil day
  let leap := t.nanos / 1000000000
  let millis := t.nanos % 1000000000 / 1000000
  yearText y ++ "-" ++ padded 2 m ++ "-" ++ padded 2 d ++ "T" ++ padded 2 (s / 3600) ++ ":" ++
    padded 2 (s / 60 % 60) ++ ":" ++ padded 2 (s % 60 + leap) ++ "." ++ padded 3 millis ++ "Z"

end Instant

end Federation
