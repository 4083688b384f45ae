import Federation.Url.Basic
import Federation.Url.Domain

/-!
# Parsing hosts

The host of a special scheme is a domain name, an IPv4 address in any of its spellings, or an IPv6 address in
brackets; of any other scheme, an IPv6 address or text that is kept as it is.
-/

namespace Federation.UrlHost

/-- The value of a text of digits in a base, if every character is one. -/
def natInBase? (base : Nat) (s : List Char) : Option Nat :=
  s.foldl (fun acc c => do
    let n ← acc
    let d ← Percent.hexValue? c
    if d < base then pure (n * base + d) else none) (some 0)

/-- One number of an IPv4 address: decimal, octal after `0`, hexadecimal after `0x`. -/
def ipv4Number? (s : List Char) : Option Nat :=
  match s with
  | [] => none
  | '0' :: 'x' :: r => natInBase? 16 r
  | '0' :: 'X' :: r => natInBase? 16 r
  | '0' :: c :: r => natInBase? 8 (c :: r)
  | s => natInBase? 10 s

/-- The pieces between points, without an empty last one. -/
def dottedParts (s : List Char) : List (List Char) :=
  let ps := Text.pieces (· == '.') s
  if ps.getLast? = some [] then ps.dropLast else ps

/-- Whether a name must be an IPv4 address, because its last part is a number. -/
def endsInNumber (s : List Char) : Bool :=
  match (dottedParts s).getLast? with
  | none => false
  | some p => (!p.isEmpty && p.all Char.isDigit) || (ipv4Number? p).isSome

/-- An IPv4 address of at most four numbers, the last of which fills the octets that are left. -/
def ipv4? (s : List Char) : Option Nat := do
  let parts := dottedParts s
  if 4 < parts.length then none
  else
    let ns ← parts.mapM ipv4Number?
    let last ← ns.getLast?
    let front := ns.dropLast
    if Nat.pow 256 (4 - front.length) ≤ last ∨ front.any (255 < ·) then none
    else
      let high := front.foldl (fun acc n => acc * 256 + n) 0
      pure (high * Nat.pow 256 (4 - front.length) + last)

/-- Up to four hexadecimal digits. -/
def hexPiece (s : List Char) : Nat × Nat × List Char :=
  let ds := (s.take 4).takeWhile fun c => (Percent.hexValue? c).isSome
  (ds.foldl (fun n c => n * 16 + (Percent.hexValue? c).getD 0) 0, ds.length, s.drop ds.length)

/-- A decimal number below 256 without leading zeros, at the front of a text. -/
def octet? (s : List Char) : Option (Nat × List Char) :=
  let ds := s.takeWhile Char.isDigit
  let n := ds.foldl (fun n c => n * 10 + (c.toNat - 48)) 0
  if ds.isEmpty ∨ (1 < ds.length ∧ ds.head? = some '0') ∨ 255 < n then none else some (n, s.drop ds.length)

/-- Four octets joined by points, as the last two pieces of an IPv6 address. -/
def embeddedIpv4? (s : List Char) : Option (Nat × Nat) := do
  let (a, s) ← octet? s
  let s ← Text.dropPrefix? ['.'] s
  let (b, s) ← octet? s
  let s ← Text.dropPrefix? ['.'] s
  let (c, s) ← octet? s
  let s ← Text.dropPrefix? ['.'] s
  let (d, s) ← octet? s
  if s.isEmpty then pure (a * 256 + b, c * 256 + d) else none

/-- Pieces of an IPv6 address: `done` are the ones read, `gap` where `::` stood, which counts as a piece. -/
def ipv6Pieces : (fuel : Nat) → (done : List Nat) → (gap : Option Nat) → List Char →
    Option (List Nat × Option Nat)
  | 0, _, _, _ => none
  | _, done, gap, [] => some (done, gap)
  | fuel + 1, done, gap, s =>
    let position := done.length + (if gap.isSome then 1 else 0)
    if position = 8 then none
    else
      match s with
      | ':' :: r => if gap.isSome then none else ipv6Pieces fuel done (some done.length) r
      | s =>
        let (n, len, r) := hexPiece s
        match r with
        | '.' :: _ =>
          if len = 0 ∨ 6 < position then none
          else (embeddedIpv4? s).map fun (a, b) => (done ++ [a, b], gap)
        | ':' :: r => if r.isEmpty ∨ len = 0 then none else ipv6Pieces fuel (done ++ [n]) gap r
        | [] => if len = 0 then none else some (done ++ [n], gap)
        | _ => none

/-- An IPv6 address without its brackets. -/
def ipv6? (s : List Char) : Option (List Nat) := do
  let (start, gap) ← match s with
    | ':' :: ':' :: r => some (r, some 0)
    | ':' :: _ => none
    | s => some (s, none)
  let (pieces, gap) ← ipv6Pieces (s.length + 1) [] gap start
  match gap with
  | none => if pieces.length = 8 then pure pieces else none
  | some i =>
    if pieces.length < 8 then pure (pieces.take i ++ List.replicate (8 - pieces.length) 0 ++ pieces.drop i)
    else none

/-- A host in brackets, if the text begins with one. -/
def bracketed? : List Char → Option (Except UrlError UrlHost)
  | '[' :: r =>
    match Text.dropSuffix? [']'] r with
    | none => some (.error .invalidIpv6)
    | some inner =>
      match ipv6? inner with
      | some ps => some (.ok (.ipv6 ps))
      | none => some (.error .invalidIpv6)
  | _ => none

/-- The host of a special scheme. -/
def ofSpecial (s : List Char) : Except UrlError UrlHost :=
  match bracketed? s with
  | some r => r
  | none =>
    match Domain.ofOctets? (Percent.decodeOctets s) with
    | none => .error .invalidDomainName
    | some [] => .error .emptyHost
    | some d =>
      if endsInNumber d then
        match ipv4? d with
        | some n => .ok (.ipv4 n)
        | none => .error .invalidIpv4
      else .ok (.name d)

/-- The characters that a host of another scheme may not hold. -/
def isForbidden (c : Char) : Bool :=
  c == '\x00' || c == '\t' || c == '\n' || c == '\r' || c == ' ' || c == '#' || c == '/' || c == ':' || c == '<' ||
    c == '>' || c == '?' || c == '@' || c == '[' || c == '\\' || c == ']' || c == '^' || c == '|'

/-- The control characters of ASCII, which are escaped wherever they stand. -/
def isControl (c : Char) : Bool := c.toNat < 0x20 || c.toNat == 0x7F

/-- The host of a scheme that is not special; an empty text means that there is none. -/
def ofOther (s : List Char) : Except UrlError (Option UrlHost) :=
  match bracketed? s with
  | some r => r.map some
  | none =>
    if s.any isForbidden then .error .invalidHostCharacter
    else if s.isEmpty then .ok none
    else .ok (some (.name (Percent.encode isControl s)))

end Federation.UrlHost
