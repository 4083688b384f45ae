import Federation.Json.Syntax

/-!
# Records in JSON

A record with known fields is read from an object, or from an array that lists the fields in the order of
their declaration. In an object unknown members are skipped, whatever they hold, a known field may occur only
once, and a missing one is left to the reader. In an array only fields with a default may be missing, and
nothing may follow the last field.
-/

namespace Federation

/-- A field of a record. -/
structure RecordField where
  /-- The member names that mean this field. -/
  names : List String
  /-- Whether an array may end before this field. -/
  hasDefault : Bool

namespace JsonSyntax

/-- Puts the syntax of a member at the place of its field; none if that place is taken. -/
def placeMember (fields : List RecordField) (slots : List (Option JsonSyntax)) (key : String) (x : JsonSyntax) :
    Option (List (Option JsonSyntax)) :=
  match fields, slots with
  | f :: fs, s :: ss =>
    if f.names.contains key then
      match s with
      | none => some (some x :: ss)
      | some _ => none
    else (placeMember fs ss key x).map (s :: ·)
  | _, slots => some slots

/-- The fields of an object; the keys must be text. -/
def placeMembers (fields : List RecordField) : List (Option JsonSyntax) → List (Option String × JsonSyntax) →
    Option (List (Option JsonSyntax))
  | slots, [] => some slots
  | slots, m :: ms => do
    let k ← m.1
    let slots ← placeMember fields slots k m.2
    placeMembers fields slots ms

/-- The fields of an array. -/
def placeElements : List RecordField → List JsonSyntax → Option (List (Option JsonSyntax))
  | [], [] => some []
  | [], _ :: _ => none
  | f :: fs, [] => if f.hasDefault then (placeElements fs []).map (none :: ·) else none
  | _ :: fs, x :: xs => (placeElements fs xs).map (some x :: ·)

/-- The syntax of each field of a record, `none` where it is missing. -/
def record? (fields : List RecordField) : JsonSyntax → Option (List (Option JsonSyntax))
  | object ms => placeMembers fields (fields.map fun _ => none) ms
  | array xs => placeElements fields xs
  | _ => none

/-- A text. -/
def text? : JsonSyntax → Option String
  | string s => s
  | _ => none

/-- A value that may be null. -/
def nullable? {α : Type} (read : JsonSyntax → Option α) : JsonSyntax → Option (Option α)
  | null => some none
  | x => (read x).map some

/-- A field that may be missing or null. -/
def optional? {α : Type} (read : JsonSyntax → Option α) : Option JsonSyntax → Option (Option α)
  | none => some none
  | some x => nullable? read x

/-- A field that must be there. -/
def required? {α : Type} (read : JsonSyntax → Option α) : Option JsonSyntax → Option α
  | none => none
  | some x => read x

/-- A field that takes `dflt` when it is missing. -/
def withDefault? {α : Type} (read : JsonSyntax → Option α) (dflt : α) : Option JsonSyntax → Option α
  | none => some dflt
  | some x => read x

/-- A whole number of 64 bits without sign. -/
def word? : JsonSyntax → Option Nat
  | number n =>
    match n.value? with
    | some (.int (.ofNat k)) => some k
    | _ => none
  | _ => none

/-- The elements of an array, each read by `read`. -/
def list? {α : Type} (read : JsonSyntax → Option α) : JsonSyntax → Option (List α)
  | array xs => xs.mapM read
  | _ => none

end JsonSyntax

end Federation
