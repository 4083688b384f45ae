/-!
# JSON values

A JSON value as the programs of this library pass it around. Members of an object keep the order in which
they were declared, because that order decides which dependency is looked at first.
-/

namespace Federation

/-- A JSON number: a whole number of 64 bits, signed or unsigned, or else a double. -/
inductive JsonNumber where
  | int (z : Int)
  | float (x : Float)

/-- A JSON value. -/
inductive Json where
  | null
  | bool (b : Bool)
  | number (n : JsonNumber)
  | string (s : String)
  | array (elements : List Json)
  | object (members : List (String × Json))

namespace Json

instance : Inhabited Json := ⟨null⟩

/-- Sets `key` in a member list: a repeated key keeps its first place and takes the new value. -/
def setMember (key : String) (v : Json) : List (String × Json) → List (String × Json)
  | [] => [(key, v)]
  | m :: ms => if m.1 = key then (key, v) :: ms else m :: setMember key v ms

/-- The member `key` of an object. -/
def member? (key : String) : Json → Option Json
  | object ms => (ms.find? (·.1 == key)).map (·.2)
  | _ => none

/-- The text of a string value. -/
def text? : Json → Option String
  | string s => some s
  | _ => none

end Json

end Federation
