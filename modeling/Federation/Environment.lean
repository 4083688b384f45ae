import Federation.Text.Blank

/-!
# Environments

Named settings of a process. A setting counts only if it is more than white space, and is used trimmed.
-/

namespace Federation

/-- Settings by name; of two with one name the later counts. -/
structure Environment where
  settings : List (String × String)

namespace Environment

/-- The raw value of a setting. -/
def lookup (e : Environment) (name : String) : Option String :=
  (e.settings.reverse.find? (·.1 == name)).map (·.2)

/-- The trimmed value of a setting that is not blank. -/
def get? (e : Environment) (name : String) : Option String := (e.lookup name).bind nonBlank?

theorem get?_eq_some {env : Environment} {name value : String} : env.get? name = some value ↔
    ∃ raw, env.lookup name = some raw ∧ isBlank raw = false ∧ trim raw = value := by
  rw [get?, Option.bind_eq_some_iff]
  simp only [nonBlank?_eq_some]

/-- The first of some settings that is not blank, with its name. -/
def firstOf? (e : Environment) (names : List String) : Option (String × String) :=
  names.findSome? fun n => (e.get? n).map (n, ·)

end Environment

end Federation
