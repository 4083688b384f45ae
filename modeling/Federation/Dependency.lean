import Federation.Descriptor
import Federation.Error
import Federation.Json.Record
import Federation.KeyMap

/-!
# Dependency tables

The table under `zephyr:dependencies` maps each key to a specifier, or to one specifier per platform.
`collectDescriptors` turns it into descriptors in the order of declaration, with catalog and workspace
placeholders replaced by what a `VersionResolver` knows.
-/

namespace Federation

/-- Replaces a placeholder of a package by a version; what it does not know it gives back. It may remember
what it has read, in a state of type `σ`. -/
abbrev VersionResolver (σ : Type) := (package version : String) → StateM σ String

/-- A resolver without a memory. -/
def VersionResolver.ofFunction (f : String → String → String) : VersionResolver Unit := fun p v => pure (f p v)

/-- Leaves every placeholder as it is. -/
def passThrough : VersionResolver Unit := .ofFunction fun _ version => version

/-- What stands under a key of the table. -/
inductive DependencyValue where
  | scalar (specifier : String)
  | perPlatform (specifiers : KeyMap String)

namespace DependencyValue

/-- The texts of members, if all of them are text. -/
def texts? : List (String × Json) → Option (List (String × String))
  | [] => some []
  | m :: ms => do
    let t ← m.2.text?
    let ts ← texts? ms
    pure ((m.1, t) :: ts)

/-- Reads the value under a key. -/
def ofJson (key : String) (v : Json) : Except Error DependencyValue :=
  match v with
  | .string s => .ok (.scalar s)
  | .object ms =>
    match texts? ms with
    | some es => .ok (.perPlatform (KeyMap.ofList es))
    | none => .error (.invalidDependencyValue key v)
  | v => .error (.invalidDependencyValue key v)

/-- The specifier for a platform; none if the value has none for it. -/
def select (key : String) (platform : Option String) : DependencyValue → Except Error (Option String)
  | scalar s => .ok (some s)
  | perPlatform m =>
    match platform with
    | some p => .ok (m.get? p)
    | none => .error (.platformRequired key)

end DependencyValue

/-- The name of the table, which stands for a key when the table itself is at fault. -/
def dependencyTable : String := "zephyr:dependencies"

/-- The specifier of an entry for a platform. -/
def selectEntry (platform : Option String) (key : String) (v : Json) : Except Error (Option String) := do
  let value ← DependencyValue.ofJson key v
  value.select key platform

variable {σ : Type}

/-- The descriptor of a selected specifier: a catalog reference is replaced before it is cut apart, a
placeholder version afterwards. -/
def describe (versions : VersionResolver σ) (key specifier : String) : StateM σ Descriptor := do
  let specifier ← if (catalogName? specifier).isSome then versions key specifier else pure specifier
  let d := Descriptor.parse key specifier
  if isPlaceholder d.version then
    let version ← versions d.applicationUid d.version
    pure { d with version }
  else pure d

/-- The descriptors of the entries of a table, in their order; the first faulty entry decides the error. -/
def collectEntries (platform : Option String) (versions : VersionResolver σ) :
    List (String × Json) → StateM σ (Except Error (List Descriptor))
  | [] => pure (.ok [])
  | (key, v) :: rest =>
    match selectEntry platform key v with
    | .error e => pure (.error e)
    | .ok none => collectEntries platform versions rest
    | .ok (some specifier) => do
      let d ← describe versions key specifier
      let ds ← collectEntries platform versions rest
      pure (ds.map (d :: ·))

/-- The descriptors of a table. -/
def collectDescriptors (table : Json) (platform : Option String) (versions : VersionResolver σ) :
    StateM σ (Except Error (List Descriptor)) :=
  match table with
  | .object es => collectEntries platform versions es
  | v => pure (.error (.invalidDependencyValue dependencyTable v))

end Federation
