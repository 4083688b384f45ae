import Federation.Text.Split

/-!
# Command line options

The usual long options: `--name value` or `--name=value` for an option with a value, `--name` for a flag, each at
most once and in any order. A value that follows as an argument of its own must not look like an option. Asking
for help ends the reading at once.
-/

namespace Federation.CommandLine

/-- What an option takes. -/
inductive OptionKind where
  | flag
  /-- Any text. -/
  | text
  /-- A text that is not empty. -/
  | path
deriving DecidableEq

/-- An option of a command. -/
structure OptionSpec where
  name : String
  kind : OptionKind

/-- Why no command is run. -/
inductive Stop where
  /-- The arguments mean no command. -/
  | usage
  /-- Help or the version is asked for. -/
  | information
deriving DecidableEq

/-- The options that were given, with their values; a flag has an empty one. -/
abbrev Given := List (String × String)

/-- Whether an argument looks like an option; a single hyphen does not. -/
def looksLikeOption (a : List Char) : Bool := a.head? == some '-' && a != ['-']

/-- A long option: its name, and its value behind an equals sign. -/
def longOption? (a : List Char) : Option (String × Option String) := do
  let r ← Text.dropPrefix? ['-', '-'] a
  if r.isEmpty then none
  else
    match Text.splitFirst '=' r with
    | some (n, v) => some (String.ofList n, some (String.ofList v))
    | none => some (String.ofList r, none)

/-- Adds an option, unless it was given before or its value is not allowed. -/
def addOption (spec : OptionSpec) (value : String) (given : Given) : Except Stop Given :=
  if given.any (·.1 == spec.name) then .error .usage
  else if spec.kind = .path ∧ value.isEmpty then .error .usage
  else .ok (given ++ [(spec.name, value)])

/-- Reads the options of a command. -/
def readOptions (specs : List OptionSpec) : Given → List String → Except Stop Given
  | given, [] => .ok given
  | given, ["--"] => .ok given
  | given, a :: rest =>
    match longOption? a.toList with
    | none => if "-h".toList.isPrefixOf a.toList then .error .information else .error .usage
    | some (n, value) =>
      if n = "help" then .error (if value.isNone then .information else .usage)
      else
        match specs.find? (·.name == n), value, rest with
        | none, _, _ => .error .usage
        | some spec, none, rest =>
          if spec.kind = .flag then do readOptions specs (← addOption spec "" given) rest
          else
            match rest with
            | [] => .error .usage
            | v :: rest =>
              if looksLikeOption v.toList then .error .usage
              else do readOptions specs (← addOption spec v given) rest
        | some spec, some v, rest =>
          if spec.kind = .flag then .error .usage else do readOptions specs (← addOption spec v given) rest

/-- The value of an option. -/
def valueOf? (given : Given) (name : String) : Option String := (given.find? (·.1 == name)).map (·.2)

end Federation.CommandLine
