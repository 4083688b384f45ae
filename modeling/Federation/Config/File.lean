import Federation.Config
import Federation.Disk.Basic
import Federation.Text.Quoted

/-!
# Settings files

Reading the settings of the registry client from a file, with the environment over them.
-/

namespace Federation.Config

/-- The settings of a file, with those of the environment over them. -/
def load (d : Disk) (cwd : Location) (path : String) (env : Environment) : Except Error Config :=
  let fault (what : String) : Error :=
    .invalidConfig ("Failed to " ++ what ++ " config " ++ quoted path ++ ": " ++ foreignDetail)
  match d.readText? cwd path.toList with
  | none => .error (fault "read")
  | some s =>
    match ofDocument? s with
    | none => .error (fault "parse")
    | some c => c.overlay env

end Federation.Config
