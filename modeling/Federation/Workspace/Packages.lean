import Federation.Glob.Walk
import Federation.Json.Record
import Federation.Workspace.Config

/-!
# The package index of a workspace

The packages of a workspace by name, with their versions. Package files are visited in the order of the
included globs, and for each glob in alphabetical order; the first file that names a package decides its
version. Directories below a `node_modules` and excluded directories do not count.
-/

namespace Federation

/-- Whether a path lies in a directory of installed packages. -/
def isVendored (p : List Char) : Bool := (Path.names p).contains "node_modules".toList

/-- Name and version in the text of a package file, if it has both. -/
def packageIdentity? (text : String) : Option (String × String) := do
  match ← (← JsonSyntax.parse? text.toList).record? [⟨["name"], false⟩, ⟨["version"], false⟩] with
  | [name, version] =>
    let name ← JsonSyntax.optional? JsonSyntax.text? name
    let version ← JsonSyntax.optional? JsonSyntax.text? version
    pure (← name, ← version)
  | _ => none

namespace PackageGlobs

/-- The pattern of the package files that an included glob selects under a root. -/
def filePattern (root : List Char) (glob : String) : List Char :=
  GlobPattern.escape root ++ '/' :: (glob.toList ++ '/' :: packageFile.toList)

/-- Whether a package directory under a root counts. -/
def admits (g : PackageGlobs) (root directory : List Char) : Bool :=
  let p := (Path.relativeTo? root directory).getD directory
  !isVendored p && !g.isExcluded p

/-- Name and version in a package file, if it counts. -/
def packageAt? (g : PackageGlobs) (d : Disk) (cwd : Location) (root file : List Char) : Option (String × String) := do
  let directory ← Path.parent? file
  if g.admits root directory then
    let text ← d.readText? cwd file
    packageIdentity? text
  else none

/-- The package files under a root, in the order in which they are visited. -/
def files (g : PackageGlobs) (d : Disk) (cwd : Location) (root : List Char) : List (List Char) :=
  g.included.flatMap fun glob => d.glob cwd (filePattern root glob)

/-- The versions of the packages under a root, by name. -/
def index (g : PackageGlobs) (d : Disk) (cwd : Location) (root : List Char) : KeyMap String :=
  (g.files d cwd root).foldl
    (fun found file =>
      match g.packageAt? d cwd root file with
      | some (name, version) => if found.contains name then found else found.insert name version
      | none => found)
    .empty

end PackageGlobs

end Federation
