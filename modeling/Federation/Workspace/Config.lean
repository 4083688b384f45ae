import Federation.Dependency
import Federation.Glob.Pattern
import Federation.Path
import Federation.Text.Blank
import Federation.Yaml.Decode

/-!
# Workspace files

A workspace file says which directories of a monorepo hold packages and which version range stands behind a
catalog reference. Packages are listed as globs; one that begins with an exclamation mark takes directories
out again, wherever it stands in the list.
-/

namespace Federation

/-- The content of a workspace file. -/
structure WorkspaceConfig where
  /-- The globs of the packages. -/
  packages : List String
  /-- The default catalog: version ranges by package. -/
  catalog : KeyMap String
  /-- Catalogs by name. -/
  catalogs : KeyMap (KeyMap String)

/-- The package globs of a workspace, taken apart. -/
structure PackageGlobs where
  included : List String
  excluded : List GlobPattern

/-- The name of a workspace file. -/
def workspaceFile : String := "pnpm-workspace.yaml"

/-- The name of a package file. -/
def packageFile : String := "package.json"

/-- The name of the catalog that is meant when none is named. -/
def defaultCatalog : String := "default"

namespace WorkspaceConfig

/-- The workspace without packages and catalogs. -/
def empty : WorkspaceConfig := ⟨[], .empty, .empty⟩

/-- Reads a workspace file. A blank text is an empty workspace. -/
def ofYaml? (s : String) : Option WorkspaceConfig :=
  if isBlank s then some empty
  else do
    let d ← Yaml.document? s.toList
    match ← d.record? ["packages", "catalog", "catalogs"] d.root with
    | [packages, catalog, catalogs] =>
      let packages ← Yaml.Document.orDefault? d.texts? [] d packages
      let catalog ← Yaml.Document.orDefault? (d.map? d.text?) .empty d catalog
      let catalogs ← Yaml.Document.orDefault? (d.map? (d.map? d.text?)) .empty d catalogs
      pure ⟨packages, catalog, catalogs⟩
    | _ => none

/-- The range of a package in a catalog. The default catalog has two places; its own goes first. -/
def catalogRange? (c : WorkspaceConfig) (catalog package : String) : Option String :=
  let name := if catalog.isEmpty then defaultCatalog else catalog
  let named := (c.catalogs.get? name).bind (·.get? package)
  if name == defaultCatalog then (c.catalog.get? package).or named else named

/-- A glob without slashes at its end. -/
def withoutEndSlashes (g : List Char) : List Char := Text.dropEndWhile (· == '/') g

/-- Adds an entry of the package list; a pattern that cannot be read excludes nothing. -/
def addGlob (globs : PackageGlobs) (entry : String) : PackageGlobs :=
  match Text.trim entry.toList with
  | [] => globs
  | '!' :: g =>
    match GlobPattern.parse? (withoutEndSlashes g) with
    | some p => { globs with excluded := globs.excluded ++ [p] }
    | none => globs
  | g => { globs with included := globs.included ++ [String.ofList (withoutEndSlashes g)] }

/-- The package globs, in the order of the file. -/
def packageGlobs (c : WorkspaceConfig) : PackageGlobs := c.packages.foldl addGlob ⟨[], []⟩

end WorkspaceConfig

/-- Whether a package directory is excluded: a pattern may match the directory or its package file. -/
def PackageGlobs.isExcluded (g : PackageGlobs) (directory : List Char) : Bool :=
  g.excluded.any fun p => p.isMatch directory || p.isMatch (Path.join directory packageFile.toList)

end Federation
