import Federation.Workspace.Packages

/-!
# Workspaces

A workspace answers for the placeholders that stand in place of versions: `catalog:` references from its file,
`workspace:*` from its package index. Both are read from disk when they are first needed and never again, so an
answer does not change once it was given. What a workspace does not know, it gives back unchanged.
-/

namespace Federation

/-- A workspace and what was read of it. -/
structure Workspace where
  /-- The directory of the workspace file; without one, nothing is known. -/
  root : Option (List Char)
  /-- The workspace file, once it was read; it may be unreadable. -/
  config : Option (Option WorkspaceConfig)
  /-- The package index, once it was made. -/
  packages : Option (KeyMap String)

/-- A step that may read from a workspace. -/
abbrev WorkspaceM := StateM Workspace

namespace Workspace

/-- The workspace of a directory. -/
def atRoot (root : List Char) : Workspace := ⟨some root, none, none⟩

/-- The workspace that knows nothing. -/
def detached : Workspace := ⟨none, none, none⟩

/-- The nearest directory, from `start` upwards, that holds a file of a name. -/
def findUpwards (d : Disk) (cwd : Location) (start : List Char) (fileName : String) : Option (List Char) :=
  (Path.ancestors start).find? fun p => d.isFile cwd (Path.join p fileName.toList)

/-- The root of the workspace that a directory lies in. -/
def rootAbove (d : Disk) (cwd : Location) (start : List Char) : Option (List Char) :=
  findUpwards d cwd start workspaceFile

/-- The workspace that a directory lies in. -/
def discover (d : Disk) (cwd : Location) (start : List Char) : Workspace :=
  match rootAbove d cwd start with
  | some root => atRoot root
  | none => detached

/-- What the workspace file of a directory says now. -/
def readConfig (d : Disk) (cwd : Location) (root : List Char) : Option WorkspaceConfig :=
  (d.readText? cwd (Path.join root workspaceFile.toList)).bind WorkspaceConfig.ofYaml?

/-- The content of the workspace file, as it was when it was first needed. -/
def getConfig (d : Disk) (cwd : Location) : WorkspaceM (Option WorkspaceConfig) := do
  let w ← get
  match w.config with
  | some c => pure c
  | none =>
    let c := w.root.bind (readConfig d cwd)
    set { w with config := some c }
    pure c

/-- The package index, as it was when it was first needed. -/
def getPackages (d : Disk) (cwd : Location) : WorkspaceM (KeyMap String) := do
  match (← get).packages with
  | some ps => pure ps
  | none =>
    let config ← getConfig d cwd
    let w ← get
    let ps := match w.root, config with
      | some root, some c => c.packageGlobs.index d cwd root
      | _, _ => .empty
    set { w with packages := some ps }
    pure ps

/-- The range of a package in the catalog that a reference names. -/
def resolveCatalog (d : Disk) (cwd : Location) (package reference : String) : WorkspaceM String := do
  let catalog := (catalogName? reference).getD reference
  let config ← getConfig d cwd
  pure ((config.bind (·.catalogRange? catalog package)).getD reference)

/-- The version of a package of the workspace. -/
def resolvePackage (d : Disk) (cwd : Location) (package version : String) : WorkspaceM String := do
  let packages ← getPackages d cwd
  pure ((packages.get? package).getD version)

/-- Replaces placeholders by what the workspace knows. -/
def versions (d : Disk) (cwd : Location) : VersionResolver Workspace := fun package version => do
  if version == workspaceAny then resolvePackage d cwd package version
  else if (catalogName? version).isSome then resolveCatalog d cwd package version
  else pure version

end Workspace

/-- Workspaces of one program, where those of one root are shared. -/
structure WorkspacePool where
  workspaces : List Workspace
  /-- The places of the shared workspaces, by root: whether it is absolute, and its names. -/
  shared : List ((Bool × List Path.Name) × Nat)

namespace WorkspacePool

def empty : WorkspacePool := ⟨[], []⟩

/-- Adds a workspace and tells its place. -/
def add (p : WorkspacePool) (w : Workspace) : Nat × WorkspacePool :=
  (p.workspaces.length, { p with workspaces := p.workspaces ++ [w] })

/-- The place of the workspace that a directory lies in; outside any workspace it is a new one each time. -/
def share (p : WorkspacePool) (d : Disk) (cwd : Location) (start : List Char) : Nat × WorkspacePool :=
  match Workspace.rootAbove d cwd start with
  | none => p.add .detached
  | some root =>
    let key := (Path.isAbsolute root, Path.names root)
    match p.shared.find? (·.1 == key) with
    | some (_, i) => (i, p)
    | none =>
      let (i, p) := p.add (.atRoot root)
      (i, { p with shared := (key, i) :: p.shared })

/-- Runs a step on the workspace at a place. -/
def modifyAt {α : Type} (p : WorkspacePool) (i : Nat) (step : WorkspaceM α) : Option (α × WorkspacePool) := do
  let w ← p.workspaces[i]?
  let (a, w) := step.run w
  pure (a, { p with workspaces := p.workspaces.set i w })

end WorkspacePool

end Federation
