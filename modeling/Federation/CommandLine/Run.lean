import Federation.Application.Sources
import Federation.Client.Basic
import Federation.CommandLine.Command
import Federation.Config.File
import Federation.Manifest.File
import Federation.Resolver
import Federation.Workspace.Basic

/-!
# Running commands

A command runs in `Surroundings`: an environment, a disk with a current directory, an answer to where the
repository's origin is, and the time. It gives a report and the disk after it. Until the manifest is written
the disk is as it was. The write may meet with setbacks; `run` runs a command without any.
-/

namespace Federation.CommandLine

/-- What a command finds when it starts. -/
structure Surroundings where
  environment : Environment
  disk : Disk
  cwd : Location
  origin : OriginLookup
  /-- The time as it is written into manifests. -/
  timestamp : String

/-- How a command ends. -/
inductive Report where
  /-- Well, with a text for its user. -/
  | printed (text : String)
  | failed (message : String)
deriving DecidableEq, Repr

/-- The directory of a path, in which the current one is a point. -/
def directoryOf (path : String) : List Char :=
  match Path.parent? path.toList with
  | some (c :: r) => c :: r
  | _ => ['.']

/-- An error as a failure of the command. -/
def lift {α : Type} : Except Error α → Except String α
  | .ok a => .ok a
  | .error e => .error e.display

/-- A value that must be there. -/
def orFail {α : Type} (message : String) : Option α → Except String α
  | some a => .ok a
  | none => .error message

/-- The package that a command is about. -/
def readPackage (s : Surroundings) (path : String) : Except String Json := do
  let text ← orFail ("Failed to read " ++ path) (s.disk.readText? s.cwd path.toList)
  orFail ("Failed to parse " ++ path) (Json.parse? text)

/-- The dependencies of a package, with placeholders replaced from the workspace around its directory. -/
def collect (s : Surroundings) (workdir : List Char) (platform : Option String) (package : Json) :
    Except Error (List Descriptor) :=
  let table := (package.member? dependencyTable).getD (.object [])
  let workspace := Workspace.discover s.disk s.cwd workdir
  ((collectDescriptors table platform (Workspace.versions s.disk s.cwd)).run workspace).1

/-- The settings that a command uses. -/
def readConfig (s : Surroundings) : Option String → Except Error Config
  | some path => Config.load s.disk s.cwd path s.environment
  | none => Config.ofEnvironment s.environment

/-- The uid of the application: the given one, or that of the package in the host's context. -/
def hostUid (c : ResolveCommand) (package : Json) (context : Option AppContext) : Except String String :=
  match c.applicationUid with
  | some uid => .ok uid
  | none => do
    let name ← orFail "package.json has no name; pass --app-uid" ((package.member? "name").bind Json.text?)
    let context ←
      orFail "Unknown org/project; set ZE_APP_ORG and ZE_APP_PROJECT or pass --app-uid" context
    lift (context.uidForPackage name)

/-- What is known before any dependency is resolved. -/
structure Preparation where
  package : Json
  descriptors : List Descriptor
  resolver : RemoteResolver
  /-- The context that a look-up finds. -/
  context : Option AppContext

/-- Reads everything that resolving needs. -/
def prepare (s : Surroundings) (c : ResolveCommand) : Except String Preparation := do
  let package ← readPackage s c.packageFile
  let workdir := directoryOf c.packageFile
  let descriptors ← lift (collect s workdir c.platform package)
  let config ← lift (readConfig s c.config)
  let resolver ← lift (RemoteResolver.ofConfig config s.environment)
  pure ⟨package, descriptors, resolver, AppContext.discover? s.environment s.origin s.disk s.cwd workdir⟩

/-- Writes the manifest of resolved remotes. -/
def publish (setbacks : ManifestFile.Setbacks) (s : Surroundings) (c : ResolveCommand) (p : Preparation)
    (remotes : List Remote) : Report × Disk :=
  match hostUid c p.package (p.resolver.contextOr p.context) with
  | .error e => (.failed e, s.disk)
  | .ok uid =>
    let f := ManifestFile.inDirectory c.output p.resolver.config.manifestFileName
    let m := Manifest.ofRemotes uid s.timestamp Manifest.formatVersion remotes
    match f.writeAmid setbacks s.cwd m s.disk with
    | (none, d) => (.printed (String.ofList f.path ++ "\n"), d)
    | (some e, d) => (.failed e.display, d)

variable {m : Type → Type} [Monad m]

/-- Resolves the dependencies of a package and writes its manifest. -/
def runResolve (transport : Transport m) (setbacks : ManifestFile.Setbacks) (s : Surroundings) (c : ResolveCommand) :
    m (Report × Disk) := do
  match prepare s c with
  | .error e => pure (.failed e, s.disk)
  | .ok p =>
    let (remotes, resolver) ← p.resolver.resolve transport p.context ⟨!c.allowPartial, none⟩ p.descriptors
    match lift remotes with
    | .error e => pure (.failed e, s.disk)
    | .ok remotes => pure (publish setbacks s c { p with resolver } remotes)

/-- Prints the manifest of a deployed application. -/
def runFetch (transport : Transport m) (c : FetchCommand) : m Report := do
  match Manifest.checkTimeout (1000 * c.timeoutSecs) with
  | .error e => pure (.failed e.display)
  | .ok _ =>
    let session : ManifestClient.Session := ⟨.new c.url c.applicationUid 1, .empty⟩
    let (manifest, _, _) ← session.call (Manifest.fetch transport) .current
    match manifest with
    | some x => pure (.printed (x.document ++ "\n"))
    | none => pure (.failed ("Failed to fetch manifest from " ++ c.url))

/-- Runs a command. -/
def run (transport : Transport m) (s : Surroundings) : Command → m (Report × Disk)
  | .resolve c => runResolve transport (fun _ => none) s c
  | .fetch c => do return (← runFetch transport c, s.disk)

end Federation.CommandLine
