import Federation.CommandLine.Run
import Federation.Timestamp

/-!
# The program

Takes a picture of the files that a command can ask for, runs the command on it, and brings what it wrote to the
real disk. This build carries no network, so every request fails as unreachable, and it does not ask the version
control; dependencies that are literal URLs resolve without either.
-/

namespace Federation.Program

/-- The settings that are read from the environment of the process. -/
def settingNames : List String :=
  ["ZE_API", "ZE_API_TIMEOUT_SECS", AppContext.orgSetting, AppContext.projectSetting,
    AuthToken.serverTokenSetting, AuthToken.userEmailSetting] ++ AuthToken.settings

/-- The environment of the process. -/
def readEnvironment : IO Environment := do
  let found ← settingNames.filterMapM fun n => do return (← IO.getEnv n).map (n, ·)
  pure ⟨found⟩

/-- The time, read off a file that was just made. -/
def readClock : IO Instant := do
  let (_, path) ← IO.FS.createTempFile
  let t := (← path.metadata).modified
  IO.FS.removeFile path
  pure ⟨t.sec, t.nsec.toNat⟩

/-- The location that an absolute path names. -/
def locationOf (path : String) : Location := Path.names path.toList

/-- The path of a location. -/
def pathOf (l : Location) : String := String.ofList ('/' :: Text.join ['/'] l)

/-- Directories that hold nothing a command looks for. -/
def isUninteresting (name : String) : Bool := name == "node_modules" || name == ".git"

/-- How deep directories are looked into. -/
def maxDepth : Nat := 24

/-- Adds a file of the real disk, if it is there. -/
def addFile (d : Disk) (path : String) : IO Disk := do
  try
    let content ← IO.FS.readBinFile path
    let l := locationOf path
    let parents := (List.range l.length).map fun n => l.take n
    let d := parents.foldl (fun d p => if (d.get? p).isNone then d.put p .directory else d) d
    pure (d.put l (.file content))
  catch _ => pure d

/-- Adds the directories and the JSON and YAML files below a directory of the real disk. -/
def addTree : (depth : Nat) → Disk → String → IO Disk
  | 0, d, _ => pure d
  | depth + 1, d, path => do
    let mut d := d.put (locationOf path) .directory
    for name in ← listDirectory path do
      let p := path ++ "/" ++ name
      if ← isDirectory p then
        unless isUninteresting name do d ← addTree depth d p
      else if name.endsWith ".json" || name.endsWith ".yaml" then d ← addFile d p
      else d := d.put (locationOf p) (.file ByteArray.empty)
    pure d
where
  listDirectory (path : String) : IO (List String) := do
    return (← ((← IO.currentDir) / path).readDir).toList.map (·.fileName)
  isDirectory (path : String) : IO Bool := do ((← IO.currentDir) / path).isDir

/-- The nearest directory, from one upwards, with a workspace file; else the directory itself. -/
def pictureRoot (cwd : String) : IO String := do
  for p in Path.ancestors cwd.toList do
    let p := String.ofList p
    if ← ((← IO.currentDir) / (p ++ "/" ++ workspaceFile)).pathExists then return p
  return cwd

/-- The files that a command names. -/
def filesOf : CommandLine.Command → List String
  | .resolve c => c.packageFile :: c.config.toList
  | .fetch _ => []

/-- Writes a file by way of a temporary one. -/
def replaceFile (path : String) (content : ByteArray) : IO Unit := do
  for p in Path.parent? path.toList do IO.FS.createDirAll (String.ofList p)
  let temporary := path ++ ".new"
  IO.FS.writeBinFile temporary content
  IO.FS.rename temporary path

/-- Brings the files that changed to the real disk. -/
def writeChanges (before after : Disk) : IO Unit := do
  for (l, n) in after.nodes do
    match n, before.get? l with
    | .file b, some (.file a) => if a.data != b.data then replaceFile (pathOf l) b
    | .file b, _ => replaceFile (pathOf l) b
    | .directory, _ => pure ()

/-- Runs a command; the answer is the exit code. -/
def runCommand (c : CommandLine.Command) : IO UInt32 := do
  let cwd := (← IO.currentDir).toString
  let picture ← addTree maxDepth .empty (← pictureRoot cwd)
  let disk ← (filesOf c).foldlM (fun d p => addFile d (String.ofList (Path.join cwd.toList p.toList))) picture
  let surroundings : CommandLine.Surroundings :=
    ⟨← readEnvironment, disk, locationOf cwd, fun _ => .unavailable, (← readClock).text⟩
  let (report, after) := (CommandLine.run (m := Id) (fun _ => pure none) surroundings c).run
  writeChanges disk after
  match report with
  | .printed text =>
    IO.print text
    pure 0
  | .failed message =>
    IO.eprintln ("Error: " ++ message)
    pure 1

/-- The text that help shows. -/
def helpText : String :=
  "Resolve and inspect federation manifests\n\n" ++
  "Usage: zephyr-manifest resolve [--package-json PATH] [--app-uid UID] [--platform NAME]\n" ++
  "                               [--allow-partial] [--config PATH] [--out PATH]\n" ++
  "       zephyr-manifest fetch --url URL --app-uid UID [--timeout-secs SECONDS]\n"

end Federation.Program

/-- The command line. -/
def main (args : List String) : IO UInt32 :=
  match Federation.CommandLine.read args with
  | .ok c => Federation.Program.runCommand c
  | .error .information => do
    IO.print Federation.Program.helpText
    pure 0
  | .error .usage => do
    IO.eprint Federation.Program.helpText
    pure 2
