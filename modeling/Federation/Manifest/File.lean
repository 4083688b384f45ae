import Federation.Disk.Basic
import Federation.Manifest.Document
import Federation.Text.Quoted

/-!
# Manifest files

A manifest is written to a temporary file beside its place and then moved into place in one step, so the file
at its place is always the one of before or a whole new one. `ManifestFile.steps` are the steps of one write in
their order; a write ends at the first step that fails, and what earlier steps did stays.

A step fails if something on the disk stands in its way (`apply`). It may also fail for a reason that does not show
on the disk, and then it may have done a part of its work (`Setbacks`, `applyAmid`).
-/

namespace Federation

/-- A place for a manifest. -/
structure ManifestFile where
  path : List Char
deriving DecidableEq

namespace ManifestFile

/-- The file of a name in a directory. -/
def inDirectory (directory name : String) : ManifestFile := ⟨Path.join directory.toList name.toList⟩

/-- Where a manifest lies before it is moved into place. -/
def temporaryPath (f : ManifestFile) : List Char := Path.withExtension f.path "json.tmp".toList

/-- The path as it is shown in messages. -/
def shown (p : List Char) : String := quoted (String.ofList p)

/-- One step of a write. -/
inductive Step where
  | makeDirectory
  /-- Creates the temporary file, or empties it. -/
  | openTemporary
  | fillTemporary (content : ByteArray)
  | moveIntoPlace

/-- The steps that write a manifest. -/
def steps (m : Manifest) : List Step :=
  [.makeDirectory, .openTemporary, .fillTemporary m.document.toUTF8, .moveIntoPlace]

/-- What went wrong, with the path at which it did. -/
def ioError (what : String) (p : List Char) : Error := .manifestIo (what ++ " " ++ shown p ++ ": " ++ foreignDetail)

/-- Makes the directory of a file, if its path has one. -/
def makeParent (f : ManifestFile) (cwd : Location) (d : Disk) : Option Error × Disk :=
  match Path.parent? f.path with
  | none => (none, d)
  | some p =>
    match d.makeDirectories cwd p with
    | (true, d) => (none, d)
    | (false, d) => (some (ioError "Failed to create" p), d)

/-- Replaces the content of the temporary file. -/
def putTemporary (f : ManifestFile) (cwd : Location) (content : ByteArray) (d : Disk) : Option Error × Disk :=
  match d.write? cwd f.temporaryPath content with
  | some d => (none, d)
  | none => (some (ioError "Failed to write" f.temporaryPath), d)

/-- Carries out a step. -/
def apply (f : ManifestFile) (cwd : Location) : Step → Disk → Option Error × Disk
  | .makeDirectory, d => f.makeParent cwd d
  | .openTemporary, d => f.putTemporary cwd ByteArray.empty d
  | .fillTemporary content, d => f.putTemporary cwd content d
  | .moveIntoPlace, d =>
    match d.rename? cwd f.temporaryPath f.path with
    | some d => (none, d)
    | none => (some (ioError "Failed to move manifest into" f.path), d)

/-- What makes steps fail although nothing on the disk stands in their way: a lack of permission or of space, a
broken medium. A step with a setback comes only so far: so many directories, from the outermost, or octets. -/
abbrev Setbacks := Step → Option Nat

/-- The failure of a step, if there is anything for it to do. -/
def fault? (f : ManifestFile) : Step → Option Error
  | .makeDirectory => ((Path.parent? f.path).filter fun p => !p.isEmpty).map (ioError "Failed to create")
  | .openTemporary | .fillTemporary _ => some (ioError "Failed to write" f.temporaryPath)
  | .moveIntoPlace => some (ioError "Failed to move manifest into" f.path)

/-- The disk after a step that came only so far. What cannot be moved stays where it is, and so does what lies where it
was to be moved. -/
def leave (f : ManifestFile) (cwd : Location) (parts : Nat) : Step → Disk → Disk
  | .makeDirectory, d =>
    match (((Path.parent? f.path).toList.flatMap Path.ancestors).reverse.take parts).getLast? with
    | none => d
    | some p => (d.makeDirectories cwd p).2
  | .openTemporary, d => if parts = 0 then d else (f.putTemporary cwd ByteArray.empty d).2
  | .fillTemporary content, d => (f.putTemporary cwd (content.extract 0 parts) d).2
  | .moveIntoPlace, d => d

/-- Carries out a step that may have a setback. -/
def applyAmid (setbacks : Setbacks) (f : ManifestFile) (cwd : Location) (s : Step) (d : Disk) : Option Error × Disk :=
  match setbacks s, f.fault? s with
  | some parts, some e => (some e, f.leave cwd parts s d)
  | _, _ => f.apply cwd s d

/-- Carries out steps, each as `carry` does, up to the first that fails. -/
def run (carry : Step → Disk → Option Error × Disk) : List Step → Disk → Option Error × Disk
  | [], d => (none, d)
  | s :: ss, d =>
    match carry s d with
    | (none, d) => run carry ss d
    | (some e, d) => (some e, d)

/-- Writes a manifest. -/
def write (f : ManifestFile) (cwd : Location) (m : Manifest) (d : Disk) : Option Error × Disk :=
  run (f.apply cwd) (steps m) d

/-- Writes a manifest, where steps may have setbacks. -/
def writeAmid (setbacks : Setbacks) (f : ManifestFile) (cwd : Location) (m : Manifest) (d : Disk) :
    Option Error × Disk :=
  run (f.applyAmid setbacks cwd) (steps m) d

/-- The largest file that is read, in octets. -/
def maxOctets : Nat := 1000000

/-- Reads a manifest back. -/
def load (f : ManifestFile) (cwd : Location) (d : Disk) : Except Error Manifest :=
  match d.lookup cwd f.path with
  | .found _ (.file bytes) =>
    if maxOctets < bytes.size then
      .error (.manifestInvalid ("Manifest " ++ shown f.path ++ " too large (max 1MB)"))
    else
      match String.fromUTF8? bytes with
      | none => .error (ioError "Failed to read" f.path)
      | some s =>
        match Manifest.ofDocument s with
        | .ok m => .ok m
        | .error e => .error (.manifestInvalid e.message)
  | .found _ .directory => .error (ioError "Failed to read" f.path)
  | _ => .error (ioError "Failed to stat" f.path)

end ManifestFile

end Federation
