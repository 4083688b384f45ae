import Federation.Path
import Federation.Text.Utf8

/-!
# Disks

A disk maps locations (lists of names below the root) to directories and files. Every operation of a file
system that this library needs is a function from disk to disk, which fails if the nodes stand in its way; a failure
has no wording of its own, because the wording belongs to the operating system. What else may make an operation fail
is not on the disk: whoever writes must reckon with it (`ManifestFile.Setbacks`).
-/

namespace Federation

/-- The place of a node: the names of the directories above it and its own, from the root. -/
abbrev Location := List Path.Name

/-- What lies at a location. -/
inductive DiskNode where
  | directory
  | file (bytes : ByteArray)

/-- Directories and files by location. The root is a directory in every disk. -/
structure Disk where
  nodes : List (Location × DiskNode)

/-- What a path leads to. -/
inductive DiskLookup where
  /-- A node. -/
  | found (at_ : Location) (node : DiskNode)
  /-- Nothing, in a directory that exists. -/
  | vacant (at_ : Location)
  /-- Nothing, and no directory to put it in. -/
  | noDirectory
  /-- Not reachable: a file stands in the way, or the path is no path. -/
  | refused

namespace Disk

/-- The disk with an empty root. -/
def empty : Disk := ⟨[]⟩

/-- The node at a location. -/
def get? (d : Disk) (l : Location) : Option DiskNode :=
  if l.isEmpty then some .directory else (d.nodes.find? (·.1 == l)).map (·.2)

/-- The disk with a node put at a location. -/
def put (d : Disk) (l : Location) (n : DiskNode) : Disk :=
  ⟨(l, n) :: d.nodes.filter (·.1 != l)⟩

/-- The disk without the node at a location. -/
def remove (d : Disk) (l : Location) : Disk := ⟨d.nodes.filter (·.1 != l)⟩

/-- The disk without a node and all that lies below it. -/
def removeTree (d : Disk) (l : Location) : Disk := ⟨d.nodes.filter fun e => !l.isPrefixOf e.1⟩

/-- The longest name that a file system takes, in octets. -/
def maxNameOctets : Nat := 255

/-- Whether a name can name a node. -/
def nameOk (n : Path.Name) : Bool := !n.contains '\x00' && (Utf8.encode n).length ≤ maxNameOctets

/-- Follows names from a location. -/
def walk (d : Disk) (l : Location) : List Path.Name → DiskLookup
  | [] =>
    match d.get? l with
    | some n => .found l n
    | none => .vacant l
  | n :: ns =>
    match d.get? l with
    | none => .noDirectory
    | some (.file _) => .refused
    | some .directory =>
      if Path.isIdle n then walk d l ns
      else if n == ['.', '.'] then walk d l.dropLast ns
      else if nameOk n then walk d (l ++ [n]) ns
      else .refused

/-- What a path leads to, from the current directory `cwd`. The empty path leads nowhere. -/
def lookup (d : Disk) (cwd : Location) (p : List Char) : DiskLookup :=
  match p with
  | [] => .noDirectory
  | '/' :: r => d.walk [] (Path.rawNames r)
  | p => d.walk cwd (Path.rawNames p)

/-- The path less the slashes at its end, as far as it names a node to be made. -/
def withoutEndSlashes (p : List Char) : List Char := (p.reverse.dropWhile (· == '/')).reverse

def isFile (d : Disk) (cwd : Location) (p : List Char) : Bool :=
  match d.lookup cwd p with
  | .found _ (.file _) => true
  | _ => false

def isDirectory (d : Disk) (cwd : Location) (p : List Char) : Bool :=
  match d.lookup cwd p with
  | .found _ .directory => true
  | _ => false

/-- The octets of a file. -/
def readOctets? (d : Disk) (cwd : Location) (p : List Char) : Option ByteArray :=
  match d.lookup cwd p with
  | .found _ (.file b) => some b
  | _ => none

/-- The text of a file, if it is UTF-8. -/
def readText? (d : Disk) (cwd : Location) (p : List Char) : Option String :=
  (d.readOctets? cwd p).bind String.fromUTF8?

/-- Creates a file or replaces its content, if the nodes allow it. -/
def write? (d : Disk) (cwd : Location) (p : List Char) (content : ByteArray) : Option Disk :=
  match d.lookup cwd p with
  | .found l (.file _) => some (d.put l (.file content))
  | .vacant l => some (d.put l (.file content))
  | _ => none

/-- Makes one directory. -/
inductive MakeResult where
  | made (d : Disk)
  | missingParent
  | failed

def makeDirectory (d : Disk) (cwd : Location) (p : List Char) : MakeResult :=
  match d.lookup cwd (if p == ['/'] then p else withoutEndSlashes p) with
  | .vacant l => .made (d.put l .directory)
  | .noDirectory => .missingParent
  | _ => .failed

/-- Makes a directory and those above it that are missing, and tells whether it is there then. What was made on the way
stays if the rest fails. -/
def makeDirectoriesWithin (cwd : Location) : (fuel : Nat) → Disk → List Char → Bool × Disk
  | 0, d, _ => (false, d)
  | fuel + 1, d, p =>
    if p.isEmpty then (true, d)
    else
      match d.makeDirectory cwd p with
      | .made d => (true, d)
      | .failed => (d.isDirectory cwd p, d)
      | .missingParent =>
        match Path.parent? p with
        | none => (false, d)
        | some q =>
          match makeDirectoriesWithin cwd fuel d q with
          | (false, d) => (false, d)
          | (true, d) =>
            match d.makeDirectory cwd p with
            | .made d => (true, d)
            | _ => (d.isDirectory cwd p, d)

/-- Makes a directory and those above it that are missing, and tells whether it is there then. -/
def makeDirectories (d : Disk) (cwd : Location) (p : List Char) : Bool × Disk :=
  makeDirectoriesWithin cwd (p.length + 1) d p

/-- The disk with a directory and those above it, if they can be made. -/
def makeDirectories? (d : Disk) (cwd : Location) (p : List Char) : Option Disk :=
  match d.makeDirectories cwd p with
  | (true, d) => some d
  | (false, _) => none

/-- Moves a file in one step, over another file if there is one, if the nodes allow it. -/
def rename? (d : Disk) (cwd : Location) (p q : List Char) : Option Disk :=
  match d.lookup cwd p, d.lookup cwd q with
  | .found l (.file b), .found l' (.file _) => some ((d.remove l).put l' (.file b))
  | .found l (.file b), .vacant l' => some ((d.remove l).put l' (.file b))
  | _, _ => none

/-- The names in a directory, in alphabetical order. -/
def children (d : Disk) (l : Location) : List Path.Name :=
  let ns := d.nodes.filterMap fun e => if e.1.dropLast == l && !e.1.isEmpty then e.1.getLast? else none
  ns.mergeSort fun a b => decide (String.ofList a ≤ String.ofList b)

end Disk

end Federation
