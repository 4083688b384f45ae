import Federation.Disk.Basic
import Federation.Glob.Pattern

/-!
# Globbing a disk

`Disk.glob` lists the paths that a pattern selects. The pattern is matched component by component, so `*` stays
within a name, and the paths come in the order of a walk that visits the names of each directory
alphabetically. A component without wildcards is looked up and not searched for.
-/

namespace Federation.Disk

/-- A path one name further; the current directory is not written. -/
def stepInto (p : List Char) (n : Path.Name) : List Char := if p == ['.'] then n else Path.join p n

def exists? (d : Disk) (cwd : Location) (p : List Char) : Bool :=
  match d.lookup cwd p with
  | .found .. => true
  | _ => false

/-- The names in the directory that a path leads to. -/
def childrenAt (d : Disk) (cwd : Location) (p : List Char) : List Path.Name :=
  match d.lookup cwd p with
  | .found l .directory => d.children l
  | _ => []

/-- Drops all but the last of the `**` that begin a pattern. -/
def lastRecursive : List GlobPattern → List GlobPattern
  | p :: q :: r => if p.isRecursive && q.isRecursive then lastRecursive (q :: r) else p :: q :: r
  | ps => ps

mutual

/-- What the patterns select below the path `p`. -/
def expand (d : Disk) (cwd : Location) : (fuel : Nat) → List GlobPattern → List Char → List (List Char)
  | 0, _, _ => []
  | _, [], _ => []
  | fuel + 1, pat :: pats, p =>
    let onward (q : List Char) : List (List Char) := if pats.isEmpty then [q] else expand d cwd fuel pats q
    match pat.literal? with
    | some n =>
      let q := stepInto p n
      let special := n == ['.'] || n == ['.', '.']
      if (if special then d.isDirectory cwd p else d.exists? cwd q) then onward q else []
    | none =>
      if !d.isDirectory cwd p then []
      else
        let dots : List Path.Name :=
          if pat.tokens.head? == some (.char '.') then [['.', '.'], ['.']].filter pat.isMatch else []
        dots.flatMap (fun n => onward (Path.join p n)) ++
          (d.childrenAt cwd p).flatMap fun n => visit d cwd fuel (pat :: pats) n (stepInto p n)

/-- What the patterns select at the path `p` of name `n` and below it. -/
def visit (d : Disk) (cwd : Location) : (fuel : Nat) → List GlobPattern → Path.Name → List Char →
    List (List Char)
  | 0, _, _, _ => []
  | _, [], _, _ => []
  | fuel + 1, pat :: pats, n, p =>
    let named (ps : List GlobPattern) : List (List Char) :=
      match ps with
      | [] => []
      | q :: qs => if !q.isMatch n then [] else if qs.isEmpty then [p] else expand d cwd fuel qs p
    if pat.isRecursive then
      match lastRecursive (pat :: pats) with
      | [] => []
      | q :: qs =>
        if d.isDirectory cwd p then (if qs.isEmpty then [p] else named qs) ++ expand d cwd fuel (q :: qs) p
        else named qs
    else named (pat :: pats)

end

/-- The paths that a pattern selects, in the order of the walk; none if the pattern is not valid. -/
def glob (d : Disk) (cwd : Location) (pattern : List Char) : List (List Char) :=
  match GlobPattern.parse? pattern with
  | none => []
  | some _ =>
    let absolute := Path.isAbsolute pattern
    let components := Path.rawNames pattern
    let components := if absolute then components.dropWhile Path.isIdle else components
    match components.mapM GlobPattern.parse? with
    | none => []
    | some pats =>
      d.expand cwd ((pats.length + 1) * (d.nodes.length + 2) * 2) pats (if absolute then ['/'] else ['.'])

end Federation.Disk
