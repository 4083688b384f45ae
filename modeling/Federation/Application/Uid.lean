import Federation.Error
import Federation.Text.Blank
import Federation.Text.Quoted
import Federation.Text.Split

/-!
# Application uids

The registry knows an application by its fully qualified uid `name.project.org`. A short name is qualified with
the organization and the project of the host, after each part was reduced to lower-case letters, digits and
single hyphens.
-/

namespace Federation

namespace Text

/-- Lower-cases letters and digits, and writes one hyphen for each run of other characters; `inRun` tells
whether such a run is under way. -/
def hyphenate : (inRun : Bool) → List Char → List Char
  | _, [] => []
  | inRun, c :: r =>
    if c.isAlphanum then c.toLower :: hyphenate false r
    else if inRun then hyphenate true r
    else '-' :: hyphenate true r

/-- A text without the hyphens at its ends. -/
def dropHyphens (s : List Char) : List Char := dropEndWhile (· == '-') (s.dropWhile (· == '-'))

/-- The rest of a text behind the first place where `sub` stands. -/
def afterFirst? (sub : List Char) : List Char → Option (List Char)
  | [] => dropPrefix? sub []
  | c :: r =>
    match dropPrefix? sub (c :: r) with
    | some t => some t
    | none => afterFirst? sub r

end Text

/-- The form of a text that can stand between the points of a uid. -/
def uidSegment (s : String) : String := String.ofList (Text.dropHyphens (Text.hyphenate false s.toList))

/-- Whether a uid has at least three segments and none of them is empty. -/
def isFullyQualified (uid : String) : Bool :=
  let segments := Text.pieces (· == '.') uid.toList
  3 ≤ segments.length && segments.all fun s => !s.isEmpty

/-- Organization and project of the application that is built. -/
structure AppContext where
  org : String
  project : String
deriving DecidableEq, Repr

namespace AppContext

/-- The context of an organization and a project, in the form that uids have. -/
def ofNames (org project : String) : AppContext := ⟨uidSegment org, uidSegment project⟩

theorem ofNames_eq_iff {org project : String} {c : AppContext} :
    ofNames org project = c ↔ c.org = uidSegment org ∧ c.project = uidSegment project := by
  obtain ⟨o, p⟩ := c
  rw [ofNames, AppContext.mk.injEq, eq_comm, @eq_comm _ p]

/-- The uid of a segment in a context. -/
def uidOf (c : AppContext) (segment : String) : String := s!"{segment}.{c.project}.{c.org}"

/-- The segments of a path, empty ones left out. -/
def segments (path : List Char) : List (List Char) := (Text.pieces (· == '/') path).filter fun s => !s.isEmpty

/-- The path in the address of a repository: behind the host of a URL, else behind the first colon. -/
def repositoryPath? (s : List Char) : Option (List Char) :=
  match Text.afterFirst? "://".toList s with
  | some r => (Text.splitFirst '/' r).map (·.2)
  | none =>
    match Text.splitFirst ':' s with
    | some (_, r) => some r
    | none => some s

/-- The context that the address of a repository shows: the last two segments of its path. -/
def ofRepository? (address : String) : Option AppContext := do
  let s := Text.dropEndWhile (· == '/') (Text.trim address.toList)
  let s := (Text.dropSuffix? ".git".toList s).getD s
  let path ← repositoryPath? s
  match (segments path).reverse with
  | project :: org :: _ => some (ofNames (String.ofList org) (String.ofList project))
  | _ => none

/-- The uid of the application that a package is published as. -/
def uidForPackage (c : AppContext) (package : String) : Except Error String :=
  let segment := uidSegment package
  if segment.isEmpty then .error (.invalidConfig ("Package name " ++ quoted package ++ " has no usable characters"))
  else .ok (c.uidOf segment)

end AppContext

/-- The fully qualified form of a uid; a short one needs a context and must leave something of its name. -/
def qualifyUid (uid : String) (context : Option AppContext) : Except Error String :=
  if isFullyQualified uid then .ok uid
  else
    match context with
    | none => .error (.missingOrgProject uid)
    | some c =>
      let segment := uidSegment uid
      if segment.isEmpty then .error (.missingOrgProject uid) else .ok (c.uidOf segment)

end Federation
