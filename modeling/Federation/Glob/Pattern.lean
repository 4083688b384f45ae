/-!
# Glob patterns

`?` stands for one character, `*` for any number, `[…]` for one of a set and `[!…]` for one outside it, and a
whole component `**` for any number of directories. A text is matched as it is, so `*` also matches slashes;
the walk over a disk (`Disk.glob`) matches component by component instead.

`matchTokens` says what a match is, `isMatch` decides it for all suffixes of the text at once, and `isMatch_eq`
says that they agree.
-/

namespace Federation

/-- The characters from one to another; a single character is the range to itself. -/
structure CharRange where
  first : Char
  last : Char
deriving DecidableEq

/-- One element of a pattern. -/
inductive GlobToken where
  | char (c : Char)
  | anyChar
  | anySequence
  /-- Any number of directories, each with its slash, or the whole rest of the text. -/
  | anyDirectories
  | within (ranges : List CharRange)
  | except (ranges : List CharRange)
deriving DecidableEq

/-- A pattern and the text it was read from. -/
structure GlobPattern where
  source : List Char
  tokens : List GlobToken

namespace GlobPattern

/-- The ranges in a set; a hyphen between two characters makes a range. -/
def ranges : List Char → List CharRange
  | a :: '-' :: b :: r => ⟨a, b⟩ :: ranges r
  | a :: r => ⟨a, a⟩ :: ranges r
  | [] => []

/-- Cuts a set at the first closing bracket after its first character, which may be a bracket itself. -/
def set? : List Char → Option (List Char × List Char)
  | [] => none
  | c :: r =>
    if r.contains ']' then some (c :: r.takeWhile (· ≠ ']'), (r.dropWhile (· ≠ ']')).tail) else none

/-- Adds the token of `**`, once for neighbours. -/
def addDirectories (done : List GlobToken) : List GlobToken :=
  match done with
  | .anyDirectories :: _ :: _ => done
  | _ => .anyDirectories :: done

/-- Reads tokens; `done` are the ones before, latest first, and `atStart` tells whether a component begins. -/
def read : (fuel : Nat) → (atStart : Bool) → (done : List GlobToken) → List Char → Option (List GlobToken)
  | 0, _, _, _ => none
  | _, _, done, [] => some done.reverse
  | fuel + 1, atStart, done, c :: r =>
    if c = '?' then read fuel false (.anyChar :: done) r
    else if c = '*' then
      let stars := 1 + (r.takeWhile (· == '*')).length
      let r := r.dropWhile (· == '*')
      if stars = 1 then read fuel false (.anySequence :: done) r
      else if stars = 2 ∧ atStart then
        match r with
        | [] => some (addDirectories done).reverse
        | '/' :: r => read fuel true (addDirectories done) r
        | _ => none
      else none
    else if c = '[' then
      match r with
      | '!' :: r => do
        let (s, r) ← set? r
        read fuel false (.except (ranges s) :: done) r
      | r => do
        let (s, r) ← set? r
        read fuel false (.within (ranges s) :: done) r
    else read fuel (c == '/') (.char c :: done) r

/-- The pattern that a text means, if it means one. -/
def parse? (s : List Char) : Option GlobPattern := (read (s.length + 1) true [] s).map (⟨s, ·⟩)

/-- A text as a pattern that matches exactly this text. -/
def escape (s : List Char) : List Char :=
  s.flatMap fun c => if c == '?' || c == '*' || c == '[' || c == ']' then ['[', c, ']'] else [c]

/-- Whether a set holds a character. -/
def inRanges (rs : List CharRange) (c : Char) : Bool := rs.any fun r => r.first ≤ c && c ≤ r.last

/-- The rests of a text behind its slashes. -/
def afterSlashes : List Char → List (List Char)
  | [] => []
  | c :: r => if c = '/' then r :: afterSlashes r else afterSlashes r

/-- The rests of a text, itself included. -/
def suffixes : List Char → List (List Char)
  | [] => [[]]
  | c :: r => (c :: r) :: suffixes r

/-- Whether a token stands for exactly one character, and for this one. -/
def matchChar : GlobToken → Char → Bool
  | .char a, c => a == c
  | .anyChar, _ => true
  | .within rs, c => inRanges rs c
  | .except rs, c => !inRanges rs c
  | .anySequence, _ => false
  | .anyDirectories, _ => false

/-- Whether tokens match a whole text. -/
def matchTokens : List GlobToken → List Char → Bool
  | [], s => s.isEmpty
  | .anySequence :: ts, s => (suffixes s).any (matchTokens ts)
  | .anyDirectories :: ts, s => matchTokens ts s || (afterSlashes s).any (matchTokens ts) || matchTokens ts []
  | _ :: _, [] => false
  | t :: ts, c :: r => matchChar t c && matchTokens ts r

/-- The answers for a token that stands for one character, before tokens with the answers `after`. All answers
are for the suffixes of one text, the longest first. -/
def charColumn (t : GlobToken) : List Char → (after : List Bool) → List Bool
  | [], _ => [false]
  | c :: r, after => (matchChar t c && after.tail.headD false) :: charColumn t r after.tail

/-- The answers for `*`. -/
def sequenceColumn : (after : List Bool) → List Bool
  | [] => []
  | b :: bs =>
    let r := sequenceColumn bs
    (b || r.headD false) :: r

/-- For each suffix, whether a tail that follows one of its slashes has the answer true. -/
def slashColumn : List Char → (after : List Bool) → List Bool
  | [], _ => [false]
  | c :: r, after =>
    let later := slashColumn r after.tail
    (c == '/' && after.tail.headD false || later.headD false) :: later

/-- The answers for `**`; the last answer of `after` is that for the empty text. -/
def directoriesColumn (s : List Char) (after : List Bool) : List Bool :=
  List.zipWith (fun b d => b || d || after.getLastD false) after (slashColumn s after)

/-- Whether tokens match, for all suffixes of a text at once. -/
def column : List GlobToken → List Char → List Bool
  | [], s => List.replicate s.length false ++ [true]
  | .anySequence :: ts, s => sequenceColumn (column ts s)
  | .anyDirectories :: ts, s => directoriesColumn s (column ts s)
  | t :: ts, s => charColumn t s (column ts s)

/-- Whether the pattern matches a whole text. -/
def isMatch (p : GlobPattern) (s : List Char) : Bool := (column p.tokens s).headD false

/-- The text that a pattern without wildcards stands for. -/
def literal? (p : GlobPattern) : Option (List Char) :=
  p.tokens.mapM fun
    | .char c => some c
    | _ => none

/-- Whether the pattern is `**`. -/
def isRecursive (p : GlobPattern) : Bool := p.tokens.contains .anyDirectories

theorem map_suffixes_nil_tokens (s : List Char) :
    (suffixes s).map (matchTokens []) = List.replicate s.length false ++ [true] := by
  induction s with
  | nil => rfl
  | cons c r ih =>
    rw [suffixes, List.map_cons, ih]
    simp [matchTokens, List.replicate_succ]

theorem suffixes_eq_cons (s : List Char) : ∃ t, suffixes s = s :: t := by
  cases s <;> simp [suffixes]

theorem sequenceColumn_map (f : List Char → Bool) (s : List Char) :
    sequenceColumn ((suffixes s).map f) = (suffixes s).map fun t => (suffixes t).any f := by
  induction s with
  | nil => simp [suffixes, sequenceColumn]
  | cons c r ih =>
    obtain ⟨t, ht⟩ := suffixes_eq_cons r
    simp only [suffixes, List.map_cons, sequenceColumn, ih]
    simp [ht]

theorem slashColumn_map (f : List Char → Bool) (s : List Char) :
    slashColumn s ((suffixes s).map f) = (suffixes s).map fun t => (afterSlashes t).any f := by
  induction s with
  | nil => rfl
  | cons c r ih =>
    obtain ⟨t, ht⟩ := suffixes_eq_cons r
    simp only [suffixes, List.map_cons, slashColumn, List.tail_cons, ih]
    by_cases h : c = '/' <;> simp [ht, afterSlashes, h]

theorem charColumn_map (t : GlobToken) (f : List Char → Bool) (s : List Char) :
    charColumn t s ((suffixes s).map f) =
      (suffixes s).map fun
        | [] => false
        | c :: r => matchChar t c && f r := by
  induction s with
  | nil => rfl
  | cons c r ih =>
    obtain ⟨u, hu⟩ := suffixes_eq_cons r
    simp only [suffixes, List.map_cons, charColumn, List.tail_cons, ih]
    simp [hu]

theorem getLastD_suffixes (f : List Char → Bool) (s : List Char) (b : Bool) :
    ((suffixes s).map f).getLastD b = f [] := by
  induction s generalizing b with
  | nil => rfl
  | cons c r ih =>
    simp only [suffixes, List.map_cons, List.getLastD_cons]
    exact ih _

/-- The answers of a column are those of `matchTokens`. -/
theorem column_eq_map (ts : List GlobToken) (s : List Char) : column ts s = (suffixes s).map (matchTokens ts) := by
  induction ts with
  | nil => exact (map_suffixes_nil_tokens s).symm
  | cons t ts ih =>
    cases t with
    | anySequence =>
      rw [column, ih, sequenceColumn_map]; rfl
    | anyDirectories =>
      rw [column, ih, directoriesColumn, slashColumn_map, getLastD_suffixes, List.zipWith_map, List.zipWith_self]
      rfl
    | _ =>
      simp only [column, ih, charColumn_map]
      apply List.map_congr_left
      intro u _
      cases u <;> simp [matchTokens]

/-- A match of the whole pattern is what the tokens say. -/
theorem isMatch_eq (p : GlobPattern) (s : List Char) : p.isMatch s = matchTokens p.tokens s := by
  obtain ⟨t, ht⟩ := suffixes_eq_cons s
  rw [isMatch, column_eq_map, ht]; rfl

end GlobPattern

end Federation
