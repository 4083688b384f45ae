import Federation.Glob.Pattern
import Federation.Proofs.Path.Names

/-!
# Escaped texts as patterns

The pattern that is read from an escaped text matches this text and nothing else (`parse?_escape`, `isMatch_exact`).
Whether a pattern can be read does not depend on what was read before it, as long as a component begins there; so an
escaped path in front of a pattern changes nothing (`isSome_parse?_below`), and its names are read one by one
(`rawNames_escape`).
-/

namespace Federation.GlobPattern

variable {n s s' r p : List Char} {c : Char} {ts done done' : List GlobToken} {pat : GlobPattern} {fuel fuel' : Nat}
  {atStart : Bool}

/-! ### Patterns without wildcards -/

theorem matchTokens_map {t : Char → GlobToken} (ht : ∀ a c, matchChar (t a) c = true ↔ c = a) :
    matchTokens (n.map t) s = true ↔ s = n := by
  have hchar (a : Char) : t a ≠ .anySequence ∧ t a ≠ .anyDirectories := by
    constructor <;> intro h <;> have := (ht a a).2 rfl <;> rw [h] at this <;> cases this
  induction n generalizing s with
  | nil => cases s <;> simp [matchTokens]
  | cons a n ih =>
    rw [List.map_cons]
    cases s with
    | nil => rw [matchTokens.eq_4 _ _ (hchar a).1 (hchar a).2]; simp
    | cons c s =>
      rw [matchTokens.eq_5 _ _ _ _ (hchar a).1 (hchar a).2, Bool.and_eq_true, ht, List.cons.injEq]
      exact and_congr_right fun _ => ih

theorem tokens_of_literal? (h : pat.literal? = some n) : pat.tokens = n.map .char := by
  rw [literal?] at h
  generalize pat.tokens = ts at h ⊢
  induction ts generalizing n with
  | nil => cases h; rfl
  | cons t ts ih =>
    rw [List.mapM_cons] at h
    cases t with
    | char c =>
      obtain ⟨c', hc, hrest⟩ := Option.bind_eq_some_iff.1 h
      obtain ⟨r, hr, hn⟩ := Option.bind_eq_some_iff.1 hrest
      obtain rfl : c = c' := Option.some.inj hc
      obtain rfl : c :: r = n := Option.some.inj hn
      rw [ih hr]
      rfl
    | _ => cases h

theorem isMatch_of_literal? (h : pat.literal? = some n) : pat.isMatch s = true ↔ s = n := by
  rw [isMatch_eq, tokens_of_literal? h]
  exact matchTokens_map fun a c => beq_iff_eq.trans eq_comm

theorem isRecursive_of_literal? (h : pat.literal? = some n) : pat.isRecursive = false := by
  rw [isRecursive, tokens_of_literal? h]
  simp

/-! ### The pattern of an escaped text -/

/-- Whether a character means something else in a pattern. -/
def isSpecial (c : Char) : Bool := c == '?' || c == '*' || c == '[' || c == ']'

/-- The token of a character that is escaped if it has to be. -/
def exactToken (c : Char) : GlobToken := if isSpecial c then .within [⟨c, c⟩] else .char c

/-- The pattern that matches exactly one text. -/
def exact (n : List Char) : GlobPattern := ⟨escape n, n.map exactToken⟩

theorem escape_cons (c : Char) (n : List Char) :
    escape (c :: n) = (if isSpecial c then ['[', c, ']'] else [c]) ++ escape n := rfl

theorem escape_append (s t : List Char) : escape (s ++ t) = escape s ++ escape t := List.flatMap_append

theorem isMatch_exact : (exact n).isMatch s = true ↔ s = n := by
  rw [isMatch_eq]
  refine matchTokens_map fun a c => ?_
  unfold exactToken
  split
  · simp only [matchChar, inRanges, List.any_cons, List.any_nil, Bool.or_false, Bool.and_eq_true, decide_eq_true_eq]
    constructor
    · rintro ⟨hac, hca⟩
      exact Char.le_antisymm hca hac
    · rintro rfl
      exact ⟨Char.le_refl _, Char.le_refl _⟩
  · exact beq_iff_eq.trans eq_comm

theorem isRecursive_exact (n : List Char) : (exact n).isRecursive = false := by
  rw [isRecursive, exact]
  simp only [List.contains_eq_mem, decide_eq_false_iff_not, List.mem_map, not_exists, not_and]
  intro c _
  unfold exactToken
  split <;> exact nofun

/-- A text is looked up as it is, unless it holds a special character. -/
theorem literal?_exact (n : List Char) :
    (exact n).literal? = some n ∨ (exact n).literal? = none ∧ ∃ c ∈ n, isSpecial c = true := by
  rw [literal?, exact]
  dsimp only
  induction n with
  | nil => exact .inl rfl
  | cons c n ih =>
    rw [List.map_cons, List.mapM_cons]
    cases hc : isSpecial c with
    | true => exact .inr ⟨by rw [exactToken, hc]; rfl, c, List.mem_cons_self, hc⟩
    | false =>
      rw [exactToken, hc, if_neg Bool.false_ne_true]
      rcases ih with hn | ⟨hn, c', hc', hspecial⟩
      · exact .inl (by rw [hn]; rfl)
      · exact .inr ⟨by rw [hn]; rfl, c', List.mem_cons_of_mem _ hc', hspecial⟩

theorem read_char (hc : isSpecial c = false) (fuel : Nat) (atStart : Bool) (done : List GlobToken) (r : List Char) :
    read (fuel + 1) atStart done (c :: r) = read fuel (c == '/') (.char c :: done) r := by
  simp only [isSpecial, Bool.or_eq_false_iff, beq_eq_false_iff_ne, ne_eq] at hc
  obtain ⟨⟨⟨hany, hseq⟩, hset⟩, -⟩ := hc
  show (if c = '?' then _ else if c = '*' then _ else if c = '[' then _ else _) = _
  rw [if_neg hany, if_neg hseq, if_neg hset]

theorem read_within (hr : ∀ t, r ≠ '!' :: t) (fuel : Nat) (atStart : Bool) (done : List GlobToken) :
    read (fuel + 1) atStart done ('[' :: r) =
      (set? r).bind fun set => read fuel false (.within (ranges set.1) :: done) set.2 := by
  rw [read, if_neg (by decide), if_neg (by decide), if_pos rfl]
  · rfl
  · exact hr

theorem read_special (hc : isSpecial c = true) (fuel : Nat) (atStart : Bool) (done : List GlobToken) (r : List Char) :
    read (fuel + 1) atStart done ('[' :: c :: ']' :: r) = read fuel false (.within [⟨c, c⟩] :: done) r := by
  have hset : set? (c :: ']' :: r) = some ([c], r) := by
    simp [set?]
  -- `!` is not special, so the set is not one to leave out
  have hbang (t : List Char) : c :: ']' :: r ≠ '!' :: t := by
    intro h
    rw [(List.cons.inj h).1] at hc
    cases hc
  rw [read_within hbang, hset]
  rfl

/-- Each character of an escaped text takes one step and gives one token. -/
theorem read_escape (n : List Char) (fuel : Nat) (atStart : Bool) (done : List GlobToken) (r : List Char) :
    ∃ atStart', read (fuel + n.length) atStart done (escape n ++ r) =
      read fuel atStart' ((n.map exactToken).reverse ++ done) r := by
  induction n generalizing atStart done with
  | nil => exact ⟨atStart, rfl⟩
  | cons c n ih =>
    have htokens : ((c :: n).map exactToken).reverse ++ done = (n.map exactToken).reverse ++ exactToken c :: done := by
      rw [List.map_cons, List.reverse_cons, List.append_assoc, List.singleton_append]
    rw [escape_cons, htokens, List.length_cons, ← Nat.add_assoc]
    cases hc : isSpecial c with
    | true =>
      rw [if_pos rfl, exactToken, hc, if_pos rfl]
      show ∃ _, read _ _ _ ('[' :: c :: ']' :: (escape n ++ r)) = _
      rw [read_special hc]
      exact ih _ _
    | false =>
      rw [if_neg Bool.false_ne_true, exactToken, hc, if_neg Bool.false_ne_true]
      show ∃ _, read _ _ _ (c :: (escape n ++ r)) = _
      rw [read_char hc]
      exact ih _ _

theorem length_le_length_escape (n : List Char) : n.length ≤ (escape n).length := by
  induction n with
  | nil => exact Nat.le_refl _
  | cons c n ih =>
    rw [escape_cons, List.length_append, List.length_cons]
    split <;> simp only [List.length_cons, List.length_nil] <;> omega

theorem parse?_escape (n : List Char) : parse? (escape n) = some (exact n) := by
  have hlength := length_le_length_escape n
  obtain ⟨fuel, hfuel⟩ : ∃ fuel, (escape n).length + 1 = fuel + 1 + n.length := ⟨(escape n).length - n.length, by omega⟩
  obtain ⟨atStart, hread⟩ := read_escape n (fuel + 1) true [] []
  rw [List.append_nil, List.append_nil] at hread
  rw [parse?, hfuel, hread]
  show some (GlobPattern.mk (escape n) (n.map exactToken).reverse.reverse) = _
  rw [List.reverse_reverse]
  rfl

/-! ### Patterns below an escaped path -/

theorem length_of_set? {set : List Char × List Char} (h : set? s = some set) : set.2.length ≤ s.length := by
  cases s with
  | nil => cases h
  | cons c s =>
    rw [set?] at h
    split at h
    · cases h
      have := (List.dropWhile_suffix (p := fun c => decide (c ≠ ']')) (l := s)).length_le
      simp only [List.length_tail, List.length_cons]
      omega
    · cases h

theorem mem_addDirectories (done : List GlobToken) : .anyDirectories ∈ addDirectories done := by
  unfold addDirectories
  split <;> exact List.mem_cons_self

/-- Whether some token is not for one fixed character. -/
def HasWildcard (ts : List GlobToken) : Prop := ∃ t ∈ ts, ∀ x, t ≠ .char x

/-- What is read behind two stars at the start of a component. -/
def readDirectories (fuel : Nat) (done : List GlobToken) : List Char → Option (List GlobToken)
  | [] => some (addDirectories done).reverse
  | '/' :: r => read fuel true (addDirectories done) r
  | _ => none

theorem read_star (fuel : Nat) (atStart : Bool) (done : List GlobToken) (r : List Char) :
    read (fuel + 1) atStart done ('*' :: r) =
      if 1 + (r.takeWhile (· == '*')).length = 1 then
        read fuel false (.anySequence :: done) (r.dropWhile (· == '*'))
      else if 1 + (r.takeWhile (· == '*')).length = 2 ∧ atStart = true then
        readDirectories fuel done (r.dropWhile (· == '*'))
      else none := rfl

theorem readDirectories_cases (r : List Char) :
    r = [] ∨ (∃ r', r = '/' :: r') ∨ ∀ fuel done, readDirectories fuel done r = none := by
  cases r with
  | nil => exact .inl rfl
  | cons c r =>
    by_cases hc : c = '/'
    · exact .inr (.inl ⟨r, by rw [hc]⟩)
    · refine .inr (.inr fun fuel done => ?_)
      rw [readDirectories.eq_3 _ _ _ (List.cons_ne_nil c r)]
      intro r' h
      exact hc (List.cons.inj h).1

/-- What one step of reading does, whatever tokens were read before: it fails, or it adds a wildcard, which may be the
end of the text, or it adds one character. -/
inductive ReadStep (atStart : Bool) (c : Char) (r : List Char) : Prop
  | fails (step : ∀ fuel done, read (fuel + 1) atStart done (c :: r) = none)
  | ends (step : ∀ fuel done, ∃ ts, HasWildcard ts ∧ read (fuel + 1) atStart done (c :: r) = some ts)
  | wildcard (atStart' : Bool) (r' : List Char) (length_le : r'.length ≤ r.length)
    (step : ∀ fuel done, ∃ done', HasWildcard done' ∧
      read (fuel + 1) atStart done (c :: r) = read fuel atStart' done' r')
  | char (step : ∀ fuel done, read (fuel + 1) atStart done (c :: r) = read fuel (c == '/') (.char c :: done) r)

theorem hasWildcard_cons {t : GlobToken} (ht : ∀ x, t ≠ .char x) (done : List GlobToken) : HasWildcard (t :: done) :=
  ⟨t, List.mem_cons_self, ht⟩

theorem hasWildcard_addDirectories (done : List GlobToken) : HasWildcard (addDirectories done) :=
  ⟨.anyDirectories, mem_addDirectories done, fun _ h => by cases h⟩

theorem HasWildcard.reverse (h : HasWildcard ts) : HasWildcard ts.reverse := by
  obtain ⟨t, ht, hx⟩ := h
  exact ⟨t, List.mem_reverse.2 ht, hx⟩

theorem readStep_star (atStart : Bool) (r : List Char) : ReadStep atStart '*' r := by
  have hread (fuel : Nat) (done : List GlobToken) := read_star fuel atStart done r
  have hlength := (List.dropWhile_suffix (p := (· == '*')) (l := r)).length_le
  split at hread
  · refine .wildcard false _ hlength fun fuel done => ⟨_, ?_, hread fuel done⟩
    exact hasWildcard_cons (fun _ h => by cases h) done
  · split at hread
    · rcases readDirectories_cases (r.dropWhile (· == '*')) with hr | ⟨r', hr⟩ | hnone
      · refine .ends fun fuel done => ⟨_, (hasWildcard_addDirectories done).reverse, ?_⟩
        rw [hread, hr]
        rfl
      · rw [hr, List.length_cons] at hlength
        refine .wildcard true r' (Nat.le_of_succ_le hlength) fun fuel done => ⟨_, hasWildcard_addDirectories done, ?_⟩
        rw [hread, hr]
        rfl
      · exact .fails fun fuel done => (hread fuel done).trans (hnone fuel done)
    · exact .fails hread

/-- A set that is read is one token; `t` is where it begins. -/
theorem readStep_set {t : List Char} {token : List CharRange → GlobToken} (ht : t.length ≤ r.length)
    (htoken : ∀ rs x, token rs ≠ .char x)
    (hread : ∀ fuel done, read (fuel + 1) atStart done ('[' :: r) =
      (set? t).bind fun set => read fuel false (token (ranges set.1) :: done) set.2) : ReadStep atStart '[' r := by
  cases hs : set? t with
  | none =>
    refine .fails fun fuel done => ?_
    rw [hread, hs]
    rfl
  | some set =>
    refine .wildcard false set.2 (Nat.le_trans (length_of_set? hs) ht) fun fuel done =>
      ⟨_, hasWildcard_cons (htoken (ranges set.1)) done, ?_⟩
    rw [hread, hs]
    rfl

theorem readStep_bracket (atStart : Bool) (r : List Char) : ReadStep atStart '[' r := by
  by_cases hbang : ∃ t, r = '!' :: t
  · obtain ⟨t, rfl⟩ := hbang
    have hexcept (rs : List CharRange) (x : Char) : GlobToken.except rs ≠ .char x := by
      intro h
      cases h
    exact readStep_set (Nat.le_succ _) hexcept fun _ _ => rfl
  · have hwithin (rs : List CharRange) (x : Char) : GlobToken.within rs ≠ .char x := by
      intro h
      cases h
    exact readStep_set (Nat.le_refl _) hwithin fun fuel done =>
      read_within (fun t h => hbang ⟨t, h⟩) fuel atStart done

theorem readStep (atStart : Bool) (c : Char) (r : List Char) : ReadStep atStart c r := by
  by_cases hany : c = '?'
  · subst hany
    exact .wildcard false r (Nat.le_refl _) fun fuel done =>
      ⟨.anyChar :: done, hasWildcard_cons (fun _ h => by cases h) done, rfl⟩
  by_cases hseq : c = '*'
  · subst hseq
    exact readStep_star atStart r
  by_cases hset : c = '['
  · subst hset
    exact readStep_bracket atStart r
  · refine .char fun fuel done => ?_
    show (if c = '?' then _ else if c = '*' then _ else if c = '[' then _ else _) = _
    rw [if_neg hany, if_neg hseq, if_neg hset]

/-- Whether tokens can be read depends only on the text and on whether a component begins. -/
theorem isSome_read (hfuel : s.length < fuel) (hfuel' : s.length < fuel') :
    (read fuel atStart done s).isSome = (read fuel' atStart done' s).isSome := by
  induction fuel generalizing fuel' atStart done done' s with
  | zero => cases hfuel
  | succ fuel ih =>
    obtain ⟨fuel', rfl⟩ := Nat.exists_eq_succ_of_ne_zero (Nat.ne_zero_of_lt hfuel')
    cases s with
    | nil => rfl
    | cons c r =>
      rw [List.length_cons] at hfuel hfuel'
      -- both reads take a step of the same kind, whatever they read before
      cases readStep atStart c r with
      | fails hnone => rw [hnone, hnone]
      | ends hsome =>
        obtain ⟨ts, -, h⟩ := hsome fuel done
        obtain ⟨ts', -, h'⟩ := hsome fuel' done'
        rw [h, h']
        rfl
      | wildcard atStart' r' hr' hread =>
        obtain ⟨done₁, -, h⟩ := hread fuel done
        obtain ⟨done₂, -, h'⟩ := hread fuel' done'
        rw [h, h']
        exact ih (by omega) (by omega)
      | char hread =>
        rw [hread, hread]
        exact ih (by omega) (by omega)

theorem read_of_literal (h : read fuel atStart done s = some ts) (hts : ¬HasWildcard ts) :
    ts = done.reverse ++ s.map .char := by
  induction fuel generalizing atStart done s with
  | zero => cases h
  | succ fuel ih =>
    cases s with
    | nil =>
      cases h
      simp
    | cons c r =>
      cases readStep atStart c r with
      | fails hnone => cases h.symm.trans (hnone fuel done)
      | ends hsome =>
        obtain ⟨ts', hts', h'⟩ := hsome fuel done
        cases h.symm.trans h'
        exact absurd hts' hts
      | wildcard atStart' r' hr' hread =>
        obtain ⟨done', ⟨t, ht, hx⟩, h'⟩ := hread fuel done
        have hread := ih (h'.symm.trans h)
        exact absurd ⟨t, hread ▸ List.mem_append_left _ (List.mem_reverse.2 ht), hx⟩ hts
      | char hread =>
        rw [ih ((hread fuel done).symm.trans h), List.reverse_cons, List.append_assoc]
        rfl

theorem literal?_parse? (h : parse? s = some pat) (hn : pat.literal? = some n) : n = s := by
  obtain ⟨ts, hts, rfl⟩ := Option.map_eq_some_iff.1 h
  have htokens : ts = n.map .char := tokens_of_literal? hn
  have hnot : ¬HasWildcard ts := by
    rintro ⟨t, ht, hx⟩
    obtain ⟨c, -, rfl⟩ := List.mem_map.1 (htokens ▸ ht)
    exact hx c rfl
  have hsame : n.map GlobToken.char = s.map .char := by
    rw [← htokens, read_of_literal hts hnot]
    rfl
  exact (List.map_inj_right fun _ _ => GlobToken.char.inj).1 hsame

theorem isSome_parse?_below (p s : List Char) : (parse? (escape p ++ '/' :: s)).isSome = (parse? s).isSome := by
  have hlength := length_le_length_escape p
  obtain ⟨fuel, hfuel, hs⟩ : ∃ fuel, (escape p ++ '/' :: s).length + 1 = fuel + 1 + p.length ∧ s.length < fuel :=
    ⟨(escape p).length - p.length + s.length + 1, by rw [List.length_append, List.length_cons]; omega, by omega⟩
  obtain ⟨atStart, hread⟩ := read_escape p (fuel + 1) true [] ('/' :: s)
  rw [parse?, parse?, Option.isSome_map, Option.isSome_map, hfuel, hread, read_char rfl]
  exact isSome_read hs (Nat.lt_succ_self _)

/-! ### The names of an escaped path -/

theorem slash_not_mem_escape (h : '/' ∉ n) : '/' ∉ escape n := by
  rw [escape, List.mem_flatMap]
  rintro ⟨c, hc, hmem⟩
  split at hmem
  · simp only [List.mem_cons, List.not_mem_nil, or_false] at hmem
    rcases hmem with h' | rfl | h'
    · cases h'
    · exact h hc
    · cases h'
  · rw [List.mem_singleton.1 hmem] at h
    exact h hc

theorem escape_join (ns : List (List Char)) : escape (Text.join ['/'] ns) = Text.join ['/'] (ns.map escape) := by
  induction ns with
  | nil => rfl
  | cons n ns ih =>
    cases ns with
    | nil => rfl
    | cons m ns =>
      show escape (n ++ ['/'] ++ Text.join ['/'] (m :: ns)) =
        escape n ++ ['/'] ++ Text.join ['/'] ((m :: ns).map escape)
      rw [escape_append, escape_append, ih]
      rfl

theorem rawNames_escape (p : List Char) : Path.rawNames (escape p) = (Path.rawNames p).map escape := by
  rw [← Path.join_rawNames p, escape_join, Path.join_rawNames]
  refine Path.rawNames_join (by simpa using Path.rawNames_ne_nil p) fun n hn => ?_
  obtain ⟨m, hm, rfl⟩ := List.mem_map.1 hn
  exact slash_not_mem_escape (Path.slash_not_mem_of_mem_rawNames hm)

theorem isIdle_escape (n : List Char) : Path.isIdle (escape n) = Path.isIdle n := by
  have hlength := length_le_length_escape n
  match n with
  | [] => rfl
  | [c] =>
    rw [escape_cons]
    split
    · rename_i hc
      rw [Bool.eq_iff_iff, Path.isIdle_iff, Path.isIdle_iff]
      refine ⟨by simp, fun h => ?_⟩
      rcases h with h | h
      · cases h
      · cases h
        cases hc
    · rfl
  | a :: b :: n =>
    have hlong {m : List Char} (hm : 2 ≤ m.length) : Path.isIdle m = false := by
      rw [← Bool.not_eq_true, Path.isIdle_iff]
      rintro (rfl | rfl) <;> simp at hm
    have htwo : 2 ≤ (a :: b :: n).length := Nat.le_add_left 2 n.length
    rw [hlong htwo, hlong (Nat.le_trans htwo hlength)]

end Federation.GlobPattern
