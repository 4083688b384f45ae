import Federation.Proofs.Application.QualifiedUids
import Federation.Proofs.Url.Written

/-!
# Segments of uids

What a text leaves for a uid is its words, the maximal runs of letters and digits, in small letters and with a hyphen
between neighbours. They are written in one pass, which puts a hyphen wherever a gap begins, and the hyphens at the ends
are taken off again: `Text.dropHyphens_hyphenate` says that this comes to the same.

Words that are joined are found again in the text that they make (`Text.words_hyphenated`), so a segment shows its words
and nothing else of the text. `Text.IsSegment` says what segments look like; they are the texts that stay as they are.
-/

namespace Federation

namespace Text
variable {c : Char} {q s t : List Char} {qs ws : List (List Char)}

/-! ### Words -/

/-- A character that stands between words. -/
def isGap (c : Char) : Bool := !c.isAlphanum

/-- The maximal runs of letters and digits in a text. -/
def words (s : List Char) : List (List Char) := (pieces isGap s).filter fun t => !t.isEmpty

/-- Words in small letters, with a hyphen between neighbours. -/
def hyphenated (ws : List (List Char)) : List Char := join ['-'] (ws.map (List.map Char.toLower))

/-- A text that is all word. -/
def IsWord (s : List Char) : Prop := s ≠ [] ∧ ∀ c ∈ s, c.isAlphanum = true

theorem isWord_of_mem_words (h : t ∈ words s) : IsWord t := by
  obtain ⟨hpiece, hne⟩ := List.mem_filter.1 h
  refine ⟨by simpa using hne, fun c hc => ?_⟩
  simpa [isGap] using (mem_of_mem_pieces hpiece c hc).2

theorem words_append_cons (hc : c.isAlphanum = false) (s t : List Char) : words (s ++ c :: t) = words s ++ words t := by
  have hgap : isGap c = true := congrArg not hc
  rw [words, pieces_append_cons hgap, List.filter_append]
  rfl

theorem words_gaps_append (h : ∀ c ∈ s, c.isAlphanum = false) (t : List Char) : words (s ++ t) = words t := by
  induction s with
  | nil => rfl
  | cons c s ih =>
    obtain ⟨hc, hs⟩ := List.forall_mem_cons.1 h
    exact (words_append_cons hc [] (s ++ t)).trans (ih hs)

theorem words_append_gaps (h : ∀ c ∈ t, c.isAlphanum = false) (s : List Char) : words (s ++ t) = words s := by
  cases t with
  | nil => rw [List.append_nil]
  | cons c t =>
    obtain ⟨hc, ht⟩ := List.forall_mem_cons.1 h
    have hnone : words (t ++ []) = words [] := words_gaps_append ht []
    rw [List.append_nil] at hnone
    rw [words_append_cons hc, hnone]
    exact List.append_nil _

/-! ### Words that are joined -/

theorem small_toLower (h : c.isAlphanum = true) : c.toLower.isLower = true ∨ c.toLower.isDigit = true := by
  have hascii := lt_of_isAlphanum h
  revert h
  exact ascii_induction hascii (by decide)

theorem isAlphanum_of_small (h : c.isLower = true ∨ c.isDigit = true) : c.isAlphanum = true := by
  rcases h with hlower | hdigit
  · exact Bool.or_eq_true_iff.2 (.inl (Bool.or_eq_true_iff.2 (.inr hlower)))
  · exact Bool.or_eq_true_iff.2 (.inr hdigit)

theorem toLower_of_small (h : c.isLower = true ∨ c.isDigit = true) : c.toLower = c := by
  have hascii := lt_of_isAlphanum (isAlphanum_of_small h)
  revert h
  exact ascii_induction hascii (by decide)

theorem IsWord.toLower (h : IsWord s) : IsWord (s.map Char.toLower) :=
  ⟨mt List.map_eq_nil_iff.1 h.1, List.forall_mem_map.2 fun c hc => isAlphanum_toLower (h.2 c hc)⟩

theorem hyphenated_ne_nil (h : IsWord t) (ws : List (List Char)) : hyphenated (t :: ws) ≠ [] := by
  obtain ⟨c, r, rfl⟩ := List.exists_cons_of_ne_nil h.1
  rw [hyphenated, List.map_cons, List.map_cons, join_cons_cons]
  exact List.cons_ne_nil _ _

theorem pieces_hyphenated (hne : ws ≠ []) (h : ∀ t ∈ ws, IsWord t) :
    pieces isGap (hyphenated ws) = ws.map (List.map Char.toLower) := by
  refine pieces_join rfl (mt List.map_eq_nil_iff.1 hne) (List.forall_mem_map.2 fun t ht c hc => ?_)
  rw [isGap, (h t ht).toLower.2 c hc]
  rfl

theorem words_hyphenated (h : ∀ t ∈ ws, IsWord t) : words (hyphenated ws) = ws.map (List.map Char.toLower) := by
  by_cases hne : ws = []
  · subst hne
    rfl
  · rw [words, pieces_hyphenated hne h, List.filter_eq_self]
    exact List.forall_mem_map.2 fun t ht => by simpa using (h t ht).1

/-! ### The pass over a text -/

theorem not_hyphen_of_isAlphanum (h : c.isAlphanum = true) : (c.toLower == '-') = false := by
  refine beq_eq_false_iff_ne.2 fun hyphen => ?_
  have hlower := isAlphanum_toLower h
  rw [hyphen] at hlower
  exact absurd hlower (by decide)

theorem hyphenate_letter (b : Bool) (hc : c.isAlphanum = true) (s : List Char) :
    hyphenate b (c :: s) = c.toLower :: hyphenate false s := by
  rw [hyphenate, if_pos hc]

theorem hyphenate_gap (b : Bool) (hc : c.isAlphanum = false) (s : List Char) :
    hyphenate b (c :: s) = if b then hyphenate true s else '-' :: hyphenate true s := by
  rw [hyphenate, hc, if_neg Bool.false_ne_true]

/-- A pass that begins behind a gap writes no hyphen in front. -/
theorem dropWhile_hyphenate (b : Bool) (s : List Char) :
    (hyphenate b s).dropWhile (· == '-') = hyphenate true s := by
  induction s generalizing b with
  | nil => rfl
  | cons c r ih =>
    cases hc : c.isAlphanum with
    | true =>
      rw [hyphenate_letter b hc, hyphenate_letter true hc]
      exact List.dropWhile_cons_of_neg (by simp [not_hyphen_of_isAlphanum hc])
    | false =>
      rw [hyphenate_gap b hc, hyphenate_gap true hc, if_pos rfl]
      cases b with
      | true => exact ih true
      | false => exact (List.dropWhile_cons_of_pos rfl).trans (ih true)

/-- Within a word the pass goes on with it, whatever is left of it; behind a gap it begins with the next one. -/
theorem dropEndWhile_hyphenate (h : pieces isGap s = q :: qs) :
    dropEndWhile (· == '-') (hyphenate false s) = hyphenated (q :: qs.filter fun t => !t.isEmpty) ∧
    dropEndWhile (· == '-') (hyphenate true s) = hyphenated (words s) := by
  -- both at once, since a gap ends a word and a letter ends a gap
  induction s generalizing q qs with
  | nil =>
    cases h
    exact ⟨rfl, rfl⟩
  | cons c r ih =>
    obtain ⟨q', qs', hr⟩ := List.exists_cons_of_ne_nil (pieces_ne_nil isGap r)
    obtain ⟨hwithin, hbehind⟩ := ih hr
    cases hc : c.isAlphanum with
    | true =>
      have hgap : isGap c = false := congrArg not hc
      have hpass (b : Bool) : dropEndWhile (· == '-') (hyphenate b (c :: r)) =
          hyphenated ((c :: q') :: qs'.filter fun t => !t.isEmpty) := by
        rw [hyphenate_letter b hc, dropEndWhile_cons, not_hyphen_of_isAlphanum hc, hwithin]
        simp [hyphenated, join_cons_cons]
      rw [pieces, hgap, hr] at h
      cases h
      refine ⟨hpass false, (hpass true).trans ?_⟩
      rw [words, pieces, hgap, hr, List.filter_cons_of_pos (by simp)]
    | false =>
      have hgap : isGap c = true := congrArg not hc
      have hwords : words (c :: r) = words r := words_append_cons hc [] r
      rw [pieces, hgap] at h
      cases h
      rw [hwords, hyphenate_gap false hc, hyphenate_gap true hc]
      refine ⟨?_, hbehind⟩
      show dropEndWhile (· == '-') ('-' :: hyphenate true r) = hyphenated ([] :: words r)
      rw [dropEndWhile_cons, hbehind]
      cases hnext : words r with
      | nil => rfl
      | cons t ws =>
        have ht : IsWord t := isWord_of_mem_words (hnext ▸ List.mem_cons_self)
        rw [if_neg fun hnil => hyphenated_ne_nil ht ws hnil.1]
        rfl

theorem dropHyphens_hyphenate (s : List Char) : dropHyphens (hyphenate false s) = hyphenated (words s) := by
  obtain ⟨q, qs, h⟩ := List.exists_cons_of_ne_nil (pieces_ne_nil isGap s)
  rw [dropHyphens, dropWhile_hyphenate, (dropEndWhile_hyphenate h).2]

/-! ### The form of segments -/

/-- The form of a segment: small letters, digits and hyphens, of which none stands at an end or beside another. -/
structure IsSegment (s : List Char) : Prop where
  chars : ∀ c ∈ s, (c.isLower = true ∨ c.isDigit = true) ∨ c = '-'
  first : ∀ back, s ≠ '-' :: back
  last : ∀ front, s ≠ front ++ ['-']
  single : ∀ front back, s ≠ front ++ '-' :: '-' :: back

theorem isSegment_hyphenated (h : ∀ t ∈ ws, IsWord t) : IsSegment (hyphenated ws) := by
  -- on neither side of a hyphen there is an empty piece
  have hcut {front back : List Char} (hs : hyphenated ws = front ++ '-' :: back) :
      [] ∉ pieces isGap front ++ pieces isGap back := by
    have hne : ws ≠ [] := by
      rintro rfl
      simp [hyphenated, join] at hs
    have hpieces : pieces isGap (front ++ '-' :: back) = pieces isGap front ++ pieces isGap back :=
      pieces_append_cons rfl front back
    rw [← hpieces, ← hs, pieces_hyphenated hne h]
    intro hnil
    obtain ⟨t, ht, hempty⟩ := List.mem_map.1 hnil
    exact (h t ht).toLower.1 hempty
  constructor
  · refine forall_mem_join (List.forall_mem_singleton.2 (.inr rfl)) ?_
    refine List.forall_mem_map.2 fun t ht => List.forall_mem_map.2 fun c hc => .inl ?_
    exact small_toLower ((h t ht).2 c hc)
  · intro back hs
    have hfront : hyphenated ws = [] ++ '-' :: back := hs
    exact hcut hfront (List.mem_append_left _ List.mem_cons_self)
  · intro front hs
    exact hcut hs (List.mem_append_right _ List.mem_cons_self)
  · intro front back hs
    exact hcut hs (List.mem_append_right _ List.mem_cons_self)

/-- The pass leaves such a text as it is; behind a gap only if no hyphen follows. -/
theorem hyphenate_eq_self (b : Bool) (hchars : ∀ c ∈ s, (c.isLower = true ∨ c.isDigit = true) ∨ c = '-')
    (hsingle : ∀ front back, s ≠ front ++ '-' :: '-' :: back) (hfirst : b = true → ∀ back, s ≠ '-' :: back) :
    hyphenate b s = s := by
  induction s generalizing b with
  | nil => rfl
  | cons c r ih =>
    obtain ⟨hc, hr⟩ := List.forall_mem_cons.1 hchars
    have hrest : ∀ front back, r ≠ front ++ '-' :: '-' :: back := by
      rintro front back rfl
      exact hsingle (c :: front) back rfl
    rcases hc with hsmall | rfl
    · rw [hyphenate_letter b (isAlphanum_of_small hsmall), toLower_of_small hsmall, ih false hr hrest nofun]
    · obtain rfl : b = false := Bool.eq_false_iff.2 fun hb => hfirst hb r rfl
      have hnext : ∀ back, r ≠ '-' :: back := by
        rintro back rfl
        exact hsingle [] back rfl
      rw [hyphenate_gap false rfl, ih true hr hrest fun _ => hnext]
      rfl

theorem IsSegment.dropHyphens_hyphenate (h : IsSegment s) : dropHyphens (hyphenate false s) = s := by
  have hfirst : ∀ c ∈ s.head?, (c == '-') = false := by
    refine fun c hc => beq_eq_false_iff_ne.2 ?_
    rintro rfl
    obtain ⟨back, hs⟩ := List.head?_eq_some_iff.1 hc
    exact h.first back hs
  have hlast : ∀ c ∈ s.getLast?, (c == '-') = false := by
    refine fun c hc => beq_eq_false_iff_ne.2 ?_
    rintro rfl
    obtain ⟨front, hs⟩ := List.getLast?_eq_some_iff.1 hc
    exact h.last front hs
  rw [hyphenate_eq_self false h.chars h.single nofun, dropHyphens, dropWhile_of_first hfirst,
    dropEndWhile_of_last hlast]

end Text

/-! ### Segments of names -/

variable {s t : String}

theorem toList_uidSegment (s : String) : (uidSegment s).toList = Text.hyphenated (Text.words s.toList) := by
  rw [uidSegment, String.toList_ofList, Text.dropHyphens_hyphenate]

theorem isSegment_uidSegment (s : String) : Text.IsSegment (uidSegment s).toList :=
  toList_uidSegment s ▸ Text.isSegment_hyphenated fun _ => Text.isWord_of_mem_words

theorem uidSegment_eq_self_iff : uidSegment s = s ↔ Text.IsSegment s.toList := by
  refine ⟨fun h => h ▸ isSegment_uidSegment s, fun h => ?_⟩
  rw [uidSegment, h.dropHyphens_hyphenate, String.ofList_toList]

/-- What stands in a text besides its words is lost, and nothing else is. -/
theorem uidSegment_eq_iff : uidSegment s = uidSegment t ↔
    (Text.words s.toList).map (List.map Char.toLower) = (Text.words t.toList).map (List.map Char.toLower) := by
  rw [← String.toList_inj, toList_uidSegment, toList_uidSegment]
  refine ⟨fun h => ?_, fun h => by rw [Text.hyphenated, Text.hyphenated, h]⟩
  rw [← Text.words_hyphenated fun _ => Text.isWord_of_mem_words, h,
    Text.words_hyphenated fun _ => Text.isWord_of_mem_words]

/-- The segment of a text is its maximal runs of letters and digits, in small letters and joined by single hyphens. It
has the form of a segment, and a text of that form is its own segment. It is empty just when the text has no letter and
no digit, and two texts have the same one just when they have the same runs, up to the case of letters; so nothing that
is put around a text changes it but letters and digits. -/
theorem uidSegment_eq_joined_words (s : String) :
    uidSegment s = String.ofList (Text.join ['-'] ((Text.words s.toList).map (List.map Char.toLower))) ∧
    Text.IsSegment (uidSegment s).toList ∧ '.' ∉ (uidSegment s).toList ∧ '/' ∉ (uidSegment s).toList ∧
    (uidSegment s = "" ↔ ∀ c ∈ s.toList, c.isAlphanum = false) ∧
    uidSegment (uidSegment s) = uidSegment s ∧ (uidSegment s = s ↔ Text.IsSegment s.toList) ∧
    (∀ t, uidSegment s = uidSegment t ↔
      (Text.words s.toList).map (List.map Char.toLower) = (Text.words t.toList).map (List.map Char.toLower)) ∧
    ∀ front back : String, (∀ c ∈ front.toList ++ back.toList, c.isAlphanum = false) →
      uidSegment (front ++ s ++ back) = uidSegment s := by
  have hform := isSegment_uidSegment s
  refine ⟨?_, hform, fun hpoint => ?_, fun hslash => ?_, ?_, uidSegment_eq_self_iff.2 hform, uidSegment_eq_self_iff,
    fun t => uidSegment_eq_iff, fun front back hgaps => ?_⟩
  · rw [← String.toList_inj, toList_uidSegment, String.toList_ofList]
    rfl
  · exact absurd (hform.chars _ hpoint) (by decide)
  · exact absurd (hform.chars _ hslash) (by decide)
  · rw [← not_iff_not, ← ne_eq, uidSegment_ne_empty_iff, IsUsable]
    simp
  · obtain ⟨hfront, hback⟩ := List.forall_mem_append.1 hgaps
    rw [uidSegment_eq_iff, String.toList_append, String.toList_append, Text.words_append_gaps hback,
      Text.words_gaps_append hfront]

/-- A scoped name with a capital and other letters around it. -/
theorem uidSegment_eq_joined_words_of_scoped :
    uidSegment "@acme/Button_Kit" = "acme-button-kit" ∧ uidSegment "日本 @acme/Button_Kit--" = "acme-button-kit" := by
  have h : uidSegment "@acme/Button_Kit" = "acme-button-kit" := by rfl
  have hgaps : ("日本 ".toList ++ "--".toList).all (fun c => c.isAlphanum == false) = true := by rfl
  obtain ⟨-, -, -, -, -, -, -, -, haround⟩ := uidSegment_eq_joined_words "@acme/Button_Kit"
  exact ⟨h, (haround "日本 " "--" fun c hc => beq_iff_eq.1 (List.all_eq_true.1 hgaps c hc)).trans h⟩

end Federation
