import Mathlib.Data.List.TakeWhile
import Federation.Text.Blank
import Federation.Text.Split

/-!
# The ends of a text

What is dropped at an end of a text is a run of characters of one kind, or a fixed ending. A text that neither begins
nor ends with such characters is what is left when any number of them is put around it (`Text.trim_append`).
-/

namespace Federation.Text
variable {p : Char → Bool} {c : Char} {r s t suf : List Char}

/-! ### Runs of characters -/

/-- A text that does not begin with what is dropped stays. -/
theorem dropWhile_of_first (h : ∀ c ∈ s.head?, p c = false) : s.dropWhile p = s := by
  cases s with
  | nil => rfl
  | cons c r =>
    refine List.dropWhile_cons_of_neg ?_
    simp [h c rfl]

theorem dropWhile_eq_self (h : ∀ c ∈ s, p c = false) : s.dropWhile p = s :=
  dropWhile_of_first fun c hc => h c (List.mem_of_mem_head? hc)

theorem dropEndWhile_eq_self (h : ∀ c ∈ s, p c = false) : dropEndWhile p s = s := by
  have hback : ∀ c ∈ s.reverse, p c = false := fun c hc => h c (List.mem_reverse.1 hc)
  rw [dropEndWhile, dropWhile_eq_self hback, List.reverse_reverse]

theorem forall_mem_getLast?_append {P : Char → Prop} (hs : ∀ c ∈ s.getLast?, P c)
    (ht : ∀ c ∈ t, P c) : ∀ c ∈ (s ++ t).getLast?, P c := by
  intro c hc
  cases hlast : t.getLast? with
  | none =>
    rw [List.getLast?_append, hlast] at hc
    exact hs c hc
  | some d =>
    rw [List.getLast?_append, hlast] at hc
    cases hc
    exact ht c (List.mem_of_getLast? hlast)

/-- A text that does not end with what is dropped stays. -/
theorem dropEndWhile_of_last (h : ∀ c ∈ s.getLast?, p c = false) : dropEndWhile p s = s := by
  rw [← List.head?_reverse] at h
  rw [dropEndWhile, dropWhile_of_first h, List.reverse_reverse]

theorem dropEndWhile_cons (p : Char → Bool) (c : Char) (s : List Char) : dropEndWhile p (c :: s) =
    if dropEndWhile p s = [] ∧ p c = true then [] else c :: dropEndWhile p s := by
  simp only [dropEndWhile, List.reverse_cons, List.dropWhile_append, List.isEmpty_iff, List.reverse_eq_nil_iff]
  by_cases hs : s.reverse.dropWhile p = []
  · cases hc : p c <;> simp [hs, hc]
  · simp [hs]

theorem dropEndWhile_append (hs : ∀ c ∈ s.getLast?, p c = false) (ht : ∀ c ∈ t, p c = true) :
    dropEndWhile p (s ++ t) = s := by
  rw [dropEndWhile, List.reverse_append, List.dropWhile_append_of_pos fun c hc => ht c (List.mem_reverse.1 hc)]
  exact dropEndWhile_of_last hs

theorem exists_dropEndWhile (p : Char → Bool) (s : List Char) :
    ∃ x, (∀ c ∈ x, p c = true) ∧ s = dropEndWhile p s ++ x := by
  refine ⟨(s.reverse.takeWhile p).reverse, fun c hc => ?_, ?_⟩
  · exact List.all_eq_true.1 List.all_takeWhile c (List.mem_reverse.1 hc)
  · rw [dropEndWhile, ← List.reverse_append, List.takeWhile_append_dropWhile, List.reverse_reverse]

/-! ### White space -/

/-- A text without white space at its ends is what is left of it between two blank ones. -/
theorem trim_append (hr : isBlank r = true) (ht : isBlank t = true) (hfront : ∀ c ∈ s.head?, isBlankChar c = false)
    (hback : ∀ c ∈ s.getLast?, isBlankChar c = false) : trim (r ++ s ++ t) = s := by
  have hblank : ∀ c ∈ t, isBlankChar c = true := List.all_eq_true.1 ht
  have hstart : trimStart (r ++ s ++ t) = trimStart (s ++ t) := by
    rw [List.append_assoc]
    exact List.dropWhile_append_of_pos (List.all_eq_true.1 hr)
  rw [trim, hstart]
  cases s with
  | nil =>
    have hnone : trimStart t = [] := List.dropWhile_eq_nil_iff.2 hblank
    rw [List.nil_append, hnone]
    rfl
  | cons c s =>
    have hkept : trimStart (c :: s ++ t) = c :: s ++ t := List.dropWhile_cons_of_neg (by simp [hfront c rfl])
    rw [hkept]
    exact dropEndWhile_append hback hblank

theorem head?_dropWhile (p : Char → Bool) (s : List Char) : ∀ c ∈ (s.dropWhile p).head?, p c = false := by
  intro c hc
  have hnot := List.head?_dropWhile_not p s
  rw [Option.mem_def.1 hc] at hnot
  exact hnot

theorem getLast?_dropEndWhile (p : Char → Bool) (s : List Char) : ∀ c ∈ (dropEndWhile p s).getLast?, p c = false := by
  rw [dropEndWhile, List.getLast?_reverse]
  exact head?_dropWhile p s.reverse

/-- Neither end of a trimmed text is white space. -/
theorem ends_trim (s : List Char) :
    (∀ c ∈ (trim s).head?, isBlankChar c = false) ∧ ∀ c ∈ (trim s).getLast?, isBlankChar c = false := by
  constructor
  · intro c hc
    -- what is dropped at the end stood behind the first character
    obtain ⟨x, -, hx⟩ := exists_dropEndWhile isBlankChar (trimStart s)
    refine head?_dropWhile isBlankChar s c ?_
    show c ∈ (trimStart s).head?
    rw [hx, List.head?_append, Option.mem_def.1 (show c ∈ (dropEndWhile isBlankChar (trimStart s)).head? from hc)]
    rfl
  · exact getLast?_dropEndWhile isBlankChar (trimStart s)

theorem isBlank_trim (s : List Char) : isBlank (trim s) = isBlank s := by
  obtain ⟨x, hx, hend⟩ := exists_dropEndWhile isBlankChar (trimStart s)
  have hback : isBlank x = true := List.all_eq_true.2 hx
  have hfront : isBlank (s.takeWhile isBlankChar) = true := List.all_takeWhile
  have hsplit : s = s.takeWhile isBlankChar ++ (trim s ++ x) := by
    rw [trim, trimEnd, ← hend]
    exact List.takeWhile_append_dropWhile.symm
  unfold isBlank at hback hfront ⊢
  calc (trim s).all isBlankChar = (s.takeWhile isBlankChar ++ (trim s ++ x)).all isBlankChar := by
        rw [List.all_append, List.all_append, hback, hfront, Bool.true_and, Bool.and_true]
    _ = s.all isBlankChar := congrArg (List.all · isBlankChar) hsplit.symm

/-! ### Fixed endings -/

theorem dropSuffix?_eq_none (h : ¬ suf <:+ s) : dropSuffix? suf s = none := by
  refine Option.eq_none_iff_forall_ne_some.2 fun r hr => h ⟨r, ?_⟩
  exact (dropSuffix?_eq_some.1 hr).symm

/-- An ending does not reach over a character that it does not have. -/
theorem suffix_of_append_cons (hc : c ∉ suf) (h : suf <:+ s ++ c :: t) : suf <:+ t := by
  rcases List.suffix_or_suffix_of_suffix h (List.suffix_append s (c :: t)) with h | h
  · rcases List.suffix_cons_iff.1 h with rfl | h
    · exact absurd List.mem_cons_self hc
    · exact h
  · exact absurd (h.mem List.mem_cons_self) hc

end Federation.Text
