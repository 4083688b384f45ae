import Federation.Proofs.Disk.Lookups

/-!
# The paths above a path

A path without `..` goes up one directory at a time (`of_parent?`), as far as its text goes: an absolute path up to the
root of the disk, and any other one up to the current directory (`placeOfPath_of_parent?_none`).
-/

namespace Federation

namespace Path

open Disk

variable {p q : List Char} {n m : Name} {ns r : List Name} {cwd : Location}

theorem not_isIdle_of_dropIdle (h : dropIdle ns = n :: m :: r) : isIdle n = false := by
  fun_induction dropIdle ns with
  | case1 n' m' r' hidle ih => exact ih h
  | case2 n' m' r' hidle =>
    cases h
    exact Bool.not_eq_true _ ▸ hidle
  | case3 ns hne => exact absurd h (hne n m r)

theorem join_ne_nil_of_mem (hfree : ∀ n ∈ ns, '/' ∉ n) (hn : n ∈ ns) (hne : n ≠ []) : Text.join ['/'] ns ≠ [] := by
  intro hnil
  have hraw := rawNames_join (List.ne_nil_of_mem hn) hfree
  rw [hnil, show rawNames [] = [[]] from rfl] at hraw
  rw [← hraw] at hn
  exact hne (List.mem_singleton.1 hn)

/-- What the path above another is: none above the root and the empty path, the empty path above a single name, and else
the path of the names before the last one that counts. -/
theorem parent?_cases (p : List Char) :
    (∃ idle, (∀ i ∈ idle, isIdle i = true) ∧ rawNames p = [] :: idle ∧ parent? p = none) ∨
    (∃ n idle, n ≠ [] ∧ (∀ i ∈ idle, isIdle i = true) ∧ rawNames p = n :: idle ∧ parent? p = some []) ∨
    ∃ q above between n idle, isIdle n = false ∧ (∀ i ∈ between, isIdle i = true) ∧ (∀ i ∈ idle, isIdle i = true) ∧
      above ≠ [] ∧ (∀ k, above.getLast? = some k → isIdle k = false ∨ above = [k]) ∧
      rawNames p = above ++ (between ++ n :: idle) ∧ parent? p = some q ∧
      (rawNames q = above ∧ above ≠ [[]] ∨ q = ['/'] ∧ above = [[]]) := by
  obtain ⟨r, n, idle, hidle, hraw, hd⟩ := exists_rawNames p
  cases r with
  | nil =>
    by_cases hn : n = []
    · subst hn
      exact .inl ⟨idle, hidle, hraw, by rw [parent?, hd]; rfl⟩
    · refine .inr (.inl ⟨n, idle, hn, hidle, hraw, ?_⟩)
      rw [parent?, hd]
      dsimp only
      rw [List.isEmpty_eq_false_iff.2 hn]
      rfl
  | cons m r =>
    obtain ⟨between, hbetween, hr⟩ := exists_idle (m :: r)
    have hne : dropIdle (m :: r) ≠ [] := dropIdle_ne_nil (List.cons_ne_nil m r)
    have hlast (k : Name) (t : List Name) (hk : dropIdle (m :: r) = k :: t) : isIdle k = false ∨ t = [] := by
      cases t with
      | nil => exact .inr rfl
      | cons k' t => exact .inl (not_isIdle_of_dropIdle hk)
    have hparent : parent? p = some (textOf (dropIdle (m :: r))) := by rw [parent?, hd]
    generalize dropIdle (m :: r) = above at hr hne hparent hlast
    have hraw' : rawNames p = above.reverse ++ (between.reverse ++ n :: idle) := by
      rw [hraw, hr, List.reverse_append, List.append_assoc]
    refine .inr (.inr ⟨textOf above, above.reverse, between.reverse, n, idle, not_isIdle_of_dropIdle hd,
      fun i hi => hbetween i (List.mem_reverse.1 hi), hidle, by simpa using hne, fun k hk => ?_, hraw', hparent, ?_⟩)
    · obtain ⟨k', t, rfl⟩ := List.exists_cons_of_ne_nil hne
      rw [List.reverse_cons, List.getLast?_concat] at hk
      cases hk
      exact (hlast k t rfl).imp_right fun ht => by rw [ht]; rfl
    by_cases habove : above = [[]]
    · subst habove
      exact .inr ⟨rfl, rfl⟩
    · refine .inl ⟨?_, by simpa using habove⟩
      have htext : textOf above = Text.join ['/'] above.reverse := by
        unfold textOf
        split
        · exact absurd rfl habove
        · rfl
      rw [htext]
      refine rawNames_join (by simpa using hne) fun k hk => ?_
      exact slash_not_mem_of_mem_rawNames (hraw' ▸ List.mem_append_left _ hk)

theorem isAbsolute_parent? (h : parent? p = some q) : isAbsolute q = isAbsolute p := by
  rcases parent?_cases p with ⟨idle, -, -, hnone⟩ | ⟨n, idle, hn, hidle, hraw, hq⟩ |
    ⟨q', above, between, n, idle, hn, hbetween, hidle, hne, -, hraw, hq, hcases⟩
  · cases h.symm.trans hnone
  · cases h.symm.trans hq
    refine (Bool.not_eq_true _ ▸ ?_ : isAbsolute p = false).symm
    rw [isAbsolute_iff, hraw]
    rintro ⟨ns, -, hns⟩
    exact hn (List.cons.inj hns).1
  · cases h.symm.trans hq
    rcases hcases with ⟨hrawq, habove⟩ | ⟨rfl, rfl⟩
    · rw [Bool.eq_iff_iff, isAbsolute_iff, isAbsolute_iff, hraw, hrawq]
      obtain ⟨k, ks, rfl⟩ := List.exists_cons_of_ne_nil hne
      constructor
      · rintro ⟨ns, -, hns⟩
        obtain ⟨rfl, -⟩ := List.cons.inj hns
        exact ⟨ks ++ (between ++ n :: idle), by simp, rfl⟩
      · rintro ⟨ns, -, hns⟩
        obtain ⟨rfl, -⟩ := List.cons.inj hns
        refine ⟨ks, ?_, rfl⟩
        rintro rfl
        exact habove rfl
    · exact (isAbsolute_iff.2 ⟨between ++ n :: idle, by simp, hraw⟩).symm

/-- The path above another leads to the same directory or one step up, and begins where that begins. -/
theorem of_parent? (h : parent? p = some q) (hdots : ['.', '.'] ∉ rawNames p) (cwd : Location) :
    isAbsolute q = isAbsolute p ∧ ['.', '.'] ∉ rawNames q ∧ q.length < p.length ∧
      ∃ ms : List Name, ms.length ≤ 1 ∧ placeOfPath cwd p = placeOfPath cwd q ++ ms := by
  rcases parent?_cases p with ⟨idle, -, -, hnone⟩ | ⟨n, idle, hn, hidle, hraw, hq⟩ |
    ⟨q', above, between, n, idle, hn, hbetween, hidle, hne, -, hraw, hq, hcases⟩
  · cases h.symm.trans hnone
  · cases h.symm.trans hq
    have habs : isAbsolute p = false := (isAbsolute_parent? h).symm
    refine ⟨habs.symm, by decide, ?_, ?_⟩
    · rw [List.length_nil, List.length_pos_iff]
      rintro rfl
      exact hn (List.cons.inj hraw).1.symm
    · have hempty : placeOfPath cwd [] = cwd := rfl
      rw [hempty, placeOfPath, baseOf, habs, hraw, if_neg Bool.false_ne_true]
      by_cases hi : isIdle n = true
      · exact ⟨[], Nat.zero_le _, by rw [placeOf_of_idle (List.forall_mem_cons.2 ⟨hi, hidle⟩), List.append_nil]⟩
      · have hproper : IsProper n := by
          refine ⟨Bool.not_eq_true _ ▸ hi, ?_⟩
          rintro rfl
          exact hdots (hraw ▸ List.mem_cons_self)
        exact ⟨[n], Nat.le_refl _, placeOf_proper_idle hproper hidle cwd []⟩
  · cases h.symm.trans hq
    have hproper : IsProper n := by
      refine ⟨hn, ?_⟩
      rintro rfl
      exact hdots (hraw ▸ by simp)
    have hfree (k : Name) (hk : k ∈ rawNames p) : '/' ∉ k := slash_not_mem_of_mem_rawNames hk
    have htext : p = Text.join ['/'] above ++ ['/'] ++ Text.join ['/'] (between ++ n :: idle) := by
      rw [← Text.join_append hne (by simp), ← hraw, join_rawNames]
    have hplace (b : Location) : placeOf b (rawNames p) = placeOf b above ++ [n] := by
      rw [hraw, placeOf_append, placeOf_proper_idle hproper hidle, placeOf_of_idle hbetween]
    rcases hcases with ⟨hrawq, habove⟩ | ⟨rfl, rfl⟩
    · have habs := isAbsolute_parent? h
      refine ⟨habs, fun hmem => hdots (hraw ▸ List.mem_append_left _ (hrawq ▸ hmem)), ?_, [n], Nat.le_refl _, ?_⟩
      · rw [← join_rawNames q, hrawq, htext]
        simp
      · rw [placeOfPath, placeOfPath, baseOf, baseOf, habs, hplace, hrawq]
    · have habs : isAbsolute p = true := (isAbsolute_parent? h).symm
      refine ⟨habs.symm, by decide, ?_, [n], Nat.le_refl _, ?_⟩
      · have hlast : Text.join ['/'] (between ++ n :: idle) ≠ [] := by
          have hn' : n ≠ [] := by
            rintro rfl
            cases hn
          exact join_ne_nil_of_mem (fun k hk => hfree k (hraw ▸ List.mem_append_right _ hk))
            (List.mem_append_right _ List.mem_cons_self) hn'
        have := List.length_pos_iff.2 hlast
        rw [htext]
        simp only [Text.join, List.length_append, List.length_cons, List.length_nil]
        omega
      · rw [placeOfPath, placeOfPath, baseOf, habs, if_pos rfl, hplace]
        rfl

/-- Only where a path begins there is no path above it. -/
theorem placeOfPath_of_parent?_none (h : parent? p = none) (cwd : Location) : placeOfPath cwd p = baseOf cwd p := by
  rcases parent?_cases p with ⟨idle, hidle, hraw, -⟩ | ⟨n, idle, hn, hidle, hraw, hq⟩ |
    ⟨q', above, between, n, idle, hn, hbetween, hidle, hne, -, hraw, hq, hcases⟩
  · rw [placeOfPath, hraw, placeOf_of_idle (List.forall_mem_cons.2 ⟨rfl, hidle⟩)]
  · cases h.symm.trans hq
  · cases h.symm.trans hq

theorem baseOf_prefix (hdots : ['.', '.'] ∉ rawNames p) (cwd : Location) : baseOf cwd p <+: placeOfPath cwd p := by
  obtain ⟨ms, hms⟩ := exists_placeOf hdots (baseOf cwd p)
  exact ⟨ms, hms.symm⟩

end Path

end Federation
