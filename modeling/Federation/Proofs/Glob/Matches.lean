import Federation.Proofs.Glob.Escapes

/-!
# Matches as a relation

`Matches wild ts s` says that tokens match a text in which a wildcard stands only for characters of `wild`. With any
characters it is what a pattern decides (`matchTokens_iff`). With all but the slash it is what is meant by a pattern
whose `*` stays within a name; that is the stronger of the two, and on a text without slashes they are the same.

Two tokens `**` behind one another match what one does (`same_directories`), so it does not matter that reading leaves
some of them out.
-/

namespace Federation.GlobPattern

/-- Tokens match a text in which wildcards stand for characters of `wild`. `**` stands for nothing, for whole names with
their slashes, or for the rest of the text. -/
inductive Matches (wild : Char → Prop) : List GlobToken → List Char → Prop
  | nil : Matches wild [] []
  | one {t ts c s} (hchar : matchChar t c = true) (hwild : t = .char c ∨ wild c) (h : Matches wild ts s) :
    Matches wild (t :: ts) (c :: s)
  | stop {ts s} (h : Matches wild ts s) : Matches wild (.anySequence :: ts) s
  | more {ts c s} (hwild : wild c) (h : Matches wild (.anySequence :: ts) s) :
    Matches wild (.anySequence :: ts) (c :: s)
  | directories {ts} (u v) (hu : u = [] ∨ u.getLast? = some '/' ∨ v = []) (h : Matches wild ts v) :
    Matches wild (.anyDirectories :: ts) (u ++ v)

variable {wild wild' : Char → Prop} {t : GlobToken} {ts ts' xs : List GlobToken} {c : Char} {s u v : List Char}

/-! ### What patterns decide -/

theorem mem_suffixes : v ∈ suffixes s ↔ ∃ u, s = u ++ v := by
  induction s with
  | nil => simp [suffixes]
  | cons c s ih =>
    rw [suffixes, List.mem_cons, ih]
    constructor
    · rintro (rfl | ⟨u, rfl⟩)
      · exact ⟨[], rfl⟩
      · exact ⟨c :: u, rfl⟩
    · rintro ⟨u, hu⟩
      cases u with
      | nil => exact .inl hu.symm
      | cons a u => exact .inr ⟨u, (List.cons.inj hu).2⟩

theorem mem_afterSlashes : v ∈ afterSlashes s ↔ ∃ u, s = u ++ '/' :: v := by
  induction s with
  | nil => simp [afterSlashes]
  | cons c s ih =>
    have hstep : v ∈ afterSlashes (c :: s) ↔ c = '/' ∧ v = s ∨ v ∈ afterSlashes s := by
      rw [afterSlashes]
      split <;> simp [*]
    rw [hstep, ih]
    constructor
    · rintro (⟨rfl, rfl⟩ | ⟨u, rfl⟩)
      · exact ⟨[], rfl⟩
      · exact ⟨c :: u, rfl⟩
    · rintro ⟨u, hu⟩
      cases u with
      | nil => exact .inl ⟨(List.cons.inj hu).1, (List.cons.inj hu).2.symm⟩
      | cons a u => exact .inr ⟨u, (List.cons.inj hu).2⟩

theorem matches_sequence (hwild : ∀ c, wild c) :
    Matches wild (.anySequence :: ts) s ↔ ∃ v ∈ suffixes s, Matches wild ts v := by
  simp only [mem_suffixes]
  constructor
  · intro h
    induction s with
    | nil =>
      cases h with
      | stop h => exact ⟨[], ⟨[], rfl⟩, h⟩
    | cons c s ih =>
      cases h with
      | one hchar => cases hchar
      | stop h => exact ⟨c :: s, ⟨[], rfl⟩, h⟩
      | more _ h =>
        obtain ⟨v, ⟨u, rfl⟩, hv⟩ := ih h
        exact ⟨v, ⟨c :: u, rfl⟩, hv⟩
  · rintro ⟨v, ⟨u, rfl⟩, hv⟩
    induction u with
    | nil => exact .stop hv
    | cons c u ih => exact .more (hwild c) ih

theorem matches_directories : Matches wild (.anyDirectories :: ts) s ↔
    Matches wild ts s ∨ (∃ v ∈ afterSlashes s, Matches wild ts v) ∨ Matches wild ts [] := by
  simp only [mem_afterSlashes]
  constructor
  · intro h
    cases h with
    | one hchar => cases hchar
    | directories u v hu h =>
      rcases hu with rfl | hu | rfl
      · exact .inl h
      · obtain ⟨u, rfl⟩ := List.getLast?_eq_some_iff.1 hu
        exact .inr (.inl ⟨v, ⟨u, by simp⟩, h⟩)
      · exact .inr (.inr h)
  · rintro (h | ⟨v, ⟨u, rfl⟩, h⟩ | h)
    · exact .directories [] s (.inl rfl) h
    · have := Matches.directories (u ++ ['/']) v (.inr (.inl List.getLast?_concat)) h
      rwa [List.append_assoc, List.singleton_append] at this
    · have := Matches.directories s [] (.inr (.inr rfl)) h
      rwa [List.append_nil] at this

theorem matches_single (hseq : t ≠ .anySequence) (hdirs : t ≠ .anyDirectories) (hwild : ∀ c, wild c) :
    Matches wild (t :: ts) s ↔ ∃ c v, s = c :: v ∧ matchChar t c = true ∧ Matches wild ts v := by
  constructor
  · intro h
    cases h with
    | one hchar _ h => exact ⟨_, _, rfl, hchar, h⟩
    | stop => exact absurd rfl hseq
    | more => exact absurd rfl hseq
    | directories => exact absurd rfl hdirs
  · rintro ⟨c, v, rfl, hchar, h⟩
    exact .one hchar (.inr (hwild c)) h

theorem matchTokens_iff : matchTokens ts s = true ↔ Matches (fun _ => True) ts s := by
  induction ts generalizing s with
  | nil =>
    rw [matchTokens, List.isEmpty_iff]
    constructor
    · rintro rfl
      exact .nil
    · intro h
      cases h
      rfl
  | cons t ts ih =>
    by_cases hseq : t = .anySequence
    · subst hseq
      simp only [matchTokens, List.any_eq_true, ih, matches_sequence fun _ => trivial]
    by_cases hdirs : t = .anyDirectories
    · subst hdirs
      simp only [matchTokens, Bool.or_eq_true, List.any_eq_true, ih, matches_directories, or_assoc]
    · rw [matches_single hseq hdirs fun _ => trivial]
      cases s with
      | nil =>
        rw [matchTokens]
        · simp
        · exact hseq
        · exact hdirs
      | cons c s =>
        rw [matchTokens]
        · simp only [Bool.and_eq_true, ih, List.cons.injEq]
          constructor
          · rintro ⟨hchar, h⟩
            exact ⟨c, s, ⟨rfl, rfl⟩, hchar, h⟩
          · rintro ⟨_, _, ⟨rfl, rfl⟩, hchar, h⟩
            exact ⟨hchar, h⟩
        · exact hseq
        · exact hdirs

theorem isMatch_iff {p : GlobPattern} : p.isMatch s = true ↔ Matches (fun _ => True) p.tokens s := by
  rw [isMatch_eq, matchTokens_iff]

namespace Matches

theorem imp (h : Matches wild ts s) (himp : ∀ c ∈ s, wild c → wild' c) : Matches wild' ts s := by
  induction h with
  | nil => exact .nil
  | one hchar hwild _ ih =>
    exact .one hchar (hwild.imp_right (himp _ List.mem_cons_self)) (ih fun c hc => himp c (List.mem_cons_of_mem _ hc))
  | stop _ ih => exact .stop (ih himp)
  | more hwild _ ih => exact .more (himp _ List.mem_cons_self hwild) (ih fun c hc => himp c (List.mem_cons_of_mem _ hc))
  | directories u v hu _ ih => exact .directories u v hu (ih fun c hc => himp c (List.mem_append_right _ hc))

/-- Where `**` is the only wildcard, it makes no difference what the others stand for. -/
theorem of_fixed (h : Matches wild ts s) (hts : ∀ t ∈ ts, t = .anyDirectories ∨ ∃ c, t = .char c) :
    Matches wild' ts s := by
  induction h with
  | nil => exact .nil
  | @one t ts c s hchar _ _ ih =>
    obtain ⟨ht, hrest⟩ := List.forall_mem_cons.1 hts
    obtain ⟨a, rfl⟩ : ∃ a, t = .char a := by
      rcases ht with rfl | ht
      · cases hchar
      · exact ht
    have hac : a = c := beq_iff_eq.1 hchar
    exact .one hchar (.inl (by rw [hac])) (ih hrest)
  | stop => exact absurd (hts _ List.mem_cons_self) (by simp)
  | more => exact absurd (hts _ List.mem_cons_self) (by simp)
  | directories u v hu _ ih => exact .directories u v hu (ih (List.forall_mem_cons.1 hts).2)

/-! ### Tokens behind one another -/

theorem exists_append (h : Matches wild (ts ++ ts') s) :
    ∃ u v, s = u ++ v ∧ Matches wild ts u ∧ Matches wild ts' v := by
  generalize hxs : ts ++ ts' = xs at h
  induction h generalizing ts with
  | nil =>
    obtain ⟨rfl, rfl⟩ := List.append_eq_nil_iff.1 hxs
    exact ⟨[], [], rfl, .nil, .nil⟩
  | @one t xs c s hchar hwild h ih =>
    cases ts with
    | nil =>
      obtain rfl : ts' = t :: xs := hxs
      exact ⟨[], c :: s, rfl, .nil, .one hchar hwild h⟩
    | cons t' ts =>
      cases hxs
      obtain ⟨u, v, rfl, hu, hv⟩ := ih rfl
      exact ⟨c :: u, v, rfl, .one hchar hwild hu, hv⟩
  | @stop xs s h ih =>
    cases ts with
    | nil =>
      obtain rfl : ts' = .anySequence :: xs := hxs
      exact ⟨[], s, rfl, .nil, .stop h⟩
    | cons t' ts =>
      cases hxs
      obtain ⟨u, v, rfl, hu, hv⟩ := ih rfl
      exact ⟨u, v, rfl, .stop hu, hv⟩
  | @more xs c s hwild h ih =>
    cases ts with
    | nil =>
      obtain rfl : ts' = .anySequence :: xs := hxs
      exact ⟨[], c :: s, rfl, .nil, .more hwild h⟩
    | cons t' ts =>
      cases hxs
      have hxs : (.anySequence :: ts) ++ ts' = .anySequence :: (ts ++ ts') := rfl
      obtain ⟨u, v, rfl, hu, hv⟩ := ih hxs
      exact ⟨c :: u, v, rfl, .more hwild hu, hv⟩
  | @directories xs u v hu h ih =>
    cases ts with
    | nil =>
      obtain rfl : ts' = .anyDirectories :: xs := hxs
      exact ⟨[], u ++ v, rfl, .nil, .directories u v hu h⟩
    | cons t' ts =>
      cases hxs
      obtain ⟨u', v', rfl, hu', hv'⟩ := ih rfl
      refine ⟨u ++ u', v', (List.append_assoc ..).symm, .directories u u' ?_ hu', hv'⟩
      exact hu.imp_right fun hu => hu.imp_right fun hnil => (List.append_eq_nil_iff.1 hnil).1

/-- This may fail if `**` is among the tokens: at the end of a text it stands for more. -/
theorem append (h : Matches wild ts u) (hdirs : .anyDirectories ∉ ts) (h' : Matches wild ts' v) :
    Matches wild (ts ++ ts') (u ++ v) := by
  induction h with
  | nil => exact h'
  | one hchar hwild _ ih => exact .one hchar hwild (ih fun hm => hdirs (List.mem_cons_of_mem _ hm))
  | stop _ ih => exact .stop (ih fun hm => hdirs (List.mem_cons_of_mem _ hm))
  | more hwild _ ih => exact .more hwild (ih hdirs)
  | directories => exact absurd List.mem_cons_self hdirs

/-- Tokens that end with `**` match every text that goes on behind one that they match. -/
theorem extend (h : Matches wild ts s) (hlast : ts.getLast? = some .anyDirectories) (v : List Char) :
    Matches wild ts (s ++ v) := by
  induction h with
  | nil => cases hlast
  | @one t ts c s hchar hwild h ih =>
    cases ts with
    | nil =>
      cases hlast
      cases hchar
    | cons t' ts => exact .one hchar hwild (ih (by rwa [List.getLast?_cons_cons] at hlast))
  | @stop ts s h ih =>
    cases ts with
    | nil => cases hlast
    | cons t' ts => exact .stop (ih (by rwa [List.getLast?_cons_cons] at hlast))
  | more hwild _ ih => exact .more hwild (ih hlast)
  | @directories ts u w hu h ih =>
    by_cases hw : w = []
    · subst hw
      have := directories (u ++ v) [] (.inr (.inr rfl)) h
      rw [List.append_nil] at this ⊢
      exact this
    · cases ts with
      | nil => cases h; exact absurd rfl hw
      | cons t' ts =>
        rw [List.append_assoc]
        refine .directories u (w ++ v) ?_ (ih (by rwa [List.getLast?_cons_cons] at hlast))
        exact hu.imp_right fun hu => hu.imp_right fun hnil => absurd hnil hw

end Matches

/-! ### Tokens that match the same texts -/

/-- Two lists of tokens match the same texts, whatever wildcards stand for. -/
def Same (ts ts' : List GlobToken) : Prop := ∀ wild s, Matches wild ts s ↔ Matches wild ts' s

theorem Same.refl (ts : List GlobToken) : Same ts ts := fun _ _ => Iff.rfl

theorem Same.symm (h : Same ts ts') : Same ts' ts := fun wild s => (h wild s).symm

theorem Same.trans (h : Same ts ts') (h' : Same ts' xs) : Same ts xs := fun wild s => (h wild s).trans (h' wild s)

theorem Same.cons (h : Same ts ts') (t : GlobToken) : Same (t :: ts) (t :: ts') := by
  have hstep {ts ts' : List GlobToken} (h : Same ts ts') (wild : Char → Prop) (s : List Char)
      (hm : Matches wild (t :: ts) s) : Matches wild (t :: ts') s := by
    generalize hxs : t :: ts = xs at hm
    induction hm with
    | nil => cases hxs
    | one hchar hwild hm => cases hxs; exact .one hchar hwild ((h wild _).1 hm)
    | stop hm => cases hxs; exact .stop ((h wild _).1 hm)
    | more hwild _ ih => cases hxs; exact .more hwild (ih rfl)
    | directories u v hu hm => cases hxs; exact .directories u v hu ((h wild _).1 hm)
  exact fun wild s => ⟨hstep h wild s, hstep h.symm wild s⟩

theorem Same.append_left (h : Same ts ts') (xs : List GlobToken) : Same (xs ++ ts) (xs ++ ts') := by
  induction xs with
  | nil => exact h
  | cons x xs ih => exact ih.cons x

theorem same_directories (ts : List GlobToken) :
    Same (.anyDirectories :: .anyDirectories :: ts) (.anyDirectories :: ts) := by
  intro wild s
  constructor
  · intro h
    cases h with
    | one hchar => cases hchar
    | directories u v hu h =>
      cases h with
      | one hchar => cases hchar
      | directories u' v hu' h =>
        rw [← List.append_assoc]
        refine .directories (u ++ u') v ?_ h
        rcases hu' with rfl | hu' | hv
        · rw [List.append_nil]
          exact hu.imp_right fun hu => hu.imp_right fun hnil => hnil
        · refine .inr (.inl ?_)
          obtain ⟨w, rfl⟩ := List.getLast?_eq_some_iff.1 hu'
          rw [← List.append_assoc, List.getLast?_concat]
        · exact .inr (.inr hv)
  · exact fun h => .directories [] s (.inl rfl) h

end Federation.GlobPattern
