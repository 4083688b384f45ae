/-!
# Cutting text

The few ways in which the formats of this library take text apart: at the first or the last occurrence of
a character, at every occurrence, and by a fixed beginning or end. All of them are total functions on
`List Char`, and each has the law that putting the parts together again gives the text back.
-/

namespace Federation.Text

/-- The parts before and after the first `sep`. -/
def splitFirst (sep : Char) : List Char → Option (List Char × List Char)
  | [] => none
  | c :: r => if c = sep then some ([], r) else (splitFirst sep r).map fun (a, b) => (c :: a, b)

/-- The parts before and after the last `sep`. -/
def splitLast (sep : Char) : List Char → Option (List Char × List Char)
  | [] => none
  | c :: r =>
    match splitLast sep r with
    | some (a, b) => some (c :: a, b)
    | none => if c = sep then some ([], r) else none

/-- The pieces between the characters that satisfy `p`; there is always one piece more than such characters. -/
def pieces (p : Char → Bool) : List Char → List (List Char)
  | [] => [[]]
  | c :: r =>
    match p c, pieces p r with
    | true, ps => [] :: ps
    | false, [] => [[c]]
    | false, q :: qs => (c :: q) :: qs

/-- The rest of the text after `pre`. -/
def dropPrefix? : (pre s : List Char) → Option (List Char)
  | [], s => some s
  | _ :: _, [] => none
  | p :: ps, c :: cs => if p = c then dropPrefix? ps cs else none

/-- The rest of the text before `suf`. -/
def dropSuffix? (suf s : List Char) : Option (List Char) :=
  (dropPrefix? suf.reverse s.reverse).map List.reverse

/-- The texts of a list with `sep` between neighbours. -/
def join (sep : List Char) : List (List Char) → List Char
  | [] => []
  | [t] => t
  | t :: u :: ts => t ++ sep ++ join sep (u :: ts)

theorem splitFirst_eq_some {sep : Char} {s a b : List Char} (h : splitFirst sep s = some (a, b)) :
    s = a ++ sep :: b ∧ sep ∉ a := by
  induction s generalizing a with
  | nil => simp [splitFirst] at h
  | cons c r ih =>
    rw [splitFirst] at h
    split at h
    · simp_all
    · rename_i hc
      obtain ⟨⟨a', b'⟩, hr, he⟩ := Option.map_eq_some_iff.1 h
      simp only [Prod.mk.injEq] at he
      obtain ⟨rfl, rfl⟩ := he
      obtain ⟨rfl, hn⟩ := ih hr
      exact ⟨rfl, by simp [hn, Ne.symm hc]⟩

theorem splitFirst_eq_none {sep : Char} {s : List Char} : splitFirst sep s = none ↔ sep ∉ s := by
  induction s with
  | nil => simp [splitFirst]
  | cons c r ih =>
    rw [splitFirst]
    split
    · simp_all
    · rename_i hc
      simp [ih, Ne.symm hc]

theorem splitLast_eq_none {sep : Char} {s : List Char} : splitLast sep s = none ↔ sep ∉ s := by
  induction s with
  | nil => simp [splitLast]
  | cons c r ih =>
    rw [splitLast]
    cases h : splitLast sep r with
    | some x => simp_all
    | none =>
      by_cases hc : c = sep
      · simp [hc]
      · simp [hc, Ne.symm hc, ih.1 h]

theorem splitLast_eq_some {sep : Char} {s a b : List Char} (h : splitLast sep s = some (a, b)) :
    s = a ++ sep :: b ∧ sep ∉ b := by
  induction s generalizing a with
  | nil => simp [splitLast] at h
  | cons c r ih =>
    rw [splitLast] at h
    cases hr : splitLast sep r with
    | some x =>
      rw [hr] at h
      simp only [Option.some.injEq, Prod.mk.injEq] at h
      obtain ⟨rfl, rfl⟩ := h
      obtain ⟨rfl, hn⟩ := ih hr
      exact ⟨rfl, hn⟩
    | none =>
      rw [hr] at h
      by_cases hc : c = sep
      · simp only [hc, if_true, Option.some.injEq, Prod.mk.injEq] at h
        obtain ⟨rfl, rfl⟩ := h
        exact ⟨by simp [hc], splitLast_eq_none.1 hr⟩
      · simp [hc] at h

theorem pieces_ne_nil (p : Char → Bool) (s : List Char) : pieces p s ≠ [] := by
  induction s with
  | nil => simp [pieces]
  | cons c r ih =>
    rw [pieces]
    split <;> simp_all

theorem join_append {sep : List Char} {ss ts : List (List Char)} (hs : ss ≠ []) (ht : ts ≠ []) :
    join sep (ss ++ ts) = join sep ss ++ sep ++ join sep ts := by
  fun_induction join sep ss with
  | case1 => exact absurd rfl hs
  | case2 s =>
    obtain ⟨t, ts, rfl⟩ := List.exists_cons_of_ne_nil ht
    rfl
  | case3 s u us ih =>
    rw [List.cons_append, List.cons_append, join, ← List.cons_append, ih (List.cons_ne_nil _ _)]
    simp only [List.append_assoc]

theorem join_cons_cons (sep : List Char) (c : Char) (q : List Char) (qs : List (List Char)) :
    join sep ((c :: q) :: qs) = c :: join sep (q :: qs) := by
  cases qs <;> simp [join]

/-- The pieces with their separator between them are the text. -/
theorem join_pieces (sep : Char) (s : List Char) : join [sep] (pieces (· == sep) s) = s := by
  induction s with
  | nil => rfl
  | cons c r ih =>
    obtain ⟨q, qs, hq⟩ := List.exists_cons_of_ne_nil (pieces_ne_nil (· == sep) r)
    rw [hq] at ih
    by_cases h : c = sep
    · simp [pieces, h, hq, join, ih]
    · have hb : (c == sep) = false := by simp [h]
      simp [pieces, hb, hq, join_cons_cons, ih]

section
variable {p : Char → Bool} {sep : Char} {s t : List Char} {ss : List (List Char)}

theorem mem_of_mem_pieces (h : t ∈ pieces p s) : ∀ c ∈ t, c ∈ s ∧ p c = false := by
  induction s generalizing t with
  | nil =>
    rw [List.mem_singleton.1 h]
    exact nofun
  | cons c r ih =>
    have hrest {u : List Char} (hu : u ∈ pieces p r) : ∀ d ∈ u, d ∈ c :: r ∧ p d = false :=
      fun d hd => (ih hu d hd).imp_left (List.mem_cons_of_mem c)
    obtain ⟨q, qs, hq⟩ := List.exists_cons_of_ne_nil (pieces_ne_nil p r)
    rw [hq] at hrest
    cases hc : p c with
    | true =>
      rw [pieces, hc, hq] at h
      rcases List.mem_cons.1 h with rfl | h
      · exact nofun
      · exact hrest h
    | false =>
      rw [pieces, hc, hq] at h
      rcases List.mem_cons.1 h with rfl | h
      · exact List.forall_mem_cons.2 ⟨⟨List.mem_cons_self, hc⟩, hrest List.mem_cons_self⟩
      · exact hrest (List.mem_cons_of_mem _ h)

theorem pieces_append_cons {c : Char} (hc : p c = true) (s t : List Char) :
    pieces p (s ++ c :: t) = pieces p s ++ pieces p t := by
  induction s with
  | nil => simp [pieces, hc]
  | cons d s ih =>
    obtain ⟨q, qs, hq⟩ := List.exists_cons_of_ne_nil (pieces_ne_nil p s)
    rw [List.cons_append, pieces, pieces, ih, hq]
    cases p d <;> rfl

theorem pieces_append (h : ∀ c ∈ s, p c = false) (hc : p c = true) (t : List Char) :
    pieces p (s ++ c :: t) = s :: pieces p t := by
  induction s with
  | nil =>
    rw [List.nil_append, pieces, hc]
  | cons d s ih =>
    have ⟨hd, hs⟩ := List.forall_mem_cons.1 h
    rw [List.cons_append, pieces, hd, ih hs]

theorem pieces_of_free (h : ∀ c ∈ s, p c = false) : pieces p s = [s] := by
  induction s with
  | nil => rfl
  | cons d s ih =>
    have ⟨hd, hs⟩ := List.forall_mem_cons.1 h
    rw [pieces, hd, ih hs]

/-- Texts without the separator are the pieces of the text that they are joined to. -/
theorem pieces_join (hsep : p sep = true) (hne : ss ≠ []) (h : ∀ s ∈ ss, ∀ c ∈ s, p c = false) :
    pieces p (join [sep] ss) = ss := by
  fun_induction join [sep] ss with
  | case1 => exact absurd rfl hne
  | case2 t => exact pieces_of_free (h t List.mem_cons_self)
  | case3 t u ts ih =>
    have ⟨ht, hts⟩ := List.forall_mem_cons.1 h
    rw [List.append_assoc, List.singleton_append, pieces_append ht hsep, ih (List.cons_ne_nil _ _) hts]

theorem splitFirst_append (h : sep ∉ s) (t : List Char) : splitFirst sep (s ++ sep :: t) = some (s, t) := by
  induction s with
  | nil => rw [List.nil_append, splitFirst, if_pos rfl]
  | cons c s ih =>
    rw [List.mem_cons, not_or] at h
    rw [List.cons_append, splitFirst, if_neg (Ne.symm h.1), ih h.2]
    rfl

theorem splitLast_append (s : List Char) (h : sep ∉ t) : splitLast sep (s ++ sep :: t) = some (s, t) := by
  induction s with
  | nil => rw [List.nil_append, splitLast, splitLast_eq_none.2 h, if_pos rfl]
  | cons c s ih => rw [List.cons_append, splitLast, ih]

end

theorem dropPrefix?_eq_some {pre s r : List Char} : dropPrefix? pre s = some r ↔ s = pre ++ r := by
  induction pre generalizing s with
  | nil => simp [dropPrefix?, eq_comm]
  | cons p ps ih =>
    cases s with
    | nil => simp [dropPrefix?]
    | cons c cs =>
      by_cases h : p = c
      · simp [dropPrefix?, h, ih]
      · simp [dropPrefix?, h, Ne.symm h]

theorem dropSuffix?_eq_some {suf s r : List Char} : dropSuffix? suf s = some r ↔ s = r ++ suf := by
  rw [dropSuffix?, Option.map_eq_some_iff]
  simp only [dropPrefix?_eq_some]
  constructor
  · rintro ⟨x, hx, rfl⟩
    rw [← List.reverse_inj, hx, List.reverse_append, List.reverse_reverse]
  · rintro rfl
    exact ⟨r.reverse, List.reverse_append, List.reverse_reverse r⟩

end Federation.Text
