import Mathlib.Data.List.TakeWhile
import Federation.Proofs.Path.Ancestors
import Federation.Glob.Walk

/-!
# Paths seen from a root

`Sees root q S` says that a walk from `root` which took the names `S` has come to the path `q`. Seen from the root the
path is then the text of these names (`Sees.text_eq`), and a step further adds one name to them (`Sees.stepInto`), in
the same way for every root that allows it: an absolute path, one that begins with a name that leads down, or the
point.
-/

namespace Federation.Path

variable {root q : List Char} {b n : Name} {bs ns ms S : List Name}

/-! ### Names below a base -/

theorem dropWhile_of_not_isIdle (hn : isIdle n = false) (ns : List Name) : (n :: ns).dropWhile isIdle = n :: ns :=
  List.dropWhile_cons_of_neg (by rw [hn]; exact Bool.false_ne_true)

theorem namesBelow?_nil (ns : List Name) : namesBelow? [] ns = some (ns.dropWhile isIdle) := by
  cases ns <;> rfl

theorem namesBelow?_cons_idle (hn : isIdle n = true) (b : Name) (bs ns : List Name) :
    namesBelow? (b :: bs) (n :: ns) = namesBelow? (b :: bs) ns := by rw [namesBelow?, if_pos hn]

theorem namesBelow?_cons_of_not_idle (hn : isIdle n = false) (b : Name) (bs ns : List Name) :
    namesBelow? (b :: bs) (n :: ns) = if b = n then namesBelow? bs ns else none := by
  rw [namesBelow?, hn, if_neg Bool.false_ne_true]

theorem namesBelow?_idle_append {idle : List Name} (h : ∀ i ∈ idle, isIdle i = true) (bs ns : List Name) :
    namesBelow? bs (idle ++ ns) = namesBelow? bs ns := by
  induction idle with
  | nil => rfl
  | cons i idle ih =>
    have ⟨hi, hidle⟩ := List.forall_mem_cons.1 h
    cases bs with
    | nil => rw [namesBelow?_nil, namesBelow?_nil, List.dropWhile_append_of_pos h]
    | cons b bs => rw [List.cons_append, namesBelow?_cons_idle hi, ih hidle]

theorem namesBelow?_append_append (h : namesBelow? bs ns = some S) (cs ms : List Name) :
    namesBelow? (bs ++ cs) (ns ++ ms) = namesBelow? cs (S ++ ms) := by
  induction ns generalizing bs with
  | nil =>
    cases bs with
    | nil => cases h; rfl
    | cons b bs => cases h
  | cons n ns ih =>
    cases bs with
    | nil =>
      have hidle : ∀ i ∈ (n :: ns).takeWhile isIdle, isIdle i = true := fun i hi => List.mem_takeWhile_imp hi
      rw [namesBelow?_nil] at h
      rw [List.nil_append, ← List.takeWhile_append_dropWhile (p := isIdle) (l := n :: ns), List.append_assoc,
        namesBelow?_idle_append hidle, Option.some.inj h]
    | cons b bs =>
      cases hn : isIdle n with
      | true =>
        rw [namesBelow?_cons_idle hn] at h
        rw [List.cons_append, List.cons_append, namesBelow?_cons_idle hn]
        exact ih h
      | false =>
        rw [namesBelow?_cons_of_not_idle hn] at h
        rw [List.cons_append, List.cons_append, namesBelow?_cons_of_not_idle hn]
        split at h
        · rename_i hb
          rw [if_pos hb, ih h]
        · cases h

theorem namesBelow?_append (h : namesBelow? bs ns = some S) (ms : List Name) :
    namesBelow? bs (ns ++ ms) = some ((S ++ ms).dropWhile isIdle) := by
  have hsame := namesBelow?_append_append h [] ms
  rwa [List.append_nil, namesBelow?_nil] at hsame

/-- If names lead behind a base, then the first ones do already, or the base goes on among the later ones. -/
theorem namesBelow?_of_append (h : namesBelow? bs (ns ++ ms) = some S) :
    (∃ T, namesBelow? bs ns = some T) ∨ ∃ b bs', b :: bs' <:+ bs ∧ namesBelow? (b :: bs') ms = some S := by
  induction ns generalizing bs with
  | nil =>
    cases bs with
    | nil => exact .inl ⟨[], rfl⟩
    | cons b bs => exact .inr ⟨b, bs, List.suffix_refl _, h⟩
  | cons n ns ih =>
    cases bs with
    | nil => exact .inl ⟨_, namesBelow?_nil _⟩
    | cons b bs =>
      cases hn : isIdle n with
      | true =>
        rw [List.cons_append, namesBelow?_cons_idle hn] at h
        rw [namesBelow?_cons_idle hn]
        exact ih h
      | false =>
        rw [List.cons_append, namesBelow?_cons_of_not_idle hn] at h
        rw [namesBelow?_cons_of_not_idle hn]
        split at h
        · rename_i hb
          rw [if_pos hb]
          exact (ih h).imp_right fun ⟨b', bs', hsuffix, h⟩ => ⟨b', bs', hsuffix.trans (List.suffix_cons b bs), h⟩
        · cases h

theorem suffix_of_namesBelow? (h : namesBelow? bs ns = some S) : S <:+ ns := by
  induction ns generalizing bs with
  | nil =>
    cases bs with
    | nil => cases h; exact List.suffix_refl _
    | cons b bs => cases h
  | cons n ns ih =>
    cases bs with
    | nil =>
      rw [namesBelow?_nil] at h
      cases h
      exact List.dropWhile_suffix _
    | cons b bs =>
      cases hn : isIdle n with
      | true =>
        rw [namesBelow?_cons_idle hn] at h
        exact (ih h).trans (List.suffix_cons n ns)
      | false =>
        rw [namesBelow?_cons_of_not_idle hn] at h
        split at h
        · exact (ih h).trans (List.suffix_cons n ns)
        · cases h

theorem dropWhile_of_namesBelow? (h : namesBelow? bs ns = some S) : S.dropWhile isIdle = S := by
  have := namesBelow?_append h []
  rw [List.append_nil, List.append_nil, h] at this
  exact (Option.some.inj this).symm

/-! ### One step further -/

theorem isIdle_of_dropWhile {t : Name} {T : List Name} (h : (t :: T).dropWhile isIdle = t :: T) : isIdle t = false := by
  cases ht : isIdle t with
  | false => rfl
  | true =>
    rw [List.dropWhile_cons_of_pos ht] at h
    have := congrArg List.length h
    have := (List.dropWhile_suffix (p := isIdle) (l := T)).length_le
    simp only [List.length_cons] at *
    omega

/-- The names seen, after a step. An empty name at the end gives way. -/
def next (S : List Name) (n : Name) : List Name :=
  ((if S.getLast? = some [] then S.dropLast else S) ++ [n]).dropWhile isIdle

theorem namesBelow?_append_next (h : namesBelow? bs ns = some S) (hlast : ns.getLast? ≠ some []) (n : Name) :
    namesBelow? bs (ns ++ [n]) = some (next S n) := by
  rw [namesBelow?_append h, next]
  split
  · rename_i hS
    obtain ⟨t, rfl⟩ := suffix_of_namesBelow? h
    have hne : S ≠ [] := by
      rintro rfl
      cases hS
    rw [List.getLast?_append_of_ne_nil _ hne] at hlast
    exact absurd hS hlast
  · rfl

theorem namesBelow?_of_concat_nil (h : namesBelow? bs (ns ++ [[]]) = some S) :
    ∃ T, namesBelow? bs ns = some T ∧ (T = [] ∧ S = [] ∨ T ≠ [] ∧ S = T ++ [[]]) := by
  rcases namesBelow?_of_append h with ⟨T, hT⟩ | ⟨b, bs', hsuffix, hb⟩
  · rw [namesBelow?_append hT] at h
    obtain rfl := Option.some.inj h
    refine ⟨T, hT, ?_⟩
    have hidle := dropWhile_of_namesBelow? hT
    cases T with
    | nil => exact .inl ⟨rfl, rfl⟩
    | cons t T =>
      exact .inr ⟨List.cons_ne_nil t T, by rw [List.cons_append, dropWhile_of_not_isIdle (isIdle_of_dropWhile hidle)]⟩
  · rw [namesBelow?_cons_idle rfl] at hb
    cases hb

theorem namesBelow?_concat_next (h : namesBelow? bs (ns ++ [[]]) = some S)
    (n : Name) : namesBelow? bs (ns ++ [n]) = some (next S n) := by
  obtain ⟨T, hT, ⟨rfl, rfl⟩ | ⟨hne, rfl⟩⟩ := namesBelow?_of_concat_nil h
  · exact namesBelow?_append hT [n]
  · rw [namesBelow?_append hT, next, if_pos List.getLast?_concat, List.dropLast_concat]

/-! ### Walks from a root -/

/-- A walk from `root` that took the names `S` has come to `q`. From the point the first name that leads somewhere is
written without the point. -/
inductive Sees (root q : List Char) (S : List Name) : Prop
  | behind (absolute : isAbsolute q = isAbsolute root)
      (head : isAbsolute root = false → ∃ n ns, rawNames q = n :: ns ∧ isIdle n = false)
      (names : namesBelow? (names root) (rawNames q) = some S)
  | point (root_eq : root = ['.']) (ns : List Name) (raw : rawNames q = ['.'] :: ns)
      (names : namesBelow? [] ns = some S)
  | led (root_eq : root = ['.']) (n : Name) (ns : List Name) (raw : rawNames q = n :: ns) (head : isIdle n = false)
      (names : S = n :: ns)

theorem isAbsolute_of_head (h : rawNames q = n :: ns) (hn : n ≠ []) : isAbsolute q = false := by
  rw [← Bool.not_eq_true, isAbsolute_iff, h]
  rintro ⟨ms, -, hms⟩
  exact hn (List.cons.inj hms).1

theorem head_ne_nil (habs : isAbsolute q = false) (hq : q ≠ []) (h : rawNames q = n :: ns) : n ≠ [] := by
  rintro rfl
  by_cases hns : ns = []
  · exact hq (by rw [← join_rawNames q, h, hns]; rfl)
  · rw [isAbsolute_iff.2 ⟨ns, hns, h⟩] at habs
    cases habs

theorem ne_nil_of_not_isIdle (h : isIdle n = false) : n ≠ [] := by
  rintro rfl
  cases h

namespace Sees

theorem ne_nil (h : Sees root q S) : q ≠ [] := by
  rintro rfl
  have hraw : rawNames [] = [[]] := rfl
  cases h with
  | behind habs hhead hnames =>
    obtain ⟨n, ns, hns, hn⟩ := hhead habs.symm
    rw [hraw] at hns
    cases hns
    cases hn
  | point _ ns hns => rw [hraw] at hns; cases hns
  | led _ n ns hns hn => rw [hraw] at hns; cases hns; cases hn

theorem absolute (h : Sees root q S) (hroot : isAbsolute root = true) : isAbsolute q = true := by
  cases h with
  | behind habs => exact habs.trans hroot
  | point hpoint => subst hpoint; cases hroot
  | led hpoint => subst hpoint; cases hroot

theorem relativeTo?_of_absolute (h : Sees root q S) (hroot : isAbsolute root = true) :
    relativeTo? root q = some (Text.join ['/'] S) := by
  have hempty : root.isEmpty = false := by
    cases root with
    | nil => cases hroot
    | cons => rfl
  cases h with
  | behind habs _ hnames =>
    rw [relativeTo?, hempty, hroot, habs, hroot]
    dsimp only
    rw [if_neg Bool.false_ne_true, hnames]
    rfl
  | point hpoint => subst hpoint; cases hroot
  | led hpoint => subst hpoint; cases hroot

/-- Seen from its root, a path is the text of the names that were taken. -/
theorem text_eq (h : Sees root q S) : (relativeTo? root q).getD q = Text.join ['/'] S := by
  cases h with
  | behind habs hhead hnames =>
    cases hroot : isAbsolute root with
    | true => rw [relativeTo?_of_absolute (.behind habs hhead hnames) hroot]; rfl
    | false =>
      obtain ⟨n, ns, hns, hn⟩ := hhead hroot
      by_cases hempty : root = []
      · subst hempty
        have hS : S = rawNames q := by
          rw [show Path.names [] = [] from rfl, namesBelow?_nil, hns,
            dropWhile_of_not_isIdle hn] at hnames
          rw [hns]
          exact (Option.some.inj hnames).symm
        rw [hS, join_rawNames]
        rfl
      · obtain ⟨b, bs, hbs⟩ : ∃ b bs, Path.names root = b :: bs := by
          obtain ⟨b, bs, hb⟩ := List.exists_cons_of_ne_nil (rawNames_ne_nil root)
          have hbempty : b.isEmpty = false := List.isEmpty_eq_false_iff.2 (head_ne_nil hroot hempty hb)
          exact ⟨b, bs.filter fun n => !isIdle n, by rw [Path.names, hb]; dsimp only; rw [hbempty]; rfl⟩
        rw [hbs, hns, namesBelow?_cons_of_not_idle hn] at hnames
        rw [relativeTo?, List.isEmpty_eq_false_iff.2 hempty, hroot, habs, hroot, hbs, hns]
        dsimp only
        split at hnames
        · rename_i hb
          rw [if_neg Bool.false_ne_true, if_pos hb, hnames]
          rfl
        · cases hnames
  | point hroot ns hraw hnames =>
    subst hroot
    have habs := isAbsolute_of_head hraw (by decide)
    rw [relativeTo?, habs, hraw]
    show ((namesBelow? [] ns).map _).getD q = _
    rw [hnames]
    rfl
  | led hroot n ns hraw hn hS =>
    subst hroot
    have habs := isAbsolute_of_head hraw (ne_nil_of_not_isIdle hn)
    have hne : ['.'] ≠ n := by
      rintro rfl
      cases hn
    have htext : Text.join ['/'] (n :: ns) = q := by rw [← hraw, join_rawNames]
    rw [relativeTo?, habs, hraw, hS, htext]
    show (if ['.'] = n then _ else none).getD q = q
    rw [if_neg hne]
    rfl

/-- A step further, the point being written. -/
theorem join (h : Sees root q S) (hn : '/' ∉ n) : Sees root (join q n) (next S n) := by
  have hq := h.ne_nil
  have habsolute := isAbsolute_join hq hn
  cases h with
  | behind habs hhead hnames =>
    refine .behind (habsolute.trans habs) (fun hroot => ?_) ?_
    · obtain ⟨m, ms, hms, hm⟩ := hhead hroot
      rcases rawNames_join_cases hq hn with ⟨ns, hns, hjoin⟩ | ⟨-, hjoin⟩
      · cases ns with
        | nil =>
          cases hms.symm.trans hns
          cases hm
        | cons k ns =>
          cases hms.symm.trans hns
          exact ⟨m, ns ++ [n], hjoin, hm⟩
      · exact ⟨m, ms ++ [n], by rw [hjoin, hms]; rfl, hm⟩
    · rcases rawNames_join_cases hq hn with ⟨ns, hns, hjoin⟩ | ⟨hlast, hjoin⟩ <;> rw [hjoin]
      · exact namesBelow?_concat_next (hns ▸ hnames) n
      · exact namesBelow?_append_next hnames hlast n
  | point hroot ms hraw hnames =>
    rcases rawNames_join_cases hq hn with ⟨ns, hns, hjoin⟩ | ⟨hlast, hjoin⟩
    · cases ns with
      | nil => cases hraw.symm.trans hns
      | cons k ns =>
        cases hraw.symm.trans hns
        exact .point hroot (ns ++ [n]) hjoin (namesBelow?_concat_next hnames n)
    · refine .point hroot (ms ++ [n]) (by rw [hjoin, hraw]; rfl) (namesBelow?_append_next hnames (fun hms => ?_) n)
      rw [hraw, List.getLast?_cons, hms] at hlast
      exact hlast rfl
  | led hroot m ms hraw hm hS =>
    subst hS
    have hkeep (ms : List Name) : namesBelow? [] (m :: ms) = some (m :: ms) := by
      rw [namesBelow?_nil, dropWhile_of_not_isIdle hm]
    rcases rawNames_join_cases hq hn with ⟨ns, hns, hjoin⟩ | ⟨hlast, hjoin⟩
    · cases ns with
      | nil =>
        cases hraw.symm.trans hns
        cases hm
      | cons k ns =>
        cases hraw.symm.trans hns
        have hnames : namesBelow? [] (m :: ns ++ [[]]) = some (m :: ns ++ [[]]) := by
          rw [List.cons_append, hkeep]
        have hnext := namesBelow?_concat_next hnames n
        rw [List.cons_append, hkeep] at hnext
        exact .led hroot m (ns ++ [n]) hjoin hm (Option.some.inj hnext).symm
    · have hnext := namesBelow?_append_next (hkeep ms) (hraw ▸ hlast) n
      rw [List.cons_append, hkeep] at hnext
      exact .led hroot m (ms ++ [n]) (by rw [hjoin, hraw]; rfl) hm (Option.some.inj hnext).symm

theorem eq_point_of_sees (h : Sees root ['.'] S) : root = ['.'] ∧ S = [] := by
  have hraw : rawNames ['.'] = [['.']] := rfl
  cases h with
  | behind habs hhead hnames =>
    obtain ⟨n, ns, hns, hn⟩ := hhead habs.symm
    rw [hraw] at hns
    cases hns
    cases hn
  | point hroot ns hns hnames =>
    rw [hraw] at hns
    cases hns
    cases hnames
    exact ⟨hroot, rfl⟩
  | led _ n ns hns hn =>
    rw [hraw] at hns
    cases hns
    cases hn

/-- A step further, the point not being written. From the point itself it must not be an empty name. -/
theorem stepInto (h : Sees root q S) (hn : '/' ∉ n) (hpoint : q = ['.'] → n ≠ []) :
    Sees root (Disk.stepInto q n) (next S n) := by
  by_cases hq : q = ['.']
  · subst hq
    obtain ⟨rfl, rfl⟩ := eq_point_of_sees h
    show Sees ['.'] n ([n].dropWhile isIdle)
    cases hidle : isIdle n with
    | true =>
      obtain rfl := (isIdle_iff.1 hidle).resolve_left (hpoint rfl)
      exact .point rfl [] rfl rfl
    | false =>
      rw [dropWhile_of_not_isIdle hidle]
      exact .led rfl n [] (rawNames_of_free hn) hidle rfl
  · rw [Disk.stepInto, if_neg (mt beq_iff_eq.1 hq)]
    exact h.join hn

end Sees

/-! ### The path above -/

/-- The names seen of the path above: without the last name and the idle ones before it. -/
def outer (S : List Name) : List Name := (S.dropLast.reverse.dropWhile isIdle).reverse

theorem outer_eq {T between : List Name} (hT : T.dropWhile isIdle = T)
    (hlast : ∀ k, T.getLast? = some k → isIdle k = false) (hbetween : ∀ i ∈ between, isIdle i = true)
    (hn : isIdle n = false) : outer ((T ++ (between ++ [n])).dropWhile isIdle) = T := by
  cases T with
  | nil =>
    rw [List.nil_append, List.dropWhile_append_of_pos hbetween, dropWhile_of_not_isIdle hn]
    rfl
  | cons t T =>
    have ht := isIdle_of_dropWhile hT
    rw [List.cons_append, dropWhile_of_not_isIdle ht, outer, ← List.cons_append,
      ← List.append_assoc, List.dropLast_concat, List.reverse_append,
      List.dropWhile_append_of_pos fun i hi => hbetween i (List.mem_reverse.1 hi)]
    obtain ⟨k, hk⟩ : ∃ k, (t :: T).getLast? = some k := ⟨_, List.getLast?_cons⟩
    obtain ⟨T', hT'⟩ := List.getLast?_eq_some_iff.1 hk
    rw [hT', List.reverse_append, List.reverse_singleton, List.singleton_append,
      dropWhile_of_not_isIdle (hlast k hk), List.reverse_cons, List.reverse_reverse]

theorem getLast?_of_suffix {T : List Name} (h : S <:+ T) (hS : S.getLast? = some n) : T.getLast? = some n := by
  obtain ⟨t, rfl⟩ := h
  have hne : S ≠ [] := by
    rintro rfl
    cases hS
  rw [List.getLast?_append_of_ne_nil _ hne, hS]

/-- Names that lead behind a base and end with one that leads down have it behind the base, and what stands before the
idle names in front of it does so too. -/
theorem exists_namesBelow?_above {above between : List Name} (h : namesBelow? bs (above ++ (between ++ [n])) = some S)
    (hS : S ≠ []) (hbetween : ∀ i ∈ between, isIdle i = true) (hn : isIdle n = false) :
    ∃ T, namesBelow? bs above = some T ∧ S = (T ++ (between ++ [n])).dropWhile isIdle := by
  rcases namesBelow?_of_append h with ⟨T, hT⟩ | ⟨b, bs', -, hb⟩
  · refine ⟨T, hT, ?_⟩
    rw [namesBelow?_append hT] at h
    exact (Option.some.inj h).symm
  · have hskip : namesBelow? (b :: bs') (between ++ [n]) = namesBelow? (b :: bs') [n] := by
      clear hb h
      induction between with
      | nil => rfl
      | cons i between ih =>
        have ⟨hi, hrest⟩ := List.forall_mem_cons.1 hbetween
        rw [List.cons_append, namesBelow?_cons_idle hi, ih hrest]
    rw [hskip, namesBelow?_cons_of_not_idle hn] at hb
    split at hb
    · cases bs' with
      | nil =>
        cases hb
        exact absurd rfl hS
      | cons => cases hb
    · cases hb

theorem Sees.suffix (h : Sees root q S) : S <:+ rawNames q := by
  cases h with
  | behind _ _ hnames => exact suffix_of_namesBelow? hnames
  | point _ ns hraw hnames => exact hraw ▸ (suffix_of_namesBelow? hnames).trans (List.suffix_cons _ _)
  | led _ m ns hraw _ hS => exact hraw ▸ hS ▸ List.suffix_refl _

/-- If the names of a path end with an idle name only when they are one name, so do those seen of it. -/
theorem not_isIdle_last {T above : List Name} (hsuffix : T <:+ above) (hT : T.dropWhile isIdle = T)
    (hlast : ∀ k, above.getLast? = some k → isIdle k = false ∨ above = [k]) :
    ∀ k, T.getLast? = some k → isIdle k = false := by
  intro k hk
  rcases hlast k (getLast?_of_suffix hsuffix hk) with hidle | rfl
  · exact hidle
  · rcases List.suffix_cons_iff.1 hsuffix with rfl | hnil
    · exact isIdle_of_dropWhile hT
    · rw [List.suffix_nil.1 hnil] at hk
      cases hk

theorem last_of_idle (above : List Name) {idle : List Name} (hidle : ∀ i ∈ idle, isIdle i = true)
    (hlast : (above ++ b :: idle).getLast? = some n) (hn : isIdle n = false) : idle = [] ∧ b = n := by
  cases idle with
  | nil =>
    rw [List.getLast?_concat] at hlast
    exact ⟨rfl, Option.some.inj hlast⟩
  | cons i idle =>
    rw [List.getLast?_append_of_ne_nil _ (List.cons_ne_nil _ _), List.getLast?_cons_cons] at hlast
    rw [hidle n (List.mem_of_getLast? hlast)] at hn
    cases hn

theorem Sees.exists_parent (h : Sees root q S) (hS : S.getLast? = some n) (hn : IsProper n) :
    ∃ dir, parent? q = some dir := by
  have hlast := getLast?_of_suffix h.suffix hS
  rcases parent?_cases q with ⟨idle, hidle, hraw, -⟩ | ⟨m, idle, -, -, -, hsome⟩ |
    ⟨q', above, between, m, idle, -, -, -, -, -, -, hsome, -⟩
  · have hidle' : isIdle n = true := by
      rw [hraw] at hlast
      rcases List.mem_cons.1 (List.mem_of_getLast? hlast) with rfl | hmem
      · rfl
      · exact hidle n hmem
    rw [hn.1] at hidle'
    cases hidle'
  · exact ⟨_, hsome⟩
  · exact ⟨_, hsome⟩

/-- A walk to a file came through the path above it, unless nothing is written above. -/
theorem Sees.above {dir : List Char} (h : Sees root q S) (hS : S.getLast? = some n) (hn : IsProper n)
    (hdir : parent? q = some dir) (hdirne : dir ≠ []) : Sees root dir (outer S) := by
  have hlast := getLast?_of_suffix h.suffix hS
  have hne : S ≠ [] := by
    rintro rfl
    cases hS
  rcases parent?_cases q with ⟨idle, -, -, hnone⟩ | ⟨m, idle, -, -, -, hsome⟩ |
    ⟨q', above, between, m, idle, -, hbetween, hidle, habove, hlastAbove, hraw, hsome, hcases⟩
  · cases hdir.symm.trans hnone
  · cases hdir.symm.trans hsome
    exact absurd rfl hdirne
  · cases hdir.symm.trans hsome
    obtain ⟨rfl, rfl⟩ := last_of_idle (above ++ between) hidle
      (by rw [List.append_assoc, ← hraw, hlast]) hn.1
    suffices hdir : ∃ T, Sees root dir T ∧ T <:+ above ∧ T.dropWhile isIdle = T ∧
        S = (T ++ (between ++ [m])).dropWhile isIdle by
      obtain ⟨T, hsees, hsuffix, hT, rfl⟩ := hdir
      rwa [outer_eq hT (not_isIdle_last hsuffix hT hlastAbove) hbetween hn.1]
    have habsolute := isAbsolute_parent? hdir
    cases h with
    | behind habs hhead hnames =>
      obtain ⟨T, hT, hS⟩ := exists_namesBelow?_above (hraw ▸ hnames) hne hbetween hn.1
      rcases hcases with ⟨hdirRaw, -⟩ | ⟨rfl, rfl⟩
      · refine ⟨T, .behind (habsolute.trans habs) (fun hroot => ?_) (hdirRaw ▸ hT), suffix_of_namesBelow? hT,
          dropWhile_of_namesBelow? hT, hS⟩
        obtain ⟨k, ns, hk, hkidle⟩ := hhead hroot
        obtain ⟨a, as, rfl⟩ := List.exists_cons_of_ne_nil habove
        cases hraw.symm.trans hk
        exact ⟨k, as, hdirRaw, hkidle⟩
      · have hroot : isAbsolute root = true := (habsolute.trans habs).symm
        have hslash : rawNames ['/'] = [[]] ++ [[]] := rfl
        have hnil : T = [] := by
          have := dropWhile_of_namesBelow? hT
          rcases List.suffix_cons_iff.1 (suffix_of_namesBelow? hT) with rfl | hnil
          · cases this
          · exact List.suffix_nil.1 hnil
        subst hnil
        refine ⟨[], .behind (habsolute.trans habs) (fun h => by rw [hroot] at h; cases h) ?_, List.nil_suffix, rfl, hS⟩
        rw [hslash, namesBelow?_append hT]
        rfl
    | point hroot ns hpoint hnames =>
      obtain ⟨a, as, rfl⟩ := List.exists_cons_of_ne_nil habove
      cases hpoint.symm.trans hraw
      obtain ⟨T, hT, hS⟩ := exists_namesBelow?_above hnames hne hbetween hn.1
      rcases hcases with ⟨hdirRaw, -⟩ | ⟨-, hnil⟩
      · exact ⟨T, .point hroot as hdirRaw hT, (suffix_of_namesBelow? hT).trans (List.suffix_cons _ _),
          dropWhile_of_namesBelow? hT, hS⟩
      · cases hnil
    | led hroot k ns hled hk hS =>
      obtain ⟨a, as, rfl⟩ := List.exists_cons_of_ne_nil habove
      cases hled.symm.trans hraw
      have hkeep (ms : List Name) : (k :: ms).dropWhile isIdle = k :: ms := dropWhile_of_not_isIdle hk ms
      rcases hcases with ⟨hdirRaw, -⟩ | ⟨-, hnil⟩
      · exact ⟨k :: as, .led hroot k as hdirRaw hk rfl, List.suffix_refl _, hkeep as,
          by rw [hS, List.cons_append, hkeep]; rfl⟩
      · cases hnil
        cases hk

/-- Seen from its root, the path above a file in it is the text of the names above. -/
theorem Sees.parent {dir : List Char} (h : Sees root q S) (hS : S.getLast? = some n) (hn : IsProper n)
    (hdir : parent? q = some dir) : (relativeTo? root dir).getD dir = Text.join ['/'] (outer S) := by
  by_cases hdirne : dir = []
  · subst hdirne
    have hlast := getLast?_of_suffix h.suffix hS
    have hne : S ≠ [] := by
      rintro rfl
      cases hS
    rcases parent?_cases q with ⟨idle, -, -, hnone⟩ | ⟨m, idle, -, hidle, hraw, -⟩ |
      ⟨q', above, between, m, idle, -, -, -, habove, -, -, hsome, hcases⟩
    · cases hdir.symm.trans hnone
    · obtain ⟨rfl, rfl⟩ := last_of_idle [] hidle (by rw [List.nil_append, ← hraw, hlast]) hn.1
      cases h with
      | behind habs hhead hnames =>
        have hrel : isAbsolute root = false := habs.symm.trans (isAbsolute_of_head hraw (ne_nil_of_not_isIdle hn.1))
        have hroot : root = [] := by
          by_contra hroot
          obtain ⟨b, bs, hb⟩ := List.exists_cons_of_ne_nil (rawNames_ne_nil root)
          have hempty : b.isEmpty = false := List.isEmpty_eq_false_iff.2 (head_ne_nil hrel hroot hb)
          rw [Path.names, hb, hraw] at hnames
          dsimp only at hnames
          rw [hempty, if_neg Bool.false_ne_true, List.singleton_append, namesBelow?_cons_of_not_idle hn.1] at hnames
          split at hnames
          · exact hne (List.suffix_nil.1 (suffix_of_namesBelow? hnames))
          · cases hnames
        subst hroot
        rw [hraw] at hnames
        obtain rfl : S = [m] := by
          rw [show Path.names [] = [] from rfl, namesBelow?_nil,
            dropWhile_of_not_isIdle hn.1] at hnames
          exact (Option.some.inj hnames).symm
        rfl
      | point hroot ns hpoint hnames =>
        cases hpoint.symm.trans hraw
        exact absurd hn.1 (by decide)
      | led hroot k ns hled hk hS =>
        cases hled.symm.trans hraw
        subst hS hroot
        rfl
    · cases hdir.symm.trans hsome
      rcases hcases with ⟨hdirRaw, hone⟩ | ⟨hslash, -⟩
      · exact absurd hdirRaw.symm hone
      · cases hslash
  · exact (h.above hS hn hdir hdirne).text_eq

end Federation.Path
