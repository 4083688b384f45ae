import Federation.Path

/-!
# Paths by their names

The names of a path that stand behind one another are those of its parts (`rawNames_append`), and the last name of a
path is the last one that is no idle name (`exists_idle`). What `withExtension` does to the names of a path follows:
it changes the last name and drops the idle ones behind it, or the path has no last name that could be changed, since
it ends with `..` or has idle names only (`withExtension_cases`).
-/

namespace Federation.Path

variable {p ext : List Char} {n : Name} {ns r idle : List Name}

/-! ### Names of parts -/

theorem rawNames_ne_nil (p : List Char) : rawNames p ≠ [] := Text.pieces_ne_nil _ p

theorem join_rawNames (p : List Char) : Text.join ['/'] (rawNames p) = p := Text.join_pieces '/' p

theorem rawNames_append (s t : List Char) : rawNames (s ++ '/' :: t) = rawNames s ++ rawNames t :=
  Text.pieces_append_cons rfl s t

theorem slash_not_mem_of_mem_rawNames (h : n ∈ rawNames p) : '/' ∉ n := by
  intro hn
  have := (Text.mem_of_mem_pieces h '/' hn).2
  simp at this

theorem rawNames_of_free (h : '/' ∉ p) : rawNames p = [p] := by
  refine Text.pieces_of_free fun c hc => ?_
  rw [beq_eq_false_iff_ne]
  rintro rfl
  exact h hc

theorem rawNames_join (hne : ns ≠ []) (h : ∀ n ∈ ns, '/' ∉ n) : rawNames (Text.join ['/'] ns) = ns := by
  refine Text.pieces_join rfl hne fun n hn c hc => ?_
  rw [beq_eq_false_iff_ne]
  rintro rfl
  exact h n hn hc

theorem isAbsolute_iff : isAbsolute p = true ↔ ∃ ns, ns ≠ [] ∧ rawNames p = [] :: ns := by
  constructor
  · intro h
    rw [isAbsolute, beq_iff_eq] at h
    obtain ⟨r, rfl⟩ := List.head?_eq_some_iff.1 h
    exact ⟨rawNames r, rawNames_ne_nil r, rfl⟩
  · rintro ⟨ns, hns, h⟩
    rw [← join_rawNames p, h]
    obtain ⟨m, ms, rfl⟩ := List.exists_cons_of_ne_nil hns
    rfl

/-! ### Last names -/

/-- A name that leads one step down. -/
def IsProper (n : Name) : Prop := isIdle n = false ∧ n ≠ ['.', '.']

instance (n : Name) : Decidable (IsProper n) := inferInstanceAs (Decidable (_ ∧ _))

theorem isIdle_iff : isIdle n = true ↔ n = [] ∨ n = ['.'] := by
  rw [isIdle, Bool.or_eq_true, List.isEmpty_iff, beq_iff_eq]

theorem exists_idle (ns : List Name) : ∃ idle, (∀ n ∈ idle, isIdle n = true) ∧ ns = idle ++ dropIdle ns := by
  fun_induction dropIdle ns with
  | case1 n m r h ih =>
    obtain ⟨idle, hidle, hns⟩ := ih
    exact ⟨n :: idle, List.forall_mem_cons.2 ⟨h, hidle⟩, congrArg (n :: ·) hns⟩
  | case2 | case3 => exact ⟨[], nofun, rfl⟩

theorem dropIdle_append (hidle : ∀ i ∈ idle, isIdle i = true) (hn : isIdle n = false) (r : List Name) :
    dropIdle (idle ++ n :: r) = n :: r := by
  induction idle with
  | nil =>
    cases r with
    | nil => rfl
    | cons m r => rw [List.nil_append, dropIdle, hn, if_neg Bool.false_ne_true]
  | cons i idle ih =>
    have ⟨hi, hrest⟩ := List.forall_mem_cons.1 hidle
    have ih := ih hrest
    cases idle with
    | nil => rw [List.cons_append, List.nil_append, dropIdle, if_pos hi]; exact ih
    | cons j idle => rw [List.cons_append, List.cons_append, dropIdle, if_pos hi]; exact ih

theorem dropIdle_ne_nil (h : ns ≠ []) : dropIdle ns ≠ [] := by
  fun_induction dropIdle ns with
  | case1 n m r hn ih => exact ih (List.cons_ne_nil _ _)
  | case2 => exact List.cons_ne_nil _ _
  | case3 => exact h

/-- The names of a path up to the last one that counts, and the idle ones behind it. -/
theorem exists_rawNames (p : List Char) : ∃ r n idle, (∀ i ∈ idle, isIdle i = true) ∧
    rawNames p = r.reverse ++ n :: idle ∧ dropIdle (rawNames p).reverse = n :: r := by
  obtain ⟨idle, hidle, hns⟩ := exists_idle (rawNames p).reverse
  have hne : dropIdle (rawNames p).reverse ≠ [] :=
    dropIdle_ne_nil fun h => rawNames_ne_nil p (List.reverse_eq_nil_iff.1 h)
  obtain ⟨n, r, hd⟩ := List.exists_cons_of_ne_nil hne
  rw [hd] at hns
  refine ⟨r, n, idle.reverse, fun i hi => hidle i (List.mem_reverse.1 hi), ?_, hd⟩
  rw [← List.reverse_reverse (rawNames p), hns]
  simp

/-! ### Another extension -/

theorem slash_not_mem_of_isIdle (h : isIdle n = true) : '/' ∉ n := by
  rcases isIdle_iff.1 h with rfl | rfl <;> decide

theorem isIdle_take (h : isIdle n = true) (k : Nat) : isIdle (n.take k) = true := by
  rcases isIdle_iff.1 h with rfl | rfl
  · rw [List.take_nil]; rfl
  · match k with
    | 0 => rfl
    | k + 1 => rw [List.take_succ_cons, List.take_nil]; rfl

theorem join_middle (r : List Name) (n : Name) (ms : List Name) :
    Text.join ['/'] (r ++ n :: ms) = r.flatMap (· ++ ['/']) ++ (n ++ ms.flatMap ('/' :: ·)) := by
  induction r with
  | nil =>
    rw [List.nil_append, List.flatMap_nil, List.nil_append]
    induction ms generalizing n with
    | nil => simp [Text.join]
    | cons m ms ih => rw [Text.join, ih, List.flatMap_cons]; simp
  | cons m r ih =>
    have hjoin : Text.join ['/'] ([m] ++ (r ++ n :: ms)) = m ++ ['/'] ++ Text.join ['/'] (r ++ n :: ms) :=
      Text.join_append (List.cons_ne_nil m []) (by simp)
    rw [List.cons_append, List.flatMap_cons, List.append_assoc, ← ih]
    exact hjoin

theorem rawNames_above (h : ∀ n ∈ r, '/' ∉ n) (s : List Char) :
    rawNames (r.flatMap (· ++ ['/']) ++ s) = r ++ rawNames s := by
  induction r with
  | nil => rfl
  | cons n r ih =>
    have ⟨hn, hr⟩ := List.forall_mem_cons.1 h
    rw [List.flatMap_cons, List.append_assoc, List.append_assoc, List.singleton_append, rawNames_append, ih hr,
      rawNames_of_free hn]
    rfl

theorem rawNames_take_idle (hn : '/' ∉ n) (hidle : ∀ i ∈ idle, isIdle i = true) (k : Nat) :
    ∃ idle', (∀ i ∈ idle', isIdle i = true) ∧ rawNames (n ++ (idle.flatMap ('/' :: ·)).take k) = n :: idle' := by
  induction idle generalizing n k with
  | nil => exact ⟨[], nofun, by rw [List.flatMap_nil, List.take_nil, List.append_nil, rawNames_of_free hn]⟩
  | cons i idle ih =>
    have ⟨hi, hrest⟩ := List.forall_mem_cons.1 hidle
    cases k with
    | zero => exact ⟨[], nofun, by rw [List.take_zero, List.append_nil, rawNames_of_free hn]⟩
    | succ k =>
      have hcut := isIdle_take hi k
      obtain ⟨idle', hidle', hnames⟩ := ih (slash_not_mem_of_isIdle hcut) hrest (k - i.length)
      refine ⟨i.take k :: idle', List.forall_mem_cons.2 ⟨hcut, hidle'⟩, ?_⟩
      rw [List.flatMap_cons, List.cons_append, List.take_succ_cons, List.take_append, rawNames_append, hnames,
        rawNames_of_free hn]
      rfl

/-- The path that is left when as many characters as the extension has are taken off its end. If idle names stand behind
the last name, it is they that are cut first, and of the extension a part may stay. -/
theorem rawNames_cut {stem e : Name} (hidle : ∀ i ∈ idle, isIdle i = true)
    (hp : rawNames p = r ++ (stem ++ '.' :: e) :: idle) :
    ∃ e' idle', e' <+: e ∧ (∀ i ∈ idle', isIdle i = true) ∧
      rawNames (p.take (p.length - e.length)) = r ++ (stem ++ '.' :: e') :: idle' := by
  have hfree : ∀ n ∈ r ++ (stem ++ '.' :: e) :: idle, '/' ∉ n := fun n hn => slash_not_mem_of_mem_rawNames (hp ▸ hn)
  have ⟨hr, hrest⟩ := List.forall_mem_append.1 hfree
  have hname := (List.forall_mem_cons.1 hrest).1
  let above := r.flatMap (· ++ ['/'])
  let below := idle.flatMap ('/' :: ·)
  have htext : p = (above ++ (stem ++ ['.'])) ++ (e ++ below) := by
    rw [← join_rawNames p, hp, join_middle]
    simp [above, below]
  have hcut : p.take (p.length - e.length) =
      above ++ ((stem ++ '.' :: e.take below.length) ++ below.take (below.length - e.length)) := by
    have hlength : p.length - e.length = (above ++ (stem ++ ['.'])).length + below.length := by
      rw [htext, List.length_append, @List.length_append _ e]
      omega
    rw [hlength, htext, List.take_length_add_append, List.take_append]
    simp
  have hkept : '/' ∉ stem ++ '.' :: e.take below.length := by
    simp only [List.mem_append, List.mem_cons, not_or] at hname ⊢
    exact ⟨hname.1, hname.2.1, fun h => hname.2.2 (List.mem_of_mem_take h)⟩
  obtain ⟨idle', hidle', hnames⟩ := rawNames_take_idle hkept hidle (below.length - e.length)
  exact ⟨_, idle', List.take_prefix .., hidle', by rw [hcut, rawNames_above hr, hnames]⟩

theorem splitExtension_append {stem e : Name} (hstem : stem ≠ []) (he : '.' ∉ e) :
    splitExtension (stem ++ '.' :: e) = (stem, some e) := by
  obtain ⟨c, r, rfl⟩ := List.exists_cons_of_ne_nil hstem
  rw [splitExtension, Text.splitLast_append _ he]

theorem splitExtension_cases (n : Name) :
    (∃ stem e, stem ≠ [] ∧ '.' ∉ e ∧ n = stem ++ '.' :: e ∧ splitExtension n = (stem, some e)) ∨
      splitExtension n = (n, none) := by
  unfold splitExtension
  split
  · rename_i c r e hsplit
    obtain ⟨hn, he⟩ := Text.splitLast_eq_some hsplit
    exact .inl ⟨c :: r, e, List.cons_ne_nil _ _, he, hn, rfl⟩
  · exact .inr rfl

theorem isProper_append {stem e : Name} (hstem : stem ≠ []) (h : stem ++ '.' :: e ≠ ['.', '.']) :
    IsProper (stem ++ '.' :: e) := by
  obtain ⟨c, r, rfl⟩ := List.exists_cons_of_ne_nil hstem
  refine ⟨?_, h⟩
  rw [← Bool.not_eq_true, isIdle_iff]
  simp

theorem fileName?_of_proper (hd : dropIdle (rawNames p).reverse = n :: r) (hn : IsProper n) :
    fileName? p = some n := by
  have hcond : (isIdle n || n == ['.', '.']) = false := by
    rw [hn.1, Bool.false_or, beq_eq_false_iff_ne]
    exact hn.2
  rw [fileName?, hd]
  dsimp only
  rw [hcond, if_neg Bool.false_ne_true]

theorem fileName?_of_not_proper (hd : dropIdle (rawNames p).reverse = n :: r) (hn : ¬IsProper n) :
    fileName? p = none := by
  have hcond : (isIdle n || n == ['.', '.']) = true := by
    rw [Bool.or_eq_true, beq_iff_eq]
    by_cases hidle : isIdle n = true
    · exact .inl hidle
    · exact .inr (Decidable.byContradiction fun hdots => hn ⟨Bool.not_eq_true _ ▸ hidle, hdots⟩)
  rw [fileName?, hd]
  dsimp only
  rw [hcond, if_pos rfl]

theorem setExtension_of_not_proper (hd : dropIdle (rawNames p).reverse = n :: r) (hn : ¬IsProper n) :
    setExtension p ext = p := by
  rw [setExtension, fileName?_of_not_proper hd hn]

theorem rawNames_setExtension {stem : Name} {e : Option Name} (hd : dropIdle (rawNames p).reverse = n :: r)
    (hn : IsProper n) (hsplit : splitExtension n = (stem, e)) (hstem : ∀ c ∈ stem, c ∈ n) (hext : '/' ∉ ext) :
    rawNames (setExtension p ext) = r.reverse ++ [stem ++ '.' :: ext] := by
  obtain ⟨idle, -, hrev⟩ := exists_idle (rawNames p).reverse
  rw [hd] at hrev
  have hfree (m : Name) (hm : m ∈ n :: r) : '/' ∉ m :=
    slash_not_mem_of_mem_rawNames (List.mem_reverse.1 (hrev ▸ List.mem_append_right _ hm))
  rw [setExtension, fileName?_of_proper hd hn, hd]
  dsimp only
  rw [hsplit, List.reverse_cons]
  refine rawNames_join (by simp) fun m hm => ?_
  rcases List.mem_append.1 hm with hm | hm
  · exact hfree m (List.mem_cons_of_mem _ (List.mem_reverse.1 hm))
  · rw [List.mem_singleton.1 hm, List.mem_append, List.mem_cons, not_or, not_or]
    exact ⟨fun h => hfree n List.mem_cons_self (hstem _ h), by decide, hext⟩

/-- A name with another extension in the place of its last one. -/
def nameWithExtension (n ext : Name) : Name := (splitExtension n).1 ++ '.' :: ext

theorem nameWithExtension_ne (hdot : '.' ∈ ext) (n : Name) : nameWithExtension n ext ≠ n := by
  intro h
  rcases splitExtension_cases n with ⟨stem, e, -, he, rfl, hsplit⟩ | hsplit <;> rw [nameWithExtension, hsplit] at h
  · have := List.append_cancel_left h
    rw [List.cons.injEq] at this
    exact he (this.2 ▸ hdot)
  · have := congrArg List.length h
    simp at this

/-- A path with another extension of several parts: either the names above the last one stay, and the last one becomes
another, or what is left of the path has no last name to be changed. -/
theorem withExtension_cases (p : List Char) (hslash : '/' ∉ ext) (hdot : '.' ∈ ext) :
    (∃ r n idle, IsProper n ∧ IsProper (nameWithExtension n ext) ∧ (∀ i ∈ idle, isIdle i = true) ∧
      rawNames p = r ++ n :: idle ∧ rawNames (withExtension p ext) = r ++ [nameWithExtension n ext]) ∨
    ∃ r n idle, ¬IsProper n ∧ (∀ i ∈ idle, isIdle i = true) ∧ rawNames (withExtension p ext) = r ++ n :: idle := by
  obtain ⟨r, n, idle, hidle, hp, hd⟩ := exists_rawNames p
  have hlong {stem : Name} (hstem : stem ≠ []) : stem ++ '.' :: ext ≠ ['.', '.'] := by
    intro h
    have := congrArg List.length h
    have := List.length_pos_of_mem hdot
    have := List.length_pos_iff.2 hstem
    simp only [List.length_append, List.length_cons, List.length_nil] at *
    omega
  by_cases hn : IsProper n
  · rcases splitExtension_cases n with ⟨stem, e, hstem, he, rfl, hsplit⟩ | hsplit
    · have hname : nameWithExtension (stem ++ '.' :: e) ext = stem ++ '.' :: ext := by rw [nameWithExtension, hsplit]
      obtain ⟨e', idle', hprefix, hidle', hcut⟩ := rawNames_cut hidle hp
      have hext : withExtension p ext = setExtension (p.take (p.length - e.length)) ext := by
        rw [withExtension, extension?, fileName?_of_proper hd hn, Option.bind_some, hsplit]
        rfl
      have hd' : dropIdle (rawNames (p.take (p.length - e.length))).reverse = (stem ++ '.' :: e') :: r := by
        have hidle : ∀ i ∈ idle'.reverse, isIdle i = true := fun i hi => hidle' i (List.mem_reverse.1 hi)
        have hname : isIdle (stem ++ '.' :: e') = false := by
          obtain ⟨c, s, rfl⟩ := List.exists_cons_of_ne_nil hstem
          rw [← Bool.not_eq_true, isIdle_iff]
          simp
        rw [hcut, List.reverse_append, List.reverse_cons, List.reverse_reverse, List.append_assoc]
        exact dropIdle_append hidle hname r
      by_cases hn' : stem ++ '.' :: e' = ['.', '.']
      · have hnot : ¬IsProper (stem ++ '.' :: e') := fun h => h.2 hn'
        exact .inr ⟨_, _, idle', hnot, hidle', by rw [hext, setExtension_of_not_proper hd' hnot, hcut]⟩
      · have he' : '.' ∉ e' := fun h => he (List.IsPrefix.subset hprefix h)
        refine .inl ⟨_, _, idle, hn, hname ▸ isProper_append hstem (hlong hstem), hidle, hp, ?_⟩
        rw [hext, hname]
        exact rawNames_setExtension hd' (isProper_append hstem hn') (splitExtension_append hstem he')
          (fun c hc => List.mem_append_left _ hc) hslash
    · have hname : nameWithExtension n ext = n ++ '.' :: ext := by rw [nameWithExtension, hsplit]
      have hstem : n ≠ [] := by
        rintro rfl
        exact absurd hn.1 (by decide)
      have hext : withExtension p ext = setExtension p ext := by
        rw [withExtension, extension?, fileName?_of_proper hd hn, Option.bind_some, hsplit]
        simp
      refine .inl ⟨_, _, idle, hn, hname ▸ isProper_append hstem (hlong hstem), hidle, hp, ?_⟩
      rw [hext, hname]
      exact rawNames_setExtension hd hn hsplit (fun c hc => hc) hslash
  · have hext : withExtension p ext = p := by
      rw [withExtension, extension?, fileName?_of_not_proper hd hn]
      simp [setExtension_of_not_proper hd hn]
    exact .inr ⟨_, n, idle, hn, hidle, by rw [hext, hp]⟩

end Federation.Path
