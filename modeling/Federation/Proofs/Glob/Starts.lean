import Federation.Proofs.Glob.Walks

/-!
# Where a search begins

A pattern below an escaped path begins with names that are fixed: those of the path, and idle names behind them. The
walk takes them one by one (`expand_fixed`), also the names with special characters, for which it searches a directory
and finds exactly one child. From a directory that is seen as the root (`sees_start`) the search itself begins.
-/

namespace Federation.Disk

open Federation.Path GlobPattern

variable {d : Disk} {l l' cwd : Location} {n m : Name} {ns idle bs S : List Name} {p q root : List Char}
  {pats : List GlobPattern} {fuel : Nat}

/-! ### Fixed names -/

theorem flatMap_eq_of_nodup {α β : Type} {f : α → List β} {as : List α} {a : α} (hnodup : as.Nodup) (ha : a ∈ as)
    (hf : ∀ b ∈ as, b ≠ a → f b = []) : as.flatMap f = f a := by
  obtain ⟨s, t, rfl⟩ := List.append_of_mem ha
  rw [List.nodup_append, List.nodup_cons] at hnodup
  obtain ⟨-, ⟨hat, -⟩, hdisjoint⟩ := hnodup
  have hs : s.flatMap f = [] := by
    rw [List.flatMap_eq_nil_iff]
    intro b hb
    exact hf b (by simp [hb]) (hdisjoint b hb a List.mem_cons_self)
  have ht : t.flatMap f = [] := by
    rw [List.flatMap_eq_nil_iff]
    intro b hb
    refine hf b (by simp [hb]) ?_
    rintro rfl
    exact hat hb
  rw [List.flatMap_append, List.flatMap_cons, hs, ht, List.nil_append, List.append_nil]

theorem expand_exact (h : d.IsWellFormed) (hq : d.lookup cwd q = .found l .directory) (hn : '/' ∉ n)
    (hpoint : q = ['.'] → n ≠ []) (hstep : d.walk l [n] = .found l' .directory) (hpats : pats ≠ []) (fuel : Nat) :
    ∃ k, fuel ≤ k ∧ d.expand cwd (fuel + 2) (exact n :: pats) q = d.expand cwd k pats (stepInto q n) := by
  have hempty : pats.isEmpty = false := List.isEmpty_eq_false_iff.2 hpats
  rcases literal?_exact n with hlit | ⟨hlit, c, hc, hspecial⟩
  · refine ⟨fuel + 1, Nat.le_succ fuel, ?_⟩
    rw [expand_literal h.tree hlit hq hn hpoint, hstep]
    dsimp only
    rw [hempty, if_neg Bool.false_ne_true]
  · -- the directory is searched, and of its names only this one matches
    refine ⟨fuel, Nat.le_refl fuel, ?_⟩
    have hpoints : ∀ m ∈ [['.', '.'], ['.']], m ≠ n := by
      rintro m hm rfl
      have : c = '.' := by
        simp only [List.mem_cons, List.not_mem_nil, or_false] at hm
        rcases hm with rfl | rfl <;> simpa using hc
      rw [this] at hspecial
      cases hspecial
    have hproper : IsProper n := by
      refine ⟨?_, fun hdots => hpoints _ List.mem_cons_self hdots.symm⟩
      rw [← Bool.not_eq_true, isIdle_iff]
      rintro (rfl | rfl)
      · cases hc
      · exact hpoints _ (List.mem_cons_of_mem _ List.mem_cons_self) rfl
    have hchild : n ∈ d.children l := by
      have hplace := placeOf_walk (d := d) (l := l) (x := l') (by rw [hstep]; rfl)
      have hl' : l' = l ++ [n] := hplace.trans (stepTo_of_proper hproper l)
      exact mem_children.2 ⟨.directory, hl' ▸ get?_of_found hstep⟩
    have hdots : [['.', '.'], ['.']].filter (exact n).isMatch = [] := by
      rw [List.filter_eq_nil_iff]
      intro m hm hmatch
      exact hpoints m hm (isMatch_exact.1 hmatch)
    rw [expand_search hlit hq, hdots, ite_self, List.flatMap_nil, List.nil_append]
    rw [flatMap_eq_of_nodup (nodup_children h l) hchild]
    · rw [visit_of_not_recursive (isRecursive_exact n), selectAt, isMatch_exact.2 rfl, hempty]
      rfl
    · intro m hm hne
      have hmatch : (exact n).isMatch m = false := by
        rw [← Bool.not_eq_true, isMatch_exact]
        exact hne
      rw [visit_of_not_recursive (isRecursive_exact n), selectAt, hmatch]
      rfl

/-- A walk takes the names at the beginning of a pattern one by one. -/
theorem expand_fixed (h : d.IsWellFormed) (hq : d.lookup cwd q = .found l .directory)
    (hwalk : d.walk l ns = .found l' .directory) (hns : ∀ n ∈ ns, '/' ∉ n)
    (hpoint : q = ['.'] → [] ∉ ns.takeWhile isIdle) (hpats : pats ≠ []) (fuel : Nat) :
    d.lookup cwd (ns.foldl stepInto q) = .found l' .directory ∧
      ∃ k, fuel ≤ k ∧ d.expand cwd (fuel + 2 * ns.length) (ns.map exact ++ pats) q =
        d.expand cwd k pats (ns.foldl stepInto q) := by
  induction ns generalizing l q fuel with
  | nil =>
    have hl : l' = l := placeOf_walk (d := d) (by rw [hwalk]; rfl)
    exact ⟨hl ▸ hq, fuel, Nat.le_refl fuel, rfl⟩
  | cons n ns ih =>
    obtain ⟨hn, hns⟩ := List.forall_mem_cons.1 hns
    obtain ⟨hl, hpass⟩ := walk_cons_inv (show (d.walk l (n :: ns)).place? = some l' by rw [hwalk]; rfl)
    have hrest : d.walk (stepTo l n) ns = .found l' .directory := by rw [← walk_cons hl hpass, hwalk]
    have hdir : d.get? (stepTo l n) = some .directory := by
      cases ns with
      | nil =>
        have hl' := placeOf_walk (d := d) (x := l') (by rw [hrest]; rfl)
        rw [show stepTo l n = l' from hl'.symm]
        exact get?_of_found hrest
      | cons m ns => exact (walk_cons_inv (show (d.walk (stepTo l n) (m :: ns)).place? = some l' by rw [hrest]; rfl)).1
    have hstep : d.walk l [n] = .found (stepTo l n) .directory := by rw [walk_cons hl hpass, walk_nil, hdir]
    have hne : q = ['.'] → n ≠ [] := by
      rintro hdot rfl
      exact hpoint hdot List.mem_cons_self
    have hnext := (lookup_stepInto hq hn hne).trans hstep
    have hqne : q ≠ [] := by
      rintro rfl
      cases hq
    have hpoint' (hstop : stepInto q n = ['.']) : [] ∉ ns.takeWhile isIdle := by
      obtain ⟨hdot, rfl⟩ := stepInto_eq_point hqne hn hstop
      exact fun hmem => hpoint hdot (List.mem_cons_of_mem _ hmem)
    -- a name takes one call or two, and what it leaves goes to the names behind it
    obtain ⟨k, hk, hexpand⟩ := expand_exact h hq hn hne hstep (List.append_ne_nil_of_right_ne_nil (ns.map exact) hpats)
      (fuel + 2 * ns.length)
    obtain ⟨hlookup, k', hk', hrest⟩ := ih hnext hrest hns hpoint' (k - 2 * ns.length)
    refine ⟨hlookup, k', by omega, ?_⟩
    have hfuel : fuel + 2 * (n :: ns).length = fuel + 2 * ns.length + 2 := by rw [List.length_cons]; omega
    rw [Nat.sub_add_cancel (by omega)] at hrest
    rw [hfuel, List.map_cons, List.cons_append, hexpand, hrest]
    rfl

theorem literal_free_append (hns : ∀ n ∈ ns, '/' ∉ n) (hpats : ∀ pat ∈ pats, ∀ n, pat.literal? = some n → '/' ∉ n) :
    ∀ pat ∈ ns.map exact ++ pats, ∀ n, pat.literal? = some n → '/' ∉ n := by
  intro pat hpat n hlit
  rcases List.mem_append.1 hpat with hpat | hpat
  · obtain ⟨m, hm, rfl⟩ := List.mem_map.1 hpat
    rcases literal?_exact m with hlit' | ⟨hlit', -⟩
    · cases hlit.symm.trans hlit'
      exact hns n hm
    · cases hlit.symm.trans hlit'
  · exact hpats pat hpat n hlit

/-- What a step along a fixed name selects lies behind that name. -/
theorem mem_expand_exact (h : d.IsWellFormed) (hq : d.lookup cwd q = .found l .directory) (hn : '/' ∉ n)
    (hpoint : q ≠ ['.']) (hpats : pats ≠ []) (hp : p ∈ d.expand cwd fuel (exact n :: pats) q) :
    ∃ l' node k, d.walk l [n] = .found l' node ∧ p ∈ d.expand cwd k pats (stepInto q n) := by
  have hempty : pats.isEmpty = false := List.isEmpty_eq_false_iff.2 hpats
  obtain ⟨fuel, rfl⟩ : ∃ k, fuel = k + 1 := by
    cases fuel with
    | zero => simp only [expand, List.not_mem_nil] at hp
    | succ k => exact ⟨k, rfl⟩
  rcases literal?_exact n with hlit | ⟨hlit, c, hc, hspecial⟩
  · rw [expand_literal h.tree hlit hq hn fun hq => absurd hq hpoint, hempty] at hp
    cases hstep : d.walk l [n] with
    | found l' node =>
      rw [hstep] at hp
      exact ⟨l', node, fuel, rfl, hp⟩
    | _ => rw [hstep] at hp; cases hp
  · rw [expand_search hlit hq, hempty, List.mem_append, List.mem_flatMap, List.mem_flatMap] at hp
    rcases hp with ⟨m, hdots, -⟩ | ⟨m, hm, hvisit⟩
    · -- a name with a special character is neither of the two
      split at hdots
      · obtain ⟨hm, hmatch⟩ := List.mem_filter.1 hdots
        have hdot : c = '.' := by
          rw [← isMatch_exact.1 hmatch] at hc
          simp only [List.mem_cons, List.not_mem_nil, or_false] at hm
          rcases hm with rfl | rfl <;> simpa using hc
        rw [hdot] at hspecial
        cases hspecial
      · cases hdots
    · obtain ⟨fuel, rfl⟩ : ∃ k, fuel = k + 1 := by
        cases fuel with
        | zero => simp only [visit, List.not_mem_nil] at hvisit
        | succ k => exact ⟨k, rfl⟩
      rw [visit_of_not_recursive (isRecursive_exact n), selectAt, hempty] at hvisit
      cases hmatch : (exact n).isMatch m with
      | false =>
        rw [hmatch] at hvisit
        cases hvisit
      | true =>
        rw [hmatch] at hvisit
        rw [isMatch_exact.1 hmatch] at hm hvisit
        obtain ⟨node, hstep, -⟩ := h.walk_of_mem_children hm
        exact ⟨_, node, fuel, hstep, hvisit⟩

/-- The fixed names lead to a directory if anything is selected behind them. -/
theorem walk_of_mem_expand (h : d.IsWellFormed) (hq : d.lookup cwd q = .found l .directory) (hpoint : q ≠ ['.'])
    (hns : ∀ n ∈ ns, '/' ∉ n) (hpats : pats ≠ []) (hfree : ∀ pat ∈ pats, ∀ n, pat.literal? = some n → '/' ∉ n)
    (hp : p ∈ d.expand cwd fuel (ns.map exact ++ pats) q) : ∃ l', d.walk l ns = .found l' .directory := by
  induction ns generalizing l q fuel with
  | nil => exact ⟨l, by rw [walk_nil, get?_of_lookup hq]⟩
  | cons n ns ih =>
    obtain ⟨hn, hns⟩ := List.forall_mem_cons.1 hns
    have hqne : q ≠ [] := by
      rintro rfl
      cases hq
    obtain ⟨l', node, k, hstep, hp⟩ :=
      mem_expand_exact h hq hn hpoint (List.append_ne_nil_of_right_ne_nil (ns.map exact) hpats) hp
    have hnext := (lookup_stepInto hq hn fun hq => absurd hq hpoint).trans hstep
    cases node with
    | file b =>
      rw [expand_of_file (literal_free_append hns hfree) hnext] at hp
      cases hp
    | directory =>
      obtain ⟨x, hx⟩ := ih hnext (fun hstop => hpoint (stepInto_eq_point hqne hn hstop).1) hns hp
      exact ⟨x, by rw [← hx, ← walk_append hstep ns]; rfl⟩

/-! ### The directory that is seen as the root -/

theorem namesBelow?_join (hq : q ≠ []) (hn : '/' ∉ n) (h : namesBelow? bs (rawNames q) = some []) :
    namesBelow? (bs ++ [n].filter fun n => !isIdle n) (rawNames (join q n)) = some [] := by
  have hone : namesBelow? ([n].filter fun n => !isIdle n) [n] = some [] := by
    cases hidle : isIdle n with
    | true =>
      rw [List.filter_cons_of_neg (by simp [hidle]), List.filter_nil, namesBelow?_nil]
      exact congrArg some (List.dropWhile_cons_of_pos hidle)
    | false =>
      rw [List.filter_cons_of_pos (by simp [hidle]), List.filter_nil, namesBelow?_cons_of_not_idle hidle, if_pos rfl]
      rfl
  rcases rawNames_join_cases hq hn with ⟨ns, hns, hjoin⟩ | ⟨-, hjoin⟩
  · rw [hns] at h
    obtain ⟨T, hT, ⟨rfl, -⟩ | ⟨-, hnil⟩⟩ := namesBelow?_of_concat_nil h
    · rw [hjoin, namesBelow?_append_append hT, List.nil_append, hone]
    · exact absurd (List.append_eq_nil_iff.1 hnil.symm).2 (List.cons_ne_nil _ _)
  · rw [hjoin, namesBelow?_append_append h, List.nil_append, hone]

/-- A walk that does not begin at the point sees all names but the idle ones as its base. -/
theorem sees_foldl (h : Sees root q S) (hq : q ≠ ['.']) (hns : ∀ n ∈ ns, '/' ∉ n)
    (hbs : namesBelow? bs (rawNames q) = some []) :
    (∃ S', Sees root (ns.foldl stepInto q) S') ∧
      namesBelow? (bs ++ ns.filter fun n => !isIdle n) (rawNames (ns.foldl stepInto q)) = some [] := by
  induction ns generalizing q S bs with
  | nil => exact ⟨⟨S, h⟩, by rw [List.filter_nil, List.append_nil]; exact hbs⟩
  | cons n ns ih =>
    obtain ⟨hn, hns⟩ := List.forall_mem_cons.1 hns
    have hstep : stepInto q n = join q n := by rw [stepInto, if_neg (mt beq_iff_eq.1 hq)]
    have hnames : ([n].filter fun n => !isIdle n) ++ (ns.filter fun n => !isIdle n) =
        (n :: ns).filter fun n => !isIdle n := by rw [← List.filter_append, List.singleton_append]
    have := ih (h.join hn) (join_ne_point h.ne_nil hn) hns (namesBelow?_join h.ne_nil hn hbs)
    rwa [List.append_assoc, hnames, ← hstep] at this

/-- Where the walk of a pattern begins. -/
def startOf (root : List Char) : List Char := if isAbsolute root then ['/'] else ['.']

/-- The names with which a pattern below a path begins, as the walk takes them. -/
def fixedNames (root : List Char) (idle : List Name) : List Name :=
  if isAbsolute root then (rawNames root ++ idle).dropWhile isIdle else rawNames root ++ idle

/-- The path to which these names lead. -/
def fixedPath (root : List Char) (idle : List Name) : List Char := (fixedNames root idle).foldl stepInto (startOf root)

/-- The paths from which a search below them sees its findings as what they are called below: absolute ones, ones that
begin with a name that leads down, and the point, if no empty name follows it. -/
inductive Sighted (root : List Char) (idle : List Name) : Prop
  | absolute (absolute : isAbsolute root = true)
  | down (n : Name) (ns : List Name) (raw : rawNames root = n :: ns) (head : isIdle n = false)
  | point (root_eq : root = ['.']) (idle_ne : [] ∉ idle)

theorem Sighted.ne_nil (h : Sighted root idle) : root ≠ [] := by
  rintro rfl
  cases h with
  | absolute habs => cases habs
  | down n ns hraw hn => cases hraw; cases hn
  | point hroot _ => cases hroot

theorem Sighted.free (h : Sighted root idle) (hrel : isAbsolute root = false) :
    [] ∉ (fixedNames root idle).takeWhile isIdle := by
  rw [fixedNames, hrel, if_neg Bool.false_ne_true]
  cases h with
  | absolute habs => cases habs.symm.trans hrel
  | down n ns hraw hn =>
    rw [hraw, List.cons_append, List.takeWhile_cons_of_neg (by rw [hn]; exact Bool.false_ne_true)]
    exact List.not_mem_nil
  | point hroot hne =>
    subst hroot
    intro hmem
    rcases List.mem_cons.1 (List.IsPrefix.subset (List.takeWhile_prefix _) hmem) with h | h
    · cases h
    · exact hne h

theorem filter_dropWhile (ns : List Name) :
    ((ns.dropWhile isIdle).filter fun n => !isIdle n) = ns.filter fun n => !isIdle n := by
  induction ns with
  | nil => rfl
  | cons n ns ih =>
    cases hn : isIdle n with
    | true => rw [List.dropWhile_cons_of_pos hn, ih, List.filter_cons_of_neg (by simp [hn])]
    | false => rw [dropWhile_of_not_isIdle hn]

theorem names_eq_filter (h : isAbsolute root = true ∨ ∃ n ns, rawNames root = n :: ns ∧ isIdle n = false) :
    names root = (rawNames root).filter fun n => !isIdle n := by
  rw [names]
  rcases h with h | ⟨n, ns, hraw, hn⟩
  · obtain ⟨ns, -, hraw⟩ := isAbsolute_iff.1 h
    rw [hraw]
    rfl
  · rw [hraw, List.filter_cons_of_pos (by simp [hn])]
    dsimp only
    rw [List.isEmpty_eq_false_iff.2 (ne_nil_of_not_isIdle hn)]
    rfl

theorem slash_not_mem_fixedNames (hidle : ∀ i ∈ idle, isIdle i = true) : ∀ n ∈ fixedNames root idle, '/' ∉ n := by
  have hall : ∀ n ∈ rawNames root ++ idle, '/' ∉ n := by
    intro n hn
    rcases List.mem_append.1 hn with hn | hn
    · exact slash_not_mem_of_mem_rawNames hn
    · exact slash_not_mem_of_isIdle (hidle n hn)
  intro n hn
  unfold fixedNames at hn
  split at hn
  · exact hall n ((List.dropWhile_suffix _).subset hn)
  · exact hall n hn

theorem filter_fixedNames (hidle : ∀ i ∈ idle, isIdle i = true) :
    ((fixedNames root idle).filter fun n => !isIdle n) = (rawNames root).filter fun n => !isIdle n := by
  have hall : ((rawNames root ++ idle).filter fun n => !isIdle n) = (rawNames root).filter fun n => !isIdle n := by
    have hnone : (idle.filter fun n => !isIdle n) = [] := by
      rw [List.filter_eq_nil_iff]
      intro i hi
      simp [hidle i hi]
    rw [List.filter_append, hnone, List.append_nil]
  unfold fixedNames
  split
  · rw [filter_dropWhile, hall]
  · exact hall

/-- What is seen from one root is seen from another one that begins as this one does, if it is not a point. -/
theorem Sees.behind_of {root₀ : List Char} (h : Sees root₀ q S) (hroot : root₀ ≠ ['.'])
    (habs : isAbsolute root₀ = isAbsolute root) {T : List Name}
    (hnames : namesBelow? (names root) (rawNames q) = some T) : Sees root q T := by
  cases h with
  | behind habsq hhead _ => exact .behind (habsq.trans habs) (fun hrel => hhead (habs.trans hrel)) hnames
  | point hpoint => exact absurd hpoint hroot
  | led hpoint => exact absurd hpoint hroot

theorem foldl_point (hidle : ∀ i ∈ idle, isIdle i = true) (hne : [] ∉ idle) : idle.foldl stepInto ['.'] = ['.'] := by
  induction idle with
  | nil => rfl
  | cons i idle ih =>
    obtain ⟨hi, hrest⟩ := List.forall_mem_cons.1 hidle
    rw [List.mem_cons, not_or] at hne
    have hdot : i = ['.'] := (isIdle_iff.1 hi).resolve_left (Ne.symm hne.1)
    subst hdot
    exact ih hrest hne.2

/-- At the end of the fixed names nothing is seen yet. -/
theorem sees_start (h : Sighted root idle) (hidle : ∀ i ∈ idle, isIdle i = true) :
    Sees root (fixedPath root idle) [] := by
  have hfree : ∀ n ∈ fixedNames root idle, '/' ∉ n := slash_not_mem_fixedNames hidle
  have hfilter : ((fixedNames root idle).filter fun n => !isIdle n) = (rawNames root).filter fun n => !isIdle n :=
    filter_fixedNames hidle
  cases h with
  | absolute habs =>
    have hslash : Sees ['/'] ['/'] [] := .behind rfl nofun rfl
    have hbase : namesBelow? [] (rawNames ['/']) = some [] := rfl
    obtain ⟨⟨S, hS⟩, hnames⟩ := sees_foldl hslash (by decide) hfree hbase
    rw [hfilter, List.nil_append, ← names_eq_filter (.inl habs)] at hnames
    rw [fixedPath, startOf, habs, if_pos rfl]
    exact Sees.behind_of hS (by decide) habs.symm hnames
  | down n ns hraw hn =>
    have hne := ne_nil_of_not_isIdle hn
    have habs : isAbsolute root = false := isAbsolute_of_head hraw hne
    have hfixed : fixedNames root idle = n :: (ns ++ idle) := by
      rw [fixedNames, habs, if_neg Bool.false_ne_true, hraw, List.cons_append]
    rw [hfixed, List.filter_cons_of_pos (by simp [hn])] at hfilter
    rw [hfixed] at hfree
    obtain ⟨hnfree, hfree⟩ := List.forall_mem_cons.1 hfree
    have hrawn : rawNames n = [n] := rawNames_of_free hnfree
    -- from the point the first name is taken as it is; from there on the walk is away from the point
    have hled : Sees [] n [n] := by
      refine .behind (isAbsolute_of_slash_not_mem hnfree) (fun _ => ⟨n, [], hrawn, hn⟩) ?_
      rw [hrawn, show names [] = [] from rfl, namesBelow?_nil, dropWhile_of_not_isIdle hn]
    have hdot : n ≠ ['.'] := by
      rintro rfl
      cases hn
    have hend : namesBelow? [n] (rawNames n) = some [] := by
      rw [hrawn, namesBelow?_cons_of_not_idle hn, if_pos rfl]
      rfl
    obtain ⟨⟨S, hS⟩, hnames⟩ := sees_foldl hled hdot hfree hend
    rw [List.singleton_append, hfilter, ← names_eq_filter (.inr ⟨n, ns, hraw, hn⟩)] at hnames
    rw [fixedPath, hfixed, startOf, habs, if_neg Bool.false_ne_true]
    exact Sees.behind_of hS (by decide) habs.symm hnames
  | point hroot hne =>
    have hpath : fixedPath root idle = ['.'] := by
      subst hroot
      show idle.foldl stepInto ['.'] = ['.']
      exact foldl_point hidle hne
    rw [hpath]
    exact .point hroot [] rfl rfl

theorem walk_idle_append (hl : d.get? l = some .directory) (hidle : ∀ i ∈ idle, isIdle i = true) (ns : List Name) :
    d.walk l (idle ++ ns) = d.walk l ns := by
  induction idle with
  | nil => rfl
  | cons i idle ih =>
    obtain ⟨hi, hrest⟩ := List.forall_mem_cons.1 hidle
    rw [List.cons_append, walk_cons hl (.inl hi), stepTo_of_idle hi, ih hrest]

theorem walk_fixedNames (hroot : d.lookup cwd root = .found l .directory) (hidle : ∀ i ∈ idle, isIdle i = true) :
    ∃ l₀, d.lookup cwd (startOf root) = .found l₀ .directory ∧
      d.walk l₀ (fixedNames root idle) = .found l .directory := by
  have hne : root ≠ [] := by
    rintro rfl
    cases hroot
  have hl : d.get? l = some .directory := get?_of_lookup hroot
  have hempty : d.walk l [] = .found l .directory := by rw [walk_nil, hl]
  have hend : d.walk l idle = .found l .directory := by
    have := walk_idle_append hl hidle []
    rwa [List.append_nil, hempty] at this
  rw [lookup_eq hne] at hroot
  have hall : d.walk (baseOf cwd root) (rawNames root ++ idle) = .found l .directory := by
    rw [walk_append hroot, hend]
  refine ⟨baseOf cwd root, ?_⟩
  unfold startOf fixedNames
  cases habs : isAbsolute root with
  | true =>
    rw [baseOf, habs, if_pos rfl] at hall ⊢
    refine ⟨rfl, ?_⟩
    rw [if_pos rfl, ← hall]
    have hbase : d.get? [] = some .directory := rfl
    conv_rhs => rw [← List.takeWhile_append_dropWhile (p := isIdle) (l := rawNames root ++ idle)]
    exact (walk_idle_append hbase (fun i hi => List.mem_takeWhile_imp hi) _).symm
  | false =>
    rw [baseOf, habs, if_neg Bool.false_ne_true] at hall ⊢
    refine ⟨?_, hall⟩
    obtain ⟨n, ns, hraw⟩ := List.exists_cons_of_ne_nil (rawNames_ne_nil root)
    have hplace : (d.walk cwd (n :: (ns ++ idle))).place? = some l := by
      rw [← List.cons_append, ← hraw, hall]
      rfl
    have hcwd : d.get? cwd = some .directory := (walk_cons_inv hplace).1
    show d.walk cwd [['.']] = .found cwd .directory
    rw [walk_cons hcwd (.inl rfl), stepTo_of_idle rfl, walk_nil, hcwd]

end Federation.Disk
