import Mathlib.Data.List.Induction
import Federation.Proofs.Glob.Walks

/-!
# What a search selects

A search below a directory selects the nodes whose names fit the components of the pattern (`mem_expand_iff`): `**` fits
any number of names, and any other component one name that it matches (`Fits`). This asks of the components that they
only lead down (`Downward`); the order of the paths and the fuel of the search play no part in it.
-/

namespace Federation.Disk

open Federation.Path

variable {d : Disk} {l cwd : Location} {n file : Name} {ns ms : List Name} {p q : List Char} {node : DiskNode}
  {pat : GlobPattern} {pats : List GlobPattern} {fuel : Nat}

/-- The components of a pattern fit names behind one another. -/
def Fits : List GlobPattern → List Name → Prop
  | [], ns => ns = []
  | pat :: pats, ns =>
    if pat.isRecursive then ∃ ms, ms <:+ ns ∧ Fits pats ms
    else ∃ n ms, ns = n :: ms ∧ pat.isMatch n = true ∧ Fits pats ms

theorem fits_recursive (h : pat.isRecursive = true) : Fits (pat :: pats) ns ↔ ∃ ms, ms <:+ ns ∧ Fits pats ms := by
  rw [Fits, if_pos h]

theorem fits_name (h : pat.isRecursive = false) :
    Fits (pat :: pats) ns ↔ ∃ n ms, ns = n :: ms ∧ pat.isMatch n = true ∧ Fits pats ms := by
  rw [Fits, if_neg (by rw [h]; exact Bool.false_ne_true)]

theorem fits_name_cons (h : pat.isRecursive = false) :
    Fits (pat :: pats) (n :: ns) ↔ pat.isMatch n = true ∧ Fits pats ns := by
  rw [fits_name h]
  constructor
  · rintro ⟨_, _, ⟨rfl, rfl⟩, hmatch, hrest⟩
    exact ⟨hmatch, hrest⟩
  · rintro ⟨hmatch, hrest⟩
    exact ⟨n, ns, rfl, hmatch, hrest⟩

theorem fits_recursive_cons (h : pat.isRecursive = true) :
    Fits (pat :: pats) (n :: ns) ↔ Fits pats (n :: ns) ∨ Fits (pat :: pats) ns := by
  rw [fits_recursive h, fits_recursive h]
  constructor
  · rintro ⟨ms, hms, hfits⟩
    rcases List.suffix_cons_iff.1 hms with rfl | hms
    · exact .inl hfits
    · exact .inr ⟨ms, hms, hfits⟩
  · rintro (hfits | ⟨ms, hms, hfits⟩)
    · exact ⟨n :: ns, List.suffix_refl _, hfits⟩
    · exact ⟨ms, List.suffix_cons_iff.2 (.inr hms), hfits⟩

theorem fits_lastRecursive (pats : List GlobPattern) (ns : List Name) :
    Fits (lastRecursive pats) ns ↔ Fits pats ns := by
  fun_induction lastRecursive pats with
  | case1 p q r h ih =>
    obtain ⟨hp, hq⟩ := Bool.and_eq_true_iff.1 h
    rw [ih, fits_recursive hp]
    constructor
    · exact fun hfits => ⟨ns, List.suffix_refl ns, hfits⟩
    · rintro ⟨ms, hms, hfits⟩
      obtain ⟨ks, hks, hfits⟩ := (fits_recursive hq).1 hfits
      exact (fits_recursive hq).2 ⟨ks, hks.trans hms, hfits⟩
  | case2 | case3 => exact Iff.rfl

theorem lastRecursive_tail {qat : GlobPattern} {qats : List GlobPattern} (h : pat.isRecursive = true)
    (hlast : lastRecursive (pat :: pats) = qat :: qats) : ∀ p, qats.head? = some p → p.isRecursive = false := by
  induction pats generalizing pat with
  | nil =>
    cases hlast
    exact nofun
  | cons p ps ih =>
    rw [lastRecursive, h, Bool.true_and] at hlast
    split at hlast
    · exact ih ‹_› hlast
    · rename_i hp
      cases hlast
      rintro _ ⟨⟩
      exact Bool.eq_false_iff.2 hp

theorem Fits.ne_nil (h : Fits pats ns) (hpats : Selects file pats) : ns ≠ [] := by
  induction pats generalizing ns with
  | nil =>
    obtain ⟨pat, hlast, -⟩ := hpats.last
    cases hlast
  | cons pat pats ih =>
    cases hrec : pat.isRecursive with
    | false =>
      obtain ⟨n, ms, rfl, -⟩ := (fits_name hrec).1 h
      exact List.cons_ne_nil n ms
    | true =>
      obtain ⟨ms, hms, hfits⟩ := (fits_recursive hrec).1 h
      have hne : pats ≠ [] := by
        rintro rfl
        rw [GlobPattern.isRecursive_of_literal? hpats.literal?_last] at hrec
        cases hrec
      rintro rfl
      exact ih hfits (hpats.tail hne) (List.suffix_nil.1 hms)

theorem Fits.append {pats' : List GlobPattern} (h : Fits pats ns) (h' : Fits pats' ms) :
    Fits (pats ++ pats') (ns ++ ms) := by
  induction pats generalizing ns with
  | nil =>
    rw [show ns = [] from h]
    exact h'
  | cons pat pats ih =>
    rw [List.cons_append]
    cases hrec : pat.isRecursive with
    | false =>
      obtain ⟨n, ks, rfl, hmatch, hks⟩ := (fits_name hrec).1 h
      exact (fits_name_cons hrec).2 ⟨hmatch, ih hks⟩
    | true =>
      obtain ⟨ks, ⟨t, rfl⟩, hks⟩ := (fits_recursive hrec).1 h
      exact (fits_recursive hrec).2 ⟨ks ++ ms, ⟨t, (List.append_assoc ..).symm⟩, ih hks⟩

/-- A component that leads to names below a directory and not to that directory or the one above it. -/
structure Downward (pat : GlobPattern) : Prop where
  proper : ∀ n, pat.literal? = some n → IsProper n
  dots : pat.tokens.head? = some (.char '.') → ∀ n ∈ [['.', '.'], ['.']], pat.isMatch n = false

/-- A path leads from another one, which stands for a directory, to a node, by names that fit. -/
def Reached (d : Disk) (l : Location) (q : List Char) (pats : List GlobPattern) (p : List Char) : Prop :=
  ∃ ns node, Fits pats ns ∧ d.get? (l ++ ns) = some node ∧ p = ns.foldl stepInto q

/-- A path leads on from a child of a directory, and the name of the child is the first one that fits. -/
def ReachedBy (d : Disk) (l : Location) (n : Name) (q : List Char) (pats : List GlobPattern) (p : List Char) : Prop :=
  ∃ ns node, Fits pats (n :: ns) ∧ d.get? (l ++ [n] ++ ns) = some node ∧ p = ns.foldl stepInto q

theorem reached_iff (hpats : Selects file pats) :
    Reached d l q pats p ↔ ∃ n, ReachedBy d l n (stepInto q n) pats p := by
  constructor
  · rintro ⟨ns, node, hfits, hnode, rfl⟩
    obtain ⟨n, ns, rfl⟩ := List.exists_cons_of_ne_nil (hfits.ne_nil hpats)
    exact ⟨n, ns, node, hfits, by rwa [List.append_cons] at hnode, rfl⟩
  · rintro ⟨n, ns, node, hfits, hnode, rfl⟩
    exact ⟨n :: ns, node, hfits, by rwa [List.append_cons], rfl⟩

theorem ReachedBy.mem_children (h : ReachedBy d l n q pats p) (hd : d.IsTree) : n ∈ d.children l := by
  obtain ⟨ns, node, -, hnode, -⟩ := h
  cases ns with
  | nil => exact Disk.mem_children.2 ⟨node, by rwa [List.append_nil] at hnode⟩
  | cons m ns => exact Disk.mem_children.2 ⟨.directory, hd.directory_above hnode (List.cons_ne_nil m ns)⟩

/-- Searches with this much fuel select what is reached. -/
def Finds (d : Disk) (cwd : Location) (file : Name) (fuel : Nat) : Prop :=
  ∀ (pats : List GlobPattern) (l : Location) (node : DiskNode) (q p : List Char), Selects file pats →
    (∀ pat ∈ pats, Downward pat) → d.lookup cwd q = .found l node → Enough d l pats fuel →
    (p ∈ d.expand cwd fuel pats q ↔ Reached d l q pats p)

theorem Finds.selectAt (h : Finds d cwd file fuel) (hpats : Selects file (pat :: pats))
    (hdown : ∀ p ∈ pat :: pats, Downward p) (hrec : pat.isRecursive = false)
    (hq : d.lookup cwd q = .found (l ++ [n]) node) (hfuel : Enough d (l ++ [n]) pats fuel) :
    p ∈ d.selectAt cwd fuel n q (pat :: pats) ↔ ReachedBy d l n q (pat :: pats) p := by
  rw [Disk.selectAt, ReachedBy]
  simp only [fits_name_cons hrec]
  cases hmatch : pat.isMatch n with
  | false => simp
  | true =>
    rw [Bool.not_true, if_neg Bool.false_ne_true]
    by_cases hnil : pats = []
    · subst hnil
      have hnode := get?_of_lookup hq
      simp [Fits, hnode]
    · rw [List.isEmpty_eq_false_iff.2 hnil, if_neg Bool.false_ne_true]
      have := h pats (l ++ [n]) node q p (hpats.tail hnil) (fun p hp => hdown p (List.mem_cons_of_mem _ hp)) hq hfuel
      rw [this, Reached]
      simp

theorem Finds.visit (h : Finds d cwd file fuel) (hpats : Selects file (pat :: pats))
    (hdown : ∀ p ∈ pat :: pats, Downward p) (hq : d.lookup cwd q = .found (l ++ [n]) node)
    (hfuel : Enough d (l ++ [n]) (pat :: pats) fuel) :
    p ∈ d.visit cwd (fuel + 1) (pat :: pats) n q ↔ ReachedBy d l n q (pat :: pats) p := by
  cases hrec : pat.isRecursive with
  | false =>
    rw [visit_of_not_recursive hrec]
    exact h.selectAt hpats hdown hrec hq (hfuel.of_length_le (Nat.le_succ _))
  | true =>
    obtain ⟨qat, qats, hlast, hqat⟩ := exists_lastRecursive hrec pats
    have hsuffix := hlast ▸ lastRecursive_suffix (pat :: pats)
    have hlength := hsuffix.length_le
    have hrest : Selects file (qat :: qats) := hpats.of_suffix hsuffix (List.cons_ne_nil _ _)
    have hdown' : ∀ p ∈ qat :: qats, Downward p := fun p hp => hdown p (hsuffix.subset hp)
    obtain ⟨rat, rats, rfl⟩ : ∃ rat rats, qats = rat :: rats := by
      refine List.exists_cons_of_ne_nil ?_
      rintro rfl
      rw [GlobPattern.isRecursive_of_literal? hrest.literal?_last] at hqat
      cases hqat
    have hrat : rat.isRecursive = false := lastRecursive_tail hrec hlast rat rfl
    -- the name is the first behind the last `**`, or that goes on below it
    have hcases : ReachedBy d l n q (pat :: pats) p ↔
        ReachedBy d l n q (rat :: rats) p ∨ Reached d (l ++ [n]) q (qat :: rat :: rats) p := by
      simp only [ReachedBy, Reached, ← fits_lastRecursive (pat :: pats), hlast, fits_recursive_cons hqat]
      constructor
      · rintro ⟨ns, x, hfits | hfits, hx, hp⟩
        · exact .inl ⟨ns, x, hfits, hx, hp⟩
        · exact .inr ⟨ns, x, hfits, hx, hp⟩
      · rintro (⟨ns, x, hfits, hx, hp⟩ | ⟨ns, x, hfits, hx, hp⟩)
        · exact ⟨ns, x, .inl hfits, hx, hp⟩
        · exact ⟨ns, x, .inr hfits, hx, hp⟩
    have hselect : p ∈ d.selectAt cwd fuel n q (rat :: rats) ↔ ReachedBy d l n q (rat :: rats) p :=
      h.selectAt (hrest.tail (List.cons_ne_nil _ _)) (fun p hp => hdown' p (List.mem_cons_of_mem _ hp)) hrat hq
        (hfuel.of_length_le (Nat.le_of_succ_le (Nat.le_of_succ_le hlength)))
    have hexpand := h (qat :: rat :: rats) (l ++ [n]) node q p hrest hdown' hq (hfuel.of_length_le hlength)
    rw [visit_of_recursive hrec hlast, isDirectory, hq, hcases]
    cases node with
    | directory =>
      rw [if_pos rfl, List.mem_append, List.isEmpty_cons, if_neg Bool.false_ne_true, hselect, hexpand]
    | file b =>
      rw [expand_of_file hrest.free hq, List.mem_nil_iff, false_iff] at hexpand
      rw [if_neg Bool.false_ne_true, hselect, or_iff_left hexpand]

theorem Finds.literal (h : Finds d cwd file fuel) (hd : d.IsWellFormed) (hpats : Selects file (pat :: pats))
    (hdown : ∀ p ∈ pat :: pats, Downward p) (hlit : pat.literal? = some n)
    (hq : d.lookup cwd q = .found l .directory) (hfuel : Enough d l (pat :: pats) (fuel + 1)) :
    p ∈ d.expand cwd (fuel + 1) (pat :: pats) q ↔ Reached d l q (pat :: pats) p := by
  have hn : '/' ∉ n := hpats.free pat List.mem_cons_self n hlit
  have hproper : IsProper n := (hdown pat List.mem_cons_self).proper n hlit
  have hne (_ : q = ['.']) : n ≠ [] := ne_nil_of_not_isIdle hproper.1
  have hrec := GlobPattern.isRecursive_of_literal? hlit
  have hmatch : pat.isMatch n = true := (GlobPattern.isMatch_of_literal? hlit).2 rfl
  -- of all names only this one fits
  have hone : Reached d l q (pat :: pats) p ↔ ReachedBy d l n (stepInto q n) (pat :: pats) p := by
    rw [reached_iff hpats]
    constructor
    · rintro ⟨m, ns, node, hfits, hnode, hp⟩
      obtain rfl : m = n := (GlobPattern.isMatch_of_literal? hlit).1 ((fits_name_cons hrec).1 hfits).1
      exact ⟨ns, node, hfits, hnode, hp⟩
    · exact fun hreached => ⟨n, hreached⟩
  rw [hone, expand_literal hd.tree hlit hq hn hne]
  by_cases hchild : n ∈ d.children l
  · obtain ⟨node, hstep, -⟩ := hd.walk_of_mem_children hchild
    have hnext := (lookup_stepInto hq hn hne).trans hstep
    rw [hstep, ← h.selectAt hpats hdown hrec hnext (hfuel.tail _), Disk.selectAt, hmatch]
    rfl
  · have hgone : ¬ ReachedBy d l n (stepInto q n) (pat :: pats) p :=
      fun hreached => hchild (hreached.mem_children hd.tree)
    cases hstep : d.walk l [n] with
    | found x node =>
      have hplace := placeOf_walk (d := d) (l := l) (x := x) (by rw [hstep]; rfl)
      have hx : x = l ++ [n] := hplace.trans (stepTo_of_proper hproper l)
      exact absurd (mem_children.2 ⟨node, hx ▸ get?_of_found hstep⟩) hchild
    | _ => simpa using hgone

theorem Finds.search (h : ∀ k ≤ fuel, Finds d cwd file k) (hd : d.IsWellFormed)
    (hpats : Selects file (pat :: pats)) (hdown : ∀ p ∈ pat :: pats, Downward p) (hlit : pat.literal? = none)
    (hq : d.lookup cwd q = .found l .directory) (hfuel : Enough d l (pat :: pats) (fuel + 1)) :
    p ∈ d.expand cwd (fuel + 1) (pat :: pats) q ↔ Reached d l q (pat :: pats) p := by
  have hdots : (if pat.tokens.head? == some (.char '.') then [['.', '.'], ['.']].filter pat.isMatch else []) = [] := by
    split
    · rename_i hhead
      rw [List.filter_eq_nil_iff]
      intro n hn
      rw [(hdown pat List.mem_cons_self).dots (beq_iff_eq.1 hhead) n hn]
      exact Bool.false_ne_true
    · rfl
  rw [expand_search hlit hq, hdots, List.flatMap_nil, List.nil_append, List.mem_flatMap, reached_iff hpats]
  have hvisit (n : Name) (hn : n ∈ d.children l) :
      p ∈ d.visit cwd fuel (pat :: pats) n (stepInto q n) ↔ ReachedBy d l n (stepInto q n) (pat :: pats) p := by
    obtain ⟨node, hstep, hproper, hfree⟩ := hd.walk_of_mem_children hn
    have hnext := (lookup_stepInto hq hfree fun _ => ne_nil_of_not_isIdle hproper.1).trans hstep
    have hdepth := hd.tree.length_le (get?_of_found hstep)
    rw [List.length_append, List.length_singleton] at hdepth
    obtain ⟨k, rfl⟩ : ∃ k, fuel = k + 1 := by
      unfold Enough at hfuel
      exact ⟨fuel - 1, by omega⟩
    exact (h k (Nat.le_succ k)).visit hpats hdown hnext (hfuel.down hdepth n)
  constructor
  · rintro ⟨n, hn, hp⟩
    exact ⟨n, (hvisit n hn).1 hp⟩
  · rintro ⟨n, hreached⟩
    have hn := hreached.mem_children hd.tree
    exact ⟨n, hn, (hvisit n hn).2 hreached⟩

/-- With enough fuel a search below a directory selects what is reached from there. -/
theorem finds (h : d.IsWellFormed) (fuel : Nat) : Finds d cwd file fuel := by
  -- on the fuel; a child takes two calls, so the step before is not enough
  induction fuel using Nat.strongRecOn with
  | _ fuel ih =>
    intro pats l node q p hpats hdown hq hfuel
    obtain ⟨pat, pats, rfl⟩ : ∃ p ps, pats = p :: ps := by
      obtain ⟨p, hp, -⟩ := hpats.last
      exact List.exists_cons_of_ne_nil fun hnil => by rw [hnil] at hp; cases hp
    obtain ⟨fuel, rfl⟩ := hfuel.pos (h.tree.length_le (get?_of_lookup hq))
    cases node with
    | file b =>
      rw [expand_of_file hpats.free hq, List.mem_nil_iff, false_iff]
      rintro ⟨ns, x, hfits, hx, -⟩
      have hdir := h.tree.directory_above hx (hfits.ne_nil hpats)
      cases hdir.symm.trans (get?_of_lookup hq)
    | directory =>
      cases hlit : pat.literal? with
      | some n => exact (ih fuel (Nat.lt_succ_self _)).literal h hpats hdown hlit hq hfuel
      | none => exact Finds.search (fun k hk => ih k (Nat.lt_succ_of_le hk)) h hpats hdown hlit hq hfuel

/-! ### Paths that are reached -/

theorem Fits.exists_concat (h : Fits pats ns) (hpats : Selects file pats) : ∃ ms, ns = ms ++ [file] := by
  induction pats generalizing ns with
  | nil =>
    obtain ⟨pat, hlast, -⟩ := hpats.last
    cases hlast
  | cons pat pats ih =>
    by_cases hnil : pats = []
    · subst hnil
      have hlit := hpats.literal?_last
      obtain ⟨n, ms, rfl, hmatch, hms⟩ := (fits_name (GlobPattern.isRecursive_of_literal? hlit)).1 h
      rw [(GlobPattern.isMatch_of_literal? hlit).1 hmatch, show ms = [] from hms]
      exact ⟨[], rfl⟩
    · have htail {ms : List Name} (hms : Fits pats ms) : ∃ ks, ms = ks ++ [file] := ih hms (hpats.tail hnil)
      cases hrec : pat.isRecursive with
      | false =>
        obtain ⟨n, ms, rfl, -, hms⟩ := (fits_name hrec).1 h
        obtain ⟨ks, rfl⟩ := htail hms
        exact ⟨n :: ks, rfl⟩
      | true =>
        obtain ⟨ms, ⟨t, rfl⟩, hms⟩ := (fits_recursive hrec).1 h
        obtain ⟨ks, rfl⟩ := htail hms
        exact ⟨t ++ ks, (List.append_assoc ..).symm⟩

theorem lookup_foldl (h : d.IsWellFormed) (hq : d.lookup cwd q = .found l .directory)
    (hnode : d.get? (l ++ ns) = some node) : d.lookup cwd (ns.foldl stepInto q) = .found (l ++ ns) node := by
  induction ns using List.reverseRecOn generalizing node with
  | nil =>
    rw [List.append_nil] at hnode ⊢
    cases (get?_of_lookup hq).symm.trans hnode
    exact hq
  | append_singleton ns n ih =>
    rw [← List.append_assoc] at hnode ⊢
    have hnext := ih (h.tree.directory_above hnode (List.cons_ne_nil n []))
    obtain ⟨x, hstep, hproper, hfree⟩ := h.walk_of_mem_children (mem_children.2 ⟨node, hnode⟩)
    cases (get?_of_found hstep).symm.trans hnode
    rw [List.foldl_append]
    exact (lookup_stepInto hnext hfree fun _ => ne_nil_of_not_isIdle hproper.1).trans hstep

theorem next_of_proper {S : List Name} (hS : ∀ m ∈ S, IsProper m) (hn : IsProper n) : next S n = S ++ [n] := by
  have hlast : S.getLast? ≠ some [] := by
    intro hlast
    cases (hS [] (List.mem_of_getLast? hlast)).1
  rw [next, if_neg hlast]
  cases S with
  | nil => exact dropWhile_of_not_isIdle hn.1 []
  | cons m S => exact dropWhile_of_not_isIdle (hS m List.mem_cons_self).1 _

theorem sees_foldl_proper {root : List Char} {S : List Name} (h : Sees root q S) (hS : ∀ n ∈ S, IsProper n)
    (hns : ∀ n ∈ ns, IsProper n ∧ '/' ∉ n) : Sees root (ns.foldl stepInto q) (S ++ ns) := by
  induction ns generalizing q S with
  | nil => rwa [List.append_nil]
  | cons n ns ih =>
    obtain ⟨⟨hproper, hfree⟩, hns⟩ := List.forall_mem_cons.1 hns
    have hstep := h.stepInto hfree fun _ => ne_nil_of_not_isIdle hproper.1
    rw [next_of_proper hS hproper] at hstep
    rw [List.append_cons]
    refine ih hstep (fun m hm => ?_) hns
    rcases List.mem_append.1 hm with hm | hm
    · exact hS m hm
    · rw [List.mem_singleton.1 hm]
      exact hproper

end Federation.Disk
