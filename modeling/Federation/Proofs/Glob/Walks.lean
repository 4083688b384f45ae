import Mathlib.Data.List.Forall2
import Federation.Proofs.Disk.Lookups
import Federation.Proofs.Glob.Escapes
import Federation.Proofs.Path.Below

/-!
# Two walks over one disk

The paths that a pattern selects begin with the path that a walk began with. Two walks that begin with two paths to one
directory go through the same directories and select the same nodes in the same order, each under its own path, and
their paths are the same text when they are seen from there (`Twin`, `twins`). The fuel of the walks does not
matter as long as there is enough for the depth of the disk (`Enough`).
-/

namespace Federation.Disk

open Federation.Path

variable {d : Disk} {l l' cwd : Location} {n file : Name} {S : List Name} {p q q' root root' : List Char}
  {node : DiskNode} {pat : GlobPattern} {pats : List GlobPattern} {fuel fuel' : Nat}

/-! ### A step of a walk -/

theorem join_ne_point (hq : q ≠ []) (hn : '/' ∉ n) : join q n ≠ ['.'] := by
  intro h
  have hraw := rawNames_join_cases hq hn
  rw [h, show rawNames ['.'] = [['.']] from rfl] at hraw
  rcases hraw with ⟨ns, hns, hone⟩ | ⟨-, hone⟩
  · cases ns with
    | nil => exact hq (by rw [← join_rawNames q, hns]; rfl)
    | cons m ns =>
      have := congrArg List.length hone
      simp at this
  · have hraw := rawNames_ne_nil q
    obtain ⟨m, ms, hm⟩ := List.exists_cons_of_ne_nil hraw
    rw [hm] at hone
    have := congrArg List.length hone
    simp at this

theorem stepInto_eq_point (hq : q ≠ []) (hn : '/' ∉ n) (h : stepInto q n = ['.']) : q = ['.'] ∧ n = ['.'] := by
  by_cases hpoint : q = ['.']
  · rw [stepInto, if_pos (beq_iff_eq.2 hpoint)] at h
    exact ⟨hpoint, h⟩
  · rw [stepInto, if_neg (mt beq_iff_eq.1 hpoint)] at h
    exact absurd h (join_ne_point hq hn)

theorem lookup_stepInto (h : d.lookup cwd q = .found l .directory) (hn : '/' ∉ n) (hpoint : q = ['.'] → n ≠ []) :
    d.lookup cwd (stepInto q n) = d.walk l [n] := by
  by_cases hq : q = ['.']
  · subst hq
    have hwalk : d.lookup cwd ['.'] = d.walk cwd [['.']] := rfl
    have hplace := placeOf_walk (d := d) (x := l) (by rw [← hwalk, h]; rfl)
    show d.lookup cwd n = _
    rw [lookup_eq (hpoint rfl), rawNames_of_free hn, baseOf, isAbsolute_of_slash_not_mem hn, if_neg Bool.false_ne_true,
      hplace]
    rfl
  · rw [stepInto, if_neg (mt beq_iff_eq.1 hq)]
    exact lookup_join h hn

/-- Both ends of `..` and of `.` are directories of a tree. -/
theorem IsTree.walk_of_special (h : d.IsTree) (hl : d.get? l = some .directory) (hn : n = ['.'] ∨ n = ['.', '.']) :
    ∃ l', d.walk l [n] = .found l' .directory := by
  have hwalk : d.walk l [n] = d.walk (stepTo l n) [] := walk_cons hl (hn.imp (fun hn => by rw [hn]; rfl) .inl) []
  have hdir : d.get? (stepTo l n) = some .directory := by
    rcases hn with rfl | rfl
    · exact hl
    · exact h l _ hl
  exact ⟨stepTo l n, by rw [hwalk, walk_nil, hdir]⟩

/-! ### One component -/

theorem expand_nil (fuel : Nat) (q : List Char) : d.expand cwd fuel [] q = [] := by
  cases fuel <;> simp only [expand]

/-- A component without wildcards leads to its own name only. -/
theorem expand_literal (h : d.IsTree) (hpat : pat.literal? = some n) (hq : d.lookup cwd q = .found l .directory)
    (hn : '/' ∉ n) (hpoint : q = ['.'] → n ≠ []) (fuel : Nat) (pats : List GlobPattern) :
    d.expand cwd (fuel + 1) (pat :: pats) q =
      match d.walk l [n] with
      | .found .. => if pats.isEmpty then [stepInto q n] else d.expand cwd fuel pats (stepInto q n)
      | _ => [] := by
  have hl : d.get? l = some .directory := get?_of_lookup hq
  have hstep := lookup_stepInto hq hn hpoint
  rw [expand, hpat]
  dsimp only
  by_cases hspecial : n = ['.'] ∨ n = ['.', '.']
  · obtain ⟨l', hl'⟩ := h.walk_of_special hl hspecial
    have hcond : (n == ['.'] || n == ['.', '.']) = true := by simpa using hspecial
    rw [hcond, if_pos rfl, isDirectory, hq, if_pos rfl, hl']
  · have hcond : (n == ['.'] || n == ['.', '.']) = false := by simpa using hspecial
    rw [hcond, if_neg Bool.false_ne_true, exists?, hstep]
    cases d.walk l [n] <;> rfl

/-- A component with wildcards is searched for in a directory. -/
theorem expand_search (hpat : pat.literal? = none) (hq : d.lookup cwd q = .found l .directory) (fuel : Nat)
    (pats : List GlobPattern) :
    d.expand cwd (fuel + 1) (pat :: pats) q =
      ((if pat.tokens.head? == some (.char '.') then [['.', '.'], ['.']].filter pat.isMatch else []).flatMap fun n =>
        if pats.isEmpty then [join q n] else d.expand cwd fuel pats (join q n)) ++
      (d.children l).flatMap fun n => d.visit cwd fuel (pat :: pats) n (stepInto q n) := by
  rw [expand, hpat]
  dsimp only
  rw [isDirectory, childrenAt, hq]
  rfl

theorem expand_of_file {b : ByteArray} (hpats : ∀ pat ∈ pats, ∀ n, pat.literal? = some n → '/' ∉ n)
    (hq : d.lookup cwd q = .found l (.file b)) (fuel : Nat) : d.expand cwd fuel pats q = [] := by
  cases fuel with
  | zero => simp only [expand]
  | succ fuel =>
    cases pats with
    | nil => exact expand_nil _ _
    | cons pat pats =>
      have hnot : d.isDirectory cwd q = false := by rw [isDirectory, hq]
      rw [expand]
      cases hpat : pat.literal? with
      | none =>
        dsimp only
        rw [hnot]
        rfl
      | some n =>
        have hn : '/' ∉ n := hpats pat List.mem_cons_self n hpat
        have hpoint : q ≠ ['.'] := by
          rintro rfl
          have hpoint : d.lookup cwd ['.'] = d.walk cwd [['.']] := rfl
          have hplace : (d.walk cwd [['.']]).place? = some l := by rw [← hpoint, hq]; rfl
          obtain ⟨hcwd, hpass⟩ := walk_cons_inv hplace
          have hdir : d.lookup cwd ['.'] = .found cwd .directory := by
            rw [hpoint, walk_cons hcwd hpass, stepTo_of_idle rfl, walk_nil, hcwd]
          cases hdir.symm.trans hq
        have hgone : d.exists? cwd (stepInto q n) = false := by
          have hplace := lookup_join_of_file hq hn
          rw [exists?, stepInto, if_neg (mt beq_iff_eq.1 hpoint)]
          cases hlookup : d.lookup cwd (join q n) with
          | found l' node => rw [hlookup] at hplace; cases hplace
          | _ => rfl
        dsimp only
        rw [hnot, hgone, ite_self, if_neg Bool.false_ne_true]

/-! ### Patterns that select files of one name -/

theorem lastRecursive_suffix (pats : List GlobPattern) : lastRecursive pats <:+ pats := by
  fun_induction lastRecursive pats with
  | case1 p q r h ih => exact ih.trans (List.suffix_cons p (q :: r))
  | case2 p q r h => exact List.suffix_refl _
  | case3 ps h => exact List.suffix_refl _

theorem exists_lastRecursive (h : pat.isRecursive = true) (pats : List GlobPattern) :
    ∃ p ps, lastRecursive (pat :: pats) = p :: ps ∧ p.isRecursive = true := by
  induction pats generalizing pat with
  | nil => exact ⟨pat, [], rfl, h⟩
  | cons p ps ih =>
    rw [lastRecursive, h, Bool.true_and]
    split
    · exact ih ‹_›
    · exact ⟨pat, p :: ps, rfl, h⟩

/-- The last component of the patterns is a name, and no name that is looked up holds a slash. -/
structure Selects (file : Name) (pats : List GlobPattern) : Prop where
  free : ∀ pat ∈ pats, ∀ n, pat.literal? = some n → '/' ∉ n
  last : ∃ pat, pats.getLast? = some pat ∧ pat.literal? = some file

theorem Selects.of_suffix {ps : List GlobPattern} (h : Selects file pats) (hs : ps <:+ pats) (hne : ps ≠ []) :
    Selects file ps := by
  obtain ⟨pat, hlast, hpat⟩ := h.last
  obtain ⟨t, rfl⟩ := hs
  rw [List.getLast?_append_of_ne_nil _ hne] at hlast
  exact ⟨fun p hp => h.free p (List.mem_append_right t hp), pat, hlast, hpat⟩

theorem Selects.tail (h : Selects file (pat :: pats)) (hne : pats ≠ []) : Selects file pats :=
  h.of_suffix (List.suffix_cons pat pats) hne

theorem Selects.literal?_last (h : Selects file [pat]) : pat.literal? = some file := by
  obtain ⟨p, hp, hlit⟩ := h.last
  cases hp
  exact hlit

/-- Fuel that is enough for patterns from a directory on: as long as the pattern stays the same, the walk goes down. -/
def Enough (d : Disk) (l : Location) (pats : List GlobPattern) (fuel : Nat) : Prop :=
  pats.length * (2 * d.nodes.length + 4) + 2 * (d.nodes.length + 1 - l.length) ≤ fuel

/-! ### Walks side by side -/

/-- Walks from two roots that have come to one node. -/
structure Together (d : Disk) (cwd : Location) (root root' : List Char) (l : Location) (node : DiskNode)
    (S : List Name) (q q' : List Char) : Prop where
  left : d.lookup cwd q = .found l node
  right : d.lookup cwd q' = .found l node
  sees : Sees root q S
  sees' : Sees root' q' S

/-- Two paths that walks from two roots select for one file. -/
def Twin (d : Disk) (cwd : Location) (root root' : List Char) (file : Name) (q q' : List Char) : Prop :=
  ∃ l node S, Together d cwd root root' l node S q q' ∧ S.getLast? = some file

theorem Together.stepInto (h : Together d cwd root root' l .directory S q q') (hn : '/' ∉ n)
    (hpoint : q = ['.'] ∨ q' = ['.'] → n ≠ []) (hstep : d.walk l [n] = .found l' node) :
    Together d cwd root root' l' node (next S n) (stepInto q n) (stepInto q' n) where
  left := (lookup_stepInto h.left hn fun hq => hpoint (.inl hq)).trans hstep
  right := (lookup_stepInto h.right hn fun hq => hpoint (.inr hq)).trans hstep
  sees := h.sees.stepInto hn fun hq => hpoint (.inl hq)
  sees' := h.sees'.stepInto hn fun hq => hpoint (.inr hq)

theorem Together.join (h : Together d cwd root root' l .directory S q q') (hn : '/' ∉ n)
    (hstep : d.walk l [n] = .found l' node) :
    Together d cwd root root' l' node (next S n) (join q n) (join q' n) where
  left := (lookup_join h.left hn).trans hstep
  right := (lookup_join h.right hn).trans hstep
  sees := h.sees.join hn
  sees' := h.sees'.join hn

theorem getLast?_next (hn : isIdle n = false) (S : List Name) : (next S n).getLast? = some n := by
  rw [next]
  generalize (if S.getLast? = some [] then S.dropLast else S) = T
  induction T with
  | nil => rw [List.nil_append, dropWhile_of_not_isIdle hn]; rfl
  | cons t T ih =>
    rw [List.cons_append]
    cases ht : isIdle t with
    | true => rw [List.dropWhile_cons_of_pos ht, ih]
    | false =>
      rw [dropWhile_of_not_isIdle ht, ← List.cons_append, List.getLast?_concat]

theorem forall₂_flatMap {α β : Type} {R : β → β → Prop} {f g : α → List β} {as : List α}
    (h : ∀ a ∈ as, List.Forall₂ R (f a) (g a)) : List.Forall₂ R (as.flatMap f) (as.flatMap g) := by
  induction as with
  | nil => exact .nil
  | cons a as ih =>
    have ⟨ha, has⟩ := List.forall_mem_cons.1 h
    rw [List.flatMap_cons, List.flatMap_cons]
    exact List.rel_append ha (ih has)

theorem Enough.of_length_le {ps : List GlobPattern} (h : Enough d l pats fuel) (hps : ps.length ≤ pats.length) :
    Enough d l ps fuel := by
  have := Nat.mul_le_mul_right (2 * d.nodes.length + 4) hps
  unfold Enough at *
  omega

theorem Enough.tail (h : Enough d l (pat :: pats) (fuel + 1)) (l' : Location) : Enough d l' pats fuel := by
  unfold Enough at *
  rw [List.length_cons, Nat.succ_mul] at h
  omega

theorem Enough.pos (h : Enough d l pats fuel) (hl : l.length ≤ d.nodes.length) : ∃ k, fuel = k + 1 := by
  unfold Enough at h
  exact ⟨fuel - 1, by omega⟩

/-- One directory down leaves fuel for two calls. -/
theorem Enough.down (h : Enough d l pats (fuel + 2)) (hl : l.length + 1 ≤ d.nodes.length) (n : Name) :
    Enough d (l ++ [n]) pats fuel := by
  unfold Enough at *
  rw [List.length_append, List.length_singleton]
  omega

/-- What patterns select at a path, if the first of them is for its name. -/
def selectAt (d : Disk) (cwd : Location) (fuel : Nat) (n : Name) (p : List Char) : List GlobPattern → List (List Char)
  | [] => []
  | q :: qs => if !q.isMatch n then [] else if qs.isEmpty then [p] else d.expand cwd fuel qs p

theorem visit_of_not_recursive (h : pat.isRecursive = false) (fuel : Nat) (pats : List GlobPattern) (n : Name)
    (p : List Char) : d.visit cwd (fuel + 1) (pat :: pats) n p = d.selectAt cwd fuel n p (pat :: pats) := by
  rw [visit, h]
  rfl

theorem visit_of_recursive {qat : GlobPattern} {qats : List GlobPattern} (h : pat.isRecursive = true)
    (hlast : lastRecursive (pat :: pats) = qat :: qats) (fuel : Nat) (n : Name) (p : List Char) :
    d.visit cwd (fuel + 1) (pat :: pats) n p =
      if d.isDirectory cwd p then
        (if qats.isEmpty then [p] else d.selectAt cwd fuel n p qats) ++ d.expand cwd fuel (qat :: qats) p
      else d.selectAt cwd fuel n p qats := by
  rw [visit, h, hlast]
  cases qats <;> rfl

/-- Walks from two roots with this much fuel select the same files. -/
def Twins (d : Disk) (cwd : Location) (root root' : List Char) (file : Name) (fuel : Nat) : Prop :=
  ∀ (fuel' : Nat) (pats : List GlobPattern) (l : Location) (node : DiskNode) (S : List Name) (q q' : List Char),
    Selects file pats → Together d cwd root root' l node S q q' → Enough d l pats fuel → Enough d l pats fuel' →
    (q = ['.'] ∨ q' = ['.'] → ∀ pat n, pats.head? = some pat → pat.literal? = some n → isIdle n = false) →
    List.Forall₂ (Twin d cwd root root' file) (d.expand cwd fuel pats q) (d.expand cwd fuel' pats q')

theorem Twins.selectAt (h : Twins d cwd root root' file fuel) (hpats : Selects file pats)
    (hq : Together d cwd root root' l node S q q') (hpoint : ¬(q = ['.'] ∨ q' = ['.'])) (hname : S.getLast? = some n)
    (hfuel : Enough d l pats fuel) (hfuel' : Enough d l pats fuel') :
    List.Forall₂ (Twin d cwd root root' file) (d.selectAt cwd fuel n q pats) (d.selectAt cwd fuel' n q' pats) := by
  cases pats with
  | nil => exact .nil
  | cons pat pats =>
    rw [Disk.selectAt, Disk.selectAt]
    cases hmatch : pat.isMatch n with
    | false => exact .nil
    | true =>
      rw [Bool.not_true, if_neg Bool.false_ne_true, if_neg Bool.false_ne_true]
      by_cases hnil : pats = []
      · subst hnil
        obtain rfl : n = file := (GlobPattern.isMatch_of_literal? hpats.literal?_last).1 hmatch
        exact .cons ⟨l, node, S, hq, hname⟩ .nil
      · have hempty : pats.isEmpty = false := List.isEmpty_eq_false_iff.2 hnil
        rw [hempty, if_neg Bool.false_ne_true, if_neg Bool.false_ne_true]
        exact h fuel' pats l node S q q' (hpats.tail hnil) hq (hfuel.of_length_le (Nat.le_succ _))
          (hfuel'.of_length_le (Nat.le_succ _)) fun hq => absurd hq hpoint

theorem Twins.visit (h : Twins d cwd root root' file fuel) (hpats : Selects file pats)
    (hq : Together d cwd root root' l node S q q') (hpoint : ¬(q = ['.'] ∨ q' = ['.'])) (hname : S.getLast? = some n)
    (hfuel : Enough d l pats fuel) (hfuel' : Enough d l pats fuel') :
    List.Forall₂ (Twin d cwd root root' file) (d.visit cwd (fuel + 1) pats n q)
      (d.visit cwd (fuel' + 1) pats n q') := by
  cases pats with
  | nil => simp only [Disk.visit]; exact .nil
  | cons pat pats =>
    cases hrec : pat.isRecursive with
    | false =>
      rw [visit_of_not_recursive hrec, visit_of_not_recursive hrec]
      exact h.selectAt hpats hq hpoint hname hfuel hfuel'
    | true =>
      obtain ⟨qat, qats, hlast, hqat⟩ := exists_lastRecursive hrec pats
      have hsuffix := hlast ▸ lastRecursive_suffix (pat :: pats)
      have hlength := hsuffix.length_le
      have hrest : Selects file (qat :: qats) := hpats.of_suffix hsuffix (List.cons_ne_nil _ _)
      have hne : qats ≠ [] := by
        rintro rfl
        rw [GlobPattern.isRecursive_of_literal? hrest.literal?_last] at hqat
        cases hqat
      have hselect : List.Forall₂ (Twin d cwd root root' file) (d.selectAt cwd fuel n q qats)
          (d.selectAt cwd fuel' n q' qats) :=
        h.selectAt (hrest.tail hne) hq hpoint hname (hfuel.of_length_le (Nat.le_of_succ_le hlength))
          (hfuel'.of_length_le (Nat.le_of_succ_le hlength))
      rw [visit_of_recursive hrec hlast, visit_of_recursive hrec hlast, isDirectory, isDirectory, hq.left, hq.right,
        List.isEmpty_eq_false_iff.2 hne, if_neg Bool.false_ne_true, if_neg Bool.false_ne_true]
      cases node with
      | file b => exact hselect
      | directory =>
        refine List.rel_append hselect ?_
        exact h fuel' (qat :: qats) l _ S q q' hrest hq (hfuel.of_length_le hlength) (hfuel'.of_length_le hlength)
          fun hq => absurd hq hpoint

theorem IsWellFormed.walk_of_mem_children (h : d.IsWellFormed) (hn : n ∈ d.children l) :
    ∃ node, d.walk l [n] = .found (l ++ [n]) node ∧ IsProper n ∧ '/' ∉ n := by
  obtain ⟨node, hnode⟩ := mem_children.1 hn
  obtain ⟨hproper, hok, hfree⟩ := h.names _ _ hnode n (by simp)
  have hl : d.get? l = some .directory := h.tree.directory_above hnode (List.cons_ne_nil n [])
  refine ⟨node, ?_, hproper, hfree⟩
  rw [walk_cons hl (.inr (.inr hok)), stepTo_of_proper hproper, walk_nil, hnode]

/-- A step from two paths to one directory leads to the point only along the point. -/
theorem Together.eq_point (h : Together d cwd root root' l .directory S q q') (hn : '/' ∉ n)
    (hstop : Disk.stepInto q n = ['.'] ∨ Disk.stepInto q' n = ['.']) : (q = ['.'] ∨ q' = ['.']) ∧ n = ['.'] := by
  rcases hstop with hstop | hstop
  · exact (stepInto_eq_point h.sees.ne_nil hn hstop).imp_left .inl
  · exact (stepInto_eq_point h.sees'.ne_nil hn hstop).imp_left .inr

/-- Behind a component the walks go on together with what is left of the pattern. -/
theorem Twins.onward (h : Twins d cwd root root' file fuel) (hpats : Selects file (pat :: pats))
    (hq : Together d cwd root root' l' node S q q') (hpoint : ¬(q = ['.'] ∨ q' = ['.']))
    (hlast : pats = [] → S.getLast? = some file) (hfuel : Enough d l (pat :: pats) (fuel + 1))
    (hfuel' : Enough d l (pat :: pats) (fuel' + 1)) :
    List.Forall₂ (Twin d cwd root root' file) (if pats.isEmpty then [q] else d.expand cwd fuel pats q)
      (if pats.isEmpty then [q'] else d.expand cwd fuel' pats q') := by
  by_cases hnil : pats = []
  · subst hnil
    exact .cons ⟨l', node, S, hq, hlast rfl⟩ .nil
  · rw [List.isEmpty_eq_false_iff.2 hnil, if_neg Bool.false_ne_true, if_neg Bool.false_ne_true]
    exact h fuel' pats l' node S q q' (hpats.tail hnil) hq (hfuel.tail l') (hfuel'.tail l') fun hq => absurd hq hpoint

theorem Twins.literal (h : Twins d cwd root root' file fuel) (hd : d.IsTree) (hfile : isIdle file = false)
    (hpats : Selects file (pat :: pats)) (hlit : pat.literal? = some n)
    (hq : Together d cwd root root' l .directory S q q') (hpoint : q = ['.'] ∨ q' = ['.'] → isIdle n = false)
    (hfuel : Enough d l (pat :: pats) (fuel + 1)) (hfuel' : Enough d l (pat :: pats) (fuel' + 1)) :
    List.Forall₂ (Twin d cwd root root' file) (d.expand cwd (fuel + 1) (pat :: pats) q)
      (d.expand cwd (fuel' + 1) (pat :: pats) q') := by
  have hn : '/' ∉ n := hpats.free pat List.mem_cons_self n hlit
  have hne (hq : q = ['.'] ∨ q' = ['.']) : n ≠ [] := ne_nil_of_not_isIdle (hpoint hq)
  rw [expand_literal hd hlit hq.left hn fun hq => hne (.inl hq),
    expand_literal hd hlit hq.right hn fun hq => hne (.inr hq)]
  cases hstep : d.walk l [n] with
  | found l' node =>
    refine h.onward hpats (hq.stepInto hn hne hstep) (fun hstop => ?_) (fun hnil => ?_) hfuel hfuel'
    · obtain ⟨hfrom, hdot⟩ := hq.eq_point hn hstop
      have hproper := hpoint hfrom
      rw [hdot] at hproper
      cases hproper
    · subst hnil
      cases hlit.symm.trans hpats.literal?_last
      exact getLast?_next hfile S
  | _ => exact .nil

theorem Twins.search (h : ∀ k ≤ fuel, Twins d cwd root root' file k) (hd : d.IsWellFormed)
    (hpats : Selects file (pat :: pats)) (hlit : pat.literal? = none)
    (hq : Together d cwd root root' l .directory S q q') (hfuel : Enough d l (pat :: pats) (fuel + 1))
    (hfuel' : Enough d l (pat :: pats) (fuel' + 1)) :
    List.Forall₂ (Twin d cwd root root' file) (d.expand cwd (fuel + 1) (pat :: pats) q)
      (d.expand cwd (fuel' + 1) (pat :: pats) q') := by
  rw [expand_search hlit hq.left, expand_search hlit hq.right]
  -- along `.` and `..`, if the component begins with a point, and then to each child
  refine List.rel_append (forall₂_flatMap fun n hn => ?_) (forall₂_flatMap fun n hn => ?_)
  · have hspecial : n = ['.'] ∨ n = ['.', '.'] := by
      split at hn
      · have := List.mem_of_mem_filter hn
        simp only [List.mem_cons, List.not_mem_nil, or_false] at this
        exact this.symm
      · cases hn
    have hfree : '/' ∉ n := by rcases hspecial with rfl | rfl <;> decide
    have hne : pats ≠ [] := by
      rintro rfl
      cases hlit.symm.trans hpats.literal?_last
    obtain ⟨l', hstep⟩ := hd.tree.walk_of_special (get?_of_lookup hq.left) hspecial
    refine (h fuel (Nat.le_refl _)).onward hpats (hq.join hfree hstep) (fun hstop => ?_) (fun hnil => absurd hnil hne)
      hfuel hfuel'
    rcases hstop with hstop | hstop
    · exact join_ne_point hq.sees.ne_nil hfree hstop
    · exact join_ne_point hq.sees'.ne_nil hfree hstop
  · obtain ⟨node, hstep, hproper, hfree⟩ := hd.walk_of_mem_children hn
    have hchild := hq.stepInto hfree (fun _ => ne_nil_of_not_isIdle hproper.1) hstep
    have hdepth := hd.tree.length_le (get?_of_lookup hchild.left)
    rw [List.length_append, List.length_singleton] at hdepth
    obtain ⟨k, rfl⟩ : ∃ k, fuel = k + 1 := by
      unfold Enough at hfuel
      exact ⟨fuel - 1, by omega⟩
    obtain ⟨k', rfl⟩ : ∃ k, fuel' = k + 1 := by
      unfold Enough at hfuel'
      exact ⟨fuel' - 1, by omega⟩
    refine (h k (Nat.le_succ k)).visit hpats hchild (fun hstop => ?_) (getLast?_next hproper.1 S)
      (hfuel.down hdepth n) (hfuel'.down hdepth n)
    rw [(hq.eq_point hfree hstop).2] at hproper
    cases hproper.1

/-- Walks from two roots select the same files, if both have enough fuel. -/
theorem twins (h : d.IsWellFormed) (hfile : isIdle file = false) (fuel : Nat) :
    Twins d cwd root root' file fuel := by
  -- on the fuel of the first walk; a child takes two calls, so the step before is not enough
  induction fuel using Nat.strongRecOn with
  | _ fuel ih =>
    intro fuel' pats l node S q q' hpats hq hfuel hfuel' hpoint
    obtain ⟨pat, pats, rfl⟩ : ∃ p ps, pats = p :: ps := by
      obtain ⟨p, hp, -⟩ := hpats.last
      exact List.exists_cons_of_ne_nil fun hnil => by rw [hnil] at hp; cases hp
    have hdepth := h.tree.length_le (get?_of_lookup hq.left)
    obtain ⟨fuel, rfl⟩ := hfuel.pos hdepth
    obtain ⟨fuel', rfl⟩ := hfuel'.pos hdepth
    cases node with
    | file b =>
      rw [expand_of_file hpats.free hq.left, expand_of_file hpats.free hq.right]
      exact .nil
    | directory =>
      cases hlit : pat.literal? with
      | some n =>
        exact (ih fuel (Nat.lt_succ_self _)).literal h.tree hfile hpats hlit hq
          (fun hq => hpoint hq pat n rfl hlit) hfuel hfuel'
      | none => exact Twins.search (fun k hk => ih k (Nat.lt_succ_of_le hk)) h hpats hlit hq hfuel hfuel'

end Federation.Disk
