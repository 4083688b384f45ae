import Federation.Disk.Basic
import Federation.Proofs.Path.Names

/-!
# Walking a disk

A walk either stops on the way or ends at the one place that its names mean (`placeOf_walk`), and all that it asks of a
disk on the way is that the locations which it passes are directories. So a walk that ends at a place ends there on
every disk that has the same directories (`walk_of_directories`), where it finds what that disk has at the place.

Disks are trees: every node lies in a directory (`IsTree`). On a tree a path that ends with `..` or with idle names
leads to a directory or nowhere, and a path without `..` leads to every node that lies where its names mean.
-/

namespace Federation

/-- The place that a walk ended at, whether or not something is there. -/
def DiskLookup.place? : DiskLookup → Option Location
  | found l _ => some l
  | vacant l => some l
  | noDirectory | refused => none

namespace Path

/-- Where a name leads from a location. -/
def stepTo (l : Location) (n : Name) : Location :=
  if isIdle n then l else if n = ['.', '.'] then l.dropLast else l ++ [n]

/-- Where names lead from a location. -/
def placeOf (l : Location) (ns : List Name) : Location := ns.foldl stepTo l

/-- Where a path begins. -/
def baseOf (cwd : Location) (p : List Char) : Location := if isAbsolute p then [] else cwd

theorem stepTo_of_proper {n : Name} (h : IsProper n) (l : Location) : stepTo l n = l ++ [n] := by
  rw [stepTo, h.1, if_neg Bool.false_ne_true, if_neg h.2]

theorem stepTo_of_idle {n : Name} (h : isIdle n = true) (l : Location) : stepTo l n = l := if_pos h

theorem placeOf_append (l : Location) (ns ms : List Name) : placeOf l (ns ++ ms) = placeOf (placeOf l ns) ms :=
  List.foldl_append

theorem placeOf_of_idle {idle : List Name} (h : ∀ n ∈ idle, isIdle n = true) (l : Location) : placeOf l idle = l := by
  induction idle with
  | nil => rfl
  | cons n idle ih =>
    have ⟨hn, hidle⟩ := List.forall_mem_cons.1 h
    show placeOf (stepTo l n) idle = l
    rw [stepTo_of_idle hn, ih hidle]

theorem placeOf_proper_idle {idle : List Name} (hn : IsProper n) (hidle : ∀ i ∈ idle, isIdle i = true) (l : Location)
    (r : List Name) : placeOf l (r ++ n :: idle) = placeOf l r ++ [n] := by
  rw [placeOf_append, ← stepTo_of_proper hn, ← placeOf_of_idle hidle (stepTo (placeOf l r) n)]
  rfl

/-- Names without `..` lead down only. -/
theorem exists_placeOf {ns : List Name} (hdots : ['.', '.'] ∉ ns) (l : Location) : ∃ ms, placeOf l ns = l ++ ms := by
  induction ns generalizing l with
  | nil => exact ⟨[], (List.append_nil l).symm⟩
  | cons n ns ih =>
    rw [List.mem_cons, not_or] at hdots
    obtain ⟨ms, hms⟩ := ih hdots.2 (stepTo l n)
    by_cases hidle : isIdle n = true
    · rw [stepTo_of_idle hidle] at hms
      exact ⟨ms, by rw [placeOf, List.foldl_cons, stepTo_of_idle hidle]; exact hms⟩
    · rw [stepTo_of_proper ⟨Bool.not_eq_true _ ▸ hidle, Ne.symm hdots.1⟩] at hms
      refine ⟨n :: ms, ?_⟩
      rw [placeOf, List.foldl_cons, stepTo_of_proper ⟨Bool.not_eq_true _ ▸ hidle, Ne.symm hdots.1⟩]
      rw [← placeOf, hms]
      simp

end Path

namespace Disk

open Federation.Path

variable {d d' : Disk} {l l' x cwd : Location} {n : Name} {ns ms idle : List Name} {p : List Char} {node : DiskNode}

/-! ### Nodes -/

theorem ne_nil_of_get? (h : d.get? l ≠ some .directory) : l ≠ [] := by
  rintro rfl
  exact h rfl

theorem find?_filter_ne (h : l' ≠ l) :
    (d.nodes.filter (·.1 != l)).find? (·.1 == l') = d.nodes.find? (·.1 == l') := by
  have hsame : (fun e : Location × DiskNode => decide ((e.1 != l) = true ∧ (e.1 == l') = true)) = (·.1 == l') := by
    funext e
    by_cases he : e.1 = l'
    · simp [he, h]
    · simp [he]
  rw [List.find?_filter, hsame]

theorem get?_put (hl : l ≠ []) (node : DiskNode) (l' : Location) :
    (d.put l node).get? l' = if l' = l then some node else d.get? l' := by
  by_cases hnil : l' = []
  · subst hnil
    rw [if_neg (Ne.symm hl)]
    rfl
  · have hempty : l'.isEmpty = false := by simpa using hnil
    rw [get?, get?, hempty, put]
    by_cases h : l' = l
    · subst h
      simp
    · simp [Ne.symm h, h, find?_filter_ne h]

theorem get?_remove (h : l' ≠ l) : (d.remove l).get? l' = d.get? l' := by
  rw [get?, get?, remove, find?_filter_ne h]

theorem get?_remove_self (h : l ≠ []) : (d.remove l).get? l = none := by
  simp [get?, remove, h]

/-! ### Steps -/

/-- Whether a walk can take a name, if it is in a directory. -/
def Passable (n : Name) : Prop := isIdle n = true ∨ n = ['.', '.'] ∨ nameOk n = true

theorem walk_nil (d : Disk) (l : Location) : d.walk l [] = match d.get? l with
    | some node => .found l node
    | none => .vacant l := rfl

theorem place?_walk_nil (d : Disk) (l : Location) : (d.walk l []).place? = some l := by
  rw [walk_nil]
  cases d.get? l <;> rfl

theorem walk_cons (hl : d.get? l = some .directory) (hn : Passable n) (ns : List Name) :
    d.walk l (n :: ns) = d.walk (stepTo l n) ns := by
  rw [walk, hl]
  dsimp only
  unfold stepTo
  by_cases hidle : isIdle n = true
  · rw [if_pos hidle, if_pos hidle]
  · rw [if_neg hidle, if_neg hidle]
    by_cases hdots : n = ['.', '.']
    · rw [if_pos (beq_iff_eq.2 hdots), if_pos hdots]
    · rw [if_neg (mt beq_iff_eq.1 hdots), if_neg hdots, if_pos ((hn.resolve_left hidle).resolve_left hdots)]

theorem walk_cons_inv (h : (d.walk l (n :: ns)).place? = some x) : d.get? l = some .directory ∧ Passable n := by
  rw [walk] at h
  cases hl : d.get? l with
  | none => rw [hl] at h; cases h
  | some node =>
    rw [hl] at h
    cases node with
    | file b => cases h
    | directory =>
      refine ⟨rfl, ?_⟩
      dsimp only at h
      split at h
      · exact .inl ‹_›
      · split at h
        · exact .inr (.inl (beq_iff_eq.1 ‹_›))
        · split at h
          · exact .inr (.inr ‹_›)
          · cases h

/-! ### Walks -/

/-- A walk that ends at a place ends there on every disk that has the directories of this one. -/
theorem walk_of_directories (hd : ∀ l, d.get? l = some .directory → d'.get? l = some .directory)
    (h : (d.walk l ns).place? = some x) : d'.walk l ns = d'.walk x [] := by
  induction ns generalizing l with
  | nil =>
    rw [place?_walk_nil] at h
    cases h
    rfl
  | cons n ns ih =>
    obtain ⟨hl, hn⟩ := walk_cons_inv h
    rw [walk_cons hl hn] at h
    rw [walk_cons (hd l hl) hn, ih h]

theorem walk_eq (h : (d.walk l ns).place? = some x) : d.walk l ns = d.walk x [] := walk_of_directories (fun _ => id) h

theorem placeOf_walk (h : (d.walk l ns).place? = some x) : x = placeOf l ns := by
  induction ns generalizing l with
  | nil =>
    rw [place?_walk_nil] at h
    cases h
    rfl
  | cons n ns ih =>
    obtain ⟨hl, hn⟩ := walk_cons_inv h
    rw [walk_cons hl hn] at h
    exact ih h

theorem get?_of_found (h : d.walk l ns = .found x node) : d.get? x = some node := by
  have hx : (d.walk l ns).place? = some x := by rw [h]; rfl
  rw [walk_eq hx, walk_nil] at h
  cases hg : d.get? x with
  | none => rw [hg] at h; cases h
  | some node' => rw [hg] at h; cases h; rfl

theorem get?_of_vacant (h : d.walk l ns = .vacant x) : d.get? x = none := by
  have hx : (d.walk l ns).place? = some x := by rw [h]; rfl
  rw [walk_eq hx, walk_nil] at h
  cases hg : d.get? x with
  | none => rfl
  | some node => rw [hg] at h; cases h

theorem walk_append (h : d.walk l ns = .found x .directory) (ms : List Name) : d.walk l (ns ++ ms) = d.walk x ms := by
  induction ns generalizing l with
  | nil =>
    have hx : (d.walk l []).place? = some x := by rw [h]; rfl
    rw [place?_walk_nil] at hx
    cases hx
    rfl
  | cons n ns ih =>
    obtain ⟨hl, hn⟩ := walk_cons_inv (show (d.walk l (n :: ns)).place? = some x by rw [h]; rfl)
    rw [walk_cons hl hn] at h
    rw [List.cons_append, walk_cons hl hn, ih h]

/-- A walk that goes on behind some names passes a directory there. -/
theorem walk_append_inv (h : (d.walk l (ns ++ n :: ms)).place? = some x) :
    d.walk l ns = .found (placeOf l ns) .directory := by
  induction ns generalizing l with
  | nil =>
    have hl := (walk_cons_inv h).1
    rw [walk_nil, hl]
    rfl
  | cons m ns ih =>
    obtain ⟨hl, hm⟩ := walk_cons_inv h
    rw [List.cons_append, walk_cons hl hm] at h
    rw [walk_cons hl hm, ih h]
    rfl

theorem lookup_eq (hp : p ≠ []) (d : Disk) (cwd : Location) :
    d.lookup cwd p = d.walk (baseOf cwd p) (rawNames p) := by
  obtain ⟨c, r, rfl⟩ := List.exists_cons_of_ne_nil hp
  by_cases hc : c = '/'
  · subst hc
    have hroot : d.get? [] = some .directory := rfl
    exact (walk_cons (n := []) hroot (.inl rfl) (rawNames r)).symm
  · have habs : isAbsolute (c :: r) = false := by
      rw [isAbsolute, beq_eq_false_iff_ne]
      intro h
      exact hc (Option.some.inj h)
    rw [baseOf, habs, if_neg Bool.false_ne_true, lookup]
    · exact hp
    · intro r' h
      exact absurd (List.cons.inj h).1 hc

/-! ### Trees -/

/-- Every node lies in a directory. -/
def IsTree (d : Disk) : Prop := ∀ l node, d.get? l = some node → d.get? l.dropLast = some .directory

namespace IsTree

theorem of_nodes (h : ∀ e ∈ d.nodes, d.get? e.1.dropLast = some .directory) : d.IsTree := by
  intro l node hl
  rw [get?] at hl
  split at hl
  · rename_i hempty
    rw [List.isEmpty_iff.1 hempty]
    rfl
  · obtain ⟨e, he, -⟩ := Option.map_eq_some_iff.1 hl
    have hfound := List.find?_some he
    have hel : e.1 = l := beq_iff_eq.1 hfound
    exact hel ▸ h e (List.mem_of_find?_eq_some he)

theorem put (h : d.IsTree) (hl : d.get? l ≠ some .directory) (hparent : d.get? l.dropLast = some .directory)
    (node : DiskNode) : (d.put l node).IsTree := by
  have hne := ne_nil_of_get? hl
  intro l' node' hl'
  rw [get?_put hne] at hl' ⊢
  by_cases heq : l' = l
  · subst heq
    have hlength := List.length_pos_iff.2 hne
    have hdrop : l'.dropLast ≠ l' := by
      intro hd
      have := congrArg List.length hd
      rw [List.length_dropLast] at this
      omega
    rw [if_neg hdrop, hparent]
  · rw [if_neg heq] at hl'
    have hdir := h l' node' hl'
    have hdrop : l'.dropLast ≠ l := by
      intro hd
      rw [hd] at hdir
      exact hl hdir
    rw [if_neg hdrop, hdir]

/-- What a walk ends at lies in a directory, even if nothing is there. -/
theorem parent_of_place (h : d.IsTree) (hx : (d.walk l (n :: ns)).place? = some x) :
    d.get? x.dropLast = some .directory := by
  induction ns generalizing l n with
  | nil =>
    obtain ⟨hl, hn⟩ := walk_cons_inv hx
    rw [walk_cons hl hn, place?_walk_nil] at hx
    cases hx
    unfold stepTo
    split
    · exact h l _ hl
    · split
      · exact h _ _ (h l _ hl)
      · rw [List.dropLast_concat, hl]
  | cons m ns ih =>
    obtain ⟨hl, hn⟩ := walk_cons_inv hx
    rw [walk_cons hl hn] at hx
    exact ih hx

/-- On a tree, names that end with `..` or are idle at the end lead to a directory if they lead anywhere. -/
theorem found_of_not_proper (h : d.IsTree) (hn : ¬IsProper n) (hidle : ∀ i ∈ idle, isIdle i = true)
    (hx : (d.walk l (ns ++ n :: idle)).place? = some x) : d.get? x = some .directory := by
  have hpass := walk_append_inv hx
  rw [walk_append hpass] at hx
  have hdir := get?_of_found hpass
  obtain ⟨-, hn'⟩ := walk_cons_inv hx
  rw [walk_cons hdir hn'] at hx
  rw [placeOf_walk hx, placeOf_of_idle hidle]
  unfold stepTo
  split
  · exact hdir
  · rename_i hi
    split
    · exact h _ _ hdir
    · rename_i hd
      exact absurd ⟨Bool.not_eq_true _ ▸ hi, hd⟩ hn

theorem directory_above (h : d.IsTree) (hl : d.get? (l ++ ns) = some node) (hns : ns ≠ []) :
    d.get? l = some .directory := by
  induction hk : ns.length generalizing ns node with
  | zero => exact absurd (List.length_eq_zero_iff.1 hk) hns
  | succ k ih =>
    have hparent := h _ _ hl
    rw [List.dropLast_append_of_ne_nil hns] at hparent
    by_cases hdrop : ns.dropLast = []
    · rwa [hdrop, List.append_nil] at hparent
    · exact ih hparent hdrop (by rw [List.length_dropLast]; omega)

/-- A file that lies on a tree is reached by every path without `..` that reaches it on another disk. -/
theorem walk_of_free {b : ByteArray} (h : d.IsTree) (hdots : ['.', '.'] ∉ ns) (hx : d'.walk l ns = .found x (.file b))
    (hfile : d.get? x = some (.file b)) : d.walk l ns = .found x (.file b) := by
  have hplace : (d'.walk l ns).place? = some x := by rw [hx]; rfl
  induction ns generalizing l with
  | nil =>
    rw [place?_walk_nil] at hplace
    cases hplace
    rw [walk_nil, hfile]
  | cons n ns ih =>
    obtain ⟨hl, hn⟩ := walk_cons_inv hplace
    obtain ⟨ms, hms⟩ := exists_placeOf hdots l
    have hxl : x = l ++ ms := (placeOf_walk hplace).trans hms
    have hdir : d.get? l = some .directory := by
      refine h.directory_above (hxl ▸ hfile) ?_
      rintro rfl
      rw [List.append_nil] at hxl
      subst hxl
      cases hl.symm.trans (get?_of_found hx)
    rw [walk_cons hl hn] at hx hplace
    rw [walk_cons hdir hn]
    exact ih (fun hm => hdots (List.mem_cons_of_mem _ hm)) hx hplace

end IsTree

end Disk

end Federation
