import Mathlib.Data.List.Nodup
import Mathlib.Data.List.Perm.Subperm
import Federation.Proofs.Disk.Changes

/-!
# Paths on well-formed disks

A disk is well-formed if it is a tree, its names are such as a walk can take, and no location has two nodes. On such a
disk every path without `..` leads to the directory where its names mean, if there is one (`lookup_of_directory`), and
a path one name further leads one step further (`lookup_join`). The directories that lie below one another are nodes of
their own, so none lies deeper than there are nodes (`length_le`).
-/

namespace Federation

namespace Path

variable {p : List Char} {n : Name}

theorem isAbsolute_of_slash_not_mem (h : '/' ∉ n) : isAbsolute n = false := by
  rw [isAbsolute, beq_eq_false_iff_ne]
  intro he
  exact h (List.mem_of_mem_head? he)

theorem getLast?_of_rawNames {ns : List Name} (hp : p ≠ []) (h : rawNames p = ns ++ [[]]) : p.getLast? = some '/' := by
  rw [← join_rawNames p, h]
  cases ns with
  | nil => exact absurd (by rw [← join_rawNames p, h]; rfl) hp
  | cons m ns =>
    rw [Text.join_append (List.cons_ne_nil m ns) (List.cons_ne_nil _ _)]
    simp [Text.join]

/-- The names of a path one name further: an empty name at the end gives way. -/
theorem rawNames_join_cases (hp : p ≠ []) (hn : '/' ∉ n) :
    (∃ ns, rawNames p = ns ++ [[]] ∧ rawNames (join p n) = ns ++ [n]) ∨
      ((rawNames p).getLast? ≠ some [] ∧ rawNames (join p n) = rawNames p ++ [n]) := by
  have hempty : (isAbsolute n || p.isEmpty) = false := by
    rw [isAbsolute_of_slash_not_mem hn, List.isEmpty_eq_false_iff.2 hp]
    rfl
  rw [join, hempty, if_neg Bool.false_ne_true]
  by_cases hlast : p.getLast? = some '/'
  · rw [if_pos (beq_iff_eq.2 hlast)]
    obtain ⟨q, rfl⟩ := List.getLast?_eq_some_iff.1 hlast
    refine .inl ⟨rawNames q, rawNames_append q [], ?_⟩
    rw [List.append_assoc, List.singleton_append, rawNames_append, rawNames_of_free hn]
  · rw [if_neg (mt beq_iff_eq.1 hlast), rawNames_append, rawNames_of_free hn]
    refine .inr ⟨fun hempty => hlast ?_, rfl⟩
    obtain ⟨ns, hns⟩ := List.getLast?_eq_some_iff.1 hempty
    exact getLast?_of_rawNames hp hns

theorem isAbsolute_join (hp : p ≠ []) (hn : '/' ∉ n) : isAbsolute (join p n) = isAbsolute p := by
  obtain ⟨c, r, rfl⟩ := List.exists_cons_of_ne_nil hp
  rw [join, isAbsolute_of_slash_not_mem hn]
  show isAbsolute (if _ then (c :: r) ++ n else (c :: r) ++ '/' :: n) = _
  split <;> rfl

theorem join_ne_nil (hp : p ≠ []) (q : List Char) (hq : isAbsolute q = false) : join p q ≠ [] := by
  obtain ⟨c, r, rfl⟩ := List.exists_cons_of_ne_nil hp
  rw [join, hq]
  show (if _ then (c :: r) ++ q else (c :: r) ++ '/' :: q) ≠ []
  split <;> exact List.cons_ne_nil _ _

end Path

namespace Disk

open Federation.Path

variable {d : Disk} {l cwd : Location} {n : Name} {ns : List Name} {p : List Char} {node : DiskNode}

structure IsWellFormed (d : Disk) : Prop where
  tree : d.IsTree
  names : ∀ l node, d.get? l = some node → ∀ n ∈ l, IsProper n ∧ nameOk n = true ∧ '/' ∉ n
  distinct : (d.nodes.map (·.1)).Nodup

/-! ### One name further -/

theorem baseOf_join (hp : p ≠ []) (hn : '/' ∉ n) (cwd : Location) : baseOf cwd (join p n) = baseOf cwd p := by
  rw [baseOf, baseOf, isAbsolute_join hp hn]

theorem lookup_join (h : d.lookup cwd p = .found l .directory) (hn : '/' ∉ n) :
    d.lookup cwd (join p n) = d.walk l [n] := by
  have hp : p ≠ [] := by
    rintro rfl
    cases h
  rw [lookup_eq hp] at h
  rw [lookup_eq (join_ne_nil hp n (isAbsolute_of_slash_not_mem hn)), baseOf_join hp hn]
  rcases rawNames_join_cases hp hn with ⟨ns, hns, hjoin⟩ | ⟨-, hjoin⟩ <;> rw [hjoin]
  · rw [hns] at h
    have habove := walk_append_inv (d := d) (l := baseOf cwd p) (x := l) (by rw [h]; rfl)
    have hplace := placeOf_walk (d := d) (x := l) (by rw [h]; rfl)
    rw [placeOf_append, placeOf_of_idle (by simp [isIdle])] at hplace
    rw [walk_append habove, hplace]
  · exact walk_append h [n]

theorem lookup_join_of_file {b : ByteArray} (h : d.lookup cwd p = .found l (.file b)) (hn : '/' ∉ n) :
    (d.lookup cwd (join p n)).place? = none := by
  have hp : p ≠ [] := by
    rintro rfl
    cases h
  cases hx : (d.lookup cwd (join p n)).place? with
  | none => rfl
  | some x =>
    rw [lookup_eq (join_ne_nil hp n (isAbsolute_of_slash_not_mem hn)), baseOf_join hp hn] at hx
    rw [lookup_eq hp] at h
    rcases rawNames_join_cases hp hn with ⟨ns, hns, hjoin⟩ | ⟨-, hjoin⟩ <;> rw [hjoin] at hx
    · have habove := walk_append_inv hx
      rw [hns, walk_append habove] at h
      have hdir := get?_of_found habove
      rw [walk_cons hdir (.inl rfl), stepTo_of_idle rfl, walk_nil, hdir] at h
      cases h
    · have habove := walk_append_inv hx
      cases h.symm.trans habove

/-! ### Directories -/

/-- Names without `..` lead to the directory that they mean, if there is one. -/
theorem walk_of_directory (h : d.IsWellFormed) (hdots : ['.', '.'] ∉ ns)
    (hx : d.get? (placeOf l ns) = some .directory) : d.walk l ns = .found (placeOf l ns) .directory := by
  induction ns generalizing l with
  | nil =>
    show d.walk l [] = .found l .directory
    rw [walk_nil, show d.get? l = some .directory from hx]
  | cons n ns ih =>
    rw [List.mem_cons, not_or] at hdots
    obtain ⟨ms, hms⟩ := exists_placeOf hdots.2 (stepTo l n)
    have hx' : d.get? (placeOf (stepTo l n) ns) = some .directory := hx
    have hstep : d.get? (stepTo l n) = some .directory := by
      rw [hms] at hx'
      by_cases hnil : ms = []
      · rwa [hnil, List.append_nil] at hx'
      · exact h.tree.directory_above hx' hnil
    have hwalk : d.get? l = some .directory ∧ Passable n := by
      by_cases hidle : isIdle n = true
      · rw [stepTo_of_idle hidle] at hstep
        exact ⟨hstep, .inl hidle⟩
      · rw [stepTo_of_proper ⟨Bool.not_eq_true _ ▸ hidle, Ne.symm hdots.1⟩] at hstep
        exact ⟨h.tree.directory_above hstep (List.cons_ne_nil _ _),
          .inr (.inr (h.names _ _ hstep n (by simp)).2.1)⟩
    rw [walk_cons hwalk.1 hwalk.2, ih hdots.2 hx']
    rfl

theorem lookup_of_directory (h : d.IsWellFormed) (hp : p ≠ []) (hdots : ['.', '.'] ∉ rawNames p)
    (hx : d.get? (placeOfPath cwd p) = some .directory) :
    d.lookup cwd p = .found (placeOfPath cwd p) .directory := by
  rw [lookup_eq hp]
  exact walk_of_directory h hdots hx

/-! ### Names in a directory -/

theorem mem_nodes_of_get? (hl : l ≠ []) (h : d.get? l = some node) : (l, node) ∈ d.nodes := by
  have hempty : l.isEmpty = false := by simpa using hl
  rw [get?, hempty, if_neg Bool.false_ne_true] at h
  obtain ⟨e, he, rfl⟩ := Option.map_eq_some_iff.1 h
  have hfound := List.find?_some he
  obtain rfl : e.1 = l := beq_iff_eq.1 hfound
  exact List.mem_of_find?_eq_some he

theorem exists_get?_of_mem {e : Location × DiskNode} (he : e ∈ d.nodes) : ∃ node, d.get? e.1 = some node := by
  rw [get?]
  split
  · exact ⟨_, rfl⟩
  · have hsome : (d.nodes.find? (·.1 == e.1)).isSome := List.find?_isSome.2 ⟨e, he, beq_iff_eq.2 rfl⟩
    obtain ⟨e', he'⟩ := Option.isSome_iff_exists.1 hsome
    exact ⟨e'.2, by rw [he']; rfl⟩

theorem eq_of_child {x : Location} (h : (if x.dropLast == l && !x.isEmpty then x.getLast? else none) = some n) :
    x = l ++ [n] := by
  split at h
  · rename_i hcond
    rw [Bool.and_eq_true, beq_iff_eq] at hcond
    obtain ⟨m, rfl⟩ := List.getLast?_eq_some_iff.1 h
    rw [List.dropLast_concat] at hcond
    rw [hcond.1]
  · cases h

theorem mem_children : n ∈ d.children l ↔ ∃ node, d.get? (l ++ [n]) = some node := by
  rw [children, List.mem_mergeSort, List.mem_filterMap]
  constructor
  · rintro ⟨e, he, hlast⟩
    obtain ⟨node, hnode⟩ := exists_get?_of_mem he
    exact ⟨node, eq_of_child hlast ▸ hnode⟩
  · rintro ⟨node, hnode⟩
    exact ⟨_, mem_nodes_of_get? (by simp) hnode, by simp⟩

theorem nodup_children (h : d.IsWellFormed) (l : Location) : (d.children l).Nodup := by
  rw [children, (List.mergeSort_perm _ _).nodup_iff, List.nodup_iff_pairwise_ne, List.pairwise_filterMap]
  refine (List.pairwise_map.1 h.distinct).imp fun {e e'} hne n hn n' hn' hsame => ?_
  rw [eq_of_child hn, eq_of_child hn', hsame] at hne
  exact hne rfl

theorem IsWellFormed.of_nodes (hparent : ∀ e ∈ d.nodes, d.get? e.1.dropLast = some .directory)
    (hnames : ∀ l ∈ d.nodes.map (·.1), ∀ n ∈ l, IsProper n ∧ nameOk n = true ∧ '/' ∉ n)
    (hdistinct : (d.nodes.map (·.1)).Nodup) : d.IsWellFormed := by
  refine ⟨.of_nodes hparent, fun l node hl n hn => ?_, hdistinct⟩
  have hne : l ≠ [] := by
    rintro rfl
    cases hn
  exact hnames l (List.mem_map_of_mem (mem_nodes_of_get? hne hl)) n hn

/-- No directory lies deeper than there are nodes. -/
theorem IsTree.length_le (h : d.IsTree) (hl : d.get? l = some node) : l.length ≤ d.nodes.length := by
  have htake (i : Nat) (hi : i < l.length) : l.take (i + 1) ∈ d.nodes.map (·.1) := by
    have hne : l.take (i + 1) ≠ [] := by
      intro hnil
      have := congrArg List.length hnil
      rw [List.length_take, List.length_nil] at this
      omega
    obtain ⟨node', hnode⟩ : ∃ node', d.get? (l.take (i + 1)) = some node' := by
      by_cases hdrop : l.drop (i + 1) = []
      · rw [List.take_of_length_le (List.drop_eq_nil_iff.1 hdrop)]
        exact ⟨node, hl⟩
      · exact ⟨_, h.directory_above (by rw [List.take_append_drop]; exact hl) hdrop⟩
    exact List.mem_map_of_mem (mem_nodes_of_get? hne hnode)
  have hnodup : ((List.range l.length).map fun i => l.take (i + 1)).Nodup := by
    refine List.Nodup.map_on (fun i hi j hj hij => ?_) List.nodup_range
    have := congrArg List.length hij
    rw [List.mem_range] at hi hj
    rw [List.length_take, List.length_take] at this
    omega
  have hsubset : ((List.range l.length).map fun i => l.take (i + 1)) ⊆ d.nodes.map (·.1) := by
    intro x hx
    obtain ⟨i, hi, rfl⟩ := List.mem_map.1 hx
    exact htake i (List.mem_range.1 hi)
  have := (hnodup.subperm hsubset).length_le
  rwa [List.length_map, List.length_map, List.length_range] at this

end Disk

end Federation
