import Federation.Proofs.Disk.Walks

/-!
# What changes on a disk

`Grown changed d d'` says that `d'` came from `d` without harm: every directory is still there, and a location where
nothing may change holds a file exactly when it did, with the same content. Making directories grows a disk in this
sense wherever nothing may change (`Grown.of_makeDirectories`), and writing a file does if it may change at the place
that its path means (`Grown.of_write`). A path that led to a file still leads to it (`Grown.lookup_file`), and without
`..` in it the path leads to no other file than before (`Grown.readOctets?_eq`). With `..` it may begin to lead
somewhere, because a directory was made that it passes and leaves again.
-/

namespace Federation.Disk

open Federation.Path

variable {d d' d'' : Disk} {l l' x cwd : Location} {ns : List Name} {p q : List Char} {b content : ByteArray}
  {changed : Location → Prop}

/-- A node that is put where no directory is leaves the directories. -/
theorem get?_put_of_directory (hx : d.get? x ≠ some .directory) (node : DiskNode) (hl : d.get? l = some .directory) :
    (d.put x node).get? l = some .directory := by
  have hne : l ≠ x := by
    rintro rfl
    exact hx hl
  rw [get?_put (ne_nil_of_get? hx), if_neg hne, hl]

structure Grown (changed : Location → Prop) (d d' : Disk) : Prop where
  tree : d'.IsTree
  directory : ∀ l, d.get? l = some .directory → d'.get? l = some .directory
  file : ∀ l, ¬changed l → ∀ b, d'.get? l = some (.file b) ↔ d.get? l = some (.file b)

namespace Grown

theorem refl (h : d.IsTree) : Grown changed d d := ⟨h, fun _ => id, fun _ _ _ => Iff.rfl⟩

theorem trans (h : Grown changed d d') (h' : Grown changed d' d'') : Grown changed d d'' :=
  ⟨h'.tree, fun l hl => h'.directory l (h.directory l hl), fun l hl b => (h'.file l hl b).trans (h.file l hl b)⟩

theorem put {node : DiskNode} (h : d.IsTree) (hl : d.get? l ≠ some .directory)
    (hparent : d.get? l.dropLast = some .directory)
    (hnode : (d.get? l = none ∧ node = .directory) ∨ changed l) : Grown changed d (d.put l node) := by
  have hne := ne_nil_of_get? hl
  refine ⟨h.put hl hparent node, fun l' => get?_put_of_directory hl node, fun l' hl' b => ?_⟩
  rw [get?_put hne]
  split
  · rename_i he
    subst he
    rcases hnode with ⟨hnone, rfl⟩ | hchanged
    · rw [hnone]
      exact iff_of_false nofun nofun
    · exact absurd hchanged hl'
  · exact Iff.rfl

end Grown

/-! ### Places of paths -/

/-- Where the names of a path lead, if nothing stands in the way. -/
def placeOfPath (cwd : Location) (p : List Char) : Location := placeOf (baseOf cwd p) (rawNames p)

theorem lookup_eq_of_place (h : (d.lookup cwd p).place? = some x) :
    ∃ n ns, rawNames p = n :: ns ∧ d.lookup cwd p = d.walk (baseOf cwd p) (n :: ns) := by
  obtain ⟨n, ns, hp⟩ := List.exists_cons_of_ne_nil (rawNames_ne_nil p)
  have hne : p ≠ [] := by
    rintro rfl
    cases h
  exact ⟨n, ns, hp, hp ▸ lookup_eq hne d cwd⟩

theorem placeOfPath_eq (h : (d.lookup cwd p).place? = some x) : placeOfPath cwd p = x := by
  obtain ⟨n, ns, hp, hlookup⟩ := lookup_eq_of_place h
  rw [hlookup] at h
  rw [placeOfPath, hp, placeOf_walk h]

theorem IsTree.parent_of_lookup (h : d.IsTree) (hx : (d.lookup cwd p).place? = some x) :
    d.get? x.dropLast = some .directory := by
  obtain ⟨n, ns, -, hlookup⟩ := lookup_eq_of_place hx
  rw [hlookup] at hx
  exact h.parent_of_place hx

theorem lookup_of_directories (hd : ∀ l, d.get? l = some .directory → d'.get? l = some .directory)
    (h : (d.lookup cwd p).place? = some x) : d'.lookup cwd p = d'.walk x [] := by
  obtain ⟨n, ns, hp, hlookup⟩ := lookup_eq_of_place h
  have hne : p ≠ [] := by
    rintro rfl
    cases h
  rw [hlookup] at h
  rw [lookup_eq hne, hp, walk_of_directories hd h]

theorem get?_of_lookup {node : DiskNode} (h : d.lookup cwd p = .found l node) : d.get? l = some node := by
  obtain ⟨n, ns, -, hlookup⟩ := lookup_eq_of_place (d := d) (p := p) (x := l) (by rw [h]; rfl)
  exact get?_of_found (hlookup ▸ h)

theorem get?_of_lookup_vacant (h : d.lookup cwd p = .vacant l) : d.get? l = none := by
  obtain ⟨n, ns, -, hlookup⟩ := lookup_eq_of_place (d := d) (p := p) (x := l) (by rw [h]; rfl)
  exact get?_of_vacant (hlookup ▸ h)

theorem readOctets?_eq_some : d.readOctets? cwd p = some b ↔ ∃ l, d.lookup cwd p = .found l (.file b) := by
  unfold readOctets?
  split
  · rename_i l b' h
    rw [h]
    simp
  · rename_i h
    refine iff_of_false nofun ?_
    rintro ⟨l, hl⟩
    exact h l b hl

/-! ### Operations -/

/-- A path whose place holds no directory, so that a file can be put there. -/
theorem place_of_write (h : d.write? cwd p content = some d') :
    (d.lookup cwd p).place? = some (placeOfPath cwd p) ∧ d.get? (placeOfPath cwd p) ≠ some .directory ∧
      d' = d.put (placeOfPath cwd p) (.file content) := by
  unfold write? at h
  split at h
  · rename_i l b hl
    have hx : (d.lookup cwd p).place? = some l := by rw [hl]; rfl
    rw [placeOfPath_eq hx, get?_of_lookup hl]
    exact ⟨hx, nofun, (Option.some.inj h).symm⟩
  · rename_i l hl
    have hx : (d.lookup cwd p).place? = some l := by rw [hl]; rfl
    rw [placeOfPath_eq hx, get?_of_lookup_vacant hl]
    exact ⟨hx, nofun, (Option.some.inj h).symm⟩
  · cases h

theorem place_of_rename (h : d.rename? cwd p q = some d') :
    ∃ l b, d.lookup cwd p = .found l (.file b) ∧ (d.lookup cwd q).place? = some (placeOfPath cwd q) ∧
      d.get? (placeOfPath cwd q) ≠ some .directory ∧ d' = (d.remove l).put (placeOfPath cwd q) (.file b) := by
  unfold rename? at h
  split at h
  · rename_i l b l' b' hp hq
    have hx : (d.lookup cwd q).place? = some l' := by rw [hq]; rfl
    rw [placeOfPath_eq hx, get?_of_lookup hq]
    exact ⟨l, b, hp, hx, nofun, (Option.some.inj h).symm⟩
  · rename_i l b l' hp hq
    have hx : (d.lookup cwd q).place? = some l' := by rw [hq]; rfl
    rw [placeOfPath_eq hx, get?_of_lookup_vacant hq]
    exact ⟨l, b, hp, hx, nofun, (Option.some.inj h).symm⟩
  · cases h

theorem Grown.of_write (h : d.IsTree) (hw : d.write? cwd p content = some d')
    (hchanged : changed (placeOfPath cwd p)) : Grown changed d d' := by
  obtain ⟨hx, hdir, rfl⟩ := place_of_write hw
  exact .put h hdir (h.parent_of_lookup hx) (.inr hchanged)

theorem Grown.of_makeDirectory (h : d.IsTree) (hm : d.makeDirectory cwd p = .made d') : Grown changed d d' := by
  unfold makeDirectory at hm
  split at hm
  · rename_i l hl
    cases hm
    have hnone := get?_of_lookup_vacant hl
    refine .put h ?_ (h.parent_of_lookup (by rw [hl]; rfl)) (.inl ⟨hnone, rfl⟩)
    rw [hnone]
    exact nofun
  · cases hm
  · cases hm

/-- Directories that are made do no harm, also if not all of them can be made. -/
theorem Grown.of_makeDirectories {fuel : Nat} (h : d.IsTree) :
    Grown changed d (makeDirectoriesWithin cwd fuel d p).2 := by
  induction fuel generalizing d p with
  | zero => exact .refl h
  | succ fuel ih =>
    rw [makeDirectoriesWithin]
    split
    · exact .refl h
    · split
      · rename_i hmade
        exact .of_makeDirectory h hmade
      · exact .refl h
      · split
        · exact .refl h
        · rename_i q _
          have hgrown := ih (p := q) h
          split
          · rename_i habove
            rwa [habove] at hgrown
          · rename_i habove
            rw [habove] at hgrown
            split
            · rename_i hmade
              exact hgrown.trans (.of_makeDirectory hgrown.tree hmade)
            · exact hgrown

theorem readOctets?_write (h : d.write? cwd p content = some d') : d'.readOctets? cwd p = some content := by
  obtain ⟨hx, hdir, rfl⟩ := place_of_write h
  refine readOctets?_eq_some.2 ⟨placeOfPath cwd p, ?_⟩
  rw [lookup_of_directories (fun l => get?_put_of_directory hdir _) hx, walk_nil, get?_put (ne_nil_of_get? hdir),
    if_pos rfl]

/-- A file that is moved to where no directory is leaves the directories. -/
theorem get?_move_of_directory (hl : d.get? l = some (.file b)) (hx : d.get? x ≠ some .directory) (node : DiskNode)
    (hl' : d.get? l' = some .directory) : ((d.remove l).put x node).get? l' = some .directory := by
  have hne : l' ≠ l := by
    rintro rfl
    cases hl'.symm.trans hl
  have hne' : l' ≠ x := by
    rintro rfl
    exact hx hl'
  rw [get?_put (ne_nil_of_get? hx), if_neg hne', get?_remove hne, hl']

theorem IsTree.move (h : d.IsTree) (hl : d.get? l = some (.file b)) (hx : d.get? x ≠ some .directory)
    (hparent : d.get? x.dropLast = some .directory) (node : DiskNode) : ((d.remove l).put x node).IsTree := by
  intro l' node' hl'
  have hdir : d.get? l'.dropLast = some .directory := by
    rw [get?_put (ne_nil_of_get? hx)] at hl'
    split at hl'
    · rename_i he
      exact he ▸ hparent
    · have hne : l' ≠ l := by
        rintro rfl
        rw [get?_remove_self (ne_nil_of_get? (by rw [hl]; exact nofun))] at hl'
        cases hl'
      rw [get?_remove hne] at hl'
      exact h l' _ hl'
  exact get?_move_of_directory hl hx node hdir

theorem readOctets?_rename (h : d.rename? cwd p q = some d') :
    ∃ b, d.readOctets? cwd p = some b ∧ d'.readOctets? cwd q = some b := by
  obtain ⟨l, b, hp, hx, hdir, rfl⟩ := place_of_rename h
  refine ⟨b, readOctets?_eq_some.2 ⟨l, hp⟩, readOctets?_eq_some.2 ⟨placeOfPath cwd q, ?_⟩⟩
  rw [lookup_of_directories (fun l' => get?_move_of_directory (get?_of_lookup hp) hdir _) hx, walk_nil,
    get?_put (ne_nil_of_get? hdir), if_pos rfl]

/-! ### Paths after a change -/

namespace Grown

theorem lookup_file (h : Grown changed d d') (hl : d.lookup cwd p = .found l (.file b)) (hn : ¬changed l) :
    d'.lookup cwd p = .found l (.file b) := by
  have hx : (d.lookup cwd p).place? = some l := by rw [hl]; rfl
  rw [lookup_of_directories h.directory hx, walk_nil, (h.file l hn b).2 (get?_of_lookup hl)]

theorem readOctets?_eq (h : Grown changed d d') (hd : d.IsTree) (hdots : ['.', '.'] ∉ rawNames p)
    (hn : ¬changed (placeOfPath cwd p)) : d'.readOctets? cwd p = d.readOctets? cwd p := by
  have hkept {b : ByteArray} : d'.readOctets? cwd p = some b ↔ d.readOctets? cwd p = some b := by
    rw [readOctets?_eq_some, readOctets?_eq_some]
    constructor
    · rintro ⟨l, hl⟩
      have hx : (d'.lookup cwd p).place? = some l := by rw [hl]; rfl
      have hne : p ≠ [] := by
        rintro rfl
        cases hx
      refine ⟨l, ?_⟩
      have hfile := (h.file l (placeOfPath_eq hx ▸ hn) b).1 (get?_of_lookup hl)
      rw [lookup_eq hne] at hl ⊢
      exact hd.walk_of_free hdots hl hfile
    · rintro ⟨l, hl⟩
      have hx : (d.lookup cwd p).place? = some l := by rw [hl]; rfl
      exact ⟨l, h.lookup_file hl (placeOfPath_eq hx ▸ hn)⟩
  exact Option.ext fun b => hkept

end Grown

end Federation.Disk
