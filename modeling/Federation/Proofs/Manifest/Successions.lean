import Federation.Proofs.Disk.Lookups
import Federation.Proofs.Manifest.Writes

/-!
# Manifests written one after another

A write that succeeds changes two files: the manifest's, which holds the document then, and the temporary one, which is
gone (`written`). The temporary name is made from the manifest's own, so it may be the name of another manifest in the
directory, or of a file that somebody put there, and that file is gone then too. What a succession of writes leaves
under a name is the document of the last one under it, or nothing if a later one had its temporary file there (`left`,
`allWritten`).

So the manifests are all there in the end, and the other files are as they were, as long as no write has its temporary
file under the name of an earlier manifest or of a file that lay in the directory, unless a later write puts a manifest
there again. That much is necessary as well (`kept_iff`).
-/

namespace Federation

open Federation.Path Disk

/-- The content of the file at a location. -/
def Disk.file? (d : Disk) (l : Location) : Option ByteArray :=
  match d.get? l with
  | some (.file b) => some b
  | _ => none

namespace Disk

variable {d d' : Disk} {l x cwd : Location} {p q : List Char} {b : ByteArray}

theorem file?_eq_some : d.file? l = some b ↔ d.get? l = some (.file b) := by
  unfold file?
  split <;> simp_all

theorem readOctets?_of_place (h : (d.lookup cwd p).place? = some x) : d.readOctets? cwd p = d.file? x := by
  refine Option.ext fun b => ?_
  rw [readOctets?_eq_some, file?_eq_some]
  constructor
  · rintro ⟨l, hl⟩
    obtain rfl : l = x := Option.some.inj ((hl ▸ h : (DiskLookup.found l (.file b)).place? = some x))
    exact get?_of_lookup hl
  · intro hx
    exact ⟨x, by rw [lookup_of_directories (fun _ => id) h, walk_nil, hx]⟩

theorem Grown.file?_eq {changed : Location → Prop} (h : Grown changed d d') (hl : ¬changed l) :
    d'.file? l = d.file? l := by
  refine Option.ext fun b => ?_
  rw [file?_eq_some, file?_eq_some]
  exact h.file l hl b

/-- A file that is moved lies at the new place only, and what lay there is gone. -/
theorem file?_rename (h : d.rename? cwd p q = some d') (l : Location) :
    d'.file? l = if l = placeOfPath cwd q then d.file? (placeOfPath cwd p)
      else if l = placeOfPath cwd p then none else d.file? l := by
  obtain ⟨x, b, hp, -, hdir, rfl⟩ := place_of_rename h
  obtain rfl : placeOfPath cwd p = x := placeOfPath_eq (d := d) (by rw [hp]; rfl)
  have hx := get?_of_lookup hp
  rw [file?, get?_put (ne_nil_of_get? hdir)]
  by_cases hq : l = placeOfPath cwd q
  · rw [if_pos hq, if_pos hq]
    exact (file?_eq_some.2 hx).symm
  · rw [if_neg hq, if_neg hq]
    by_cases hp : l = placeOfPath cwd p
    · rw [if_pos hp, hp, get?_remove_self (ne_nil_of_get? (by rw [hx]; exact nofun))]
    · rw [if_neg hp, get?_remove hp]
      rfl

/-- What a disk keeps when a file is moved on it. -/
theorem IsTree.of_rename (h : d.IsTree) (hmoved : d.rename? cwd p q = some d') :
    d'.IsTree ∧ (∀ l, d.get? l = some .directory → d'.get? l = some .directory) ∧
      (d'.lookup cwd q).place? = some (placeOfPath cwd q) := by
  obtain ⟨x, b, hp, hplace, hdir, rfl⟩ := place_of_rename hmoved
  have hx := get?_of_lookup hp
  have hkept (l : Location) (hl : d.get? l = some .directory) := get?_move_of_directory hx hdir (.file b) hl
  refine ⟨h.move hx hdir (h.parent_of_lookup hplace) _, hkept, ?_⟩
  rw [lookup_of_directories hkept hplace, place?_walk_nil]

end Disk

namespace ManifestFile

variable {f : ManifestFile} {cwd : Location} {d d' d'' : Disk} {m : Manifest}

/-! ### One write -/

/-- What a write does that succeeds. -/
structure Written (f : ManifestFile) (cwd : Location) (m : Manifest) (d d' : Disk) : Prop where
  tree : d'.IsTree
  directories : ∀ l, d.get? l = some .directory → d'.get? l = some .directory
  leads : (d'.lookup cwd f.path).place? = some (f.place cwd)
  beside : ∃ l n, f.place cwd = l ++ [n] ∧ f.temporaryPlace cwd = l ++ [temporaryName n]
  file : ∀ l, d'.file? l =
    if l = f.place cwd then some m.document.toUTF8 else if l = f.temporaryPlace cwd then none else d.file? l

theorem grown_of_apply {s : Step} (h : d.IsTree) (ha : f.apply cwd s d = (none, d')) (hs : s ≠ .moveIntoPlace) :
    Grown (f.Aside cwd) d d' := by
  have hgrown : Grown (f.Aside cwd) d (f.apply cwd s d).2 := grown_apply h hs
  rwa [ha] at hgrown

theorem written (h : d.IsTree) (hw : f.write cwd m d = (none, d')) : f.Written cwd m d d' := by
  have hread := readOctets?_write hw
  obtain ⟨d₁, hmake, hrun⟩ := run_cons_of_none hw
  obtain ⟨d₂, hopen, hrun⟩ := run_cons_of_none hrun
  obtain ⟨d₃, hfill, hrun⟩ := run_cons_of_none hrun
  obtain ⟨d₄, hmove, hrun⟩ := run_cons_of_none hrun
  cases hrun
  have hmade := grown_of_apply h hmake nofun
  have hopened := grown_of_apply hmade.tree hopen nofun
  have hprepared := (hmade.trans hopened).trans (grown_of_apply hopened.tree hfill nofun)
  obtain ⟨htree, hdirectory, hleads⟩ := hprepared.tree.of_rename (rename_of_move hmove)
  refine ⟨htree, fun l hl => hdirectory l (hprepared.directory l hl), hleads,
    temporaryPlace_eq hmade.tree (write_of_putTemporary hopen), fun l => ?_⟩
  by_cases hl : l = f.place cwd
  · rw [if_pos hl, hl, ← hread]
    exact (readOctets?_of_place hleads).symm
  · rw [if_neg hl, file?_rename (rename_of_move hmove)]
    refine (if_neg hl).trans (ite_congr rfl (fun _ => rfl) fun htemporary => ?_)
    exact hprepared.file?_eq fun haside => htemporary haside.1

/-! ### Names in a directory -/

/-- A name that is a path of its own: one step down. -/
def IsPlain (n : Name) : Prop := IsProper n ∧ '/' ∉ n

instance (n : Name) : Decidable (IsPlain n) := inferInstanceAs (Decidable (_ ∧ _))

theorem place_inDirectory {directory name : String} (h : IsPlain name.toList) (cwd : Location) :
    (inDirectory directory name).place cwd = placeOfPath cwd directory.toList ++ [name.toList] := by
  show placeOf (baseOf cwd (join _ _)) (rawNames (join _ _)) = placeOf (baseOf cwd _) _ ++ _
  have hlast (l : Location) : placeOf l [name.toList] = l ++ [name.toList] :=
    placeOf_proper_idle (r := []) h.1 (fun _ hi => absurd hi List.not_mem_nil) l
  by_cases hp : directory.toList = []
  · have hjoin : join directory.toList name.toList = name.toList := by
      rw [join, hp]
      simp
    rw [hjoin, hp, rawNames_of_free h.2, baseOf, isAbsolute_of_slash_not_mem h.2]
    exact hlast cwd
  · rw [baseOf_join hp h.2]
    rcases rawNames_join_cases hp h.2 with ⟨ns, hns, hjoin⟩ | ⟨-, hjoin⟩ <;> rw [hjoin]
    · have hidle : ∀ n ∈ [([] : Name)], isIdle n = true := by decide
      rw [hns, placeOf_append, placeOf_append, placeOf_of_idle hidle]
      exact hlast _
    · rw [placeOf_append]
      exact hlast _

/-! ### Writes one after another -/

/-- Writes manifests under names into a directory, one after another; none if one of the writes fails. -/
def writeAll (cwd : Location) (directory : String) : List (String × Manifest) → Disk → Option Disk
  | [], d => some d
  | (name, m) :: ws, d =>
    match (inDirectory directory name).write cwd m d with
    | (none, d) => writeAll cwd directory ws d
    | (some _, _) => none

/-- The names under which manifests are written. -/
def namesOf (ws : List (String × Manifest)) : List Name := ws.map (·.1.toList)

def temporaryNamesOf (ws : List (String × Manifest)) : List Name := ws.map (temporaryName ·.1.toList)

/-- What a write leaves under a name, if `b` lay there before. -/
def leftByOne (n : Name) (b : Option ByteArray) (w : String × Manifest) : Option ByteArray :=
  if n = w.1.toList then some w.2.document.toUTF8 else if n = temporaryName w.1.toList then none else b

/-- What writes leave under a name, if `b` lay there before. -/
def left (n : Name) (b : Option ByteArray) (ws : List (String × Manifest)) : Option ByteArray :=
  ws.foldl (leftByOne n) b

variable {directory name : String} {ws before after : List (String × Manifest)} {n : Name} {b : Option ByteArray}

/-- What holds after a succession of writes: every path leads to the place of its name, and the files of the directory
are what the writes leave. -/
structure AllWritten (cwd : Location) (directory : String) (ws : List (String × Manifest)) (d d' : Disk) : Prop where
  tree : d'.IsTree
  directories : ∀ l, d.get? l = some .directory → d'.get? l = some .directory
  leads : ∀ w ∈ ws, (d'.lookup cwd (inDirectory directory w.1).path).place? =
    some (placeOfPath cwd directory.toList ++ [w.1.toList])
  file : ∀ n, d'.file? (placeOfPath cwd directory.toList ++ [n]) =
    left n (d.file? (placeOfPath cwd directory.toList ++ [n])) ws
  elsewhere : ∀ l, (∀ n, l ≠ placeOfPath cwd directory.toList ++ [n]) → d'.file? l = d.file? l

theorem temporaryPlace_inDirectory (hname : IsPlain name.toList)
    (h : (inDirectory directory name).Written cwd m d d') : (inDirectory directory name).temporaryPlace cwd =
      placeOfPath cwd directory.toList ++ [temporaryName name.toList] := by
  obtain ⟨l, n, hplace, htemporary⟩ := h.beside
  rw [place_inDirectory hname] at hplace
  obtain ⟨rfl, hn⟩ := List.append_inj' hplace rfl
  rw [htemporary, List.singleton_inj.1 hn]

theorem allWritten (h : d.IsTree) (hplain : ∀ w ∈ ws, IsPlain w.1.toList)
    (hw : writeAll cwd directory ws d = some d') : AllWritten cwd directory ws d d' := by
  induction ws generalizing d with
  | nil =>
    cases hw
    exact ⟨h, fun _ => id, nofun, fun _ => rfl, fun _ _ => rfl⟩
  | cons w ws ih =>
    have ⟨hname, hplain⟩ := List.forall_mem_cons.1 hplain
    rw [writeAll] at hw
    split at hw
    · rename_i d₁ hfirst
      have first := written h hfirst
      have rest := ih first.tree hplain hw
      have hplace : (inDirectory directory w.1).place cwd = _ := place_inDirectory hname cwd
      have htemporary := temporaryPlace_inDirectory hname first
      have hfile (n : Name) : d₁.file? (placeOfPath cwd directory.toList ++ [n]) =
          left n (d.file? (placeOfPath cwd directory.toList ++ [n])) [w] := by
        rw [first.file, hplace, htemporary]
        simp [left, leftByOne]
      refine ⟨rest.tree, fun l hl => rest.directories l (first.directories l hl), List.forall_mem_cons.2 ⟨?_, rest.leads⟩,
        fun n => ?_, fun l hl => ?_⟩
      · rw [lookup_of_directories rest.directories first.leads, place?_walk_nil, hplace]
      · rw [rest.file, hfile]
        rfl
      · rw [rest.elsewhere l hl, first.file, if_neg (hplace ▸ hl _), if_neg (htemporary ▸ hl _)]
    · cases hw

/-- Writes under other names leave what was there, unless one of them had its temporary file there. -/
theorem left_of_not_mem (h : n ∉ namesOf ws) : left n b ws = if n ∈ temporaryNamesOf ws then none else b := by
  induction ws generalizing b with
  | nil => rfl
  | cons w ws ih =>
    rw [namesOf, List.map_cons, List.mem_cons, not_or] at h
    have hmem : n ∈ temporaryNamesOf (w :: ws) ↔ n = temporaryName w.1.toList ∨ n ∈ temporaryNamesOf ws := by
      rw [temporaryNamesOf, List.map_cons, List.mem_cons]
      rfl
    rw [show left n b (w :: ws) = left n (leftByOne n b w) ws from rfl, ih h.2, leftByOne, if_neg h.1]
    by_cases hrest : n ∈ temporaryNamesOf ws
    · rw [if_pos hrest, if_pos (hmem.2 (.inr hrest))]
    · rw [if_neg hrest]
      exact if_congr (by rw [hmem, or_iff_left hrest]) rfl rfl

theorem left_append_cons (h : n = name.toList) : left n b (before ++ (name, m) :: after) =
    left n (some m.document.toUTF8) after := by
  rw [left, List.foldl_append, List.foldl_cons, leftByOne, if_pos h]
  rfl

/-- The last write under a name, if there is one. -/
theorem exists_last (h : n ∈ namesOf ws) : ∃ before name m after, ws = before ++ (name, m) :: after ∧
    n = name.toList ∧ n ∉ namesOf after := by
  induction ws with
  | nil => cases h
  | cons w ws ih =>
    by_cases hlater : n ∈ namesOf ws
    · obtain ⟨before, name, m, after, rfl, hname⟩ := ih hlater
      exact ⟨w :: before, name, m, after, rfl, hname⟩
    · rcases List.mem_cons.1 h with hname | hrest
      · exact ⟨[], w.1, w.2, ws, rfl, hname, hlater⟩
      · exact absurd hrest hlater

theorem exists_temporary (h : n ∈ temporaryNamesOf ws) : ∃ before name m after, ws = before ++ (name, m) :: after ∧
    n = temporaryName name.toList := by
  obtain ⟨⟨name, m⟩, hw, rfl⟩ := List.mem_map.1 h
  obtain ⟨before, after, rfl⟩ := List.append_of_mem hw
  exact ⟨before, name, m, after, rfl, rfl⟩

theorem namesOf_append_cons (before after : List (String × Manifest)) (name : String) (m : Manifest) :
    namesOf (before ++ (name, m) :: after) = namesOf before ++ name.toList :: namesOf after := by
  simp [namesOf]

theorem mem_namesOf_append_cons : n ∈ namesOf (before ++ (name, m) :: after) ↔
    n ∈ namesOf before ∨ n = name.toList ∨ n ∈ namesOf after := by
  rw [namesOf_append_cons, List.mem_append, List.mem_cons]

/-- Whether a temporary file of a name takes nothing away: a later write puts a manifest there, or else neither an
earlier one did nor anything lay there before. -/
def Spares (b : Option ByteArray) (before : List (String × Manifest)) (n : Name) (after : List (String × Manifest)) :
    Prop := n ∈ namesOf after ∨ n ∉ namesOf before ∧ b = none

/-- Every temporary file takes nothing away if and only if none has the name of a manifest that is not written again,
and none that of another file. -/
theorem spares_iff (b : Name → Option ByteArray) :
    (∀ before name m after, ws = before ++ (name, m) :: after →
      Spares (b (temporaryName name.toList)) before (temporaryName name.toList) after) ↔
    (∀ before name m after, ws = before ++ (name, m) :: after → name.toList ∉ namesOf after →
      name.toList ∉ temporaryNamesOf after) ∧
    ∀ n, n ∉ namesOf ws → n ∈ temporaryNamesOf ws → b n = none := by
  constructor
  · intro hspares
    refine ⟨fun before name m after hws hlast htemporary => ?_, fun n hunused htemporary => ?_⟩
    · obtain ⟨between, name', m', rest, rfl, hname⟩ := exists_temporary htemporary
      rcases hspares (before ++ (name, m) :: between) name' m' rest (by rw [hws]; simp) with hlater | ⟨hearlier, -⟩
      · exact hlast (mem_namesOf_append_cons.2 (.inr (.inr (hname ▸ hlater))))
      · exact hearlier (mem_namesOf_append_cons.2 (.inr (.inl hname.symm)))
    · obtain ⟨before, name, m, after, rfl, rfl⟩ := exists_temporary htemporary
      rcases hspares before name m after rfl with hlater | ⟨-, hnone⟩
      · exact absurd (mem_namesOf_append_cons.2 (.inr (.inr hlater))) hunused
      · exact hnone
  · rintro ⟨hlasts, hothers⟩ before name m after rfl
    by_cases hlater : temporaryName name.toList ∈ namesOf after
    · exact .inl hlater
    have hearlier : temporaryName name.toList ∉ namesOf before := by
      intro hearlier
      obtain ⟨first, name', m', between, rfl, hname', hlast⟩ := exists_last hearlier
      refine hlasts first name' m' (between ++ (name, m) :: after) (by simp) ?_ ?_
      · rw [← hname', mem_namesOf_append_cons]
        rintro (hb | hn | ha)
        exacts [hlast hb, temporaryName_ne _ hn, hlater ha]
      · rw [← hname']
        simp [temporaryNamesOf]
    refine .inr ⟨hearlier, hothers _ ?_ (by simp [temporaryNamesOf])⟩
    rw [mem_namesOf_append_cons]
    rintro (hb | hn | ha)
    exacts [hearlier hb, temporaryName_ne _ hn, hlater ha]

theorem mem_namesOf_iff_place (hplain : ∀ w ∈ ws, IsPlain w.1.toList) (cwd : Location) (directory : String) (n : Name) :
    n ∈ namesOf ws ↔
      ∃ w ∈ ws, placeOfPath cwd directory.toList ++ [n] = (inDirectory directory w.1).place cwd := by
  rw [namesOf, List.mem_map]
  refine exists_congr fun w => and_congr_right fun hmem => ?_
  rw [place_inDirectory (hplain w hmem), List.append_cancel_left_eq, List.singleton_inj]
  exact eq_comm

/-- Manifests that are written one after another into a directory are all there in the end, each name with the document
of the last write under it, and all other files are as they were, exactly if no write has its temporary file where a
manifest or another file lies that no later write replaces. -/
theorem kept_iff (cwd : Location) (directory : String) (ws : List (String × Manifest)) (d d' : Disk) (h : d.IsTree)
    (hplain : ∀ w ∈ ws, IsPlain w.1.toList) (hw : writeAll cwd directory ws d = some d') :
    ((∀ before name m after, ws = before ++ (name, m) :: after → name.toList ∉ namesOf after →
        d'.readOctets? cwd (inDirectory directory name).path = some m.document.toUTF8) ∧
      ∀ l, (∀ w ∈ ws, l ≠ (inDirectory directory w.1).place cwd) → d'.file? l = d.file? l) ↔
    ∀ before name m after, ws = before ++ (name, m) :: after →
      Spares (d.file? (placeOfPath cwd directory.toList ++ [temporaryName name.toList])) before
        (temporaryName name.toList) after := by
  have all := allWritten h hplain hw
  have hplace := mem_namesOf_iff_place hplain cwd directory
  rw [spares_iff fun n => d.file? (placeOfPath cwd directory.toList ++ [n])]
  refine and_congr ?_ ⟨fun hkept n hunused htemporary => ?_, fun hnone l hl => ?_⟩
  · refine forall₄_congr fun before name m after => forall₂_congr fun hws hlast => ?_
    rw [readOctets?_of_place (all.leads (name, m) (by rw [hws]; simp)), all.file, hws, left_append_cons rfl,
      left_of_not_mem hlast]
    by_cases htemporary : name.toList ∈ temporaryNamesOf after <;> simp [htemporary]
  · rw [← hkept _ fun w hw he => hunused ((hplace n).2 ⟨w, hw, he⟩), all.file, left_of_not_mem hunused,
      if_pos htemporary]
  · by_cases hin : ∃ n, l = placeOfPath cwd directory.toList ++ [n]
    · obtain ⟨n, rfl⟩ := hin
      have hunused : n ∉ namesOf ws := fun hn =>
        have ⟨w, hw, he⟩ := (hplace n).1 hn
        hl w hw he
      rw [all.file, left_of_not_mem hunused]
      split
      · rename_i htemporary
        exact (hnone n hunused htemporary).symm
      · rfl
    · exact all.elsewhere l fun n he => hin ⟨n, he⟩

/-- A manifest of an application without dependencies. -/
def hostOf (uid : String) : Manifest := ⟨"1.0.0", "", uid, .empty⟩

/-- The temporary file of two of the manifests has the name of the third, which is written last. -/
theorem kept_of_three :
    let note : List Name := ["dist".toList, "note.txt".toList]
    let d : Disk := ⟨[(["dist".toList], .directory), (note, .file "keep".toUTF8)]⟩
    let ws := [("a.json", hostOf "höst.shop.acme"), ("a", hostOf "cart.shop.acme"), ("a.json.tmp", hostOf "")]
    d.IsTree ∧ (∀ w ∈ ws, IsPlain w.1.toList) ∧ ∃ d', writeAll [] "dist" ws d = some d' ∧
      (∀ w ∈ ws, d'.readOctets? [] (inDirectory "dist" w.1).path = some w.2.document.toUTF8) ∧
      d'.file? note = some "keep".toUTF8 := by
  intro note d ws
  have htree : d.IsTree := by
    refine .of_nodes fun e he => ?_
    simp only [d, List.mem_cons, List.not_mem_nil, or_false] at he
    rcases he with rfl | rfl <;> rfl
  have hplain : ∀ w ∈ ws, IsPlain w.1.toList := by decide
  have hsome : (writeAll [] "dist" ws d).isSome = true := by decide +kernel
  obtain ⟨d', hd'⟩ := Option.isSome_iff_exists.1 hsome
  have hspares : ∀ before name m after, ws = before ++ (name, m) :: after →
      Spares (d.file? (placeOfPath [] "dist".toList ++ [temporaryName name.toList])) before
        (temporaryName name.toList) after := by
    intro before name m after hws
    rcases before with _ | ⟨w, _ | ⟨w', _ | ⟨w'', r⟩⟩⟩ <;> simp [ws] at hws
    · obtain ⟨⟨rfl, rfl⟩, rfl⟩ := hws
      exact .inl (by decide)
    · obtain ⟨rfl, ⟨rfl, rfl⟩, rfl⟩ := hws
      exact .inl (by decide)
    · obtain ⟨rfl, rfl, ⟨rfl, rfl⟩, rfl⟩ := hws
      exact .inr ⟨by decide, by decide +kernel⟩
  obtain ⟨hwritten, hkept⟩ := (kept_iff [] "dist" ws d d' htree hplain hd').2 hspares
  refine ⟨htree, hplain, d', hd', fun w hw => ?_, (hkept note (by decide)).trans (by decide)⟩
  simp only [ws, List.mem_cons, List.not_mem_nil, or_false] at hw
  rcases hw with rfl | rfl | rfl
  · exact hwritten [] _ _ _ rfl (by decide)
  · exact hwritten [_] _ _ _ rfl (by decide)
  · exact hwritten [_, _] _ _ _ rfl (by decide)

/-- A manifest whose name is the temporary name of the next one is gone. -/
theorem lost_of_two :
    let ws := [("a.json.tmp", hostOf "host.shop.acme"), ("a.json", hostOf "cart.shop.acme")]
    (∀ w ∈ ws, IsPlain w.1.toList) ∧ ∃ d', writeAll [] "dist" ws .empty = some d' ∧
      d'.readOctets? [] (inDirectory "dist" "a.json.tmp").path = none ∧
      ¬∀ before name m after, ws = before ++ (name, m) :: after → name.toList ∉ namesOf after →
        d'.readOctets? [] (inDirectory "dist" name).path = some m.document.toUTF8 := by
  intro ws
  have hsome : (writeAll [] "dist" ws .empty).map
      (fun d' => decide (d'.readOctets? [] (inDirectory "dist" "a.json.tmp").path = none)) = some true := by
    decide +kernel
  obtain ⟨d', hd', hgone⟩ := Option.map_eq_some_iff.1 hsome
  have hgone := of_decide_eq_true hgone
  refine ⟨by decide, d', hd', hgone, fun hwritten => ?_⟩
  cases (hwritten [] _ _ _ rfl (by decide)).symm.trans hgone

end ManifestFile

end Federation
