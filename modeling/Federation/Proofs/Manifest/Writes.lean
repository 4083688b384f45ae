import Federation.Manifest.File
import Federation.Proofs.Disk.Changes

/-!
# Writing manifests

Of the steps that write a manifest only the last one changes the manifest. The steps before it make directories and put
a temporary file, and a temporary file that can be put somewhere never lies where the manifest does
(`temporaryPlace_ne`): its path has another last name, or it ends in a directory. So each of those steps leaves the
manifest as it was, however far it comes (`grown_applyAmid`), and so does every run of them (`grown_run`). A write that
fails, at whatever step and for whatever reason, has done no more than that (`untouched_writeAmid`). A write that
succeeds leaves the whole document at its place (`readOctets?_write`), whether setbacks were possible or not
(`write_of_writeAmid`).
-/

namespace Federation.ManifestFile

open Federation.Path Disk

variable {f : ManifestFile} {cwd : Location} {d d' : Disk} {s : Step} {ss : List Step} {m : Manifest} {e : Error}
  {x : Option Error} {content : ByteArray} {setbacks : Setbacks}

/-- Where the manifest lies. -/
def place (f : ManifestFile) (cwd : Location) : Location := placeOfPath cwd f.path

def temporaryPlace (f : ManifestFile) (cwd : Location) : Location := placeOfPath cwd f.temporaryPath

/-! ### The temporary file -/

/-- Whether a path is absolute shows in the names above a proper one. -/
theorem isAbsolute_iff_above {p : List Char} {r ms : List Name} {n : Name} (hp : rawNames p = r ++ n :: ms)
    (hn : IsProper n) : isAbsolute p = true ↔ ∃ r', r = [] :: r' := by
  rw [isAbsolute_iff, hp]
  constructor
  · rintro ⟨ns, -, h⟩
    cases r with
    | nil =>
      obtain ⟨rfl, -⟩ := List.cons.inj h
      exact absurd hn.1 (by decide)
    | cons m r' =>
      obtain ⟨rfl, -⟩ := List.cons.inj h
      exact ⟨r', rfl⟩
  · rintro ⟨r', rfl⟩
    exact ⟨r' ++ n :: ms, by simp, rfl⟩

/-- The name of the temporary file for a manifest of a name. -/
def temporaryName (n : Name) : Name := nameWithExtension n "json.tmp".toList

/-- A temporary file that can be put somewhere lies beside the manifest. -/
theorem temporaryPlace_eq (h : d.IsTree) (hw : d.write? cwd f.temporaryPath content = some d') :
    ∃ l n, f.place cwd = l ++ [n] ∧ f.temporaryPlace cwd = l ++ [temporaryName n] := by
  have hcases := @withExtension_cases "json.tmp".toList f.path (by decide) (by decide)
  rcases hcases with ⟨r, n, idle, hn, hx, hidle, hpath, htemporary⟩ | ⟨r, n, idle, hn, hidle, htemporary⟩
  · have habs : isAbsolute f.temporaryPath = isAbsolute f.path :=
      Bool.eq_iff_iff.2 ((isAbsolute_iff_above htemporary hx).trans (isAbsolute_iff_above hpath hn).symm)
    have htemporary : rawNames f.temporaryPath = r ++ [temporaryName n] := htemporary
    have hx : IsProper (temporaryName n) := hx
    refine ⟨placeOf (baseOf cwd f.path) r, n, ?_, ?_⟩
    · rw [place, placeOfPath, hpath, placeOf_proper_idle hn hidle]
    · rw [temporaryPlace, placeOfPath, baseOf, baseOf, habs, htemporary,
        placeOf_proper_idle hx fun _ hi => absurd hi List.not_mem_nil]
  · obtain ⟨hplace, hdir, -⟩ := place_of_write hw
    have hpathNe : f.temporaryPath ≠ [] := by
      intro hnil
      rw [hnil] at hplace
      cases hplace
    rw [lookup_eq hpathNe, show rawNames f.temporaryPath = r ++ n :: idle from htemporary] at hplace
    exact absurd (h.found_of_not_proper hn hidle hplace) hdir

theorem temporaryName_ne (n : Name) : temporaryName n ≠ n := nameWithExtension_ne (by decide) n

theorem temporaryPlace_ne (h : d.IsTree) (hw : d.write? cwd f.temporaryPath content = some d') :
    f.temporaryPlace cwd ≠ f.place cwd := by
  obtain ⟨l, n, hplace, htemporary⟩ := temporaryPlace_eq h hw
  rw [hplace, htemporary]
  exact fun heq => temporaryName_ne n (List.singleton_inj.1 (List.append_cancel_left heq))

/-! ### Steps before the last -/

/-- What may change before the manifest is moved into place. -/
def Aside (f : ManifestFile) (cwd : Location) (l : Location) : Prop :=
  l = f.temporaryPlace cwd ∧ l ≠ f.place cwd

theorem grown_putTemporary (h : d.IsTree) : Grown (f.Aside cwd) d (f.putTemporary cwd content d).2 := by
  unfold putTemporary
  split
  · rename_i hw
    exact .of_write h hw ⟨rfl, temporaryPlace_ne h hw⟩
  · exact .refl h

theorem grown_makeParent {changed : Location → Prop} (h : d.IsTree) : Grown changed d (f.makeParent cwd d).2 := by
  unfold makeParent
  split
  · exact .refl h
  · rename_i p _
    have hgrown : Grown changed d (d.makeDirectories cwd p).2 := .of_makeDirectories h
    split <;> rename_i hmade <;> rwa [hmade] at hgrown

theorem grown_apply (h : d.IsTree) (hs : s ≠ .moveIntoPlace) : Grown (f.Aside cwd) d (f.apply cwd s d).2 := by
  cases s with
  | makeDirectory => exact grown_makeParent h
  | openTemporary => exact grown_putTemporary h
  | fillTemporary content => exact grown_putTemporary h
  | moveIntoPlace => exact absurd rfl hs

/-- A step that comes only so far does no more than a whole one before the last. -/
theorem grown_leave (h : d.IsTree) (parts : Nat) (s : Step) : Grown (f.Aside cwd) d (f.leave cwd parts s d) := by
  cases s with
  | makeDirectory =>
    rw [leave]
    split
    · exact .refl h
    · exact .of_makeDirectories h
  | openTemporary =>
    rw [leave]
    split
    · exact .refl h
    · exact grown_putTemporary h
  | fillTemporary content => exact grown_putTemporary h
  | moveIntoPlace => exact .refl h

theorem disk_move_of_failed (h : f.apply cwd .moveIntoPlace d = (some e, d')) : d' = d := by
  rw [apply] at h
  split at h <;> cases h
  rfl

/-- With or without a setback, a step leaves the manifest as it was unless it is the last one and succeeds. -/
theorem grown_applyAmid (h : d.IsTree) (ha : f.applyAmid setbacks cwd s d = (x, d'))
    (hs : s = .moveIntoPlace → x ≠ none) : Grown (f.Aside cwd) d d' := by
  unfold applyAmid at ha
  split at ha
  · rename_i parts _ _ _
    cases ha
    exact grown_leave h parts s
  · by_cases hlast : s = .moveIntoPlace
    · obtain ⟨e, rfl⟩ := Option.ne_none_iff_exists'.1 (hs hlast)
      rw [hlast] at ha
      rw [disk_move_of_failed ha]
      exact .refl h
    · have hgrown : Grown (f.Aside cwd) d (f.apply cwd s d).2 := grown_apply h hlast
      rwa [ha] at hgrown

theorem grown_run (h : d.IsTree) (hr : run (f.applyAmid setbacks cwd) ss d = (x, d'))
    (hss : ∀ s ∈ ss, s ≠ .moveIntoPlace) : Grown (f.Aside cwd) d d' := by
  induction ss generalizing d with
  | nil =>
    cases hr
    exact .refl h
  | cons s ss ih =>
    have ⟨hs, hrest⟩ := List.forall_mem_cons.1 hss
    rw [run] at hr
    split at hr
    · rename_i d₁ ha
      have hgrown := grown_applyAmid h ha fun hlast => absurd hlast hs
      exact hgrown.trans (ih hgrown.tree hr hrest)
    · rename_i ha
      cases hr
      exact grown_applyAmid h ha fun hlast => absurd hlast hs

/-! ### Failing writes -/

/-- The manifest at its place has not changed, and its path still leads to it. Without `..` the path leads to nothing
else than before; with it the path may pass a directory that is new, but what it then leads to was there before. -/
structure Untouched (f : ManifestFile) (cwd : Location) (d d' : Disk) : Prop where
  file : ∀ b, d'.get? (f.place cwd) = some (.file b) ↔ d.get? (f.place cwd) = some (.file b)
  readable : ∀ b, d.readOctets? cwd f.path = some b → d'.readOctets? cwd f.path = some b
  there : ∀ b, d'.readOctets? cwd f.path = some b → d.get? (f.place cwd) = some (.file b)
  same : ['.', '.'] ∉ rawNames f.path → d'.readOctets? cwd f.path = d.readOctets? cwd f.path

theorem Untouched.of_grown (h : d.IsTree) (hg : Grown (f.Aside cwd) d d') : f.Untouched cwd d d' := by
  have hplace : ¬f.Aside cwd (f.place cwd) := fun ha => ha.2 rfl
  have hlookup {l : Location} {b : ByteArray} (hl : d.lookup cwd f.path = .found l (.file b)) : l = f.place cwd :=
    (placeOfPath_eq (d := d) (by rw [hl]; rfl)).symm
  refine ⟨hg.file _ hplace, fun b hb => ?_, fun b hb => ?_, fun hdots => hg.readOctets?_eq h hdots hplace⟩
  · obtain ⟨l, hl⟩ := readOctets?_eq_some.1 hb
    exact readOctets?_eq_some.2 ⟨l, hg.lookup_file hl (hlookup hl ▸ hplace)⟩
  · obtain ⟨l, hl⟩ := readOctets?_eq_some.1 hb
    have hle : l = f.place cwd := (placeOfPath_eq (d := d') (by rw [hl]; rfl)).symm
    exact (hg.file _ hplace b).1 (hle ▸ get?_of_lookup hl)

theorem Untouched.refl (h : d.IsTree) : f.Untouched cwd d d := .of_grown h (.refl h)

theorem run_concat (carry : Step → Disk → Option Error × Disk) (ss : List Step) (s : Step) (d : Disk) :
    run carry (ss ++ [s]) d = match run carry ss d with
      | (none, d₁) => run carry [s] d₁
      | (some e, d₁) => (some e, d₁) := by
  induction ss generalizing d with
  | nil => rfl
  | cons s' ss ih =>
    rw [List.cons_append, run, run]
    split
    · exact ih _
    · rfl

/-- The steps before the last one, which moves the manifest into place. -/
def preparations (m : Manifest) : List Step := [.makeDirectory, .openTemporary, .fillTemporary m.document.toUTF8]

theorem not_mem_preparations : ∀ s ∈ preparations m, s ≠ .moveIntoPlace := by
  simp [preparations]

theorem disk_put_of_failed (h : f.putTemporary cwd content d = (some e, d')) : d' = d := by
  rw [putTemporary] at h
  split at h <;> cases h
  rfl

/-- A write that fails, with or without a setback, leaves the manifest as it was. -/
theorem untouched_writeAmid (h : d.IsTree) (hw : f.writeAmid setbacks cwd m d = (some e, d')) :
    f.Untouched cwd d d' := by
  have hsteps := run_concat (f.applyAmid setbacks cwd) (preparations m) .moveIntoPlace d
  rw [show f.writeAmid setbacks cwd m d = _ from hsteps] at hw
  split at hw
  · rename_i d₁ hprepared
    have hgrown := grown_run h hprepared not_mem_preparations
    rw [run] at hw
    split at hw <;> rename_i hmove <;> cases hw
    exact .of_grown h (hgrown.trans (grown_applyAmid hgrown.tree hmove fun _ => nofun))
  · rename_i hprepared
    cases hw
    exact .of_grown h (grown_run h hprepared not_mem_preparations)

/-! ### Successful writes -/

theorem run_cons_of_none {carry : Step → Disk → Option Error × Disk} (h : run carry (s :: ss) d = (none, d')) :
    ∃ d₁, carry s d = (none, d₁) ∧ run carry ss d₁ = (none, d') := by
  rw [run] at h
  split at h
  · rename_i d₁ ha
    exact ⟨d₁, ha, h⟩
  · cases h

/-- A write that succeeds had no setback. -/
theorem write_of_writeAmid (h : f.writeAmid setbacks cwd m d = (none, d')) : f.write cwd m d = (none, d') := by
  have happly {s : Step} {d d' : Disk} (ha : f.applyAmid setbacks cwd s d = (none, d')) :
      f.apply cwd s d = (none, d') := by
    unfold applyAmid at ha
    split at ha
    · cases ha
    · exact ha
  have hrun {ss : List Step} {d : Disk} (hr : run (f.applyAmid setbacks cwd) ss d = (none, d')) :
      run (f.apply cwd) ss d = (none, d') := by
    induction ss generalizing d with
    | nil => exact hr
    | cons s ss ih =>
      obtain ⟨d₁, ha, hr⟩ := run_cons_of_none hr
      rw [run, happly ha]
      exact ih hr
  exact hrun h

theorem write_of_putTemporary (h : f.putTemporary cwd content d = (none, d')) :
    d.write? cwd f.temporaryPath content = some d' := by
  rw [putTemporary] at h
  split at h
  · rename_i hw
    cases h
    exact hw
  · cases h

theorem rename_of_move (h : f.apply cwd .moveIntoPlace d = (none, d')) :
    d.rename? cwd f.temporaryPath f.path = some d' := by
  rw [apply] at h
  split at h
  · rename_i hmoved
    cases h
    exact hmoved
  · cases h

theorem readOctets?_write (hw : f.write cwd m d = (none, d')) :
    d'.readOctets? cwd f.path = some m.document.toUTF8 := by
  obtain ⟨d₁, -, hrun⟩ := run_cons_of_none hw
  obtain ⟨d₂, -, hrun⟩ := run_cons_of_none hrun
  obtain ⟨d₃, hfill, hrun⟩ := run_cons_of_none hrun
  obtain ⟨d₄, hmove, hrun⟩ := run_cons_of_none hrun
  cases hrun
  obtain ⟨b, htemporary, hmanifest⟩ := readOctets?_rename (rename_of_move hmove)
  rw [hmanifest, ← htemporary, Disk.readOctets?_write (write_of_putTemporary hfill)]

end Federation.ManifestFile
