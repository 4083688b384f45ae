import Federation.Proofs.Manifest.Writes

/-!
# Writers that meet

Any number of writers write manifests to one place, each by the steps of `ManifestFile.steps`, and their steps come in
any order. They share the temporary file: whoever opens it empties it, and a writer that has it open writes into that
very file, wherever it has been moved by then, over what is there (`overlay`). A writer is *inside* from when it has
opened the temporary file until it moves it or gives up.

As long as nobody opens the temporary file while another is inside (`oneAtATime`), what lies at the manifest's place is
what lay there before or a whole document (`Orderly`). When somebody does, the one inside can move an empty file into
place (`torn_of_meeting`).
-/

namespace Federation.ManifestFile

open Federation.Path Disk

structure Writer where
  todo : List Step
  /-- Where the temporary file that it opened lies now, unless another took its place. -/
  opened : Option Location

structure Writers where
  disk : Disk
  all : List Writer

/-- What a file holds after something was written at its beginning. -/
def overlay (content old : ByteArray) : ByteArray := content ++ old.extract content.size old.size

/-- Writes into a file that was opened. -/
def fill (content : ByteArray) (opened : Option Location) (d : Disk) : Disk :=
  match opened with
  | none => d
  | some l =>
    match d.get? l with
    | some (.file old) => d.put l (.file (overlay content old))
    | _ => d

namespace Writer

def isOpening (w : Writer) : Bool :=
  match w.todo with
  | .openTemporary :: _ => true
  | _ => false

def isInside (w : Writer) : Bool :=
  match w.todo with
  | .fillTemporary _ :: _ | .moveIntoPlace :: _ => true
  | _ => false

/-- What a step of a writer does to the disk. -/
def carryOut (f : ManifestFile) (cwd : Location) (w : Writer) : Step → Disk → Option Error × Disk
  | .fillTemporary content, d => (none, fill content w.opened d)
  | step, d => f.apply cwd step d

/-- The writer after a step of its own. -/
def after (f : ManifestFile) (cwd : Location) (w : Writer) (todo : List Step) : Step → Writer
  | .openTemporary => ⟨todo, some (f.temporaryPlace cwd)⟩
  | _ => { w with todo }

/-- The writer after a step of anybody. The temporary file stays open when it is moved into place, and the file that
lay there is gone. -/
def follow (f : ManifestFile) (cwd : Location) (step : Step) (w : Writer) : Writer :=
  match step with
  | .moveIntoPlace => { w with opened := if w.opened = some (f.temporaryPlace cwd) then some (f.place cwd) else none }
  | _ => w

end Writer

namespace Writers

def start (ms : List Manifest) (d : Disk) : Writers := ⟨d, ms.map fun m => ⟨steps m, none⟩⟩

/-- A writer takes its next step. If that fails, it takes no other. -/
def take (f : ManifestFile) (cwd : Location) (s : Writers) (k : Nat) : Option Writers := do
  let w ← s.all[k]?
  match w.todo with
  | [] => none
  | step :: todo =>
    match w.carryOut f cwd step s.disk with
    | (none, disk) => some ⟨disk, (s.all.set k (w.after f cwd todo step)).map (·.follow f cwd step)⟩
    | (some _, disk) => some ⟨disk, s.all.set k ⟨[], none⟩⟩

def run (f : ManifestFile) (cwd : Location) (s : Writers) : List Nat → Option Writers
  | [] => some s
  | k :: ks => (s.take f cwd k).bind (·.run f cwd ks)

/-- Whether a writer is to open the temporary file while somebody is inside. -/
def meets (s : Writers) (k : Nat) : Bool := s.all[k]?.any (·.isOpening) && s.all.any (·.isInside)

/-- Nobody opens the temporary file while somebody is inside. -/
def oneAtATime (f : ManifestFile) (cwd : Location) (s : Writers) : List Nat → Bool
  | [] => true
  | k :: ks => !s.meets k && (s.take f cwd k).all (·.oneAtATime f cwd ks)

end Writers

variable {f : ManifestFile} {cwd : Location} {d d' d₀ : Disk} {ms : List Manifest} {m : Manifest} {b content : ByteArray}
  {e : Error} {step : Step} {todo : List Step} {w w' : Writer} {s s' : Writers} {k : Nat} {ks : List Nat}

/-! ### The temporary file of the one inside -/

/-- The temporary file is there with a content. -/
structure Holding (f : ManifestFile) (cwd : Location) (d : Disk) (b : ByteArray) : Prop where
  lookup : d.lookup cwd f.temporaryPath = .found (f.temporaryPlace cwd) (.file b)
  ne : f.temporaryPlace cwd ≠ f.place cwd

namespace Holding

theorem of_write (h : d.IsTree) (hw : d.write? cwd f.temporaryPath b = some d') : f.Holding cwd d' b := by
  obtain ⟨l, hl⟩ := readOctets?_eq_some.1 (Disk.readOctets?_write hw)
  have hplace : f.temporaryPlace cwd = l := placeOfPath_eq (d := d') (by rw [hl]; rfl)
  exact ⟨hplace ▸ hl, temporaryPlace_ne h hw⟩

theorem write (h : f.Holding cwd d b) (content : ByteArray) :
    d.write? cwd f.temporaryPath content = some (d.put (f.temporaryPlace cwd) (.file content)) := by
  rw [write?, h.lookup]

theorem grown (h : f.Holding cwd d b) (hg : Grown (fun _ => False) d d') : f.Holding cwd d' b :=
  ⟨hg.lookup_file h.lookup id, h.ne⟩

theorem fill_eq (h : f.Holding cwd d .empty) (content : ByteArray) :
    fill content (some (f.temporaryPlace cwd)) d = d.put (f.temporaryPlace cwd) (.file content) := by
  have hoverlay : overlay content .empty = content := by
    rw [overlay, ByteArray.extract_eq_empty_iff.2 (by simp), ByteArray.append_empty]
  rw [fill, get?_of_lookup h.lookup]
  dsimp only
  rw [hoverlay]

end Holding

/-! ### Steps -/

theorem grown_of_made {x : Option Error} (h : d.IsTree) (ha : f.apply cwd .makeDirectory d = (x, d')) :
    Grown (fun _ => False) d d' := by
  have hgrown : Grown (fun _ => False) d (f.makeParent cwd d).2 := grown_makeParent h
  rwa [show f.makeParent cwd d = _ from ha] at hgrown

/-- A step that fails may have made directories, and nothing else. -/
theorem grown_of_failed (h : d.IsTree) (hc : w.carryOut f cwd step d = (some e, d')) :
    Grown (fun _ => False) d d' := by
  cases step with
  | makeDirectory => exact grown_of_made h hc
  | openTemporary =>
    rw [disk_put_of_failed hc]
    exact .refl h
  | fillTemporary content => cases hc
  | moveIntoPlace =>
    rw [disk_move_of_failed hc]
    exact .refl h

namespace Writers

theorem run_cons : s.run f cwd (k :: ks) = some s' ↔ ∃ t, s.take f cwd k = some t ∧ t.run f cwd ks = some s' :=
  Option.bind_eq_some_iff

theorem take_of_done {disk : Disk} (hk : s.all[k]? = some w) (hw : w.todo = step :: todo)
    (hdone : w.carryOut f cwd step s.disk = (none, disk)) :
    s.take f cwd k = some ⟨disk, (s.all.set k (w.after f cwd todo step)).map (·.follow f cwd step)⟩ := by
  rw [take, hk]
  simp [hw, hdone]

theorem take_eq_some (hk : s.all[k]? = some w) (hw : w.todo = step :: todo) (ht : s.take f cwd k = some s') :
    (∃ disk, w.carryOut f cwd step s.disk = (none, disk) ∧
      s' = ⟨disk, (s.all.set k (w.after f cwd todo step)).map (·.follow f cwd step)⟩) ∨
    ∃ e disk, w.carryOut f cwd step s.disk = (some e, disk) ∧ s' = ⟨disk, s.all.set k ⟨[], none⟩⟩ := by
  rw [take, hk] at ht
  simp only [bind, Option.bind_some, hw] at ht
  split at ht <;> rename_i hdone <;> cases ht
  · exact .inl ⟨_, hdone, rfl⟩
  · exact .inr ⟨_, _, hdone, rfl⟩

end Writers

/-! ### One alone -/

/-- A writer that nobody meets comes to its end and leaves a disk. -/
def Writer.Leaves (f : ManifestFile) (cwd : Location) (w : Writer) (d d' : Disk) : Prop :=
  ∃ ks s, Writers.run f cwd ⟨d, [w]⟩ ks = some s ∧ s.disk = d' ∧ ∀ v ∈ s.all, v.todo = []

theorem Writer.leaves_cons (hw : w.todo = step :: todo) (hsame : w.carryOut f cwd step d = f.apply cwd step d)
    (hrest : ∀ d₁, f.apply cwd step d = (none, d₁) →
      ((w.after f cwd todo step).follow f cwd step).Leaves f cwd d₁ (ManifestFile.run (f.apply cwd) todo d₁).2) :
    w.Leaves f cwd d (ManifestFile.run (f.apply cwd) (step :: todo) d).2 := by
  rw [ManifestFile.run]
  split
  · rename_i d₁ hdone
    obtain ⟨ks, s, hrun, hdisk, hended⟩ := hrest d₁ hdone
    have htake := Writers.take_of_done (s := ⟨d, [w]⟩) (k := 0) rfl hw (hsame.trans hdone)
    exact ⟨0 :: ks, s, Writers.run_cons.2 ⟨_, htake, hrun⟩, hdisk, hended⟩
  · rename_i e d₁ hfailed
    have htake : Writers.take f cwd ⟨d, [w]⟩ 0 = some ⟨d₁, [⟨[], none⟩]⟩ := by
      simp [Writers.take, hw, hsame, hfailed]
    exact ⟨[0], _, Writers.run_cons.2 ⟨_, htake, rfl⟩, rfl, by simp⟩

/-- A writer that nobody meets does what `write` does. -/
theorem Writers.write_alone (h : d.IsTree) (m : Manifest) :
    ∃ ks s, (start [m] d).run f cwd ks = some s ∧ s.disk = (f.write cwd m d).2 ∧ ∀ w ∈ s.all, w.todo = [] := by
  refine Writer.leaves_cons (w := ⟨steps m, none⟩) rfl rfl fun d₁ hmade => ?_
  refine Writer.leaves_cons rfl rfl fun d₂ hopened => ?_
  have hholding : f.Holding cwd d₂ .empty := .of_write (grown_of_made h hmade).tree (write_of_putTemporary hopened)
  have hfill : (none, fill m.document.toUTF8 (some (f.temporaryPlace cwd)) d₂) =
      f.apply cwd (.fillTemporary m.document.toUTF8) d₂ := by
    rw [apply, putTemporary, hholding.write, hholding.fill_eq]
  refine Writer.leaves_cons rfl hfill fun d₃ _ => ?_
  refine Writer.leaves_cons rfl rfl fun d₄ _ => ?_
  exact ⟨[], _, rfl, rfl, by simp [Writer.follow, Writer.after]⟩

/-! ### One at a time -/

/-- Of what a reader may find: what was there before, or a whole document. -/
def Whole (f : ManifestFile) (cwd : Location) (d₀ : Disk) (ms : List Manifest) (b : ByteArray) : Prop :=
  d₀.get? (f.place cwd) = some (.file b) ∨ ∃ m ∈ ms, b = m.document.toUTF8

/-- How far a writer has come, and what it then finds in the temporary file. -/
inductive Writer.At (f : ManifestFile) (cwd : Location) (ms : List Manifest) (d : Disk) : Writer → Prop
  | starting {m : Manifest} {opened : Option Location} (hm : m ∈ ms) : At f cwd ms d ⟨steps m, opened⟩
  | opening {m : Manifest} {opened : Option Location} (hm : m ∈ ms) :
    At f cwd ms d ⟨[.openTemporary, .fillTemporary m.document.toUTF8, .moveIntoPlace], opened⟩
  | filling {m : Manifest} (hm : m ∈ ms) (hd : f.Holding cwd d .empty) :
    At f cwd ms d ⟨[.fillTemporary m.document.toUTF8, .moveIntoPlace], some (f.temporaryPlace cwd)⟩
  | moving {m : Manifest} (hm : m ∈ ms) (hd : f.Holding cwd d m.document.toUTF8) :
    At f cwd ms d ⟨[.moveIntoPlace], some (f.temporaryPlace cwd)⟩
  | ended {opened : Option Location} : At f cwd ms d ⟨[], opened⟩

namespace Writer.At

theorem outside (h : w.At f cwd ms d) (hw : w.isInside = false) (step : Step) : (w.follow f cwd step).At f cwd ms d' := by
  cases h with
  | starting hm => cases step <;> exact .starting hm
  | opening hm => cases step <;> exact .opening hm
  | filling | moving => cases hw
  | ended => cases step <;> exact .ended

theorem grown (h : w.At f cwd ms d) (hg : Grown (fun _ => False) d d') : w.At f cwd ms d' := by
  cases h with
  | starting hm => exact .starting hm
  | opening hm => exact .opening hm
  | filling hm hd => exact .filling hm (hd.grown hg)
  | moving hm hd => exact .moving hm (hd.grown hg)
  | ended => exact .ended

end Writer.At

namespace Writers

structure Orderly (f : ManifestFile) (cwd : Location) (d₀ : Disk) (ms : List Manifest) (s : Writers) : Prop where
  tree : s.disk.IsTree
  whole : ∀ b, s.disk.get? (f.place cwd) = some (.file b) → f.Whole cwd d₀ ms b
  stage : ∀ (i : Nat) (w : Writer), s.all[i]? = some w → w.At f cwd ms s.disk
  alone : ∀ (i j : Nat) (w w' : Writer), s.all[i]? = some w → s.all[j]? = some w' →
    w.isInside = true → w'.isInside = true → i = j

namespace Orderly

theorem start (h : d₀.IsTree) : (start ms d₀).Orderly f cwd d₀ ms := by
  have hstarting (i : Nat) (w : Writer) (hw : (ms.map fun m => (⟨steps m, none⟩ : Writer))[i]? = some w) :
      ∃ m ∈ ms, w = ⟨steps m, none⟩ := by
    obtain ⟨m, hm, rfl⟩ := List.mem_map.1 (List.mem_of_getElem? hw)
    exact ⟨m, hm, rfl⟩
  refine ⟨h, fun b => .inl, fun i w hw => ?_, fun i j w w' hw hw' hin => ?_⟩
  · obtain ⟨m, hm, rfl⟩ := hstarting i w hw
    exact .starting hm
  · obtain ⟨m, hm, rfl⟩ := hstarting i w hw
    cases hin

theorem others_outside (h : s.Orderly f cwd d₀ ms) (hk : s.all[k]? = some w) (hw : w.isInside = true) (i : Nat)
    (v : Writer) (hi : i ≠ k) (hv : s.all[i]? = some v) : v.isInside = false :=
  Bool.eq_false_iff.2 fun hin => hi (h.alone i k v w hv hk hin hw)

/-- What has to be seen to when a writer and the disk change. -/
theorem replace (h : s.Orderly f cwd d₀ ms) {disk : Disk} {w' : Writer} {g : Writer → Writer}
    (hg : ∀ v, (g v).isInside = v.isInside) (htree : disk.IsTree)
    (hwhole : ∀ b, disk.get? (f.place cwd) = some (.file b) → f.Whole cwd d₀ ms b) (hw' : (g w').At f cwd ms disk)
    (hothers : ∀ i v, i ≠ k → s.all[i]? = some v →
      (g v).At f cwd ms disk ∧ (w'.isInside = true → v.isInside = false)) :
    Orderly f cwd d₀ ms ⟨disk, (s.all.set k w').map g⟩ := by
  have hcases (i : Nat) (v : Writer) (hv : ((s.all.set k w').map g)[i]? = some v) :
      (i = k ∧ v = g w') ∨ i ≠ k ∧ ∃ u, s.all[i]? = some u ∧ v = g u := by
    rw [List.getElem?_map, Option.map_eq_some_iff] at hv
    obtain ⟨u, hu, rfl⟩ := hv
    by_cases hi : k = i
    · rw [List.getElem?_set, if_pos hi] at hu
      split at hu <;> cases hu
      exact .inl ⟨hi.symm, rfl⟩
    · rw [List.getElem?_set_ne hi] at hu
      exact .inr ⟨Ne.symm hi, u, hu, rfl⟩
  refine ⟨htree, hwhole, fun i v hv => ?_, fun i j v v' hv hv' hin hin' => ?_⟩
  · rcases hcases i v hv with ⟨rfl, rfl⟩ | ⟨hi, u, hu, rfl⟩
    · exact hw'
    · exact (hothers i u hi hu).1
  · -- two that are inside: the new one cannot be one of them unless it is both
    rcases hcases i v hv with ⟨rfl, rfl⟩ | ⟨hi, u, hu, rfl⟩ <;>
      rcases hcases j v' hv' with ⟨rfl, rfl⟩ | ⟨hj, u', hu', rfl⟩
    · rfl
    · rw [hg] at hin hin'
      rw [(hothers j u' hj hu').2 hin] at hin'
      cases hin'
    · rw [hg] at hin hin'
      rw [(hothers i u hi hu).2 hin'] at hin
      cases hin
    · rw [hg] at hin hin'
      exact h.alone i j u u' hu hu' hin hin'

theorem grown (h : s.Orderly f cwd d₀ ms) {disk : Disk} {w' : Writer} (hg : Grown (fun _ => False) s.disk disk)
    (hw' : w'.At f cwd ms disk) (hin : w'.isInside = false) : Orderly f cwd d₀ ms ⟨disk, s.all.set k w'⟩ := by
  have hreplaced : Orderly f cwd d₀ ms ⟨disk, (s.all.set k w').map id⟩ := by
    refine h.replace (fun _ => rfl) hg.tree (fun b hb => h.whole b ((hg.file _ id b).1 hb)) hw' fun i v _ hv => ?_
    refine ⟨(h.stage i v hv).grown hg, fun hin' => ?_⟩
    rw [hin] at hin'
    cases hin'
  rwa [List.map_id] at hreplaced

theorem written (h : s.Orderly f cwd d₀ ms) {disk : Disk} (hw : s.disk.write? cwd f.temporaryPath content = some disk) :
    disk.IsTree ∧ f.Holding cwd disk content ∧
      ∀ b, disk.get? (f.place cwd) = some (.file b) → f.Whole cwd d₀ ms b := by
  have hholding : f.Holding cwd disk content := .of_write h.tree hw
  have hgrown : Grown (f.Aside cwd) s.disk disk := .of_write h.tree hw ⟨rfl, hholding.ne⟩
  have hplace : ¬f.Aside cwd (f.place cwd) := fun ha => ha.2 rfl
  exact ⟨hgrown.tree, hholding, fun b hb => h.whole b ((hgrown.file _ hplace b).1 hb)⟩

theorem opened (h : s.Orderly f cwd d₀ ms) (hm : m ∈ ms) {disk : Disk}
    (hw : s.disk.write? cwd f.temporaryPath .empty = some disk)
    (hnobody : ∀ (i : Nat) (v : Writer), s.all[i]? = some v → v.isInside = false) :
    Orderly f cwd d₀ ms ⟨disk, (s.all.set k ⟨[.fillTemporary m.document.toUTF8, .moveIntoPlace],
      some (f.temporaryPlace cwd)⟩).map (·.follow f cwd .openTemporary)⟩ := by
  obtain ⟨htree, hholding, hwhole⟩ := h.written hw
  refine h.replace (fun _ => rfl) htree hwhole (.filling hm hholding) fun i v _ hv => ?_
  exact ⟨(h.stage i v hv).outside (hnobody i v hv) .openTemporary, fun _ => hnobody i v hv⟩

theorem filled (h : s.Orderly f cwd d₀ ms) (hm : m ∈ ms) (hholding : f.Holding cwd s.disk .empty)
    (hothers : ∀ (i : Nat) (v : Writer), i ≠ k → s.all[i]? = some v → v.isInside = false) :
    Orderly f cwd d₀ ms ⟨fill m.document.toUTF8 (some (f.temporaryPlace cwd)) s.disk,
      (s.all.set k ⟨[.moveIntoPlace], some (f.temporaryPlace cwd)⟩).map
        (·.follow f cwd (.fillTemporary m.document.toUTF8))⟩ := by
  obtain ⟨htree, hfilled, hwhole⟩ := h.written (hholding.write m.document.toUTF8)
  rw [hholding.fill_eq]
  refine h.replace (fun _ => rfl) htree hwhole (.moving hm hfilled) fun i v hi hv => ?_
  exact ⟨(h.stage i v hv).outside (hothers i v hi hv) (.fillTemporary m.document.toUTF8), fun _ => hothers i v hi hv⟩

theorem moved (h : s.Orderly f cwd d₀ ms) (hm : m ∈ ms) (hholding : f.Holding cwd s.disk m.document.toUTF8)
    {disk : Disk} (hmoved : s.disk.rename? cwd f.temporaryPath f.path = some disk) {opened : Option Location}
    (hothers : ∀ (i : Nat) (v : Writer), i ≠ k → s.all[i]? = some v → v.isInside = false) :
    Orderly f cwd d₀ ms ⟨disk, (s.all.set k ⟨[], opened⟩).map (·.follow f cwd .moveIntoPlace)⟩ := by
  obtain ⟨l, b, hl, hx, hdir, rfl⟩ := place_of_rename hmoved
  cases hholding.lookup.symm.trans hl
  have htree := h.tree.move (get?_of_lookup hl) hdir (h.tree.parent_of_lookup hx) (.file m.document.toUTF8)
  refine h.replace (fun _ => rfl) htree (fun b hb => ?_) .ended fun i v hi hv => ?_
  · rw [place, get?_put (ne_nil_of_get? hdir), if_pos rfl] at hb
    cases hb
    exact .inr ⟨m, hm, rfl⟩
  · exact ⟨(h.stage i v hv).outside (hothers i v hi hv) .moveIntoPlace, fun hin => absurd hin Bool.false_ne_true⟩

theorem take (h : s.Orderly f cwd d₀ ms) (hfree : s.meets k = false) (ht : s.take f cwd k = some s') :
    s'.Orderly f cwd d₀ ms := by
  obtain ⟨w, hk, -⟩ := Option.bind_eq_some_iff.1 ht
  cases htodo : w.todo with
  | nil => simp [Writers.take, hk, htodo] at ht
  | cons step todo =>
    rcases take_eq_some hk htodo ht with ⟨disk, hdone, rfl⟩ | ⟨e, disk, hfailed, rfl⟩
    · cases h.stage k w hk with
      | starting hm =>
        -- directories are made, and whoever is inside finds the temporary file as it was
        cases htodo
        show Orderly f cwd d₀ ms ⟨disk, (s.all.set k _).map id⟩
        rw [List.map_id]
        exact h.grown (grown_of_made h.tree hdone) (.opening hm) rfl
      | opening hm =>
        -- only here somebody comes inside, and nobody else is
        cases htodo
        refine h.opened hm (write_of_putTemporary hdone) fun i v hv => ?_
        simp only [meets, hk, Option.any_some, Writer.isOpening, Bool.true_and] at hfree
        exact Bool.eq_false_iff.2 (List.any_eq_false.1 hfree v (List.mem_of_getElem? hv))
      | filling hm hd =>
        cases htodo
        cases hdone
        exact h.filled hm hd (h.others_outside hk rfl)
      | moving hm hd =>
        cases htodo
        exact h.moved hm hd (rename_of_move hdone) (h.others_outside hk rfl)
      | ended => cases htodo
    · exact h.grown (grown_of_failed h.tree hfailed) .ended rfl

theorem run (h : s.Orderly f cwd d₀ ms) (hone : s.oneAtATime f cwd ks = true) (hrun : s.run f cwd ks = some s') :
    s'.Orderly f cwd d₀ ms := by
  induction ks generalizing s with
  | nil => cases hrun; exact h
  | cons k ks ih =>
    obtain ⟨t, ht, hrun⟩ := run_cons.1 hrun
    rw [oneAtATime, ht, Option.all_some, Bool.and_eq_true, Bool.not_eq_true'] at hone
    exact ih (h.take hone.1 ht) hone.2 hrun

/-- What a reader finds. Without `..` in the path, it found the same before if no document was moved into place. -/
theorem read (h : s.Orderly f cwd d₀ ms) (hd : d₀.IsTree) (hread : s.disk.readOctets? cwd f.path = some b) :
    (d₀.get? (f.place cwd) = some (.file b) ∧ (['.', '.'] ∉ rawNames f.path → d₀.readOctets? cwd f.path = some b)) ∨
      ∃ m ∈ ms, b = m.document.toUTF8 := by
  obtain ⟨l, hl⟩ := readOctets?_eq_some.1 hread
  have hplace : f.place cwd = l := placeOfPath_eq (d := s.disk) (by rw [hl]; rfl)
  rcases h.whole b (hplace ▸ get?_of_lookup hl) with hbefore | hdocument
  · refine .inl ⟨hbefore, fun hdots => readOctets?_eq_some.2 ⟨l, ?_⟩⟩
    have hne : f.path ≠ [] := by
      intro hnil
      rw [hnil] at hl
      cases hl
    rw [lookup_eq hne] at hl ⊢
    exact hd.walk_of_free hdots hl (hplace ▸ hbefore)
  · exact .inr hdocument

end Orderly

/-! ### Two that meet -/

/-- A file can be moved to where the manifest lies. -/
structure Movable (f : ManifestFile) (cwd : Location) (d : Disk) : Prop where
  place : (d.lookup cwd f.path).place? = some (f.place cwd)
  free : d.get? (f.place cwd) ≠ some .directory

theorem Movable.of_rename (h : d.rename? cwd f.temporaryPath f.path = some d') : Movable f cwd d := by
  obtain ⟨l, b, -, hx, hdir, -⟩ := place_of_rename h
  exact ⟨hx, hdir⟩

theorem Movable.put (h : Movable f cwd d) (hd : f.Holding cwd d b) (content : ByteArray) :
    Movable f cwd (d.put (f.temporaryPlace cwd) (.file content)) := by
  have hfile : d.get? (f.temporaryPlace cwd) ≠ some .directory := by
    rw [get?_of_lookup hd.lookup]
    exact nofun
  refine ⟨?_, ?_⟩
  · rw [lookup_of_directories (fun l => get?_put_of_directory hfile _) h.place, place?_walk_nil]
  · rw [get?_put (ne_nil_of_get? hfile), if_neg hd.ne.symm]
    exact h.free

theorem Movable.rename (h : Movable f cwd d) (hd : f.Holding cwd d b) :
    ∃ d', d.rename? cwd f.temporaryPath f.path = some d' := by
  rw [rename?, hd.lookup]
  have hplace := h.place
  cases hl : d.lookup cwd f.path with
  | found l node =>
    rw [hl] at hplace
    cases hplace
    cases node with
    | file b' => exact ⟨_, rfl⟩
    | directory => exact absurd (get?_of_lookup hl) h.free
  | vacant l => exact ⟨_, rfl⟩
  | noDirectory | refused =>
    rw [hl] at hplace
    cases hplace

theorem follow_of_ne {i : Nat} {u v : Writer} (hi : i ≠ k) (hv : s.all[i]? = some v) (step : Step) :
    ((s.all.set k u).map (·.follow f cwd step))[i]? = some (v.follow f cwd step) := by
  rw [List.getElem?_map, List.getElem?_set_ne (Ne.symm hi), hv, Option.map_some]

theorem todo_of_isOpening (h : w.isOpening = true) : ∃ todo, w.todo = .openTemporary :: todo := by
  unfold Writer.isOpening at h
  split at h
  · rename_i todo htodo
    exact ⟨todo, htodo⟩
  · cases h

theorem torn_of_moving (h : s.Orderly f cwd d₀ ms) (hmovable : Movable f cwd s.disk) {i j : Nat}
    (hi : s.all[i]? = some ⟨[.moveIntoPlace], some (f.temporaryPlace cwd)⟩) (hj : s.all[j]? = some w)
    (hopening : w.isOpening = true) :
    ∃ s', s.run f cwd [j, i] = some s' ∧ s'.disk.readOctets? cwd f.path = some .empty := by
  obtain ⟨b, hholding⟩ : ∃ b, f.Holding cwd s.disk b := by
    cases h.stage i _ hi with
    | moving hm hd => exact ⟨_, hd⟩
  obtain ⟨todo, htodo⟩ := todo_of_isOpening hopening
  have hne : i ≠ j := by
    rintro rfl
    cases hi.symm.trans hj
    cases hopening
  -- the other empties the temporary file
  have hw := hholding.write .empty
  have hopened : w.carryOut f cwd .openTemporary s.disk =
      (none, s.disk.put (f.temporaryPlace cwd) (.file .empty)) := by
    show f.putTemporary cwd .empty s.disk = _
    rw [putTemporary, hw]
  have hfirst := take_of_done hj htodo hopened
  -- and the one inside moves it into place
  obtain ⟨d', hmoved⟩ := (hmovable.put hholding .empty).rename (.of_write h.tree hw)
  have hdone : Writer.carryOut f cwd ⟨[.moveIntoPlace], some (f.temporaryPlace cwd)⟩ .moveIntoPlace
      (s.disk.put (f.temporaryPlace cwd) (.file .empty)) = (none, d') := by
    show f.apply cwd .moveIntoPlace _ = _
    rw [apply, hmoved]
  have hi' : ((s.all.set j (w.after f cwd todo .openTemporary)).map (·.follow f cwd .openTemporary))[i]? =
      some ⟨[.moveIntoPlace], some (f.temporaryPlace cwd)⟩ := follow_of_ne hne hi .openTemporary
  have hsecond := take_of_done (s := ⟨_, _⟩) hi' rfl hdone
  refine ⟨_, run_cons.2 ⟨_, hfirst, run_cons.2 ⟨_, hsecond, rfl⟩⟩, ?_⟩
  obtain ⟨b', htemporary, hmanifest⟩ := readOctets?_rename hmoved
  rw [Disk.readOctets?_write hw] at htemporary
  rw [htemporary]
  exact hmanifest

/-- When a writer is to open the temporary file while another is inside, the other can go on to move it into place
when it is empty. -/
theorem torn_of_meeting (h : s.Orderly f cwd d₀ ms) (hmovable : Movable f cwd s.disk) {i j : Nat}
    (hi : s.all[i]? = some w) (hinside : w.isInside = true) (hj : s.all[j]? = some w') (hopening : w'.isOpening = true) :
    ∃ ks s', s.run f cwd ks = some s' ∧ s'.disk.readOctets? cwd f.path = some .empty := by
  cases h.stage i w hi with
  | starting | opening | ended => cases hinside
  | moving hm hd =>
    obtain ⟨s', hrun, hread⟩ := torn_of_moving h hmovable hi hj hopening
    exact ⟨_, s', hrun, hread⟩
  | @filling m hm hd =>
    have hne : j ≠ i := by
      rintro rfl
      cases hi.symm.trans hj
      cases hopening
    let filled : Writers := ⟨fill m.document.toUTF8 (some (f.temporaryPlace cwd)) s.disk,
      (s.all.set i ⟨[.moveIntoPlace], some (f.temporaryPlace cwd)⟩).map
        (·.follow f cwd (.fillTemporary m.document.toUTF8))⟩
    have hfilled : s.take f cwd i = some filled := take_of_done hi rfl rfl
    have hmovable' : Movable f cwd filled.disk := by
      show Movable f cwd (fill m.document.toUTF8 (some (f.temporaryPlace cwd)) s.disk)
      rw [hd.fill_eq]
      exact hmovable.put hd _
    have hlt := (List.getElem?_eq_some_iff.1 hi).1
    have hi' : filled.all[i]? = some ⟨[.moveIntoPlace], some (f.temporaryPlace cwd)⟩ := by
      simp [filled, hlt, Writer.follow]
    have hj' : filled.all[j]? = some w' := follow_of_ne hne hj (.fillTemporary m.document.toUTF8)
    obtain ⟨s', hrun, hread⟩ :=
      torn_of_moving (h.filled hm hd (h.others_outside hi rfl)) hmovable' hi' hj' hopening
    exact ⟨_, s', run_cons.2 ⟨filled, hfilled, hrun⟩, hread⟩

end Writers

theorem document_ne_empty (m : Manifest) : m.document.toUTF8 ≠ .empty := by
  intro hempty
  have hnil : m.document.toList = [] := by
    rw [show m.document = "" from String.toByteArray_inj.1 hempty]
    rfl
  rw [Manifest.document, Manifest.toJson, Json.pretty, String.toList_ofList, Json.prettyAt] at hnil
  cases hnil

namespace Writers

/-- As long as nobody opens the temporary file while another is inside, every read that succeeds finds what was there
before, or one of the documents. Whenever a writer is to do so and the other's file can be moved into place, the two
can go on so that a read finds nothing of either. -/
theorem whole_of_one_at_a_time (f : ManifestFile) (cwd : Location) (d : Disk) (ms : List Manifest) (ks : List Nat)
    (s : Writers) (hd : d.IsTree) (hrun : (start ms d).run f cwd ks = some s)
    (hone : (start ms d).oneAtATime f cwd ks = true) :
    (∀ b, s.disk.readOctets? cwd f.path = some b →
      (d.get? (f.place cwd) = some (.file b) ∧ (['.', '.'] ∉ rawNames f.path → d.readOctets? cwd f.path = some b)) ∨
        ∃ m ∈ ms, b = m.document.toUTF8) ∧
    ∀ (i j : Nat) (w w' : Writer), s.all[i]? = some w → w.isInside = true →
      s.all[j]? = some w' → w'.isOpening = true →
      (f.apply cwd .moveIntoPlace s.disk).1 = none →
      ∃ ks' s', s.run f cwd ks' = some s' ∧ s'.disk.readOctets? cwd f.path = some .empty ∧
        ∀ m ∈ ms, m.document.toUTF8 ≠ .empty := by
  have horderly : s.Orderly f cwd d ms := (Orderly.start hd).run hone hrun
  refine ⟨fun b hread => horderly.read hd hread, fun i j w w' hi hinside hj hopening hmoves => ?_⟩
  have hmovable : Movable f cwd s.disk := .of_rename (rename_of_move (Prod.ext hmoves rfl))
  obtain ⟨ks', s', hrun', hread⟩ := torn_of_meeting horderly hmovable hi hinside hj hopening
  exact ⟨ks', s', hrun', hread, fun m _ => document_ne_empty m⟩

def hostFile : ManifestFile := ⟨"zephyr-manifest.json".toList⟩

def builtAt (timestamp : String) : Manifest := ⟨"1.0.0", timestamp, "host.shop.acme", .empty⟩

/-- One writer has come to its end, the second is inside, and the third is to open the temporary file. -/
theorem whole_of_three : ∃ s,
    (start [builtAt "1", builtAt "2", builtAt "3"] .empty).run hostFile [] [0, 0, 0, 0, 1, 1, 2] = some s ∧
    (start [builtAt "1", builtAt "2", builtAt "3"] .empty).oneAtATime hostFile [] [0, 0, 0, 0, 1, 1, 2] = true ∧
    (∃ b, s.disk.readOctets? [] hostFile.path = some b ∧
      ∃ m ∈ [builtAt "1", builtAt "2", builtAt "3"], b = m.document.toUTF8) ∧
    ∃ ks s', s.run hostFile [] ks = some s' ∧ s'.disk.readOctets? [] hostFile.path = some .empty := by
  have hone : (start [builtAt "1", builtAt "2", builtAt "3"] .empty).oneAtATime hostFile [] [0, 0, 0, 0, 1, 1, 2] =
      true := by decide
  have hview : ((start [builtAt "1", builtAt "2", builtAt "3"] .empty).run hostFile [] [0, 0, 0, 0, 1, 1, 2]).map
      (fun s => (s.all.map (·.isInside), s.all.map (·.isOpening), (s.disk.readOctets? [] hostFile.path).isSome,
        (hostFile.apply [] .moveIntoPlace s.disk).1.isNone)) =
      some ([false, true, false], [false, false, true], true, true) := by decide
  obtain ⟨s, hs, hview⟩ := Option.map_eq_some_iff.1 hview
  simp only [Prod.mk.injEq] at hview
  obtain ⟨hinside, hopening, hread, hmoves⟩ := hview
  obtain ⟨b, hb⟩ := Option.isSome_iff_exists.1 hread
  have hsecond : s.all[1]?.map (·.isInside) = some true := by rw [← List.getElem?_map, hinside]; rfl
  have hthird : s.all[2]?.map (·.isOpening) = some true := by rw [← List.getElem?_map, hopening]; rfl
  obtain ⟨w, hw, hin⟩ := Option.map_eq_some_iff.1 hsecond
  obtain ⟨w', hw', hop⟩ := Option.map_eq_some_iff.1 hthird
  have htree : Disk.empty.IsTree := .of_nodes fun e he => by cases he
  obtain ⟨hwhole, htorn⟩ := whole_of_one_at_a_time hostFile [] .empty _ _ s htree hs hone
  refine ⟨s, hs, hone, ⟨b, hb, ?_⟩, ?_⟩
  · rcases hwhole b hb with ⟨hbefore, -⟩ | hdocument
    · cases hbefore
    · exact hdocument
  · obtain ⟨ks, s', hrun, hempty, -⟩ := htorn 1 2 w w' hw hin hw' hop (Option.isNone_iff_eq_none.1 hmoves)
    exact ⟨ks, s', hrun, hempty⟩

/-- Both writers open the temporary file, the second one writes the shorter document over the longer one of the first,
and the first one moves it into place. -/
theorem torn_of_two : ∃ s,
    (start [builtAt "10", builtAt "9"] .empty).run hostFile [] [0, 1, 0, 1, 0, 1, 0, 1] = some s ∧
    s.all.map (·.todo.length) = [0, 0] ∧
    s.disk.readOctets? [] hostFile.path = some ((builtAt "9").document ++ "\x7d").toUTF8 ∧
    ¬∀ b, s.disk.readOctets? [] hostFile.path = some b →
      Disk.empty.get? (hostFile.place []) = some (.file b) ∨
        ∃ m ∈ [builtAt "10", builtAt "9"], b = m.document.toUTF8 := by
  have hview : ((start [builtAt "10", builtAt "9"] .empty).run hostFile [] [0, 1, 0, 1, 0, 1, 0, 1]).map
      (fun s => decide (s.all.map (·.todo.length) = [0, 0] ∧
        s.disk.readOctets? [] hostFile.path = some ((builtAt "9").document ++ "\x7d").toUTF8)) = some true := by
    decide +kernel
  obtain ⟨s, hs, hview⟩ := Option.map_eq_some_iff.1 hview
  obtain ⟨hended, hread⟩ := of_decide_eq_true hview
  refine ⟨s, hs, hended, hread, fun hwhole => ?_⟩
  rcases hwhole _ hread with hbefore | ⟨m, hm, hdocument⟩
  · cases hbefore
  · have hne : ∀ m ∈ [builtAt "10", builtAt "9"], ((builtAt "9").document ++ "\x7d").toUTF8 ≠ m.document.toUTF8 := by
      decide +kernel
    exact hne m hm hdocument

end Writers

end Federation.ManifestFile
