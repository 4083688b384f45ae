import Federation.Proofs.Path.Ancestors
import Federation.Workspace.Basic

/-!
# The root of a workspace

The workspace of a directory is that of the nearest directory at or above it with a workspace file (`IsNearest`). A
search goes up only as far as the text of its path does: an absolute path leads up to the root of the disk, and any
other one up to the current directory. So a search finds the nearest directory if it is not above the place where the
path begins, and else it finds none (`search_findUpwards`).
-/

namespace Federation

namespace Disk

open Federation.Path

variable {d : Disk} {l r x cwd : Location} {file : String} {p q : List Char}

/-- Whether a directory holds a file of a name. -/
def HasFile (d : Disk) (file : String) (l : Location) : Prop := ∃ b, d.get? (l ++ [file.toList]) = some (.file b)

/-- Of the directories at or above `l`, `r` is the nearest that holds the file. -/
structure IsNearest (d : Disk) (file : String) (l r : Location) : Prop where
  above : r <+: l
  has : d.HasFile file r
  nearest : ∀ x, x <+: l → d.HasFile file x → x <+: r

/-- A name such as a file can have that is looked for. -/
structure IsFileName (n : Name) : Prop where
  proper : IsProper n
  ok : nameOk n = true
  free : '/' ∉ n

/-- The file of a name in the directory that a path means, also for the empty path. -/
theorem lookup_in_directory {n : Name} (h : d.IsWellFormed) (hn : IsFileName n) (hdots : ['.', '.'] ∉ rawNames p)
    (hdir : d.get? (placeOfPath cwd p) = some .directory) :
    d.lookup cwd (join p n) = d.walk (placeOfPath cwd p) [n] := by
  by_cases hp : p = []
  · subst hp
    have hjoin : join [] n = n := by rw [join, List.isEmpty_nil, Bool.or_true, if_pos rfl]
    have hne : n ≠ [] := by
      rintro rfl
      exact absurd hn.proper.1 (by decide)
    rw [hjoin, lookup_eq hne, rawNames_of_free hn.free, baseOf, isAbsolute_of_slash_not_mem hn.free,
      if_neg Bool.false_ne_true]
    rfl
  · exact lookup_join (lookup_of_directory h hp hdots hdir) hn.free

theorem isFile_join (h : d.IsWellFormed) (hfile : IsFileName file.toList) (hdots : ['.', '.'] ∉ rawNames p)
    (hdir : d.get? (placeOfPath cwd p) = some .directory) :
    d.isFile cwd (join p file.toList) = true ↔ d.HasFile file (placeOfPath cwd p) := by
  rw [isFile, lookup_in_directory h hfile hdots hdir, walk_cons hdir (.inr (.inr hfile.ok)),
    stepTo_of_proper hfile.proper, walk_nil, HasFile]
  cases hnode : d.get? (placeOfPath cwd p ++ [file.toList]) with
  | none => simp
  | some node => cases node <;> simp

theorem prefix_cases {ms : Location} (hms : ms.length ≤ 1) (h : x <+: l ++ ms) : x <+: l ∨ x = l ++ ms := by
  obtain ⟨t, ht⟩ := h
  rcases List.append_eq_append_iff.1 ht with ⟨as, hl, -⟩ | ⟨bs, hx, hbs⟩
  · exact .inl ⟨as, hl.symm⟩
  · cases bs with
    | nil =>
      rw [List.append_nil] at hx
      exact .inl (hx ▸ List.prefix_refl x)
    | cons b bs =>
      have ht : t = [] := by
        rw [hbs, List.length_append, List.length_cons] at hms
        exact List.length_eq_zero_iff.1 (by omega)
      rw [ht, List.append_nil] at hbs
      exact .inr (by rw [hx, hbs])

/-- What a search through a path and the paths above it comes to. -/
structure Search (d : Disk) (cwd : Location) (file : String) (p : List Char) (found : Option (List Char)) : Prop where
  some : ∀ r, found = some r → d.IsNearest file (placeOfPath cwd p) (placeOfPath cwd r) ∧
    baseOf cwd p <+: placeOfPath cwd r ∧ isAbsolute r = isAbsolute p ∧ ['.', '.'] ∉ rawNames r
  none : found = none → ∀ x, baseOf cwd p <+: x → x <+: placeOfPath cwd p → ¬d.HasFile file x

theorem Search.here (hhas : d.HasFile file (placeOfPath cwd p)) (hdots : ['.', '.'] ∉ rawNames p) :
    d.Search cwd file p (.some p) := by
  refine ⟨fun r hr => ?_, nofun⟩
  cases hr
  exact ⟨⟨List.prefix_refl _, hhas, fun x hx _ => hx⟩, baseOf_prefix hdots cwd, rfl, hdots⟩

theorem Search.above {found : Option (List Char)} (h : d.Search cwd file q found)
    (hnot : ¬d.HasFile file (placeOfPath cwd p)) (habs : isAbsolute q = isAbsolute p)
    (hplace : ∃ ms : Location, ms.length ≤ 1 ∧ placeOfPath cwd p = placeOfPath cwd q ++ ms) :
    d.Search cwd file p found := by
  obtain ⟨ms, hms, hplace⟩ := hplace
  have hbase : baseOf cwd q = baseOf cwd p := by rw [baseOf, baseOf, habs]
  have hcases (x : Location) (hx : x <+: placeOfPath cwd p) (hhas : d.HasFile file x) : x <+: placeOfPath cwd q := by
    rw [hplace] at hx
    rcases prefix_cases hms hx with hx | rfl
    · exact hx
    · exact absurd hhas (hplace ▸ hnot)
  refine ⟨fun r hr => ?_, fun hnone x hb hx hhas => h.none hnone x (hbase ▸ hb) (hcases x hx hhas) hhas⟩
  obtain ⟨hnearest, hb, habsr, hdots⟩ := h.some r hr
  refine ⟨⟨?_, hnearest.has, fun x hx hhas => hnearest.nearest x (hcases x hx hhas) hhas⟩, hbase ▸ hb,
    habsr.trans habs, hdots⟩
  exact hplace ▸ hnearest.above.trans (List.prefix_append _ _)

theorem Search.cons (h : d.IsWellFormed) (hfile : IsFileName file.toList) (hdots : ['.', '.'] ∉ rawNames p)
    (hdir : d.get? (placeOfPath cwd p) = .some .directory) {qs : List (List Char)}
    (hrest : ¬d.HasFile file (placeOfPath cwd p) →
      d.Search cwd file p (qs.find? fun q => d.isFile cwd (join q file.toList))) :
    d.Search cwd file p ((p :: qs).find? fun q => d.isFile cwd (join q file.toList)) := by
  have hisFile : d.isFile cwd (join p file.toList) = true ↔ d.HasFile file (placeOfPath cwd p) :=
    isFile_join h hfile hdots hdir
  rw [List.find?_cons]
  split
  · rename_i hfound
    exact .here (hisFile.1 hfound) hdots
  · rename_i hfound
    exact hrest fun hhas => by rw [hisFile.2 hhas] at hfound; cases hfound

theorem search_ancestorsWithin (h : d.IsWellFormed) (hfile : IsFileName file.toList) {fuel : Nat}
    (hfuel : p.length ≤ fuel) (hdots : ['.', '.'] ∉ rawNames p)
    (hdir : d.get? (placeOfPath cwd p) = some .directory) :
    d.Search cwd file p ((ancestorsWithin fuel p).find? fun q => d.isFile cwd (join q file.toList)) := by
  have hlast {p : List Char} (hdots : ['.', '.'] ∉ rawNames p) (hdir : d.get? (placeOfPath cwd p) = some .directory)
      (hparent : parent? p = .none) : d.Search cwd file p ([p].find? fun q => d.isFile cwd (join q file.toList)) := by
    refine .cons h hfile hdots hdir fun hnot => ⟨nofun, fun _ x hb hx hhas => ?_⟩
    rw [placeOfPath_of_parent?_none hparent] at hx hnot
    obtain rfl := hb.eq_of_length_le hx.length_le
    exact hnot hhas
  induction fuel generalizing p with
  | zero =>
    obtain rfl := List.length_eq_zero_iff.1 (Nat.le_zero.1 hfuel)
    exact hlast hdots hdir rfl
  | succ fuel ih =>
    rw [ancestorsWithin]
    cases hq : parent? p with
    | none => exact hlast hdots hdir hq
    | some q =>
      obtain ⟨habs, hdotsq, hlength, ms, hms, hplace⟩ := of_parent? hq hdots cwd
      have hdirq : d.get? (placeOfPath cwd q) = some .directory := by
        by_cases hnil : ms = []
        · rwa [hplace, hnil, List.append_nil] at hdir
        · exact h.tree.directory_above (hplace ▸ hdir) hnil
      refine .cons h hfile hdots hdir fun hnot => ?_
      exact (ih (by omega) hdotsq hdirq).above hnot habs ⟨ms, hms, hplace⟩

/-- The search for a file from a directory upwards. -/
theorem search_findUpwards (h : d.IsWellFormed) (hfile : IsFileName file.toList) (hdots : ['.', '.'] ∉ rawNames p)
    (hdir : d.get? (placeOfPath cwd p) = some .directory) :
    d.Search cwd file p (Workspace.findUpwards d cwd p file) :=
  search_ancestorsWithin h hfile (Nat.le_refl _) hdots hdir

theorem IsNearest.eq {r' : Location} (hr : d.IsNearest file l r) (hr' : d.IsNearest file l r') : r = r' :=
  (hr'.nearest r hr.above hr.has).eq_of_length_le (hr.nearest r' hr'.above hr'.has).length_le

theorem IsNearest.directory (h : d.IsWellFormed) (hr : d.IsNearest file l r) : d.get? r = some .directory := by
  obtain ⟨b, hb⟩ := hr.has
  exact h.tree.directory_above hb (List.cons_ne_nil _ _)

/-- A path without `..` to a directory. -/
structure Leads (d : Disk) (cwd : Location) (p : List Char) (l : Location) : Prop where
  free : ['.', '.'] ∉ rawNames p
  place : placeOfPath cwd p = l
  directory : d.get? l = some .directory

variable {o : Option (List Char)}

theorem Search.found (hsearch : d.Search cwd file p o) (h : d.IsWellFormed)
    (hr : d.IsNearest file (placeOfPath cwd p) r) (hbase : baseOf cwd p <+: r) :
    ∃ q, o = .some q ∧ d.Leads cwd q r := by
  cases o with
  | none => exact absurd hr.has (hsearch.none rfl r hbase hr.above)
  | some q =>
    obtain ⟨hnearest, -, -, hdots⟩ := hsearch.some q rfl
    exact ⟨q, rfl, hdots, hnearest.eq hr, hr.directory h⟩

theorem Search.missed (hsearch : d.Search cwd file p o) (hr : d.IsNearest file (placeOfPath cwd p) r)
    (hbase : ¬baseOf cwd p <+: r) : o = .none := by
  cases o with
  | none => rfl
  | some q =>
    obtain ⟨hnearest, hq, -, -⟩ := hsearch.some q rfl
    exact absurd (hnearest.eq hr ▸ hq) hbase

end Disk

end Federation
