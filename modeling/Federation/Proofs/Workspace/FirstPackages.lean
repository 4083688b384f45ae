import Mathlib.Data.Char
import Mathlib.Data.List.Lex
import Federation.Proofs.Workspace.Index

/-!
# Which package file decides

The version of a name in the package index is that of the first package file that declares it
(`index_get?_iff_first`). A file declares something (`Declares`) if its directory counts and its text is that of a named
package with a version; of all other files nothing is seen. First is meant in the order in which globs list files: the
included globs one after another, and the files of one glob as the search finds them.
-/

namespace Federation

open Federation.Path GlobPattern Disk

/-- The glob that an entry of the package list includes. -/
def WorkspaceConfig.includeOf? (entry : String) : Option String :=
  match Text.trim entry.toList with
  | [] => none
  | '!' :: _ => none
  | g => some (String.ofList (withoutEndSlashes g))

/-- The pattern that an entry of the package list excludes. -/
def WorkspaceConfig.excludeOf? (entry : String) : Option GlobPattern :=
  match Text.trim entry.toList with
  | '!' :: g => parse? (withoutEndSlashes g)
  | _ => none

/-- An entry takes out a directory, which is given as it is seen from the root. -/
def WorkspaceConfig.Excludes (entry : String) (below : List Char) : Prop :=
  ∃ g p, Text.trim entry.toList = '!' :: g ∧ parse? (withoutEndSlashes g) = some p ∧
    (p.isMatch below = true ∨ p.isMatch (join below packageFile.toList) = true)

/-- A package file declares a version of a name: its directory lies below the root, in no `node_modules`, and is not
excluded; and its text has both. -/
structure Declares (c : WorkspaceConfig) (d : Disk) (cwd : Location) (root file : List Char) (name version : String) :
    Prop where
  directory : ∃ dir below, parent? file = some dir ∧ relativeTo? root dir = some below ∧
    "node_modules".toList ∉ names below ∧ ∀ entry ∈ c.packages, ¬ WorkspaceConfig.Excludes entry below
  text : ∃ text, d.readText? cwd file = some text ∧ packageIdentity? text = some (name, version)

theorem Declares.unique {c : WorkspaceConfig} {d : Disk} {cwd : Location} {root file : List Char}
    {name version version' : String} (h : Declares c d cwd root file name version)
    (h' : Declares c d cwd root file name version') : version = version' := by
  obtain ⟨t, ht, hv⟩ := h.text
  obtain ⟨t', ht', hv'⟩ := h'.text
  cases ht.symm.trans ht'
  cases hv.symm.trans hv'
  rfl

/-- Paths name by name, each name by its characters. -/
def Alphabetical (p q : List Char) : Prop := rawNames p ≤ rawNames q

instance (p q : List Char) : Decidable (Alphabetical p q) := inferInstanceAs (Decidable (rawNames p ≤ rawNames q))

theorem Alphabetical.antisymm {p q : List Char} (h : Alphabetical p q) (h' : Alphabetical q p) : p = q := by
  have hnames : rawNames p = rawNames q := le_antisymm h h'
  rw [← join_rawNames p, ← join_rawNames q, hnames]

namespace WorkspaceConfig
variable {c : WorkspaceConfig} {entry : String} {below : List Char}

theorem addGlob_eq (globs : PackageGlobs) (entry : String) : addGlob globs entry =
    ⟨globs.included ++ (includeOf? entry).toList, globs.excluded ++ (excludeOf? entry).toList⟩ := by
  unfold addGlob includeOf? excludeOf?
  cases Text.trim entry.toList with
  | nil => simp
  | cons ch g =>
    by_cases hch : ch = '!'
    · subst hch
      cases hp : parse? (withoutEndSlashes g) <;> simp [hp]
    · simp [hch]

theorem packageGlobs_eq (c : WorkspaceConfig) :
    c.packageGlobs = ⟨c.packages.filterMap includeOf?, c.packages.filterMap excludeOf?⟩ := by
  have hfold (entries : List String) (globs : PackageGlobs) : entries.foldl addGlob globs =
      ⟨globs.included ++ entries.filterMap includeOf?, globs.excluded ++ entries.filterMap excludeOf?⟩ := by
    induction entries generalizing globs with
    | nil => simp
    | cons e es ih =>
      rw [List.foldl_cons, ih, addGlob_eq]
      cases hi : includeOf? e <;> cases he : excludeOf? e <;> simp [hi, he]
  exact hfold c.packages ⟨[], []⟩

theorem excludes_iff : Excludes entry below ↔
    ∃ p, excludeOf? entry = some p ∧ (p.isMatch below || p.isMatch (join below packageFile.toList)) = true := by
  simp only [Excludes, Bool.or_eq_true]
  constructor
  · rintro ⟨g, p, hg, hp, hmatch⟩
    exact ⟨p, by rw [excludeOf?, hg]; exact hp, hmatch⟩
  · rintro ⟨p, hp, hmatch⟩
    unfold excludeOf? at hp
    split at hp
    · rename_i g hg
      exact ⟨g, p, hg, hp, hmatch⟩
    · cases hp

theorem isExcluded_packageGlobs : c.packageGlobs.isExcluded below = true ↔
    ∃ entry ∈ c.packages, Excludes entry below := by
  rw [packageGlobs_eq, PackageGlobs.isExcluded, List.any_eq_true]
  simp only [List.mem_filterMap, excludes_iff]
  constructor
  · rintro ⟨p, ⟨entry, hentry, hp⟩, hmatch⟩
    exact ⟨entry, hentry, p, hp, hmatch⟩
  · rintro ⟨entry, hentry, p, hp, hmatch⟩
    exact ⟨p, ⟨entry, hentry, hp⟩, hmatch⟩

end WorkspaceConfig

namespace PackageGlobs

open WorkspaceConfig

variable {d : Disk} {l cwd : Location} {root file : List Char} {glob name version : String} {c : WorkspaceConfig}

/-! ### Files below the root -/

theorem directory_of_mem_glob (h : d.IsWellFormed) (habs : isAbsolute root = true)
    (hfile : file ∈ d.glob cwd (filePattern root glob)) : ∃ l, d.lookup cwd root = .found l .directory := by
  have hne : root ≠ [] := by
    rintro rfl
    cases habs
  have hidle : ∀ n ∈ idleNames glob, isIdle n = true := isIdle_of_mem_idleNames
  rw [Disk.glob] at hfile
  cases hwhole : parse? (filePattern root glob) with
  | none =>
    rw [hwhole] at hfile
    cases hfile
  | some whole =>
    rw [hwhole] at hfile
    dsimp only at hfile
    rw [components_filePattern hne, mapM_parse?_escaped, isAbsolute_filePattern hne, habs, if_pos rfl] at hfile
    cases hpats : ((fileNames glob).dropWhile isIdle).mapM parse? with
    | none =>
      rw [hpats] at hfile
      cases hfile
    | some pats =>
      rw [hpats] at hfile
      have hall := forall₂_of_mapM hpats
      have hpne : pats ≠ [] := by
        rintro rfl
        exact searched_ne_nil glob (List.forall₂_nil_right_iff.1 hall)
      have hselects := selects_of_parsed hall (slash_not_mem_searched glob) (getLast?_searched glob) (by decide)
      obtain ⟨x, hx⟩ := walk_of_mem_expand h (l := []) rfl (by decide) (slash_not_mem_fixedNames hidle) hpne
        hselects.free hfile
      rw [fixedNames, habs, if_pos rfl] at hx
      have hall : d.walk [] (rawNames root ++ idleNames glob) = .found x .directory := by
        rw [← hx]
        conv_lhs => rw [← List.takeWhile_append_dropWhile (p := isIdle) (l := rawNames root ++ idleNames glob)]
        exact walk_idle_append rfl (fun i hi => List.mem_takeWhile_imp hi) _
      rw [lookup_eq hne, baseOf, habs, if_pos rfl]
      cases hnames : idleNames glob with
      | nil => exact ⟨x, by rw [← hall, hnames, List.append_nil]⟩
      | cons i is =>
        have hplace : (d.walk [] (rawNames root ++ i :: is)).place? = some x := by rw [← hnames, hall]; rfl
        exact ⟨_, walk_append_inv hplace⟩

theorem sees_of_mem_glob (h : d.IsWellFormed) (habs : isAbsolute root = true)
    (hfile : file ∈ d.glob cwd (filePattern root glob)) :
    ∃ S, Sees root file S ∧ S.getLast? = some packageFile.toList := by
  obtain ⟨l, hroot⟩ := directory_of_mem_glob h habs hfile
  obtain ⟨l', node, S, htogether, hlast⟩ :=
    List.forall₂_same.1 (twin_glob h hroot hroot (.absolute habs) (.absolute habs)) file hfile
  exact ⟨S, htogether.sees, hlast⟩

theorem exists_below (h : d.IsWellFormed) (habs : isAbsolute root = true)
    (hfile : file ∈ d.glob cwd (filePattern root glob)) :
    ∃ dir below, parent? file = some dir ∧ relativeTo? root dir = some below := by
  obtain ⟨S, hsees, hlast⟩ := sees_of_mem_glob h habs hfile
  have hproper : IsProper packageFile.toList := by constructor <;> decide
  obtain ⟨dir, hdir⟩ := hsees.exists_parent hlast hproper
  have hdirne : dir ≠ [] := by
    rintro rfl
    cases (isAbsolute_parent? hdir).trans (hsees.absolute habs)
  exact ⟨dir, _, hdir, (hsees.above hlast hproper hdir hdirne).relativeTo?_of_absolute habs⟩

theorem admits_iff {dir below : List Char} (hbelow : relativeTo? root dir = some below) :
    c.packageGlobs.admits root dir = true ↔
      "node_modules".toList ∉ names below ∧ ∀ entry ∈ c.packages, ¬ Excludes entry below := by
  have hvendored : isVendored below = false ↔ "node_modules".toList ∉ names below := by
    rw [← Bool.not_eq_true, isVendored, List.contains_iff_mem]
  have hexcluded : c.packageGlobs.isExcluded below = false ↔ ∀ entry ∈ c.packages, ¬ Excludes entry below := by
    rw [← Bool.not_eq_true, isExcluded_packageGlobs, not_exists]
    exact forall_congr' fun entry => not_and
  rw [admits, hbelow, Option.getD_some, Bool.and_eq_true, Bool.not_eq_true', Bool.not_eq_true', hvendored, hexcluded]

theorem packageAt?_eq_some (h : d.IsWellFormed) (habs : isAbsolute root = true)
    (hfile : file ∈ d.glob cwd (filePattern root glob)) :
    c.packageGlobs.packageAt? d cwd root file = some (name, version) ↔ Declares c d cwd root file name version := by
  obtain ⟨dir, below, hdir, hbelow⟩ := exists_below h habs hfile
  rw [packageAt?, hdir]
  show (if _ then (d.readText? cwd file).bind _ else none) = _ ↔ _
  constructor
  · intro hpackage
    split at hpackage
    · rename_i hadmits
      exact ⟨⟨dir, below, hdir, hbelow, (admits_iff hbelow).1 hadmits⟩, Option.bind_eq_some_iff.1 hpackage⟩
    · cases hpackage
  · rintro ⟨⟨dir', below', hdir', hbelow', hadmits⟩, htext⟩
    cases hdir.symm.trans hdir'
    cases hbelow.symm.trans hbelow'
    rw [if_pos ((admits_iff hbelow).2 hadmits)]
    exact Option.bind_eq_some_iff.2 htext

/-! ### The first file that declares a name -/

/-- What a package file is to the index as far as one name goes. -/
def versionAt? (g : PackageGlobs) (d : Disk) (cwd : Location) (root : List Char) (name : String) (file : List Char) :
    Option String :=
  (g.packageAt? d cwd root file).bind fun p => if p.1 = name then some p.2 else none

theorem versionAt?_eq_some {g : PackageGlobs} : g.versionAt? d cwd root name file = some version ↔
    g.packageAt? d cwd root file = some (name, version) := by
  rw [versionAt?, Option.bind_eq_some_iff]
  constructor
  · rintro ⟨⟨name', version'⟩, hpackage, hname⟩
    split at hname
    · rename_i heq
      cases hname
      exact heq ▸ hpackage
    · cases hname
  · intro hpackage
    exact ⟨_, hpackage, if_pos rfl⟩

theorem get?_foldl {step : KeyMap String → List Char → KeyMap String} {version? : List Char → Option String}
    {name : String} (hstep : ∀ found file, (step found file).get? name = (found.get? name).or (version? file))
    (files : List (List Char)) (found : KeyMap String) :
    (files.foldl step found).get? name = (found.get? name).or (files.findSome? version?) := by
  induction files generalizing found with
  | nil => rw [List.foldl_nil, List.findSome?_nil, Option.or_none]
  | cons file files ih =>
    rw [List.foldl_cons, ih, hstep, Option.or_assoc, List.findSome?_cons]
    cases version? file <;> rfl

/-- The first version of a name stays, and a file that declares another name changes nothing for it. -/
theorem get?_index (g : PackageGlobs) (d : Disk) (cwd : Location) (root : List Char) (name : String) :
    (g.index d cwd root).get? name = (g.files d cwd root).findSome? (g.versionAt? d cwd root name) := by
  refine get?_foldl (fun found file => ?_) _ _
  rw [versionAt?]
  cases g.packageAt? d cwd root file with
  | none => exact (Option.or_none).symm
  | some p =>
    obtain ⟨name', version⟩ := p
    dsimp only [Option.bind_some]
    by_cases hname : name' = name
    · subst hname
      rw [if_pos rfl, KeyMap.contains]
      cases hfound : found.get? name' <;> simp [hfound]
    · rw [if_neg hname, Option.or_none]
      split
      · rfl
      · rw [KeyMap.get?_insert, if_neg (Ne.symm hname)]

theorem index_congr {g g' : PackageGlobs} (hincluded : g.included = g'.included)
    (hexcluded : ∀ below, g.isExcluded below = g'.isExcluded below) : g.index d cwd root = g'.index d cwd root := by
  have hadmits : g.admits root = g'.admits root := by
    funext dir
    rw [admits, admits, hexcluded]
  have hpackage : g.packageAt? d cwd root = g'.packageAt? d cwd root := by
    funext file
    rw [packageAt?, packageAt?, hadmits]
  rw [index, index, files, files, hincluded, hpackage]

theorem mem_files : file ∈ c.packageGlobs.files d cwd root ↔
    ∃ g ∈ c.packages.filterMap includeOf?, file ∈ d.glob cwd (filePattern root g) := by
  rw [files, packageGlobs_eq, List.mem_flatMap]

theorem versionAt?_iff (h : d.IsWellFormed) (habs : isAbsolute root = true)
    (hfile : file ∈ c.packageGlobs.files d cwd root) (name version : String) :
    c.packageGlobs.versionAt? d cwd root name file = some version ↔ Declares c d cwd root file name version := by
  obtain ⟨g, -, hg⟩ := mem_files.1 hfile
  rw [versionAt?_eq_some, packageAt?_eq_some h habs hg]

theorem versionAt?_eq_none (h : d.IsWellFormed) (habs : isAbsolute root = true)
    (hfile : file ∈ c.packageGlobs.files d cwd root) (name : String) :
    c.packageGlobs.versionAt? d cwd root name file = none ↔ ∀ version, ¬ Declares c d cwd root file name version := by
  simp only [Option.eq_none_iff_forall_ne_some, ne_eq, versionAt?_iff h habs hfile]

theorem get?_index_iff (h : d.IsWellFormed) (habs : isAbsolute root = true) (name version : String) :
    (c.packageGlobs.index d cwd root).get? name = some version ↔ ∃ before file after,
      c.packageGlobs.files d cwd root = before ++ file :: after ∧ Declares c d cwd root file name version ∧
      ∀ f ∈ before, ∀ v, ¬ Declares c d cwd root f name v := by
  rw [get?_index, List.findSome?_eq_some_iff]
  refine exists_congr fun before => exists_congr fun file => exists_congr fun after => and_congr_right fun hfiles => ?_
  have hmem (f : List Char) (hf : f ∈ before ++ file :: after) : f ∈ c.packageGlobs.files d cwd root := hfiles ▸ hf
  refine and_congr (versionAt?_iff h habs (hmem file (by simp)) name version) (forall₂_congr fun f hf => ?_)
  exact versionAt?_eq_none h habs (hmem f (List.mem_append_left _ hf)) name

/-- What comes first in lists behind one another comes before all others by the place of its list and, in one list, by
the order in which that is sorted. -/
theorem least_of_first {α β : Type} {r : β → β → Prop} (hrefl : ∀ b, r b b) {as : List α} {f : α → List β}
    (hsorted : ∀ a ∈ as, (f a).Pairwise r) {D : β → Prop} {before after : List β} {b : β}
    (hlist : as.flatMap f = before ++ b :: after) (hbefore : ∀ x ∈ before, ¬ D x) :
    ∃ (i : Nat) (a : α), as[i]? = some a ∧ b ∈ f a ∧
      ∀ (j : Nat) a' x, as[j]? = some a' → x ∈ f a' → D x → i < j ∨ i = j ∧ r b x := by
  induction as generalizing before with
  | nil => cases before <;> cases hlist
  | cons a as ih =>
    obtain ⟨ha, has⟩ := List.forall_mem_cons.1 hsorted
    -- in the lists behind the first one
    have hlater (t : List β) (hbefore' : before = f a ++ t) (hrest : as.flatMap f = t ++ b :: after) :
        ∃ (i : Nat) (a' : α), (a :: as)[i]? = some a' ∧ b ∈ f a' ∧
          ∀ (j : Nat) a'' x, (a :: as)[j]? = some a'' → x ∈ f a'' → D x → i < j ∨ i = j ∧ r b x := by
      subst hbefore'
      obtain ⟨i, a', hi, hb, hleast⟩ := ih has hrest fun x hx => hbefore x (List.mem_append_right _ hx)
      refine ⟨i + 1, a', hi, hb, fun j a'' x hj hx hD => ?_⟩
      cases j with
      | zero =>
        cases hj
        exact absurd hD (hbefore x (List.mem_append_left _ hx))
      | succ j =>
        rcases hleast j a'' x hj hx hD with hlt | ⟨rfl, hr⟩
        · exact .inl (Nat.succ_lt_succ hlt)
        · exact .inr ⟨rfl, hr⟩
    rw [List.flatMap_cons] at hlist
    rcases List.append_eq_append_iff.1 hlist with ⟨t, ht, hrest⟩ | ⟨s, hs, hrest⟩
    · exact hlater t ht hrest
    · cases s with
      | nil => exact hlater [] (by rw [hs, List.append_nil, List.append_nil]) hrest.symm
      | cons b' s =>
        cases hrest
        refine ⟨0, a, rfl, by rw [hs]; simp, fun j a' x hj hx hD => ?_⟩
        cases j with
        | succ j => exact .inl (Nat.succ_pos j)
        | zero =>
          cases hj
          refine .inr ⟨rfl, ?_⟩
          rw [hs] at hx ha
          rcases List.mem_append.1 hx with hx | hx
          · exact absurd hD (hbefore x hx)
          · rcases List.mem_cons.1 hx with rfl | hx
            · exact hrefl x
            · exact (List.pairwise_cons.1 (List.pairwise_append.1 ha).2.1).1 x hx

/-- Whether the files of each included glob are listed alphabetically. -/
def ListsAlphabetically (c : WorkspaceConfig) (d : Disk) (cwd : Location) (root : List Char) : Prop :=
  ∀ g ∈ c.packages.filterMap includeOf?, (d.glob cwd (filePattern root g)).Pairwise Alphabetical

instance : Decidable (ListsAlphabetically c d cwd root) :=
  inferInstanceAs (Decidable (∀ g ∈ c.packages.filterMap includeOf?,
    (d.glob cwd (filePattern root g)).Pairwise Alphabetical))

/-- The file that decides comes first by the place of its glob and then by its path, if each glob lists its files
alphabetically. -/
theorem get?_index_iff_least (h : d.IsWellFormed) (habs : isAbsolute root = true)
    (hsorted : ListsAlphabetically c d cwd root) (name version : String) :
    (c.packageGlobs.index d cwd root).get? name = some version ↔ ∃ (i : Nat) (g : String) (file : List Char),
      (c.packages.filterMap includeOf?)[i]? = some g ∧ file ∈ d.glob cwd (filePattern root g) ∧
      Declares c d cwd root file name version ∧
      ∀ (j : Nat) g' f v, (c.packages.filterMap includeOf?)[j]? = some g' → f ∈ d.glob cwd (filePattern root g') →
        Declares c d cwd root f name v → i < j ∨ i = j ∧ Alphabetical file f := by
  -- whatever is in the index, a least file declares it
  have hleast {version : String} (hget : (c.packageGlobs.index d cwd root).get? name = some version) :
      ∃ (i : Nat) (g : String) (file : List Char), (c.packages.filterMap includeOf?)[i]? = some g ∧
        file ∈ d.glob cwd (filePattern root g) ∧ Declares c d cwd root file name version ∧
        ∀ (j : Nat) g' f v, (c.packages.filterMap includeOf?)[j]? = some g' → f ∈ d.glob cwd (filePattern root g') →
          Declares c d cwd root f name v → i < j ∨ i = j ∧ Alphabetical file f := by
    obtain ⟨before, file, after, hfiles, hdeclares, hbefore⟩ := (get?_index_iff h habs name version).1 hget
    rw [files, packageGlobs_eq] at hfiles
    have hnone : ∀ f ∈ before, ¬ ∃ v, Declares c d cwd root f name v := fun f hf ⟨v, hv⟩ => hbefore f hf v hv
    obtain ⟨i, g, hi, hfile, hall⟩ := least_of_first (fun p => le_refl (rawNames p)) hsorted hfiles hnone
    exact ⟨i, g, file, hi, hfile, hdeclares, fun j g' f v hj hf hv => hall j g' f hj hf ⟨v, hv⟩⟩
  refine ⟨hleast, ?_⟩
  rintro ⟨i, g, file, hi, hfile, hdeclares, hall⟩
  have hmem : file ∈ c.packageGlobs.files d cwd root := mem_files.2 ⟨g, List.mem_of_getElem? hi, hfile⟩
  have hsome : (c.packageGlobs.index d cwd root).get? name ≠ none := by
    intro hnone
    rw [get?_index, List.findSome?_eq_none_iff] at hnone
    exact (versionAt?_eq_none h habs hmem name).1 (hnone file hmem) version hdeclares
  obtain ⟨version', hget⟩ := Option.ne_none_iff_exists'.1 hsome
  obtain ⟨i', g', file', hi', hfile', hdeclares', hall'⟩ := hleast hget
  -- neither of the two least files comes before the other
  obtain rfl : file = file' := by
    rcases hall i' g' file' version' hi' hfile' hdeclares' with hlt | ⟨rfl, hle⟩
    · rcases hall' i g file version hi hfile hdeclares with hlt' | ⟨rfl, -⟩
      · exact absurd hlt' (Nat.lt_asymm hlt)
      · exact absurd hlt (Nat.lt_irrefl _)
    · rcases hall' i g file version hi hfile hdeclares with hlt' | ⟨-, hle'⟩
      · exact absurd hlt' (Nat.lt_irrefl _)
      · exact hle.antisymm hle'
  rw [hget, hdeclares.unique hdeclares']

theorem index_exclusion_first {before after : List String} {entry : String} {catalog : KeyMap String}
    {catalogs : KeyMap (KeyMap String)} (hentry : ∃ g, Text.trim entry.toList = '!' :: g) :
    (⟨before ++ entry :: after, catalog, catalogs⟩ : WorkspaceConfig).packageGlobs.index d cwd root =
      (⟨entry :: (before ++ after), catalog, catalogs⟩ : WorkspaceConfig).packageGlobs.index d cwd root := by
  obtain ⟨g, hg⟩ := hentry
  have hinclude : includeOf? entry = none := by rw [includeOf?, hg]; rfl
  refine index_congr ?_ fun below => ?_
  · rw [packageGlobs_eq, packageGlobs_eq]
    simp only [List.filterMap_append, List.filterMap_cons_none hinclude]
  · rw [Bool.eq_iff_iff, isExcluded_packageGlobs, isExcluded_packageGlobs]
    simp only [List.mem_append, List.mem_cons, or_left_comm]

/-- Below an absolute root a name has a version in the index if and only if a package file declares it that some
included glob selects, and no file that declares the name comes before it: in the order in which the globs list the
files, and so, if each glob lists its files alphabetically, by the place of the glob in the workspace file and then by
the path. A file that declares nothing makes no difference, and an exclusion may stand anywhere in the workspace
file. -/
theorem index_get?_iff_first (h : d.IsWellFormed) (habs : isAbsolute root = true) (c : WorkspaceConfig)
    (cwd : Location) :
    let includes := c.packages.filterMap includeOf?
    let selected g := d.glob cwd (filePattern root g)
    let index := c.packageGlobs.index d cwd root
    (∀ name version, index.get? name = some version ↔ ∃ before file after,
      includes.flatMap selected = before ++ file :: after ∧ Declares c d cwd root file name version ∧
      ∀ f ∈ before, ∀ v, ¬ Declares c d cwd root f name v) ∧
    (ListsAlphabetically c d cwd root → ∀ name version, index.get? name = some version ↔
      ∃ (i : Nat) (g : String) (file : List Char), includes[i]? = some g ∧ file ∈ selected g ∧
        Declares c d cwd root file name version ∧
        ∀ (j : Nat) g' f v, includes[j]? = some g' → f ∈ selected g' → Declares c d cwd root f name v →
          i < j ∨ i = j ∧ Alphabetical file f) ∧
    ∀ before entry after, c.packages = before ++ entry :: after → (∃ g, Text.trim entry.toList = '!' :: g) →
      index = (⟨entry :: (before ++ after), c.catalog, c.catalogs⟩ :
        WorkspaceConfig).packageGlobs.index d cwd root := by
  intro includes selected index
  refine ⟨fun name version => ?_, get?_index_iff_least h habs, fun before entry after hpackages hentry => ?_⟩
  · have hfiles : c.packageGlobs.files d cwd root = includes.flatMap selected := by rw [files, packageGlobs_eq]
    rw [← hfiles]
    exact get?_index_iff h habs name version
  · obtain ⟨packages, catalog, catalogs⟩ := c
    obtain rfl : packages = _ := hpackages
    exact index_exclusion_first hentry

/-- Four package files: the first has no version, the second lies in an excluded directory, and the other two declare
versions of one name. -/
def rivalDisk : Disk :=
  ⟨[(["shop".toList], .directory), (["shop".toList, "a".toList], .directory),
    (["shop".toList, "a".toList, packageFile.toList], .file "\x7b\"name\":\"cart\"\x7d".toUTF8),
    (["shop".toList, "b".toList], .directory),
    (["shop".toList, "b".toList, packageFile.toList],
      .file "\x7b\"name\":\"cart\",\"version\":\"1.0.0\"\x7d".toUTF8),
    (["shop".toList, "c".toList], .directory), (["shop".toList, "c".toList, "cart".toList], .directory),
    (["shop".toList, "c".toList, "cart".toList, packageFile.toList],
      .file "\x7b\"name\":\"cart\",\"version\":\"2.0.0\"\x7d".toUTF8),
    (["shop".toList, "d".toList], .directory),
    (["shop".toList, "d".toList, packageFile.toList],
      .file "\x7b\"name\":\"cart\",\"version\":\"3.0.0\"\x7d".toUTF8)]⟩

theorem rivalDisk_isWellFormed : rivalDisk.IsWellFormed := by
  refine .of_nodes (fun e he => ?_) (by decide +kernel) (by decide +kernel)
  simp only [rivalDisk, List.mem_cons, List.not_mem_nil, or_false] at he
  rcases he with rfl | rfl | rfl | rfl | rfl | rfl | rfl | rfl | rfl | rfl <;> rfl

/-- Of them the third one decides, and it does so wherever the exclusion stands. -/
theorem index_get?_iff_first_of_rivals :
    let c : WorkspaceConfig := ⟨["a", "b", "c/*", "d", "!b"], .empty, .empty⟩
    let c' : WorkspaceConfig := ⟨["!b", "a", "b", "c/*", "d"], .empty, .empty⟩
    let root := "/shop".toList
    ListsAlphabetically c rivalDisk [] root ∧ (∃ file, Declares c rivalDisk [] root file "cart" "2.0.0") ∧
      (c.packageGlobs.index rivalDisk [] root).get? "cart" = some "2.0.0" ∧
      (c'.packageGlobs.index rivalDisk [] root).get? "cart" = some "2.0.0" := by
  intro c c' root
  have habs : isAbsolute root = true := rfl
  obtain ⟨-, hleast, hmoved⟩ := index_get?_iff_first rivalDisk_isWellFormed habs c []
  have hsorted : ListsAlphabetically c rivalDisk [] root := by decide +kernel
  have hget : (c.packageGlobs.index rivalDisk [] root).get? "cart" = some "2.0.0" := by decide +kernel
  obtain ⟨i, g, file, hi, hfile, hdeclares, -⟩ := (hleast hsorted "cart" "2.0.0").1 hget
  have hindex := hmoved ["a", "b", "c/*", "d"] "!b" [] rfl ⟨['b'], by decide⟩
  exact ⟨hsorted, ⟨file, hdeclares⟩, hget, (congrArg (·.get? "cart") hindex).symm.trans hget⟩

end PackageGlobs

end Federation
