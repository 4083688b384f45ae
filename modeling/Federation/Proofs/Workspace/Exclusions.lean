import Federation.Proofs.Glob.WithinNames
import Federation.Proofs.Workspace.FirstPackages

/-!
# One glob that includes and excludes

A glob includes the package files whose paths it matches name by name, so its wildcards stay within names. The same glob
behind an exclamation mark excludes the directories that it matches as texts, with or without the name of the package
file, and there `*` also stands for slashes. So it excludes whatever it includes (`includes_iff_within`), and more: of
`apps/*` it excludes `apps/a/b` as well (`deeper_excluded`).
-/

namespace Federation

open Federation.Path GlobPattern Disk

/-- A glob of which every component leads down. -/
def PlainGlob (g : String) : Prop := ∀ n ∈ rawNames g.toList, PlainName n

instance (g : String) : Decidable (PlainGlob g) := inferInstanceAs (Decidable (∀ n ∈ rawNames g.toList, PlainName n))

/-- An entry of the package list selects the package file at a location. -/
def WorkspaceConfig.Includes (entry : String) (d : Disk) (cwd : Location) (root : List Char) (l : Location) : Prop :=
  ∃ g file node, includeOf? entry = some g ∧ file ∈ d.glob cwd (PackageGlobs.filePattern root g) ∧
    d.lookup cwd file = .found l node

/-- The package globs of a workspace file with these entries. -/
def WorkspaceConfig.globsOf (entries : List String) : PackageGlobs :=
  (⟨entries, .empty, .empty⟩ : WorkspaceConfig).packageGlobs

namespace PackageGlobs

open WorkspaceConfig

variable {d : Disk} {l cwd : Location} {root file : List Char} {g : String} {ds : List Name} {node : DiskNode}
  {pattern whole pat : GlobPattern} {pats : List GlobPattern} {tss : List (List GlobToken)} {ts : List GlobToken}

/-! ### A glob, as a whole and by components -/

/-- A glob is read as a whole, alone and with the name of package files, and by components. -/
structure Reading (g : String) (pattern whole : GlobPattern) (pats : List GlobPattern) (tss : List (List GlobToken))
    (pat : GlobPattern) (ts : List GlobToken) : Prop where
  parse : parse? g.toList = some pattern
  parse_file : parse? (g.toList ++ '/' :: packageFile.toList) = some whole
  idle : idleNames g = []
  searched : searched? g = some (pats ++ [pat])
  components : Components (rawNames g.toList) pats tss
  components_file : Components (fileNames g) (pats ++ [pat]) (tss ++ [ts])
  tokens : Same pattern.tokens (flat tss)
  tokens_file : Same whole.tokens (flat (tss ++ [ts]))
  denotes : Denotes pat ts
  literal : pat.literal? = some packageFile.toList

theorem exists_reading (h : PlainGlob g) :
    ∃ pattern whole pats tss pat ts, Reading g pattern whole pats tss pat ts := by
  have hfile : ∀ n ∈ [packageFile.toList], PlainName n ∧ '/' ∉ n := by decide
  have hglob : ∀ n ∈ rawNames g.toList, PlainName n ∧ '/' ∉ n :=
    fun n hn => ⟨h n hn, slash_not_mem_of_mem_rawNames hn⟩
  obtain ⟨pats, tss, hc⟩ := exists_components hglob
  obtain ⟨_ | ⟨pat, _⟩, _ | ⟨ts, _⟩, hf⟩ := exists_components hfile
  · cases hf.parsed
  · cases hf.parsed
  · cases hf.reads
  obtain ⟨hpat, hnil⟩ := List.forall₂_cons.1 hf.parsed
  obtain rfl := List.forall₂_nil_left_iff.1 hnil
  obtain ⟨hdenotes, hnil'⟩ := List.forall₂_cons.1 hf.denotes
  obtain rfl := List.forall₂_nil_left_iff.1 hnil'
  have hall := hc.append hf
  have hfree : ∀ n ∈ fileNames g, '/' ∉ n :=
    List.forall_mem_append.2 ⟨fun n hn => (hglob n hn).2, fun n hn => (hfile n hn).2⟩
  obtain ⟨pattern, hpattern, hsame⟩ := hc.exists_parse? fun n hn => (hglob n hn).2
  obtain ⟨whole, hwhole, hsame'⟩ := hall.exists_parse? hfree
  rw [join_rawNames] at hpattern
  rw [Text.join_append (rawNames_ne_nil _) (List.cons_ne_nil _ _), join_rawNames, List.append_assoc] at hwhole
  have hidle : idleNames g = [] := by
    obtain ⟨n, ns, hraw⟩ := List.exists_cons_of_ne_nil (rawNames_ne_nil g.toList)
    have hn : isIdle n = false := (h n (by rw [hraw]; exact List.mem_cons_self)).isProper.1
    rw [idleNames, hraw, List.takeWhile_cons_of_neg (by rw [hn]; exact Bool.false_ne_true)]
  have hsearched : searched? g = some (pats ++ [pat]) := by
    have hwhole : parse? (g.toList ++ '/' :: packageFile.toList) = some whole := hwhole
    have hnames := fileNames_eq g
    rw [hidle, List.nil_append] at hnames
    rw [searched?, hwhole, Option.isSome_some, if_pos rfl, ← hnames]
    exact mapM_of_forall₂ hall.parsed
  have hliteral : (parse? packageFile.toList).bind literal? = some packageFile.toList := by decide
  rw [hpat, Option.bind_some] at hliteral
  exact ⟨pattern, whole, pats, tss, pat, ts, hpattern, hwhole, hidle, hsearched, hc, hall, hsame, hsame', hdenotes,
    hliteral⟩

/-! ### What a glob includes -/

/-- The path by which a search finds the package file of a directory. -/
def fileAt (root : List Char) (ds : List Name) : List Char :=
  (ds ++ [packageFile.toList]).foldl stepInto (fixedPath root [])

/-- The path of the package file, as it is seen from the root. -/
def fileBelow (ds : List Name) : List Char := Text.join ['/'] (ds ++ [packageFile.toList])

theorem names_of_get? (h : d.IsWellFormed) (hnode : d.get? (l ++ (ds ++ [packageFile.toList])) = some node) :
    ∀ n ∈ ds ++ [packageFile.toList], IsProper n ∧ '/' ∉ n := by
  intro n hn
  obtain ⟨hproper, -, hfree⟩ := h.names _ _ hnode n (List.mem_append_right l hn)
  exact ⟨hproper, hfree⟩

theorem names_of_directory (h : d.IsWellFormed) (hnode : d.get? (l ++ (ds ++ [packageFile.toList])) = some node) :
    ∀ n ∈ ds, IsProper n ∧ '/' ∉ n := fun n hn => names_of_get? h hnode n (List.mem_append_left _ hn)

theorem Reading.search (hg : Reading g pattern whole pats tss pat ts) (h : d.IsWellFormed)
    (hroot : d.lookup cwd root = .found l .directory) (hs : Sighted root []) :
    d.lookup cwd (fixedPath root []) = .found l .directory ∧
      ∃ fuel, Enough d l (pats ++ [pat]) fuel ∧
        d.glob cwd (filePattern root g) = d.expand cwd fuel (pats ++ [pat]) (fixedPath root []) := by
  have hpoint : isAbsolute root = false → [] ∉ (fixedNames root (idleNames g)).takeWhile isIdle := by
    rw [hg.idle]
    exact hs.free
  obtain ⟨fuel, hfuel, hstart, hglob⟩ := (glob_filePattern h hroot hpoint).2 _ hg.searched
  rw [hg.idle] at hstart hglob
  exact ⟨hstart, fuel, hfuel, hglob⟩

theorem Reading.fits_iff (hg : Reading g pattern whole pats tss pat ts) (h : d.IsWellFormed)
    (hnode : d.get? (l ++ (ds ++ [packageFile.toList])) = some node) :
    Fits (pats ++ [pat]) (ds ++ [packageFile.toList]) ↔ Matches (· ≠ '/') whole.tokens (fileBelow ds) := by
  have hfree : ∀ n ∈ ds ++ [packageFile.toList], '/' ∉ n := fun n hn => (names_of_get? h hnode n hn).2
  rw [hg.tokens_file, fileBelow]
  exact GlobPattern.fits_iff hg.components_file.denotes (selects_of_searched? hg.searched).1 (by decide) hfree (by simp)

/-- A glob selects the package files whose paths below the root it matches within names. -/
theorem Reading.mem_glob_iff (hg : Reading g pattern whole pats tss pat ts) (h : d.IsWellFormed)
    (hroot : d.lookup cwd root = .found l .directory) (hs : Sighted root []) :
    file ∈ d.glob cwd (filePattern root g) ↔ ∃ ds node, d.get? (l ++ (ds ++ [packageFile.toList])) = some node ∧
      Matches (· ≠ '/') whole.tokens (fileBelow ds) ∧ file = fileAt root ds := by
  have hselects := (selects_of_searched? hg.searched).1
  obtain ⟨hstart, fuel, hfuel, hglob⟩ := hg.search h hroot hs
  rw [hglob, finds h fuel _ l .directory _ file hselects hg.components_file.downward hstart hfuel]
  constructor
  · rintro ⟨ns, node, hns, hnode, rfl⟩
    obtain ⟨ds, rfl⟩ := hns.exists_concat hselects
    exact ⟨ds, node, hnode, (hg.fits_iff h hnode).1 hns, rfl⟩
  · rintro ⟨ds, node, hnode, hmatch, rfl⟩
    exact ⟨_, node, (hg.fits_iff h hnode).2 hmatch, hnode, rfl⟩

theorem Reading.lookup_fileAt (hg : Reading g pattern whole pats tss pat ts) (h : d.IsWellFormed)
    (hroot : d.lookup cwd root = .found l .directory) (hs : Sighted root [])
    (hnode : d.get? (l ++ (ds ++ [packageFile.toList])) = some node) :
    d.lookup cwd (fileAt root ds) = .found (l ++ (ds ++ [packageFile.toList])) node :=
  lookup_foldl h (hg.search h hroot hs).1 hnode

theorem Reading.eq_of_lookup {ds' : List Name} {node' : DiskNode} (hg : Reading g pattern whole pats tss pat ts)
    (h : d.IsWellFormed) (hroot : d.lookup cwd root = .found l .directory) (hs : Sighted root [])
    (hnode : d.get? (l ++ (ds ++ [packageFile.toList])) = some node)
    (hlookup : d.lookup cwd (fileAt root ds) = .found (l ++ (ds' ++ [packageFile.toList])) node') : ds = ds' := by
  have hplace := (DiskLookup.found.inj ((hg.lookup_fileAt h hroot hs hnode).symm.trans hlookup)).1
  exact List.append_cancel_right (List.append_cancel_left hplace)

theorem Reading.fileAt_mem_glob (hg : Reading g pattern whole pats tss pat ts) (h : d.IsWellFormed)
    (hroot : d.lookup cwd root = .found l .directory) (hs : Sighted root [])
    (hnode : d.get? (l ++ (ds ++ [packageFile.toList])) = some node) :
    fileAt root ds ∈ d.glob cwd (filePattern root g) ↔ Matches (· ≠ '/') whole.tokens (fileBelow ds) := by
  rw [hg.mem_glob_iff h hroot hs]
  constructor
  · rintro ⟨ds', node', hnode', hmatch, hpath⟩
    have hlookup := hg.lookup_fileAt h hroot hs hnode
    rw [hpath] at hlookup
    rwa [hg.eq_of_lookup h hroot hs hnode' hlookup] at hmatch
  · exact fun hmatch => ⟨ds, node, hnode, hmatch, rfl⟩

/-- The directory of a package file is seen from the root as the text of its names. -/
theorem below_fileAt (h : d.IsWellFormed) (hs : Sighted root [])
    (hnode : d.get? (l ++ (ds ++ [packageFile.toList])) = some node) :
    ∃ dir, parent? (fileAt root ds) = some dir ∧ (relativeTo? root dir).getD dir = Text.join ['/'] ds := by
  have hproper : IsProper packageFile.toList := by constructor <;> decide
  have hnames := names_of_get? h hnode
  have hsees : Sees root (fileAt root ds) (ds ++ [packageFile.toList]) :=
    sees_foldl_proper (sees_start hs (List.forall_mem_nil _)) (List.forall_mem_nil _) hnames
  have hlast : (ds ++ [packageFile.toList]).getLast? = some packageFile.toList := List.getLast?_concat
  have houter : outer (ds ++ [packageFile.toList]) = ds := by
    have hkept : ds.reverse.dropWhile isIdle = ds.reverse := by
      cases hrev : ds.reverse with
      | nil => rfl
      | cons n ns =>
        have hn : n ∈ ds := List.mem_reverse.1 (by rw [hrev]; exact List.mem_cons_self)
        exact dropWhile_of_not_isIdle (hnames n (List.mem_append_left _ hn)).1.1 ns
    rw [outer, List.dropLast_concat, hkept, List.reverse_reverse]
  obtain ⟨dir, hdir⟩ := hsees.exists_parent hlast hproper
  exact ⟨dir, hdir, by rw [hsees.parent hlast hproper hdir, houter]⟩

theorem fileBelow_cases (ds : List Name) : ds = [] ∧ fileBelow ds = packageFile.toList ∨
    ds ≠ [] ∧ fileBelow ds = Text.join ['/'] ds ++ '/' :: packageFile.toList := by
  by_cases hds : ds = []
  · exact .inl ⟨hds, by rw [hds]; rfl⟩
  · refine .inr ⟨hds, ?_⟩
    rw [fileBelow, Text.join_append hds (List.cons_ne_nil _ _), List.append_assoc]
    rfl

/-! ### What it excludes -/

theorem join_packageFile (hds : ∀ n ∈ ds, IsProper n ∧ '/' ∉ n) :
    join (Text.join ['/'] ds) packageFile.toList = fileBelow ds := by
  by_cases hnil : ds = []
  · subst hnil
    rfl
  · have hfree : ∀ n ∈ ds, '/' ∉ n := fun n hn => (hds n hn).2
    have hraw := rawNames_join hnil hfree
    have hne : Text.join ['/'] ds ≠ [] := by
      intro hempty
      rw [hempty] at hraw
      cases (hds [] (by rw [← hraw]; exact List.mem_cons_self)).1.1
    rcases rawNames_join_cases hne (n := packageFile.toList) (by decide) with ⟨ns, hns, -⟩ | ⟨-, hjoin⟩
    · rw [hraw] at hns
      cases (hds [] (by rw [hns]; simp)).1.1
    · rw [hraw] at hjoin
      rw [fileBelow, ← hjoin, join_rawNames]

/-- What the whole pattern of a glob matches, the glob alone matches too: the package file or its directory. -/
theorem Reading.matches_alone (hg : Reading g pattern whole pats tss pat ts)
    (hmatch : Matches (fun _ => True) whole.tokens (fileBelow ds)) :
    pattern.isMatch (Text.join ['/'] ds) = true ∨ pattern.isMatch (fileBelow ds) = true := by
  rw [isMatch_iff, isMatch_iff, hg.tokens, hg.tokens]
  have hne : tss ≠ [] := by
    rintro rfl
    exact rawNames_ne_nil g.toList (List.forall₂_nil_right_iff.1 hg.components.reads)
  have hts (u : List Char) (hu : Matches (fun _ => True) ts u) : u = packageFile.toList :=
    (isMatch_of_literal? hg.literal).1 ((hg.denotes.isMatch_iff u).2 hu)
  rcases matches_flat_concat hne hts ((hg.tokens_file _ _).1 hmatch) with hfile | ⟨u, hu, hdir⟩
  · exact .inr hfile
  · rcases fileBelow_cases ds with ⟨-, hbelow⟩ | ⟨-, hbelow⟩
    · have hslash : '/' ∈ packageFile.toList := by
        rw [← hbelow, hu]
        simp
      exact absurd hslash (by decide)
    · rw [← List.append_cancel_right (hu.symm.trans hbelow)]
      exact .inl hdir

/-- One entry of a package list excludes the glob that another one includes. -/
def Opposite (inclusion exclusion : String) : Prop :=
  Text.trim exclusion.toList = '!' :: Text.trim inclusion.toList

instance (inclusion exclusion : String) : Decidable (Opposite inclusion exclusion) :=
  inferInstanceAs (Decidable (_ = _))

theorem includeOf?_eq_some {entry : String} (h : includeOf? entry = some g) :
    WorkspaceConfig.withoutEndSlashes (Text.trim entry.toList) = g.toList := by
  unfold includeOf? at h
  split at h
  · cases h
  · cases h
  · cases h
    rw [String.toList_ofList]

theorem Reading.excludes_iff (hg : Reading g pattern whole pats tss pat ts) {inclusion exclusion : String}
    (hinclude : includeOf? inclusion = some g) (hexclude : Opposite inclusion exclusion)
    (hds : ∀ n ∈ ds, IsProper n ∧ '/' ∉ n) :
    Excludes exclusion (Text.join ['/'] ds) ↔
      pattern.isMatch (Text.join ['/'] ds) = true ∨ pattern.isMatch (fileBelow ds) = true := by
  have hparse : parse? (WorkspaceConfig.withoutEndSlashes (Text.trim inclusion.toList)) = some pattern := by
    rw [includeOf?_eq_some hinclude, hg.parse]
  rw [← join_packageFile hds]
  constructor
  · rintro ⟨g', p, hg', hp, hmatch⟩
    cases hexclude.symm.trans hg'
    cases hparse.symm.trans hp
    exact hmatch
  · exact fun hmatch => ⟨_, pattern, hexclude, hparse, hmatch⟩

theorem Reading.includes_iff (hg : Reading g pattern whole pats tss pat ts) {inclusion : String}
    (hinclude : includeOf? inclusion = some g) (h : d.IsWellFormed) (hroot : d.lookup cwd root = .found l .directory)
    (hs : Sighted root [])
    (hnode : d.get? (l ++ (ds ++ [packageFile.toList])) = some node) :
    Includes inclusion d cwd root (l ++ (ds ++ [packageFile.toList])) ↔
      Matches (· ≠ '/') whole.tokens (fileBelow ds) := by
  rw [← hg.fileAt_mem_glob h hroot hs hnode]
  constructor
  · rintro ⟨g', file, node', hg', hfile, hlookup⟩
    cases hinclude.symm.trans hg'
    obtain ⟨ds', node'', hnode', -, rfl⟩ := (hg.mem_glob_iff h hroot hs).1 hfile
    rwa [hg.eq_of_lookup h hroot hs hnode' hlookup] at hfile
  · exact fun hfile => ⟨g, _, node, hinclude, hfile, hg.lookup_fileAt h hroot hs hnode⟩

/-! ### Globs whose only wildcard is `**` -/

/-- A glob of fixed names and `**` that does not end with the name of package files. -/
structure FixedGlob (g : String) : Prop where
  components : ∀ n ∈ rawNames g.toList, n = ['*', '*'] ∨ ∀ c ∈ n, isSpecial c = false
  last : (rawNames g.toList).getLast? ≠ some packageFile.toList

theorem Reading.isName (hg : Reading g pattern whole pats tss pat ts) :
    ∀ us ∈ tss, us = [.anyDirectories] ∨ IsName us := by
  intro us hus
  obtain ⟨n, hn, hreads⟩ := exists_mem_of_forall₂ hg.components.reads hus
  rcases hreads.isName (slash_not_mem_of_mem_rawNames hn) with hname | ⟨-, -, hdirs⟩
  · exact .inr hname
  · exact .inl hdirs

/-- No token of such a glob stands for any other character than its own. -/
theorem FixedGlob.tokens {t : GlobToken} (hf : FixedGlob g) (hg : Reading g pattern whole pats tss pat ts)
    (ht : t ∈ flat tss) : t = .anyDirectories ∨ ∃ c, t = .char c := by
  rcases mem_flat ht with rfl | ⟨us, hus, ht⟩
  · exact .inr ⟨'/', rfl⟩
  · obtain ⟨n, hn, hreads⟩ := exists_mem_of_forall₂ hg.components.reads hus
    rcases hf.components n hn with rfl | hfixed
    · rw [hreads.eq_directories] at ht
      exact .inl (List.mem_singleton.1 ht)
    · rw [hreads.eq_map hfixed] at ht
      obtain ⟨c, -, rfl⟩ := List.mem_map.1 ht
      exact .inr ⟨c, rfl⟩

/-- If such a glob ends with `**`, it includes what it matches as a text. -/
theorem Reading.matches_whole_of_directories (hg : Reading g pattern whole pats tss pat ts)
    (hlast : (rawNames g.toList).getLast? = some ['*', '*']) (hds : ∀ n ∈ ds, '/' ∉ n)
    (hmatch : Matches (· ≠ '/') (flat tss) (Text.join ['/'] ds) ∨ Matches (· ≠ '/') (flat tss) (fileBelow ds)) :
    Matches (· ≠ '/') whole.tokens (fileBelow ds) := by
  obtain ⟨us, hus, hreads⟩ := getLast?_of_forall₂ hg.components.reads hlast
  rw [hreads.eq_directories] at hus
  have hall : Matches (· ≠ '/') (flat tss) (fileBelow ds) := by
    rcases hmatch with hdir | hfile
    · rcases fileBelow_cases ds with ⟨rfl, hbelow⟩ | ⟨-, hbelow⟩
      · rw [hbelow]
        exact hdir.extend (getLast?_flat hus) packageFile.toList
      · rw [hbelow]
        exact hdir.extend (getLast?_flat hus) ('/' :: packageFile.toList)
    · exact hfile
  have hfree : ∀ n ∈ ds ++ [packageFile.toList], '/' ∉ n := List.forall_mem_append.2 ⟨hds, by decide⟩
  have hts : Matches (· ≠ '/') ts packageFile.toList := by
    refine ((hg.denotes.isMatch_iff _).1 ((isMatch_of_literal? hg.literal).2 rfl)).imp fun c hc _ => ?_
    rintro rfl
    exact absurd hc (by decide)
  rw [hg.tokens_file]
  refine matches_flat_last hg.isName hus (by decide) hts hall ?_
  rw [fileBelow, rawNames_join (by simp) hfree, List.getLast?_concat]

/-- If it ends with a name, too, unless that is the name of package files. -/
theorem Reading.matches_whole_of_name {n : Name} (hg : Reading g pattern whole pats tss pat ts) (h : d.IsWellFormed)
    (hnode : d.get? (l ++ (ds ++ [packageFile.toList])) = some node)
    (hlast : (rawNames g.toList).getLast? = some n) (hn : n ≠ []) (hfixed : ∀ c ∈ n, isSpecial c = false)
    (hfile : n ≠ packageFile.toList)
    (hmatch : Matches (· ≠ '/') (flat tss) (Text.join ['/'] ds) ∨ Matches (· ≠ '/') (flat tss) (fileBelow ds)) :
    Matches (· ≠ '/') whole.tokens (fileBelow ds) := by
  have hfree : ∀ m ∈ ds ++ [packageFile.toList], '/' ∉ m := fun m hm => (names_of_get? h hnode m hm).2
  have hselects : Selects n pats := selects_of_parsed hg.components.parsed
    (fun m hm => slash_not_mem_of_mem_rawNames hm) hlast (parse?_of_not_special hfixed)
  have hfits {ns : List Name} (hns : ∀ m ∈ ns, '/' ∉ m) (hne : ns ≠ [])
      (hmatch : Matches (· ≠ '/') (flat tss) (Text.join ['/'] ns)) : Fits pats ns :=
    (GlobPattern.fits_iff hg.components.denotes hselects hn hns hne).2 hmatch
  rcases hmatch with hdir | hall
  · have hds : ds ≠ [] := by
      rintro rfl
      exact not_matches_nil hg.components.denotes hselects hn hdir
    have hpackage : Fits [pat] [packageFile.toList] :=
      (fits_name_cons (isRecursive_of_literal? hg.literal)).2 ⟨(isMatch_of_literal? hg.literal).2 rfl, rfl⟩
    exact (hg.fits_iff h hnode).1 ((hfits (fun m hm => hfree m (List.mem_append_left _ hm)) hds hdir).append hpackage)
  · obtain ⟨ms, hms⟩ := (hfits hfree (by simp) hall).exists_concat hselects
    exact absurd (List.append_inj_right' hms rfl) (by simpa using Ne.symm hfile)

/-- What such a glob excludes, it includes. -/
theorem FixedGlob.matches_whole (hf : FixedGlob g) (hplain : PlainGlob g)
    (hg : Reading g pattern whole pats tss pat ts) (h : d.IsWellFormed)
    (hnode : d.get? (l ++ (ds ++ [packageFile.toList])) = some node)
    (hmatch : pattern.isMatch (Text.join ['/'] ds) = true ∨ pattern.isMatch (fileBelow ds) = true) :
    Matches (· ≠ '/') whole.tokens (fileBelow ds) := by
  have hwithin {s : List Char} (hs : pattern.isMatch s = true) : Matches (· ≠ '/') (flat tss) s :=
    ((hg.tokens _ s).1 (isMatch_iff.1 hs)).of_fixed fun t ht => hf.tokens hg ht
  have hmatch := hmatch.imp hwithin hwithin
  obtain ⟨n, hlast⟩ := Option.ne_none_iff_exists'.1 (mt List.getLast?_eq_none_iff.1 (rawNames_ne_nil g.toList))
  have hmem : n ∈ rawNames g.toList := List.mem_of_getLast? hlast
  rcases hf.components n hmem with rfl | hfixed
  · exact hg.matches_whole_of_directories hlast (fun n hn => (names_of_directory h hnode n hn).2) hmatch
  · refine hg.matches_whole_of_name h hnode hlast (hplain n hmem).1 hfixed (fun hn => hf.last ?_) hmatch
    rw [hlast, hn]

/-! ### One glob less another -/

theorem findSome?_filter {α β : Type} {f f' : α → Option β} {p : α → Prop} [DecidablePred p] {as : List α}
    (h : ∀ a ∈ as, f' a = if p a then f a else none) : as.findSome? f' = (as.filter p).findSome? f := by
  induction as with
  | nil => rfl
  | cons a as ih =>
    obtain ⟨ha, has⟩ := List.forall_mem_cons.1 h
    rw [List.findSome?_cons, ha, ih has]
    by_cases hp : p a
    · rw [if_pos hp, List.filter_cons, if_pos (decide_eq_true hp), List.findSome?_cons]
    · rw [if_neg hp, List.filter_cons, if_neg (by simpa using hp)]

theorem admits_concat {entries : List String} {exclusion : String} {dir below : List Char}
    (hbelow : (relativeTo? root dir).getD dir = below) :
    (globsOf (entries ++ [exclusion])).admits root dir = true ↔
      (globsOf entries).admits root dir = true ∧ ¬ Excludes exclusion below := by
  have hexcluded : (globsOf (entries ++ [exclusion])).isExcluded below = true ↔
      (globsOf entries).isExcluded below = true ∨ Excludes exclusion below := by
    simp only [globsOf, isExcluded_packageGlobs, List.mem_append, List.mem_singleton, or_and_right, exists_or,
      exists_eq_left]
  simp only [admits, hbelow, Bool.and_eq_true, Bool.not_eq_true', ← Bool.not_eq_true, hexcluded, not_or, and_assoc]

/-- Of the directories that count, an exclusion takes out none but those that an inclusion selects. -/
def Agree (d : Disk) (l cwd : Location) (root : List Char) (inclusion exclusion : String) : Prop :=
  ∀ ds node, d.get? (l ++ (ds ++ [packageFile.toList])) = some node → isVendored (Text.join ['/'] ds) = false →
    Excludes exclusion (Text.join ['/'] ds) → Includes inclusion d cwd root (l ++ (ds ++ [packageFile.toList]))

/-- If they agree, what is left of a glob is what the included one does not select. -/
theorem Reading.packageAt?_less (hg : Reading g pattern whole pats tss pat ts) {inclusion exclusion other a : String}
    (hinclude : includeOf? inclusion = some g) (hexclude : Opposite inclusion exclusion) (ha : PlainGlob a)
    (h : d.IsWellFormed) (hroot : d.lookup cwd root = .found l .directory) (hs : Sighted root [])
    (hagree : Agree d l cwd root inclusion exclusion) (hfile : file ∈ d.glob cwd (filePattern root a)) :
    (globsOf [other, exclusion]).packageAt? d cwd root file =
      if file ∉ d.glob cwd (filePattern root g) then
        (globsOf [other]).packageAt? d cwd root file
      else none := by
  obtain ⟨_, _, _, _, _, _, hreading⟩ := exists_reading ha
  obtain ⟨ds, node, hnode, -, hpath⟩ := (hreading.mem_glob_iff h hroot hs).1 hfile
  obtain ⟨dir, hdir, hbelow⟩ := below_fileAt h hs hnode
  rw [← hpath] at hdir
  have hds := names_of_directory h hnode
  have hboth : (globsOf ([other] ++ [exclusion])).admits root dir = true ↔
      (globsOf [other]).admits root dir = true ∧ ¬ Excludes exclusion (Text.join ['/'] ds) :=
    admits_concat hbelow
  rw [List.singleton_append] at hboth
  have hmem := hg.fileAt_mem_glob h hroot hs hnode
  rw [← hpath] at hmem
  rw [packageAt?, packageAt?, hdir]
  show (if _ then (d.readText? cwd file).bind _ else none) =
    if _ then (if _ then (d.readText? cwd file).bind _ else none) else none
  by_cases hselected : file ∈ d.glob cwd (filePattern root g)
  · have hexcluded : Excludes exclusion (Text.join ['/'] ds) :=
      (hg.excludes_iff hinclude hexclude hds).2 (hg.matches_alone ((hmem.1 hselected).imp fun _ _ _ => trivial))
    rw [if_neg fun hadmits => (hboth.1 hadmits).2 hexcluded, if_neg (not_not.2 hselected)]
  · rw [if_pos hselected]
    by_cases hadmits : (globsOf [other]).admits root dir = true
    · have hnot : isVendored (Text.join ['/'] ds) = false := by
        rw [admits, hbelow, Bool.and_eq_true, Bool.not_eq_true'] at hadmits
        exact hadmits.1
      have hleft : ¬ Excludes exclusion (Text.join ['/'] ds) := fun hexcluded =>
        hselected (hmem.2 ((hg.includes_iff hinclude h hroot hs hnode).1 (hagree ds node hnode hnot hexcluded)))
      rw [if_pos (hboth.2 ⟨hadmits, hleft⟩), if_pos hadmits]
    · rw [if_neg fun hall => hadmits (hboth.1 hall).1, if_neg hadmits]

theorem files_of_two {other exclusion a : String} (hother : includeOf? other = some a)
    (hexclude : includeOf? exclusion = none) :
    (globsOf [other, exclusion]).files d cwd root = d.glob cwd (filePattern root a) := by
  rw [files, globsOf, packageGlobs_eq]
  simp only [List.filterMap_cons_some hother, List.filterMap_cons_none hexclude, List.filterMap_nil, List.flatMap_cons,
    List.flatMap_nil, List.append_nil]

/-- The index of one glob less another, if they agree. -/
theorem Reading.get?_index_less (hg : Reading g pattern whole pats tss pat ts) {inclusion exclusion other a : String}
    (hinclude : includeOf? inclusion = some g) (hexclude : Opposite inclusion exclusion)
    (hother : includeOf? other = some a) (ha : PlainGlob a) (h : d.IsWellFormed)
    (hroot : d.lookup cwd root = .found l .directory) (hs : Sighted root [])
    (hagree : Agree d l cwd root inclusion exclusion) (name version : String) :
    ((globsOf [other, exclusion]).index d cwd root).get? name = some version ↔
      ∃ before file after,
        (d.glob cwd (filePattern root a)).filter (· ∉ d.glob cwd (filePattern root g)) = before ++ file :: after ∧
        (globsOf [other]).packageAt? d cwd root file = some (name, version) ∧
        ∀ f ∈ before, ∀ v, (globsOf [other]).packageAt? d cwd root f ≠ some (name, v) := by
  have hnone : includeOf? exclusion = none := by
    rw [includeOf?, show Text.trim exclusion.toList = _ from hexclude]
    rfl
  have hless (file : List Char) (hfile : file ∈ d.glob cwd (filePattern root a)) :
      (globsOf [other, exclusion]).versionAt? d cwd root name file =
        if file ∉ d.glob cwd (filePattern root g) then
          (globsOf [other]).versionAt? d cwd root name file
        else none := by
    rw [versionAt?, versionAt?, hg.packageAt?_less hinclude hexclude ha h hroot hs hagree hfile]
    split <;> rfl
  rw [get?_index, files_of_two hother hnone, findSome?_filter hless, List.findSome?_eq_some_iff]
  simp only [versionAt?_eq_some, Option.eq_none_iff_forall_ne_some, ne_eq]

/-- A glob includes a package if it matches the path of its file within names. The same glob behind an exclamation mark
excludes a directory if it matches that or the path of its file, and a wildcard may stand for slashes then; so all that
is included is also excluded. Where nothing else is, an exclusion leaves of another glob the packages that the excluded
one does not select. -/
theorem includes_iff_within (h : d.IsWellFormed) (hroot : d.lookup cwd root = .found l .directory)
    (hs : Sighted root []) {inclusion exclusion : String}
    (hinclude : includeOf? inclusion = some g) (hexclude : Opposite inclusion exclusion) (hplain : PlainGlob g) :
    ∃ pattern whole, parse? g.toList = some pattern ∧
      parse? (g.toList ++ '/' :: packageFile.toList) = some whole ∧
      (∀ ds node, d.get? (l ++ (ds ++ [packageFile.toList])) = some node →
        let included := Includes inclusion d cwd root (l ++ (ds ++ [packageFile.toList]))
        let excluded := Excludes exclusion (Text.join ['/'] ds)
        (included ↔ Matches (· ≠ '/') whole.tokens (fileBelow ds)) ∧
        (excluded ↔ pattern.isMatch (Text.join ['/'] ds) = true ∨ pattern.isMatch (fileBelow ds) = true) ∧
        (whole.isMatch (fileBelow ds) = true → excluded) ∧ (included → excluded)) ∧
      (FixedGlob g → Agree d l cwd root inclusion exclusion) ∧
      ∀ other a, includeOf? other = some a → PlainGlob a → Agree d l cwd root inclusion exclusion →
        let without := (globsOf [other, exclusion]).index d cwd root
        let left := (d.glob cwd (filePattern root a)).filter (· ∉ d.glob cwd (filePattern root g))
        let declared := (globsOf [other]).packageAt? d cwd root
        ∀ name version, without.get? name = some version ↔ ∃ before file after, left = before ++ file :: after ∧
          declared file = some (name, version) ∧ ∀ f ∈ before, ∀ v, declared f ≠ some (name, v) := by
  obtain ⟨pattern, whole, pats, tss, pat, ts, hg⟩ := exists_reading hplain
  refine ⟨pattern, whole, hg.parse, hg.parse_file, fun ds node hnode => ?_, fun hfixed ds node hnode _ hexcluded => ?_,
    fun other a hother ha hagree => ?_⟩
  · have hexcluded := hg.excludes_iff hinclude hexclude (names_of_directory h hnode)
    have hincluded := hg.includes_iff hinclude h hroot hs hnode
    have hwhole (hmatch : Matches (fun _ => True) whole.tokens (fileBelow ds)) :
        Excludes exclusion (Text.join ['/'] ds) := hexcluded.2 (hg.matches_alone hmatch)
    exact ⟨hincluded, hexcluded, fun hmatch => hwhole (isMatch_iff.1 hmatch),
      fun hin => hwhole ((hincluded.1 hin).imp fun _ _ _ => trivial)⟩
  · have hmatch := (hg.excludes_iff hinclude hexclude (names_of_directory h hnode)).1 hexcluded
    exact (hg.includes_iff hinclude h hroot hs hnode).2 (hfixed.matches_whole hplain hg h hnode hmatch)
  · exact hg.get?_index_less hinclude hexclude hother ha h hroot hs hagree

/-- One package, three directories below the root. -/
def nestedDisk : Disk :=
  ⟨[(["shop".toList], .directory), (["shop".toList, "apps".toList], .directory),
    (["shop".toList, "apps".toList, "a".toList], .directory),
    (["shop".toList, "apps".toList, "a".toList, "b".toList], .directory),
    (["shop".toList, "apps".toList, "a".toList, "b".toList, packageFile.toList],
      .file "\x7b\"name\":\"cart\",\"version\":\"1.0.0\"\x7d".toUTF8)]⟩

theorem nestedDisk_isWellFormed : nestedDisk.IsWellFormed := by
  refine .of_nodes (fun e he => ?_) (by decide +kernel) (by decide +kernel)
  simp only [nestedDisk, List.mem_cons, List.not_mem_nil, or_false] at he
  rcases he with rfl | rfl | rfl | rfl | rfl <;> rfl

/-- `apps/**` excludes exactly what it includes, here the one package that there is. -/
theorem includes_iff_within_of_directories :
    let root := "/shop".toList
    let ds := ["apps".toList, "a".toList, "b".toList]
    Includes "apps/**" nestedDisk [] root (["shop".toList] ++ (ds ++ [packageFile.toList])) ∧
      Excludes "!apps/**" (Text.join ['/'] ds) ∧ Agree nestedDisk ["shop".toList] [] root "apps/**" "!apps/**" ∧
      ∀ version, ((globsOf ["apps/*/*", "!apps/**"]).index nestedDisk [] root).get? "cart" ≠ some version := by
  intro root ds
  have hinclude : includeOf? "apps/**" = some "apps/**" := by decide +kernel
  obtain ⟨node, hnode⟩ : ∃ node, nestedDisk.get? (["shop".toList] ++ (ds ++ [packageFile.toList])) = some node :=
    ⟨_, rfl⟩
  have hroot : nestedDisk.lookup [] root = .found ["shop".toList] .directory := rfl
  have hexclude : Opposite "apps/**" "!apps/**" := by decide +kernel
  obtain ⟨pattern, whole, -, -, hdirectories, hfixed, hindex⟩ :=
    includes_iff_within nestedDisk_isWellFormed hroot (.absolute rfl) hinclude hexclude (by decide +kernel)
  have hfile : "/shop/apps/a/b/package.json".toList ∈ nestedDisk.glob [] (filePattern root "apps/**") := by
    decide +kernel
  have hincluded : Includes "apps/**" nestedDisk [] root (["shop".toList] ++ (ds ++ [packageFile.toList])) :=
    ⟨_, _, _, hinclude, hfile, rfl⟩
  have hcomponents : ∀ n ∈ rawNames "apps/**".toList, n = ['*', '*'] ∨ ∀ c ∈ n, isSpecial c = false := by
    have hraw : rawNames "apps/**".toList = ["apps".toList, ['*', '*']] := by decide +kernel
    rw [hraw, List.forall_mem_cons, List.forall_mem_singleton]
    exact ⟨.inr (by simp [isSpecial]), .inl rfl⟩
  have hagree : Agree nestedDisk ["shop".toList] [] root "apps/**" "!apps/**" := hfixed ⟨hcomponents, by decide +kernel⟩
  refine ⟨hincluded, (hdirectories ds node hnode).2.2.2 hincluded, hagree, fun version hversion => ?_⟩
  have hother : includeOf? "apps/*/*" = some "apps/*/*" := by decide +kernel
  have hnone : (nestedDisk.glob [] (filePattern root "apps/*/*")).filter
      (· ∉ nestedDisk.glob [] (filePattern root "apps/**")) = [] := by decide +kernel
  obtain ⟨before, file, after, hleft, -⟩ :=
    (hindex "apps/*/*" "apps/*/*" hother (by decide +kernel) hagree "cart" version).1 hversion
  rw [hnone] at hleft
  exact absurd hleft.symm (by simp)

/-- An exclusion of `apps/*` takes out a package that `apps/*` does not select, so that it is missing in the index. -/
theorem deeper_excluded :
    let root := "/shop".toList
    let ds := ["apps".toList, "a".toList, "b".toList]
    let versionOf entries := ((globsOf entries).index nestedDisk [] root).get? "cart"
    Excludes "!apps/*" (Text.join ['/'] ds) ∧
      ¬ Includes "apps/*" nestedDisk [] root (["shop".toList] ++ (ds ++ [packageFile.toList])) ∧
      versionOf ["apps/*/*"] = some "1.0.0" ∧ versionOf ["apps/*/*", "!apps/*"] = none := by
  intro root ds versionOf
  have hinclude : includeOf? "apps/*" = some "apps/*" := by decide +kernel
  have hselected : nestedDisk.glob [] (filePattern root "apps/*") = [] := by decide +kernel
  refine ⟨⟨_, _, rfl, rfl, .inl (by decide +kernel)⟩, ?_, by decide +kernel, by decide +kernel⟩
  rintro ⟨g, file, node, hg, hfile, -⟩
  cases hinclude.symm.trans hg
  rw [hselected] at hfile
  cases hfile

end PackageGlobs

end Federation
