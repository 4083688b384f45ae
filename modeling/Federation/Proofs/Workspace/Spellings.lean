import Federation.Proofs.Workspace.Answers
import Federation.Proofs.Workspace.Index
import Federation.Proofs.Workspace.Roots

/-!
# A directory written in two ways

The workspace of a directory answers alike for an absolute path and for a path relative to the current directory, as far
as both find the same root. They do unless the root lies above the current directory: the text of a relative path does
not lead there. For questions about packages the relative root must moreover be one from which they are seen as they are
called (`SeesPackages`): below the empty path, a search begins at the root of the disk.
-/

namespace Federation

open Federation.Path Disk

namespace Path

variable {p q : List Char} {l cwd : Location} {ns : List Name}

theorem placeOf_filter (l : Location) (ns : List Name) : placeOf l (ns.filter fun n => !isIdle n) = placeOf l ns := by
  induction ns generalizing l with
  | nil => rfl
  | cons n ns ih =>
    cases hn : isIdle n with
    | true =>
      rw [List.filter_cons_of_neg (by simp [hn]), ih]
      show _ = placeOf (stepTo l n) ns
      rw [stepTo_of_idle hn]
    | false =>
      rw [List.filter_cons_of_pos (by simp [hn])]
      exact ih (stepTo l n)

/-- The place of a path depends on its names only, and on where it begins. -/
theorem placeOf_names (l : Location) (p : List Char) : placeOf l (names p) = placeOf l (rawNames p) := by
  obtain ⟨n, ns, hraw⟩ := List.exists_cons_of_ne_nil (rawNames_ne_nil p)
  rw [names, hraw]
  dsimp only
  rw [placeOf_append, placeOf_filter]
  cases hn : n.isEmpty with
  | false => rfl
  | true =>
    obtain rfl := List.isEmpty_iff.1 hn
    rfl

theorem dots_mem_names : ['.', '.'] ∈ names p ↔ ['.', '.'] ∈ rawNames p := by
  obtain ⟨n, ns, hraw⟩ := List.exists_cons_of_ne_nil (rawNames_ne_nil p)
  rw [names, hraw]
  dsimp only
  rw [List.mem_append, List.mem_filter, List.mem_cons]
  have hdots : isIdle ['.', '.'] = false := by decide
  cases n with
  | nil => simp [hdots]
  | cons c n => simp [hdots]

end Path

namespace Disk

variable {d : Disk} {cwd l r : Location} {root root' held : List Char}

theorem Leads.of_keyOf (h : d.Leads cwd root r) (hkey : WorkspacePool.keyOf held = WorkspacePool.keyOf root) :
    d.Leads cwd held r := by
  obtain ⟨habs, hnames⟩ := Prod.ext_iff.1 hkey
  dsimp only [WorkspacePool.keyOf] at habs hnames
  refine ⟨?_, ?_, h.directory⟩
  · rw [← dots_mem_names, hnames, dots_mem_names]
    exact h.free
  · rw [← h.place, placeOfPath, placeOfPath, baseOf, baseOf, habs, ← placeOf_names, hnames, placeOf_names]

end Disk

namespace Workspace

variable {d : Disk} {cwd l r : Location} {root root' held p a : List Char} {o o' : Option (List Char)}

theorem isFileName_workspaceFile : IsFileName workspaceFile.toList := by
  refine ⟨⟨?_, ?_⟩, ?_, ?_⟩ <;> decide

/-- Packages are seen from a path to the root of a workspace as they are called below it. -/
def SeesPackages (d : Disk) (cwd : Location) (root : List Char) : Prop :=
  ∀ c, readConfig d cwd root = some c → ∀ glob ∈ c.packageGlobs.included, Sighted root (PackageGlobs.idleNames glob)

theorem seesPackages_of_absolute (h : isAbsolute root = true) : SeesPackages d cwd root :=
  fun _ _ _ _ => .absolute h

theorem readConfig_eq (h : d.IsWellFormed) (hroot : d.Leads cwd root r) (hroot' : d.Leads cwd root' r) :
    readConfig d cwd root = readConfig d cwd root' := by
  have hlookup {q : List Char} (hq : d.Leads cwd q r) :
      d.lookup cwd (join q workspaceFile.toList) = d.walk r [workspaceFile.toList] := by
    rw [lookup_in_directory h isFileName_workspaceFile hq.free (hq.place ▸ hq.directory), hq.place]
  rw [readConfig, readConfig, readText?, readText?, readOctets?, readOctets?, hlookup hroot, hlookup hroot']

theorem packagesOf_eq (h : d.IsWellFormed) (hroot : d.Leads cwd root r) (hroot' : d.Leads cwd root' r)
    (hs : SeesPackages d cwd root) (hs' : SeesPackages d cwd root') :
    packagesOf d cwd (some root) = packagesOf d cwd (some root') := by
  have hconfig := readConfig_eq h hroot hroot'
  rw [packagesOf_some, packagesOf_some, ← hconfig]
  cases hc : readConfig d cwd root with
  | none => rfl
  | some c =>
    have hc' := hconfig ▸ hc
    dsimp only
    by_cases hnone : c.packageGlobs.included = []
    · rw [PackageGlobs.index, PackageGlobs.index, PackageGlobs.files, PackageGlobs.files, hnone]
      rfl
    · obtain ⟨glob, globs, hglobs⟩ := List.exists_cons_of_ne_nil hnone
      have hglob : glob ∈ c.packageGlobs.included := hglobs ▸ List.mem_cons_self
      have hlookup {q : List Char} (hq : d.Leads cwd q r) (hsight : Sighted q (PackageGlobs.idleNames glob)) :
          d.lookup cwd q = .found r .directory := by
        rw [lookup_of_directory h hsight.ne_nil hq.free (hq.place ▸ hq.directory), hq.place]
      exact PackageGlobs.index_eq h c.packageGlobs (hlookup hroot (hs c hc glob hglob))
        (hlookup hroot' (hs' c hc' glob hglob)) (hs c hc) (hs' c hc')

/-- Two paths to the root of a workspace give the same answers, if packages are seen from both. -/
theorem answer_eq_of_leads (h : d.IsWellFormed) (hroot : d.Leads cwd root r) (hroot' : d.Leads cwd root' r)
    (package version : String) (hsees : version ≠ workspaceAny ∨ SeesPackages d cwd root ∧ SeesPackages d cwd root') :
    answer d cwd (some root) package version = answer d cwd (some root') package version := by
  have hconfig : configOf d cwd (some root) = configOf d cwd (some root') := readConfig_eq h hroot hroot'
  rw [answer, answer, hconfig]
  by_cases hany : version = workspaceAny
  · obtain ⟨hs, hs'⟩ := hsees.resolve_left (absurd hany)
    rw [packagesOf_eq h hroot hroot' hs hs']
  · rw [if_neg (mt beq_iff_eq.1 hany), if_neg (mt beq_iff_eq.1 hany)]

/-- Searches from two paths find no root, or paths to one root. -/
inductive SameRoot (d : Disk) (cwd : Location) (p a : List Char) : Prop
  | outside (left : rootAbove d cwd p = none) (right : rootAbove d cwd a = none)
  | inside {root root' : List Char} {r : Location} (left : rootAbove d cwd p = some root)
    (right : rootAbove d cwd a = some root') (leads : d.Leads cwd root r) (leads' : d.Leads cwd root' r)

theorem SameRoot.answer_eq (h : d.IsWellFormed) (hr : SameRoot d cwd p a) (ho : WorkspacePool.RootFor d cwd p o)
    (ho' : WorkspacePool.RootFor d cwd a o') (package version : String)
    (hsees : version ≠ workspaceAny ∨
      (∀ held, o = some held → SeesPackages d cwd held) ∧ ∀ held, o' = some held → SeesPackages d cwd held) :
    answer d cwd o package version = answer d cwd o' package version := by
  cases hr with
  | outside hleft hright =>
    cases ho with
    | some _ _ hinside => cases hleft.symm.trans hinside
    | none =>
      cases ho' with
      | some _ _ hinside => cases hright.symm.trans hinside
      | none => rfl
  | inside hleft hright hleads hleads' =>
    cases ho with
    | none houtside => cases hleft.symm.trans houtside
    | some root held hinside hkey =>
      cases ho' with
      | none houtside => cases hright.symm.trans houtside
      | some root' held' hinside' hkey' =>
        cases hleft.symm.trans hinside
        cases hright.symm.trans hinside'
        refine answer_eq_of_leads h (hleads.of_keyOf hkey) (hleads'.of_keyOf hkey') package version ?_
        exact hsees.imp_right fun hsees => ⟨hsees.1 held rfl, hsees.2 held' rfl⟩

/-- Two ways to write one directory: from the current directory, and from the root of the disk. -/
structure Spellings (d : Disk) (cwd : Location) (p a : List Char) : Prop where
  relative : isAbsolute p = false
  absolute : isAbsolute a = true
  free : ['.', '.'] ∉ rawNames p
  free' : ['.', '.'] ∉ rawNames a
  same : placeOfPath cwd p = placeOfPath cwd a
  directory : d.get? (placeOfPath cwd a) = some .directory

section
variable (h : d.IsWellFormed) (hs : Spellings d cwd p a)
include h hs

theorem Spellings.search : d.Search cwd workspaceFile p (rootAbove d cwd p) :=
  search_findUpwards h isFileName_workspaceFile hs.free (hs.same ▸ hs.directory)

theorem Spellings.search' : d.Search cwd workspaceFile a (rootAbove d cwd a) :=
  search_findUpwards h isFileName_workspaceFile hs.free' hs.directory

theorem Spellings.rootAbove_absolute (hr : d.IsNearest workspaceFile (placeOfPath cwd a) r) :
    ∃ root, rootAbove d cwd a = some root ∧ d.Leads cwd root r := by
  have hbase : baseOf cwd a = [] := by rw [baseOf, hs.absolute, if_pos rfl]
  exact (hs.search' h).found h hr (hbase ▸ List.nil_prefix)

theorem Spellings.rootAbove_relative (hr : d.IsNearest workspaceFile (placeOfPath cwd a) r) :
    (cwd <+: r → ∃ root, rootAbove d cwd p = some root ∧ d.Leads cwd root r) ∧
      (¬cwd <+: r → rootAbove d cwd p = none) := by
  have hbase : baseOf cwd p = cwd := by rw [baseOf, hs.relative, if_neg Bool.false_ne_true]
  have hr' : d.IsNearest workspaceFile (placeOfPath cwd p) r := hs.same ▸ hr
  constructor
  · intro hcwd
    exact (hs.search h).found h hr' (by rw [hbase]; exact hcwd)
  · intro hcwd
    exact (hs.search h).missed hr' (by rw [hbase]; exact hcwd)

/-- Along the absolute path every root shows its packages. -/
theorem Spellings.seesPackages_absolute (ho : WorkspacePool.RootFor d cwd a o) :
    ∀ held, o = some held → SeesPackages d cwd held := by
  rintro held rfl
  cases ho with
  | some root held hinside hkey =>
    have hroot : isAbsolute root = isAbsolute a := ((hs.search' h).some root hinside).2.2.1
    have hheld : isAbsolute held = isAbsolute root := (Prod.ext_iff.1 hkey).1
    exact seesPackages_of_absolute (by rw [hheld, hroot, hs.absolute])

/-- If the root is not above the current directory, both paths lead to the same root. -/
theorem Spellings.sameRoot (hbelow : ∀ r, d.IsNearest workspaceFile (placeOfPath cwd a) r → cwd <+: r) :
    SameRoot d cwd p a := by
  cases hfound : rootAbove d cwd a with
  | some root' =>
    have hnearest := ((hs.search' h).some root' hfound).1
    obtain ⟨root, hroot, hleads⟩ := (hs.rootAbove_relative h hnearest).1 (hbelow _ hnearest)
    obtain ⟨root'', hroot'', hleads'⟩ := hs.rootAbove_absolute h hnearest
    cases hfound.symm.trans hroot''
    exact .inside hroot hfound hleads hleads'
  | none =>
    -- a root that the relative path finds is nearest for the absolute one too
    refine .outside ?_ hfound
    cases hrel : rootAbove d cwd p with
    | none => rfl
    | some root =>
      have hnearest := ((hs.search h).some root hrel).1
      obtain ⟨root', hroot', -⟩ := hs.rootAbove_absolute h (hs.same ▸ hnearest)
      cases hfound.symm.trans hroot'

theorem Spellings.sameRoot_absolute : SameRoot d cwd a a := by
  cases hfound : rootAbove d cwd a with
  | none => exact .outside hfound hfound
  | some root =>
    have hnearest := ((hs.search' h).some root hfound).1
    obtain ⟨root', hroot', hleads⟩ := hs.rootAbove_absolute h hnearest
    cases hfound.symm.trans hroot'
    exact .inside hfound hfound hleads hleads

end

/-- The absolute path leads to the nearest directory with a workspace file, and the relative path does if and only if
that is not above the current directory. Then the answers are the same, from workspaces of their own and from shared
ones, whatever those were asked before; for questions about packages, if they are seen from the relative root. -/
theorem answers_of_spellings (h : d.IsWellFormed) (hs : Spellings d cwd p a) :
    (∀ r, d.IsNearest workspaceFile (placeOfPath cwd a) r →
      (∃ root, rootAbove d cwd a = some root ∧ d.Leads cwd root r) ∧
        ((∃ root, rootAbove d cwd p = some root ∧ d.Leads cwd root r) ↔ cwd <+: r)) ∧
    ((∀ r, d.IsNearest workspaceFile (placeOfPath cwd a) r → cwd <+: r) → ∀ queries : List (String × String),
      ((∀ q ∈ queries, q.2 ≠ workspaceAny) ∨ (∀ root, rootAbove d cwd p = some root → SeesPackages d cwd root) →
        ((ask d cwd queries).run (discover d cwd p)).1 = ((ask d cwd queries).run (discover d cwd a)).1) ∧
      ∀ P Q : WorkspacePool, WorkspacePool.Reached d cwd P → WorkspacePool.Reached d cwd Q →
        ((∀ q ∈ queries, q.2 ≠ workspaceAny) ∨
          (∀ held, P.heldRoot d cwd p = some held → SeesPackages d cwd held) →
          P.answersFor d cwd p queries = some ((ask d cwd queries).run (discover d cwd a)).1) ∧
        Q.answersFor d cwd a queries = some ((ask d cwd queries).run (discover d cwd a)).1) := by
  refine ⟨fun r hr => ⟨hs.rootAbove_absolute h hr, ?_, (hs.rootAbove_relative h hr).1⟩, fun hbelow queries => ?_⟩
  · rintro ⟨root, hroot, -⟩
    by_contra hcwd
    cases hroot.symm.trans ((hs.rootAbove_relative h hr).2 hcwd)
  have hroot := WorkspacePool.rootFor_discover d cwd a
  have hanswers := (ask_run (faithful_discover d cwd a) queries).1
  have hsame {o : Option (List Char)} (ho : WorkspacePool.RootFor d cwd p o)
      (hsees : (∀ q ∈ queries, q.2 ≠ workspaceAny) ∨ ∀ held, o = some held → SeesPackages d cwd held) :
      queries.map (fun q => answer d cwd o q.1 q.2) =
        queries.map fun q => answer d cwd (rootAbove d cwd a) q.1 q.2 := by
    refine List.map_congr_left fun q hq => (hs.sameRoot h hbelow).answer_eq h ho hroot q.1 q.2 ?_
    exact hsees.imp (fun hany => hany q hq) fun hsees => ⟨hsees, hs.seesPackages_absolute h hroot⟩
  rw [hanswers]
  refine ⟨fun hsees => ?_, fun P Q hP hQ => ⟨fun hsees => ?_, ?_⟩⟩
  · rw [(ask_run (faithful_discover d cwd p) queries).1]
    exact hsame (WorkspacePool.rootFor_discover d cwd p) hsees
  · obtain ⟨hheld, hpool⟩ := hP.answersFor p queries
    rw [hpool, hsame hheld hsees]
  · obtain ⟨hheld, hpool⟩ := hQ.answersFor a queries
    rw [hpool]
    refine congrArg some (List.map_congr_left fun q _ => ?_)
    exact (hs.sameRoot_absolute h).answer_eq h hheld hroot q.1 q.2
      (.inr ⟨hs.seesPackages_absolute h hheld, hs.seesPackages_absolute h hroot⟩)

/-- A workspace with a catalog and one package, beside an application. -/
def shopDisk : Disk :=
  ⟨[(["shop".toList], .directory),
    (["shop".toList, workspaceFile.toList],
      .file "packages:\n  - packages/*\ncatalog:\n  cart: https://cdn.acme.dev/cart/entry.js\n".toUTF8),
    (["shop".toList, "apps".toList], .directory),
    (["shop".toList, "apps".toList, "host".toList], .directory),
    (["shop".toList, "packages".toList], .directory),
    (["shop".toList, "packages".toList, "cart".toList], .directory),
    (["shop".toList, "packages".toList, "cart".toList, packageFile.toList],
      .file "\x7b\"name\":\"cart\",\"version\":\"3.1.0\"\x7d".toUTF8)]⟩

theorem shopDisk_isWellFormed : shopDisk.IsWellFormed := by
  refine .of_nodes (fun e he => ?_) (by decide +kernel) (by decide +kernel)
  simp only [shopDisk, List.mem_cons, List.not_mem_nil, or_false] at he
  rcases he with rfl | rfl | rfl | rfl | rfl | rfl | rfl <;> rfl

/-- From the directory of the workspace itself both paths find it. -/
theorem answers_of_spellings_of_shop :
    let cwd := ["shop".toList]
    let queries := [("cart", "workspace:*"), ("cart", "catalog:"), ("cart", "1.0.0")]
    shopDisk.IsWellFormed ∧ Spellings shopDisk cwd ['.'] "/shop".toList ∧
      (∀ r, shopDisk.IsNearest workspaceFile (placeOfPath cwd "/shop".toList) r → cwd <+: r) ∧
      (∀ root, rootAbove shopDisk cwd ['.'] = some root → SeesPackages shopDisk cwd root) ∧
      ((ask shopDisk cwd queries).run (discover shopDisk cwd ['.'])).1 =
        ((ask shopDisk cwd queries).run (discover shopDisk cwd "/shop".toList)).1 ∧
      ((ask shopDisk cwd queries).run (discover shopDisk cwd ['.'])).1 =
        ["3.1.0", "https://cdn.acme.dev/cart/entry.js", "1.0.0"] := by
  intro cwd queries
  have hs : Spellings shopDisk cwd ['.'] "/shop".toList := by
    exact ⟨rfl, by decide, by decide, by decide, by decide, rfl⟩
  have hbelow : ∀ r, shopDisk.IsNearest workspaceFile (placeOfPath cwd "/shop".toList) r → cwd <+: r :=
    fun r hr => hr.nearest cwd (List.prefix_refl _) ⟨_, rfl⟩
  have hsees : ∀ root, rootAbove shopDisk cwd ['.'] = some root → SeesPackages shopDisk cwd root := by
    intro root hroot c hc glob hglob
    have hpoint : rootAbove shopDisk cwd ['.'] = some ['.'] := by decide +kernel
    obtain rfl : root = ['.'] := Option.some.inj (hroot.symm.trans hpoint)
    have hread : (readConfig shopDisk cwd ['.']).map (·.packageGlobs.included) = some ["packages/*"] := by
      decide +kernel
    rw [hc] at hread
    have hincluded : c.packageGlobs.included = ["packages/*"] := Option.some.inj hread
    rw [hincluded, List.mem_singleton] at hglob
    exact .point rfl (by rw [hglob]; decide)
  have hagree := ((answers_of_spellings shopDisk_isWellFormed hs).2 hbelow queries).1 (.inr hsees)
  exact ⟨shopDisk_isWellFormed, hs, hbelow, hsees, hagree, by decide +kernel⟩

/-- From a directory below it the relative path finds no workspace: the search ends at the current directory. -/
theorem answers_differ_below_shop :
    let cwd := ["shop".toList, "apps".toList, "host".toList]
    let queries := [("cart", "catalog:"), ("cart", "workspace:*")]
    shopDisk.IsWellFormed ∧ Spellings shopDisk cwd ['.'] "/shop/apps/host".toList ∧
      rootAbove shopDisk cwd ['.'] = none ∧
      rootAbove shopDisk cwd "/shop/apps/host".toList = some "/shop".toList ∧
      ((ask shopDisk cwd queries).run (discover shopDisk cwd ['.'])).1 = ["catalog:", "workspace:*"] ∧
      ((ask shopDisk cwd queries).run (discover shopDisk cwd "/shop/apps/host".toList)).1 =
        ["https://cdn.acme.dev/cart/entry.js", "3.1.0"] ∧
      WorkspacePool.empty.answersFor shopDisk cwd ['.'] queries ≠
        WorkspacePool.empty.answersFor shopDisk cwd "/shop/apps/host".toList queries := by
  intro cwd queries
  have hs : Spellings shopDisk cwd ['.'] "/shop/apps/host".toList := by
    exact ⟨rfl, by decide, by decide, by decide, by decide, rfl⟩
  exact ⟨shopDisk_isWellFormed, hs, by decide +kernel, by decide +kernel, by decide +kernel, by decide +kernel,
    by decide +kernel⟩

end Workspace

end Federation
