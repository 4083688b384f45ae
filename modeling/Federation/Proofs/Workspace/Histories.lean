import Federation.Proofs.Workspace.Spellings

/-!
# Answers while the disk changes

A workspace keeps two things that it has read: its file and its index of packages, the second made from the first. Each
is read when a question first needs it, so they may come from different moments of a disk that changes meanwhile.

`configSeen` and `packagesSeen` say, of a workspace at any time of a history, what it will have read in the end: what it
has read already, or else what it will find when it first needs it. They do not change in the course of a history, and
every answer is made from them (`Query.ask_run`). So the same question always has the same answer
(`answers_of_history`), whatever becomes of the files that were read.
-/

namespace Federation.Workspace

/-! ### Questions -/

/-- A question to a workspace. -/
inductive Query where
  /-- What stands behind a version of a package, which may be a placeholder. -/
  | version (package version : String)
  /-- The range of a package in a catalog. -/
  | catalog (package reference : String)
  /-- The version of a package that belongs to the workspace. -/
  | sibling (package version : String)
deriving DecidableEq

namespace Query

/-- Asks a workspace, with the disk as it is. -/
def ask (d : Disk) (cwd : Location) : Query → WorkspaceM String
  | version p v => versions d cwd p v
  | catalog p r => resolveCatalog d cwd p r
  | sibling p v => resolvePackage d cwd p v

/-- Whether the workspace file is needed. -/
def needsConfig : Query → Bool
  | version _ v => isPlaceholder v
  | catalog .. | sibling .. => true

/-- Whether the index of packages is needed. -/
def needsPackages : Query → Bool
  | version _ v => v == workspaceAny
  | catalog .. => false
  | sibling .. => true

/-- The range of a package by a workspace file; a reference that the file does not know stands for itself. -/
def rangeIn (config : Option WorkspaceConfig) (p r : String) : String :=
  (config.bind (·.catalogRange? ((catalogName? r).getD r) p)).getD r

/-- The answer that a workspace file and an index of packages give. -/
def answer (config : Option WorkspaceConfig) (packages : KeyMap String) : Query → String
  | version p v =>
    if v == workspaceAny then (packages.get? p).getD v
    else if (catalogName? v).isSome then rangeIn config p v
    else v
  | catalog p r => rangeIn config p r
  | sibling p v => (packages.get? p).getD v

theorem needsConfig_of_needsPackages {q : Query} (h : q.needsPackages = true) : q.needsConfig = true := by
  cases q with
  | version p v => exact (Bool.or_eq_true _ _).mpr (.inl h)
  | catalog | sibling => rfl

end Query

/-! ### What a question leaves in memory -/

variable {d : Disk} {cwd : Location} {w : Workspace} {q : Query}

/-- The index of packages that a workspace file selects, as the package files are. -/
def packagesBy (d : Disk) (cwd : Location) (root : Option (List Char)) (config : Option WorkspaceConfig) :
    KeyMap String :=
  match root, config with
  | some r, some c => c.packageGlobs.index d cwd r
  | _, _ => .empty

/-- There is no index of packages without the file that it was made from. -/
def Ordered (w : Workspace) : Prop := w.packages.isSome = true → w.config.isSome = true

/-- The workspace after its file was needed. -/
def withConfig (d : Disk) (cwd : Location) (w : Workspace) : Workspace :=
  { w with config := some (w.config.getD (configOf d cwd w.root)) }

/-- The workspace after its index was needed. -/
def withPackages (d : Disk) (cwd : Location) (w : Workspace) : Workspace :=
  let config := w.config.getD (configOf d cwd w.root)
  ⟨w.root, some config, some (w.packages.getD (packagesBy d cwd w.root config))⟩

/-- The workspace after a question. -/
def after (d : Disk) (cwd : Location) (w : Workspace) (q : Query) : Workspace :=
  if q.needsPackages then w.withPackages d cwd else if q.needsConfig then w.withConfig d cwd else w

theorem run_getConfig (d : Disk) (cwd : Location) (w : Workspace) :
    (getConfig d cwd).run w = (w.config.getD (configOf d cwd w.root), w.withConfig d cwd) := by
  obtain ⟨root, config, packages⟩ := w
  cases config <;> rfl

theorem run_getPackages (h : w.Ordered) :
    (getPackages d cwd).run w =
      (w.packages.getD (packagesBy d cwd w.root (w.config.getD (configOf d cwd w.root))), w.withPackages d cwd) := by
  obtain ⟨root, config, packages⟩ := w
  cases packages with
  | some ps =>
    obtain ⟨c, rfl⟩ := Option.isSome_iff_exists.1 (h rfl)
    rfl
  | none => cases config <;> rfl

theorem Ordered.after (h : w.Ordered) : (w.after d cwd q).Ordered := by
  unfold Workspace.after
  split
  · exact fun _ => rfl
  · split
    · exact fun _ => rfl
    · exact h

/-- A question is answered from what is remembered after it; what it does not need has no part in that. -/
theorem Query.ask_run (h : w.Ordered) (d : Disk) (cwd : Location) (q : Query) (config : Option WorkspaceConfig)
    (packages : KeyMap String) : (q.ask d cwd).run w =
      (q.answer ((w.after d cwd q).config.getD config) ((w.after d cwd q).packages.getD packages), w.after d cwd q) := by
  have hcatalog (p r : String) : (resolveCatalog d cwd p r).run w =
      (rangeIn ((w.withConfig d cwd).config.getD config) p r, w.withConfig d cwd) := by
    show (rangeIn ((getConfig d cwd).run w).1 p r, ((getConfig d cwd).run w).2) = _
    rw [run_getConfig]
    rfl
  have hsibling (p v : String) : (resolvePackage d cwd p v).run w =
      ((((w.withPackages d cwd).packages.getD packages).get? p).getD v, w.withPackages d cwd) := by
    show ((((getPackages d cwd).run w).1.get? p).getD v, ((getPackages d cwd).run w).2) = _
    rw [run_getPackages h]
    rfl
  cases q with
  | version p v =>
    show (versions d cwd p v).run w = _
    unfold versions
    cases hany : v == workspaceAny with
    | true => simp [hsibling, answer, Workspace.after, needsPackages, hany]
    | false =>
      cases hname : (catalogName? v).isSome with
      | true => simp [hcatalog, answer, Workspace.after, needsPackages, needsConfig, isPlaceholder, hany, hname]
      | false =>
        simp only [answer, Workspace.after, needsPackages, needsConfig, isPlaceholder, hany, hname, Bool.or_self,
          Bool.false_eq_true, if_false]
        rfl
  | catalog p r => exact hcatalog p r
  | sibling p v => exact hsibling p v

/-! ### Histories -/

/-- What happens in the life of a workspace. -/
inductive Event where
  /-- The disk changes, in whatever way. -/
  | change (f : Disk → Disk)
  /-- A question is asked. -/
  | ask (q : Query)

/-- The questions of a history, each with its answer. -/
def converse (cwd : Location) : Disk → List Event → WorkspaceM (List (Query × String))
  | _, [] => pure []
  | d, .change f :: es => converse cwd (f d) es
  | d, .ask q :: es => do
    let a ← q.ask d cwd
    let rest ← converse cwd d es
    pure ((q, a) :: rest)

/-- The questions of a history. -/
def questions : List Event → List Query
  | [] => []
  | .change _ :: es => questions es
  | .ask q :: es => q :: questions es

/-- The disk as it is when a question first needs something, if one ever does. -/
def diskAtFirst (needs : Query → Bool) : Disk → List Event → Option Disk
  | _, [] => none
  | d, .change f :: es => diskAtFirst needs (f d) es
  | d, .ask q :: es => if needs q then some d else diskAtFirst needs d es

/-- What the workspace file says when a question first needs it. -/
def configAtFirst (cwd : Location) (root : Option (List Char)) (d : Disk) (es : List Event) : Option WorkspaceConfig :=
  (diskAtFirst Query.needsConfig d es).bind fun d => configOf d cwd root

/-- The packages that a workspace file selects when a question first needs the index. -/
def packagesAtFirst (cwd : Location) (root : Option (List Char)) (config : Option WorkspaceConfig) (d : Disk)
    (es : List Event) : KeyMap String :=
  match diskAtFirst Query.needsPackages d es with
  | some d => packagesBy d cwd root config
  | none => .empty

/-- The content of the workspace file that a workspace answers by in a history: what it has read, or else will read. -/
def configSeen (cwd : Location) (w : Workspace) (d : Disk) (es : List Event) : Option WorkspaceConfig :=
  w.config.getD (configAtFirst cwd w.root d es)

/-- The index of packages that a workspace answers by in a history. -/
def packagesSeen (cwd : Location) (w : Workspace) (d : Disk) (es : List Event) : KeyMap String :=
  w.packages.getD (packagesAtFirst cwd w.root (configSeen cwd w d es) d es)

theorem configSeen_of_needsConfig (h : q.needsConfig = true) (es : List Event) :
    configSeen cwd w d (.ask q :: es) = w.config.getD (configOf d cwd w.root) := by
  rw [configSeen, configAtFirst, diskAtFirst, h]
  rfl

theorem configSeen_after (es : List Event) :
    configSeen cwd (w.after d cwd q) d es = configSeen cwd w d (.ask q :: es) := by
  unfold Workspace.after
  cases hpackages : q.needsPackages with
  -- the index is made from the file, so the file is read for it
  | true => exact (configSeen_of_needsConfig (Query.needsConfig_of_needsPackages hpackages) es).symm
  | false =>
    cases hconfig : q.needsConfig with
    | true => exact (configSeen_of_needsConfig hconfig es).symm
    | false =>
      have hlater : diskAtFirst Query.needsConfig d (.ask q :: es) = diskAtFirst Query.needsConfig d es := by
        rw [diskAtFirst, hconfig]
        rfl
      rw [configSeen, configSeen, configAtFirst, configAtFirst, hlater]
      rfl

theorem packagesSeen_after (es : List Event) :
    packagesSeen cwd (w.after d cwd q) d es = packagesSeen cwd w d (.ask q :: es) := by
  rw [packagesSeen, packagesSeen, configSeen_after, packagesAtFirst, packagesAtFirst]
  unfold Workspace.after
  cases hpackages : q.needsPackages with
  | true =>
    rw [configSeen_of_needsConfig (Query.needsConfig_of_needsPackages hpackages), diskAtFirst, hpackages]
    rfl
  | false =>
    rw [diskAtFirst, hpackages]
    cases q.needsConfig <;> rfl

theorem run_converse (h : w.Ordered) (d : Disk) (es : List Event) :
    ((converse cwd d es).run w).1 =
      (questions es).map fun q => (q, q.answer (configSeen cwd w d es) (packagesSeen cwd w d es)) := by
  induction es generalizing d w with
  | nil => rfl
  | cons e es ih =>
    cases e with
    | change f => exact ih h (f d)
    | ask q =>
      have hask := Query.ask_run h d cwd q (configAtFirst cwd (w.after d cwd q).root d es)
        (packagesAtFirst cwd (w.after d cwd q).root (configSeen cwd (w.after d cwd q) d es) d es)
      -- what is seen after the question is what is seen before it, so the answer fits the rest of the history too
      rw [← configSeen, ← packagesSeen] at hask
      show (q, ((q.ask d cwd).run w).1) :: ((converse cwd d es).run ((q.ask d cwd).run w).2).1 = _
      rw [hask, ih h.after, configSeen_after, packagesSeen_after]
      rfl

/-- In every history of a workspace, whatever happens to the disk, all questions are answered by one content of the
workspace file and one index of packages: the file is as it was when a question first needed it, and the index is made
from that and from the package files as they were when a question first needed it. So the same question always has the
same answer. -/
theorem answers_of_history (cwd : Location) (root : Option (List Char)) (d : Disk) (es : List Event) :
    let config := configAtFirst cwd root d es
    let packages := packagesAtFirst cwd root config d es
    let transcript := ((converse cwd d es).run ⟨root, none, none⟩).1
    transcript = (questions es).map (fun q => (q, q.answer config packages)) ∧
    ∀ q a a', (q, a) ∈ transcript → (q, a') ∈ transcript → a = a' := by
  intro config packages transcript
  have htranscript : transcript = (questions es).map (fun q => (q, q.answer config packages)) :=
    run_converse (w := ⟨root, none, none⟩) nofun d es
  have hanswer {q : Query} {a : String} (ha : (q, a) ∈ transcript) : a = q.answer config packages := by
    rw [htranscript] at ha
    obtain ⟨q', -, he⟩ := List.mem_map.1 ha
    cases he
    rfl
  exact ⟨htranscript, fun q a a' ha ha' => (hanswer ha).trans (hanswer ha').symm⟩

/-- A shop is asked for a range, then its catalog is emptied and its package gets a new version; it is asked for the
package and removed from the disk. -/
def shopHistory : List Event :=
  [.ask (.catalog "cart" "catalog:"),
    .change (·.put ["shop".toList, workspaceFile.toList] (.file "catalog: \x7b\x7d\n".toUTF8)),
    .change (·.put ["shop".toList, "packages".toList, "cart".toList, packageFile.toList]
      (.file "\x7b\"name\":\"cart\",\"version\":\"4.0.0\"\x7d".toUTF8)),
    .ask (.version "cart" "workspace:*"),
    .change (·.removeTree ["shop".toList]),
    .ask (.version "cart" "workspace:*"),
    .ask (.version "cart" "catalog:")]

/-- The range is from before all changes, the version from between them. -/
theorem answers_of_history_of_shop :
    let transcript := ((converse [] shopDisk shopHistory).run (atRoot "/shop".toList)).1
    (∀ q a a', (q, a) ∈ transcript → (q, a') ∈ transcript → a = a') ∧
    transcript = [(.catalog "cart" "catalog:", "https://cdn.acme.dev/cart/entry.js"),
      (.version "cart" "workspace:*", "4.0.0"), (.version "cart" "workspace:*", "4.0.0"),
      (.version "cart" "catalog:", "https://cdn.acme.dev/cart/entry.js")] :=
  ⟨(answers_of_history [] (some "/shop".toList) shopDisk shopHistory).2, by decide +kernel⟩

end Federation.Workspace
