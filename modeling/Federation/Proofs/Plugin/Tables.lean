import Mathlib.Data.List.Induction
import Federation.Client.Plugin

/-!
# Tables of declared remotes

A table is filled from the first declared remote to the last, so a name stands for the dependency of the last
remote of that name that the manifest has (`get?_ofRemotes`). Of the manifest a table depends only on which
names and aliases are keys of dependencies (`ofRemotes_congr`). A plugin answers by the dependency that its table
names, at the first declared remote of the name (`redirect_eq`, `withEntry_of_first`).
-/

namespace Federation

namespace RemoteDeclaration
variable {d : RemoteDeclaration} {m m' : Manifest} {n key : String}

/-- The names by which the host knows the remote. -/
def names (d : RemoteDeclaration) : List String := d.name :: d.otherName.toList

theorem isCalled_iff : d.isCalled n = true ↔ n ∈ d.names := by
  rw [isCalled, names, Bool.or_eq_true, beq_iff_eq, beq_iff_eq, List.mem_cons, Option.mem_toList,
    eq_comm]

theorem dependencyKey?_congr (h : ∀ n ∈ d.names, m.dependencies.contains n = m'.dependencies.contains n) :
    d.dependencyKey? m = d.dependencyKey? m' := by
  change d.names.find? m.dependencies.contains = d.names.find? m'.dependencies.contains
  generalize d.names = ns at h
  induction ns with
  | nil => rfl
  | cons n ns ih =>
    have ⟨hn, hns⟩ := List.forall_mem_cons.1 h
    rw [List.find?_cons, List.find?_cons, hn, ih hns]

theorem contains_of_dependencyKey? (h : d.dependencyKey? m = some key) : m.dependencies.contains key = true :=
  List.find?_some h

end RemoteDeclaration

namespace RemoteTable
variable {m m' : Manifest} {rs : List RemoteDeclaration} {n : String}

theorem get?_add (m : Manifest) (t : RemoteTable) (d : RemoteDeclaration) (n : String) :
    (add m t d).get? n = if d.isCalled n then (d.dependencyKey? m).or (t.get? n) else t.get? n := by
  rw [add]
  cases d.dependencyKey? m with
  | none => simp
  | some key =>
    simp only [RemoteDeclaration.isCalled_iff, RemoteDeclaration.names]
    cases d.otherName with
    | none => simp
    | some a => by_cases ha : n = a <;> simp [ha]

theorem ofRemotes_concat (m : Manifest) (rs : List RemoteDeclaration) (d : RemoteDeclaration) :
    ofRemotes m (rs ++ [d]) = add m (ofRemotes m rs) d := by
  rw [ofRemotes, List.foldl_append]
  rfl

/-- A name stands for the dependency of the last remote of that name that the manifest has. -/
theorem get?_ofRemotes (m : Manifest) (rs : List RemoteDeclaration) (n : String) :
    (ofRemotes m rs).get? n = ((rs.filter (·.isCalled n)).filterMap (·.dependencyKey? m)).getLast? := by
  induction rs using List.reverseRecOn with
  | nil => rfl
  | append_singleton rs d ih =>
    rw [ofRemotes_concat, get?_add, ih, List.filter_append, List.filterMap_append, List.getLast?_append]
    by_cases hd : d.isCalled n = true
    · cases hkey : d.dependencyKey? m <;> simp [hd, hkey]
    · simp [hd]

theorem ofRemotes_congr
    (h : ∀ d ∈ rs, ∀ n ∈ d.names, m.dependencies.contains n = m'.dependencies.contains n) :
    ofRemotes m rs = ofRemotes m' rs := by
  induction rs using List.reverseRecOn with
  | nil => rfl
  | append_singleton rs d ih =>
    have hrest := ih fun x hx => h x (List.mem_append_left _ hx)
    have hkey := RemoteDeclaration.dependencyKey?_congr (h d (by simp))
    rw [ofRemotes_concat, ofRemotes_concat, hrest, add, add, hkey]

end RemoteTable

/-- The entry URL of a dependency: that of an override, or else that of the manifest. -/
def Manifest.entryUrl? (m : Manifest) (overrides : SessionOverrides) (key : String) : Option String :=
  (m.dependencies.get? key).map fun d => withoutVersionPrefix ((overrides.get? d.applicationUid).getD d.remoteEntryUrl)

namespace ModuleRequest
variable {overrides : SessionOverrides} {m : Manifest} {r : ModuleRequest} {d : RemoteDeclaration}
  {before after : List RemoteDeclaration} {key url : String}

/-- The request in which the first remote of its name has the entry URL of a dependency, if there is one. -/
def withDependency (r : ModuleRequest) (overrides : SessionOverrides) (m : Manifest) (key : Option String) :
    ModuleRequest :=
  match key.bind (m.entryUrl? overrides) with
  | some url => r.withEntry r.remoteName url
  | none => r

theorem withDependency_none : r.withDependency overrides m none = r := rfl

theorem withDependency_some (h : m.entryUrl? overrides key = some url) :
    r.withDependency overrides m (some key) = r.withEntry r.remoteName url := by
  rw [withDependency, Option.bind_some, h]

theorem withEntry_of_first (hr : r.remotes = before ++ d :: after)
    (hbefore : ∀ x ∈ before, x.isCalled key = false) (hd : d.isCalled key = true) (url : String) :
    r.withEntry key url = { r with remotes := before ++ { d with entry := url } :: after } := by
  have hplace : r.remotes.findIdx? (·.isCalled key) = some before.length := by
    rw [hr, List.findIdx?_append, List.findIdx?_eq_none_iff.2 hbefore, List.findIdx?_cons, hd]
    simp
  rw [withEntry, hplace]
  dsimp only
  rw [hr, List.modify_eq_take_drop, List.take_left, List.drop_left, List.modifyHead_cons]

end ModuleRequest

namespace RequestPlugin
variable {overrides : SessionOverrides} {m : Manifest} {r : ModuleRequest}

theorem needsManifest_iff : needsManifest r = true ↔ r.remoteName ≠ "" := by
  simp [needsManifest]

/-- The table that a request is answered by: the one of the plugin, or else that of the request. -/
def tableFor (p : RequestPlugin) (m : Manifest) (r : ModuleRequest) : RemoteTable :=
  p.table.getD (.ofRemotes m r.remotes)

theorem redirect_eq (p : RequestPlugin) (overrides : SessionOverrides) (m : Manifest) (h : needsManifest r = true) :
    p.redirect overrides (some m) r =
      (r.withDependency overrides m ((p.tableFor m r).get? r.remoteName), ⟨some (p.tableFor m r)⟩) := by
  have hentry : entryFor? (p.tableFor m r) overrides m r.remoteName =
      ((p.tableFor m r).get? r.remoteName).bind (m.entryUrl? overrides) := by
    rw [entryFor?]
    cases (p.tableFor m r).get? r.remoteName with
    | none => rfl
    | some key => cases hd : m.dependencies.get? key <;> simp [Manifest.entryUrl?, hd]
  rw [redirect, ModuleRequest.withDependency, ← hentry]
  · rfl
  · exact h

end RequestPlugin

end Federation
