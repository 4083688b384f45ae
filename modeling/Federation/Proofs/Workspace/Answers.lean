import Federation.Workspace.Basic

/-!
# What a workspace answers

On a disk that does not change, a workspace answers every query as a fresh one does, whatever it was asked before: what
it has read is what a read gives (`Faithful`), and a query keeps it so (`versions_run`). In a pool of shared workspaces
the same holds of each of them, after any number of searches and queries (`Reached.sound`); which workspace a directory
gets depends on the key of its root.
-/

namespace Federation

namespace Workspace

variable {d : Disk} {cwd : Location} {root : Option (List Char)} {w : Workspace}

/-- What the workspace file says, if there is one that can be read. -/
def configOf (d : Disk) (cwd : Location) (root : Option (List Char)) : Option WorkspaceConfig :=
  root.bind (readConfig d cwd)

/-- The packages of a workspace. -/
def packagesOf (d : Disk) (cwd : Location) (root : Option (List Char)) : KeyMap String :=
  match root, configOf d cwd root with
  | some r, some c => c.packageGlobs.index d cwd r
  | _, _ => .empty

theorem packagesOf_some (d : Disk) (cwd : Location) (root : List Char) :
    packagesOf d cwd (some root) =
      match readConfig d cwd root with
      | some c => c.packageGlobs.index d cwd root
      | none => .empty := by
  unfold packagesOf
  have hread : configOf d cwd (some root) = readConfig d cwd root := rfl
  rw [hread]
  cases readConfig d cwd root <;> rfl

/-- What a workspace answers that has read nothing yet. -/
def answer (d : Disk) (cwd : Location) (root : Option (List Char)) (package version : String) : String :=
  if version == workspaceAny then ((packagesOf d cwd root).get? package).getD version
  else if (catalogName? version).isSome then
    ((configOf d cwd root).bind (·.catalogRange? ((catalogName? version).getD version) package)).getD version
  else version

/-- What a workspace has read is what a read gives. -/
structure Faithful (d : Disk) (cwd : Location) (root : Option (List Char)) (w : Workspace) : Prop where
  root_eq : w.root = root
  config : ∀ c, w.config = some c → c = configOf d cwd root
  packages : ∀ ps, w.packages = some ps → ps = packagesOf d cwd root

theorem faithful_discover (d : Disk) (cwd : Location) (start : List Char) :
    Faithful d cwd (rootAbove d cwd start) (discover d cwd start) := by
  unfold discover
  cases rootAbove d cwd start with
  | none => exact ⟨rfl, nofun, nofun⟩
  | some root => exact ⟨rfl, nofun, nofun⟩

theorem getConfig_run (h : Faithful d cwd root w) :
    ((getConfig d cwd).run w).1 = configOf d cwd root ∧ Faithful d cwd root ((getConfig d cwd).run w).2 := by
  obtain ⟨root', config, packages⟩ := w
  obtain rfl : root' = root := h.root_eq
  cases config with
  | some c => exact ⟨h.config c rfl, h⟩
  | none => exact ⟨rfl, rfl, fun c hc => (Option.some.inj hc).symm, h.packages⟩

theorem getPackages_run (h : Faithful d cwd root w) :
    ((getPackages d cwd).run w).1 = packagesOf d cwd root ∧ Faithful d cwd root ((getPackages d cwd).run w).2 := by
  obtain ⟨root', config, packages⟩ := w
  obtain rfl : root' = root := h.root_eq
  cases packages with
  | some ps => exact ⟨h.packages ps rfl, h⟩
  | none =>
    cases config with
    | some c =>
      obtain rfl := h.config c rfl
      exact ⟨rfl, rfl, h.config, fun ps hps => (Option.some.inj hps).symm⟩
    | none => exact ⟨rfl, rfl, fun c hc => (Option.some.inj hc).symm, fun ps hps => (Option.some.inj hps).symm⟩

/-- A query is answered as by a workspace that has read nothing, and what is read for it is what a read gives. -/
theorem versions_run (h : Faithful d cwd root w) (package version : String) :
    ((versions d cwd package version).run w).1 = answer d cwd root package version ∧
      Faithful d cwd root ((versions d cwd package version).run w).2 := by
  rw [versions, answer]
  split
  · obtain ⟨hps, hw⟩ := getPackages_run h
    refine ⟨?_, hw⟩
    show (((getPackages d cwd).run w).1.get? package).getD version = _
    rw [hps]
  · split
    · obtain ⟨hc, hw⟩ := getConfig_run h
      refine ⟨?_, hw⟩
      show (((getConfig d cwd).run w).1.bind fun c => c.catalogRange? _ package).getD version = _
      rw [hc]
    · exact ⟨rfl, h⟩

/-- Asks for the versions of some packages, one after the other. -/
def ask (d : Disk) (cwd : Location) (queries : List (String × String)) : WorkspaceM (List String) :=
  queries.mapM fun q => versions d cwd q.1 q.2

theorem ask_run (h : Faithful d cwd root w) (queries : List (String × String)) :
    ((ask d cwd queries).run w).1 = queries.map (fun q => answer d cwd root q.1 q.2) ∧
      Faithful d cwd root ((ask d cwd queries).run w).2 := by
  rw [ask]
  induction queries generalizing w with
  | nil => exact ⟨rfl, h⟩
  | cons q queries ih =>
    obtain ⟨hanswer, hnext⟩ := versions_run h q.1 q.2
    obtain ⟨hrest, hend⟩ := ih hnext
    rw [List.mapM_cons]
    refine ⟨?_, hend⟩
    show ((versions d cwd q.1 q.2).run w).1 :: _ = _
    rw [hanswer, List.map_cons, ← hrest]
    rfl

end Workspace

namespace WorkspacePool

open Workspace

variable {d : Disk} {cwd : Location} {p p' : WorkspacePool} {i : Nat} {w : Workspace}

/-- By what roots are told apart. -/
def keyOf (root : List Char) : Bool × List Path.Name := (Path.isAbsolute root, Path.names root)

/-- The pools of a program that looks for workspaces and asks them. -/
inductive Reached (d : Disk) (cwd : Location) : WorkspacePool → Prop
  | empty : Reached d cwd .empty
  | share {p : WorkspacePool} (start : List Char) : Reached d cwd p → Reached d cwd (p.share d cwd start).2
  | ask {p p' : WorkspacePool} {i : Nat} {queries : List (String × String)} {answers : List String} :
    Reached d cwd p → p.modifyAt i (Workspace.ask d cwd queries) = some (answers, p') → Reached d cwd p'

/-- Every workspace of a pool is faithful, and a shared one has the key under which it is shared. -/
structure Sound (d : Disk) (cwd : Location) (p : WorkspacePool) : Prop where
  faithful : ∀ w ∈ p.workspaces, Faithful d cwd w.root w
  shared : ∀ e ∈ p.shared, ∃ w root, p.workspaces[e.2]? = some w ∧ w.root = some root ∧ e.1 = keyOf root

theorem Sound.add (h : Sound d cwd p) (hw : Faithful d cwd w.root w) : Sound d cwd (p.add w).2 := by
  refine ⟨fun w' hw' => ?_, fun e he => ?_⟩
  · rcases List.mem_append.1 hw' with hw' | hw'
    · exact h.faithful w' hw'
    · rw [List.mem_singleton.1 hw']
      exact hw
  · obtain ⟨w', root, hw', hroot, hkey⟩ := h.shared e he
    refine ⟨w', root, ?_, hroot, hkey⟩
    show (p.workspaces ++ [w])[e.2]? = some w'
    rw [List.getElem?_append_left (List.getElem?_eq_some_iff.1 hw').1, hw']

theorem add_getElem? (p : WorkspacePool) (w : Workspace) : (p.add w).2.workspaces[(p.add w).1]? = some w :=
  List.getElem?_concat_length

/-- The root of a workspace that a search from `start` gives: the one that it finds, or one with the same key. -/
inductive RootFor (d : Disk) (cwd : Location) (start : List Char) : Option (List Char) → Prop
  | none (outside : rootAbove d cwd start = .none) : RootFor d cwd start .none
  | some (root held : List Char) (inside : rootAbove d cwd start = .some root) (key : keyOf held = keyOf root) :
    RootFor d cwd start (.some held)

theorem rootFor_discover (d : Disk) (cwd : Location) (start : List Char) :
    RootFor d cwd start (rootAbove d cwd start) := by
  cases h : rootAbove d cwd start with
  | none => exact .none h
  | some root => exact .some root root h rfl

theorem Sound.share (h : Sound d cwd p) (start : List Char) :
    Sound d cwd (p.share d cwd start).2 ∧
      ∃ w, (p.share d cwd start).2.workspaces[(p.share d cwd start).1]? = some w ∧ Faithful d cwd w.root w ∧
        RootFor d cwd start w.root := by
  rw [WorkspacePool.share]
  cases hroot : rootAbove d cwd start with
  | none =>
    have hdetached : Faithful d cwd detached.root detached := ⟨rfl, nofun, nofun⟩
    exact ⟨h.add hdetached, detached, add_getElem? p _, hdetached, .none hroot⟩
  | some root =>
    dsimp only
    cases hfind : p.shared.find? (·.1 == (Path.isAbsolute root, Path.names root)) with
    | some e =>
      have hkey := List.find?_some hfind
      obtain ⟨w, held, hw, hheld, he⟩ := h.shared e (List.mem_of_find?_eq_some hfind)
      have hmem : w ∈ p.workspaces := List.mem_of_getElem? hw
      have hsame : keyOf held = keyOf root := by
        rw [← he]
        exact beq_iff_eq.1 hkey
      exact ⟨h, w, hw, h.faithful w hmem, hheld ▸ .some root held hroot hsame⟩
    | none =>
      have hat : Faithful d cwd (atRoot root).root (atRoot root) := ⟨rfl, nofun, nofun⟩
      have hadd := h.add hat
      refine ⟨⟨hadd.faithful, fun e he => ?_⟩, atRoot root, add_getElem? p _, hat, .some root root hroot rfl⟩
      rcases List.mem_cons.1 he with rfl | he
      · exact ⟨atRoot root, root, add_getElem? p _, rfl, rfl⟩
      · exact hadd.shared e he

theorem modifyAt_eq_some {α : Type} {step : WorkspaceM α} {a : α} (h : p.modifyAt i step = some (a, p')) :
    ∃ w, p.workspaces[i]? = some w ∧ a = (step.run w).1 ∧
      p' = { p with workspaces := p.workspaces.set i (step.run w).2 } := by
  obtain ⟨w, hw, hrun⟩ := Option.bind_eq_some_iff.1 h
  cases hrun
  exact ⟨w, hw, rfl, rfl⟩

theorem Sound.ask (h : Sound d cwd p) {queries : List (String × String)} {answers : List String}
    (hask : p.modifyAt i (Workspace.ask d cwd queries) = some (answers, p')) : Sound d cwd p' := by
  obtain ⟨w, hw, -, rfl⟩ := modifyAt_eq_some hask
  have hfaithful := h.faithful w (List.mem_of_getElem? hw)
  obtain ⟨-, hnext⟩ := ask_run hfaithful queries
  have hroot := hnext.root_eq
  have hbound := (List.getElem?_eq_some_iff.1 hw).1
  refine ⟨fun w' hw' => ?_, fun e he => ?_⟩
  · rcases List.mem_or_eq_of_mem_set hw' with hw' | rfl
    · exact h.faithful w' hw'
    · rw [hroot]
      exact hnext
  · obtain ⟨w', root, hw', hroot', hkey⟩ := h.shared e he
    by_cases hi : e.2 = i
    · rw [hi, hw] at hw'
      cases hw'
      refine ⟨_, root, ?_, hroot.trans hroot', hkey⟩
      rw [hi]
      exact List.getElem?_set_self hbound
    · refine ⟨w', root, ?_, hroot', hkey⟩
      show (p.workspaces.set i _)[e.2]? = some w'
      rw [List.getElem?_set_ne (Ne.symm hi), hw']

/-- Whatever was looked for and asked before, every workspace of a pool answers as a fresh one. -/
theorem Reached.sound (h : Reached d cwd p) : Sound d cwd p := by
  induction h with
  | empty => exact ⟨nofun, nofun⟩
  | share start _ ih => exact (ih.share start).1
  | ask _ hask ih => exact ih.ask hask

/-- The root of the workspace that a directory gets. -/
def heldRoot (p : WorkspacePool) (d : Disk) (cwd : Location) (start : List Char) : Option (List Char) :=
  ((p.share d cwd start).2.workspaces[(p.share d cwd start).1]?).bind (·.root)

/-- What the workspace that a directory gets answers. -/
def answersFor (p : WorkspacePool) (d : Disk) (cwd : Location) (start : List Char) (queries : List (String × String)) :
    Option (List String) :=
  ((p.share d cwd start).2.modifyAt (p.share d cwd start).1 (Workspace.ask d cwd queries)).map (·.1)

theorem Reached.answersFor (h : Reached d cwd p) (start : List Char) (queries : List (String × String)) :
    RootFor d cwd start (p.heldRoot d cwd start) ∧ p.answersFor d cwd start queries =
      some (queries.map fun q => answer d cwd (p.heldRoot d cwd start) q.1 q.2) := by
  obtain ⟨-, w, hw, hfaithful, hroot⟩ := h.sound.share start
  have hheld : p.heldRoot d cwd start = w.root := by rw [heldRoot, hw, Option.bind_some]
  have hanswers := (ask_run hfaithful queries).1
  rw [hheld]
  refine ⟨hroot, ?_⟩
  rw [WorkspacePool.answersFor, modifyAt, hw, ← hanswers]
  rfl

end WorkspacePool

end Federation
