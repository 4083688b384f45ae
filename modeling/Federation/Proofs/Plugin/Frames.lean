import Mathlib.Data.List.Forall2
import Federation.Proofs.Plugin.Loads

/-!
# What an answer leaves alone

The table, the manifest and the request that meet in an answer may come from different moments: a table is made for the
remotes of the first request, and kept, while manifests come and go. Whatever they are, the answer is the request but
for the entry of the first remote of its name (`framed_redirect`). It is the request itself if a lookup misses
(`redirect_of_leftAlone`), and the remote gets the entry URL that the lookups come to if none does
(`redirected_of_not_leftAlone`).

On a page the table of a plugin does not change once it is there. So the table with which a request was prepared is the
table that the plugin has at the end (`Accords`), and it makes no difference that others came in between.
-/

namespace Federation

namespace ModuleRequest

/-- A request that is another one but for the entry of the first remote of the name that is asked for. -/
structure Framed (r a : ModuleRequest) : Prop where
  id : a.id = r.id
  names : List.Forall₂ (fun d d' => d'.name = d.name ∧ d'.otherName = d.otherName) r.remotes a.remotes
  entries : ∀ i, a.remotes[i]? ≠ r.remotes[i]? → r.remotes.findIdx? (·.isCalled r.remoteName) = some i

/-- What may be missing for a request. -/
inductive LeftAlone (r : ModuleRequest) (table : Option RemoteTable) : Option Manifest → Prop
  | manifest : LeftAlone r table none
  | name {m : Option Manifest} (empty : r.remoteName = "") : LeftAlone r table m
  | remote {m : Option Manifest} (undeclared : ∀ d ∈ r.remotes, d.isCalled r.remoteName = false) :
    LeftAlone r table m
  | entry {m : Option Manifest} {t : RemoteTable} (kept : table = some t) (missing : t.get? r.remoteName = none) :
    LeftAlone r table m
  | dependency {m : Manifest} {t : RemoteTable} {key : String} (kept : table = some t)
    (named : t.get? r.remoteName = some key) (missing : m.dependencies.get? key = none) : LeftAlone r table (some m)

/-- What a request becomes otherwise: the first remote of its name gets the entry URL of a dependency. -/
inductive Redirected (r : ModuleRequest) (overrides : SessionOverrides) (table : Option RemoteTable) :
    Option Manifest → ModuleRequest → Prop
  | intro {m : Manifest} {t : RemoteTable} {key url : String} {before after : List RemoteDeclaration}
    {x : RemoteDeclaration} (kept : table = some t) (named : t.get? r.remoteName = some key)
    (entryUrl : m.entryUrl? overrides key = some url) (declared : r.remotes = before ++ x :: after)
    (first : ∀ y ∈ before, y.isCalled r.remoteName = false) (called : x.isCalled r.remoteName = true) :
    Redirected r overrides table (some m) { r with remotes := before ++ { x with entry := url } :: after }

variable {r : ModuleRequest} {overrides : SessionOverrides} {m : Manifest} {key : Option String} {url : String}

theorem Framed.refl (r : ModuleRequest) : r.Framed r :=
  ⟨rfl, List.forall₂_same.2 fun _ _ => ⟨rfl, rfl⟩, fun _ h => absurd rfl h⟩

theorem framed_withEntry (r : ModuleRequest) (url : String) : r.Framed (r.withEntry r.remoteName url) := by
  rw [withEntry]
  cases hi : r.remotes.findIdx? (·.isCalled r.remoteName) with
  | none => exact .refl r
  | some i =>
    refine ⟨rfl, ?_, fun j hj => ?_⟩
    · refine List.forall₂_iff_get.2 ⟨(List.length_modify ..).symm, fun j hj hj' => ?_⟩
      simp only [List.get_eq_getElem, List.getElem_modify]
      split <;> exact ⟨rfl, rfl⟩
    · by_contra hne
      have hij : i ≠ j := fun h => hne (h ▸ hi)
      exact hj (by simp [hij])

theorem framed_withDependency (r : ModuleRequest) (overrides : SessionOverrides) (m : Manifest) (key : Option String) :
    r.Framed (r.withDependency overrides m key) := by
  rw [withDependency]
  split
  · exact framed_withEntry r _
  · exact .refl r

theorem withEntry_of_undeclared (h : ∀ d ∈ r.remotes, d.isCalled r.remoteName = false) (url : String) :
    r.withEntry r.remoteName url = r := by
  rw [withEntry, List.findIdx?_eq_none_iff.2 h]

theorem withDependency_of_undeclared (h : ∀ d ∈ r.remotes, d.isCalled r.remoteName = false) :
    r.withDependency overrides m key = r := by
  rw [withDependency]
  split
  · exact withEntry_of_undeclared h _
  · rfl

end ModuleRequest

open ModuleRequest

namespace RequestPlugin
variable {p : RequestPlugin} {overrides : SessionOverrides} {m : Option Manifest} {r : ModuleRequest} {t : RemoteTable}

theorem redirect_of_nameless (h : r.remoteName = "") : p.redirect overrides m r = (r, p) := by
  have hneeds : needsManifest r = false := by simp [needsManifest, h]
  unfold redirect
  split
  · rename_i h
    cases hneeds.symm.trans h
  · rfl

/-- An answer is the request, or the request with the dependency that the table has for its name. -/
theorem redirect_cases (p : RequestPlugin) (overrides : SessionOverrides) (m : Option Manifest) (r : ModuleRequest) :
    p.redirect overrides m r = (r, p) ∨ r.remoteName ≠ "" ∧ ∃ m', m = some m' ∧ p.redirect overrides m r =
      (r.withDependency overrides m' ((p.tableFor m' r).get? r.remoteName), ⟨some (p.tableFor m' r)⟩) := by
  by_cases hname : r.remoteName = ""
  · exact .inl (redirect_of_nameless hname)
  · cases m with
    | none => exact .inl (Page.redirect_none p overrides r)
    | some m' => exact .inr ⟨hname, m', rfl, redirect_eq p overrides m' (needsManifest_iff.2 hname)⟩

theorem framed_redirect (p : RequestPlugin) (overrides : SessionOverrides) (m : Option Manifest) (r : ModuleRequest) :
    r.Framed (p.redirect overrides m r).1 := by
  obtain h | ⟨-, m', -, h⟩ := redirect_cases p overrides m r
  · rw [h]
    exact .refl r
  · rw [h]
    exact framed_withDependency r overrides m' _

theorem redirect_of_leftAlone (h : r.LeftAlone (p.redirect overrides m r).2.table m) :
    (p.redirect overrides m r).1 = r := by
  obtain heq | ⟨hname, m', rfl, heq⟩ := redirect_cases p overrides m r
  · rw [heq]
  · rw [heq] at h ⊢
    cases h with
    | name empty => exact absurd empty hname
    | remote undeclared => exact withDependency_of_undeclared undeclared
    | entry kept missing =>
      cases kept
      rw [missing, withDependency_none]
    | dependency kept named missing =>
      cases kept
      rw [named, withDependency, Option.bind_some, Manifest.entryUrl?, missing]
      rfl

theorem redirected_of_not_leftAlone (h : ¬r.LeftAlone (p.redirect overrides m r).2.table m) :
    r.Redirected overrides (p.redirect overrides m r).2.table m (p.redirect overrides m r).1 := by
  cases m with
  | none => exact absurd .manifest h
  | some m =>
    have hname : r.remoteName ≠ "" := fun hempty => h (.name hempty)
    rw [RequestPlugin.redirect_eq p overrides m (needsManifest_iff.2 hname)] at h ⊢
    cases hkey : (p.tableFor m r).get? r.remoteName with
    | none => exact absurd (.entry rfl hkey) h
    | some key =>
      cases hd : m.dependencies.get? key with
      | none => exact absurd (.dependency rfl hkey hd) h
      | some d =>
        have hurl : m.entryUrl? overrides key = some _ := congrArg (Option.map _) hd
        cases hfirst : r.remotes.find? (·.isCalled r.remoteName) with
        | none => exact absurd (.remote fun x hx => by simpa using List.find?_eq_none.1 hfirst x hx) h
        | some x =>
          obtain ⟨hx, before, after, hr, hbefore⟩ := List.find?_eq_some_iff_append.1 hfirst
          have hothers : ∀ y ∈ before, y.isCalled r.remoteName = false := fun y hy => by simpa using hbefore y hy
          rw [withDependency_some hurl, withEntry_of_first hr hothers hx]
          exact .intro rfl hkey hurl hr hothers hx

theorem tableFor_of_table (h : p.table = some t) (m : Manifest) (r : ModuleRequest) : p.tableFor m r = t := by
  rw [tableFor, h, Option.getD_some]

theorem redirect_keeps (h : p.table = some t) (overrides : SessionOverrides) (m : Option Manifest) (r : ModuleRequest) :
    (p.redirect overrides m r).2 = p := by
  obtain heq | ⟨-, m', -, heq⟩ := redirect_cases p overrides m r
  · rw [heq]
  · rw [heq, tableFor_of_table h, ← h]

end RequestPlugin

namespace Page

/-- A stage that goes with the table of a plugin. -/
inductive Accords (p : RequestPlugin) (r : ModuleRequest) : Stage → Prop
  | waiting (caller : Nat) : Accords p r (.waiting caller)
  | received (manifest : Option Manifest) : Accords p r (.received manifest)
  | prepared {t : RemoteTable} (m : Manifest) (kept : p.table = some t) : Accords p r (.prepared m t)
  | unchanged : Accords p r (.answered none r)
  | answered {t : RemoteTable} (overrides : SessionOverrides) (m : Manifest) (kept : p.table = some t) :
    Accords p r (.answered (some m) (p.redirect overrides (some m) r).1)

/-- A request whose client has an answer for it: it took the answer, or the call that it waits for has ended. -/
def Obtains (s : Page) (l : Load) (m : Option Manifest) : Prop :=
  match l.stage with
  | .waiting j => ∃ w, s.fleet.callers[j]? = some w ∧ w.result? = some m
  | _ => l.manifest? = m

variable {s s' : Page} {a : Action} {as : List Action} {k : Nat} {l : Load} {r : ModuleRequest}
  {p p' : RequestPlugin} {stage : Stage} {m : Option Manifest}

/-- What a page keeps step by step, it keeps in runs. -/
theorem run_induction {P : Page → Prop} (step : ∀ {s s' a}, P s → s.step a = some s' → P s') (h : s.run as = some s')
    (hs : P s) : P s' := by
  induction as generalizing s with
  | nil => cases h; exact hs
  | cons a as ih =>
    obtain ⟨t, ha, h⟩ := run_cons.1 h
    exact ih h (step hs ha)

/-! ### The table stays -/

theorem Accords.mono (h : Accords p r stage) (hkeep : ∀ t, p.table = some t → p'.table = some t) :
    Accords p' r stage := by
  cases h with
  | waiting caller => exact .waiting caller
  | received manifest => exact .received manifest
  | prepared m kept => exact .prepared m (hkeep _ kept)
  | unchanged => exact .unchanged
  | answered overrides m kept =>
    have hp : p' = p := congrArg RequestPlugin.mk ((hkeep _ kept).trans kept.symm)
    rw [hp]
    exact .answered overrides m kept

theorem answer_cases (h : s.answer k = some s') : ∃ l, s.loads[k]? = some l ∧
    (l.stage = .received none ∧ s' = s.setStage k l (.answered none l.request) ∨
      ∃ m t, l.stage = .prepared m t ∧ s' = s.setStage k l
        (.answered (some m) ((RequestPlugin.mk (some t)).redirect s.overrides (some m) l.request).1)) := by
  obtain ⟨l, hl, h⟩ := Option.bind_eq_some_iff.1 h
  refine ⟨l, hl, ?_⟩
  split at h
  · rename_i hstage
    rw [redirect_none] at h
    exact .inl ⟨hstage, (Option.some.inj h).symm⟩
  · rename_i m t hstage
    exact .inr ⟨m, t, hstage, (Option.some.inj h).symm⟩
  · cases h

theorem send_cases (h : s.send r = some s') :
    ∃ fleet stage, s' = { s with fleet, loads := s.loads ++ [⟨r, stage⟩] } ∧
      (∀ p, Accords p r stage) ∧ ∀ i, fleet.member? i = s.fleet.member? i := by
  unfold send at h
  split at h
  · obtain ⟨c, -, h⟩ := Option.bind_eq_some_iff.1 h
    obtain ⟨fleet, hfleet, h⟩ := Option.bind_eq_some_iff.1 h
    have hbegin : s.fleet.step (.begin s.client .current) = some fleet := hfleet
    refine ⟨fleet, _, (Option.some.inj h).symm, fun p => ?_, Fleet.member?_step hbegin⟩
    split
    · exact .received _
    · exact .waiting _
  · rw [redirect_none] at h
    exact ⟨s.fleet, _, (Option.some.inj h).symm, fun _ => .unchanged, fun _ => rfl⟩

/-- All requests on a page go with the table of its plugin. -/
def Accorded (s : Page) : Prop := ∀ l ∈ s.loads, Accords s.plugin l.request l.stage

theorem Accorded.send (hs : s.Accorded) (h : s.send r = some s') : s'.Accorded := by
  obtain ⟨fleet, stage, rfl, hstage, -⟩ := send_cases h
  intro l hl
  obtain hl | hl := List.mem_append.1 hl
  · exact hs l hl
  · rw [List.mem_singleton.1 hl]
    exact hstage s.plugin

theorem Accorded.setStage (hs : s.Accorded) (k : Nat) (hstage : Accords s.plugin l.request stage) :
    (s.setStage k l stage).Accorded := by
  intro x hx
  obtain hx | rfl := List.mem_or_eq_of_mem_set hx
  · exact hs x hx
  · exact hstage

theorem Accorded.withTable (hs : s.Accorded) (t : RemoteTable) (ht : ∀ t', s.plugin.table = some t' → t = t') :
    Accorded { s with plugin := ⟨some t⟩ } :=
  fun l hl => (hs l hl).mono fun t' ht' => congrArg some (ht t' ht')

theorem Accorded.step (hs : s.Accorded) (h : s.step a = some s') : s'.Accorded := by
  cases a with
  | fleet a =>
    obtain ⟨fleet, -, rfl⟩ := Option.map_eq_some_iff.1 h
    exact hs
  | store | override | removeOverride | clearOverrides => cases h; exact hs
  | request r => exact hs.send h
  | receive k =>
    obtain ⟨l, j, m, -, -, rfl⟩ := receive_eq_some h
    exact hs.setStage k (.received m)
  | prepare k =>
    obtain ⟨l, m, -, -, rfl⟩ := prepare_eq_some.1 h
    -- a table that is made now is the first one: whoever was prepared before has the one that is kept
    have hkept := hs.withTable (s.plugin.tableFor m l.request) fun t ht =>
      RequestPlugin.tableFor_of_table ht m l.request
    exact hkept.setStage k (.prepared m rfl)
  | answer k =>
    obtain ⟨l, hl, ⟨-, rfl⟩ | ⟨m, t, hstage, rfl⟩⟩ := answer_cases h
    · exact hs.setStage k .unchanged
    · have hload := hs l (List.mem_of_getElem? hl)
      rw [hstage] at hload
      cases hload with
      | prepared m kept =>
        have hp : RequestPlugin.mk (some t) = s.plugin := congrArg RequestPlugin.mk kept.symm
        rw [hp]
        exact hs.setStage k (.answered s.overrides m kept)

theorem Accorded.run (hs : s.Accorded) (h : s.run as = some s') : s'.Accorded := run_induction Accorded.step h hs

/-! ### Requests come to an answer -/

/-- What the client of the plugin is. -/
def member? (s : Page) : Option Fleet.Member := s.fleet.member? s.client

theorem member?_step (h : s.step a = some s') : s'.member? = s.member? := by
  cases a with
  | fleet a =>
    obtain ⟨fleet, hfleet, rfl⟩ := Option.map_eq_some_iff.1 h
    exact Fleet.member?_step hfleet s.client
  | store | override | removeOverride | clearOverrides => cases h; rfl
  | request r =>
    obtain ⟨fleet, stage, rfl, -, hmember⟩ := send_cases h
    exact hmember s.client
  | receive k =>
    obtain ⟨l, j, m, -, -, rfl⟩ := receive_eq_some h
    rfl
  | prepare k =>
    obtain ⟨l, m, -, -, rfl⟩ := prepare_eq_some.1 h
    rfl
  | answer k =>
    obtain ⟨l, x, -, rfl⟩ := answer_eq_some h
    rfl

theorem member?_run (h : s.run as = some s') : s'.member? = s.member? :=
  run_induction (P := fun t => t.member? = s.member?) (fun ht ha => (member?_step ha).trans ht) h rfl

theorem exists_send {member : Fleet.Member} (hmember : s.member? = some member) (r : ModuleRequest) :
    ∃ s' stage, s.step (.request r) = some s' ∧ s'.loads = s.loads ++ [⟨r, stage⟩] := by
  obtain ⟨c, hc, -, -⟩ := Fleet.client_of_member? hmember
  simp only [step, send]
  split
  · cases hbegin : c.begin .current s.fleet.cache with
    | mk l cache => cases l <;> simp [Fleet.beginCall, hc, hbegin]
  · exact ⟨_, _, rfl, rfl⟩

theorem loads_setStage (hl : s.loads[k]? = some l) (stage : Stage) :
    (s.setStage k l stage).loads[k]? = some { l with stage } :=
  List.getElem?_set_self (List.getElem?_eq_some_iff.1 hl).1

/-- Whether some steps take a request to an answer with a manifest. -/
def Answerable (s : Page) (k : Nat) (r : ModuleRequest) (m : Option Manifest) : Prop :=
  ∃ as s' a, s.run as = some s' ∧ s'.loads[k]? = some ⟨r, .answered m a⟩

theorem Answerable.of_step (h : s.step a = some s') (hs : s'.Answerable k r m) : s.Answerable k r m := by
  obtain ⟨as, t, x, hrun, ht⟩ := hs
  exact ⟨a :: as, t, x, run_cons.2 ⟨s', h, hrun⟩, ht⟩

theorem answerable_of_prepared {m : Manifest} {t : RemoteTable} (hl : s.loads[k]? = some ⟨r, .prepared m t⟩) :
    s.Answerable k r (some m) := by
  have hstep : s.step (.answer k) = some (s.setStage k ⟨r, .prepared m t⟩
      (.answered (some m) ((RequestPlugin.mk (some t)).redirect s.overrides (some m) r).1)) := by
    simp [step, answer, hl]
  exact .of_step hstep ⟨[], _, _, rfl, loads_setStage hl _⟩

theorem answerable_of_received (hl : s.loads[k]? = some ⟨r, .received m⟩) : s.Answerable k r m := by
  cases m with
  | none =>
    have hstep : s.step (.answer k) = some (s.setStage k ⟨r, .received none⟩
        (.answered none (s.plugin.redirect s.overrides none r).1)) := by
      simp [step, answer, hl]
    exact .of_step hstep ⟨[], _, _, rfl, loads_setStage hl _⟩
  | some m =>
    have hstep : s.step (.prepare k) = some _ := prepare_eq_some.2 ⟨_, m, hl, rfl, rfl⟩
    exact .of_step hstep (answerable_of_prepared (loads_setStage hl _))

/-- A request whose client has an answer for it needs nobody else to be answered. -/
theorem answerable_of_obtains (hl : s.loads[k]? = some l) (hm : s.Obtains l m) : s.Answerable k l.request m := by
  obtain ⟨r, stage⟩ := l
  cases stage with
  | waiting j =>
    obtain ⟨w, hw, hresult⟩ := hm
    have hstep : s.step (.receive k) = some (s.setStage k ⟨r, .waiting j⟩ (.received m)) := by
      simp [step, receive, hl, hw, hresult]
    exact .of_step hstep (answerable_of_received (loads_setStage hl _))
  | received m' =>
    cases hm
    exact answerable_of_received hl
  | prepared m' t =>
    cases hm
    exact answerable_of_prepared hl
  | answered m' a =>
    cases hm
    exact ⟨[], s, a, rfl, hl⟩

/-! ### Answers -/

/-- A plugin with a client takes every request at any time, and answers it once the client has an answer for it.
Whatever came before or in between, the answer is the request but for the entry of the first remote of its name. It is
the request itself if there was no manifest, no name is asked for or no remote bears it, if the table of the plugin does
not have the name, or the manifest not the dependency that the table has for it. In all other cases the remote gets the
entry URL of the dependency, by the manifest and the overrides of some moment. -/
theorem answers_framed (ms : List Fleet.Member) (client : Nat) (overrides : SessionOverrides) (as : List Action)
    (s : Page) (hrun : (start ms client overrides).run as = some s) :
    (client < ms.length → ∀ r, ∃ s' stage, s.step (.request r) = some s' ∧
      s'.loads = s.loads ++ [⟨r, stage⟩]) ∧
    (∀ k l m, s.loads[k]? = some l → s.Obtains l m → s.Answerable k l.request m) ∧
    ∀ l ∈ s.loads, ∀ m a, l.stage = .answered m a →
      l.request.Framed a ∧ (l.request.LeftAlone s.plugin.table m → a = l.request) ∧
      (¬l.request.LeftAlone s.plugin.table m → ∃ overrides, l.request.Redirected overrides s.plugin.table m a) := by
  have hmember : s.member? = ms[client]? := (member?_run hrun).trans (Fleet.member?_start ms client)
  have hstart : (start ms client overrides).Accorded := nofun
  refine ⟨fun hclient => exists_send (hmember.trans (List.getElem?_eq_getElem hclient)),
    fun k l m => answerable_of_obtains, fun l hl m a hstage => ?_⟩
  have haccords := hstart.run hrun l hl
  rw [hstage] at haccords
  cases haccords with
  | unchanged => exact ⟨.refl l.request, fun _ => rfl, fun h => absurd .manifest h⟩
  | answered overrides m kept =>
    have hplugin := RequestPlugin.redirect_keeps kept overrides (some m) l.request
    refine ⟨RequestPlugin.framed_redirect s.plugin overrides (some m) l.request, fun h => ?_, fun h => ⟨overrides, ?_⟩⟩
    · exact RequestPlugin.redirect_of_leftAlone (hplugin.symm ▸ h)
    · have hredirected := RequestPlugin.redirected_of_not_leftAlone (hplugin.symm ▸ h)
      rwa [hplugin] at hredirected

/-- A manifest without dependencies. -/
def bareManifest : Manifest := ⟨"1.0.0", "2026-02-01T00:00:00Z", "host.shop.acme", .empty⟩

/-- The table was made for one remote, which got the entry URL of its dependency. The table knows `cart` still, but the
manifest has lost it: a request with other remotes comes back as it was. -/
theorem answers_framed_of_lost_dependency :
    let m := cartAt "cart.shop.acme" "https://a/entry.js"
    let r : ModuleRequest := ⟨"cart/Button", cartRemotes⟩
    let r' : ModuleRequest := ⟨"cart/Card", ⟨"nav", none, "http://localhost:3002/entry.js"⟩ :: cartRemotes⟩
    ∃ s overrides a, (start [⟨"u", "host", 1⟩] 0 .empty).run [.request r, .fleet (.arrive 1 (.ok m)),
        .fleet (.settle 0), .fleet (.report 0), .receive 0, .prepare 0, .answer 0, .store "host" bareManifest,
        .request r', .prepare 1, .answer 1] = some s ∧
      ⟨r, .answered (some m) a⟩ ∈ s.loads ∧ r.Redirected overrides s.plugin.table (some m) a ∧
      ⟨r', .answered (some bareManifest) r'⟩ ∈ s.loads := by
  intro m r r'
  have hview : ((start [⟨"u", "host", 1⟩] 0 .empty).run [.request r, .fleet (.arrive 1 (.ok m)),
      .fleet (.settle 0), .fleet (.report 0), .receive 0, .prepare 0, .answer 0, .store "host" bareManifest,
      .request r', .prepare 1, .answer 1]).map (fun s => decide (
        s.plugin.table = some (KeyMap.empty.insert "cart" "cart") ∧
        s.loads.map (fun l => (l.request, match l.stage with | .answered m _ => some m | _ => none)) =
          [(r, some (some m)), (r', some (some bareManifest))])) = some true := by decide
  obtain ⟨s, hs, hview⟩ := Option.map_eq_some_iff.1 hview
  obtain ⟨htable, hloads⟩ := of_decide_eq_true hview
  have hanswered {r : ModuleRequest} {m : Manifest} (h : (r, some (some m)) ∈ s.loads.map fun l =>
      (l.request, match l.stage with | .answered m _ => some m | _ => none)) :
      ∃ a, (⟨r, .answered (some m) a⟩ : Load) ∈ s.loads := by
    obtain ⟨⟨r, stage⟩, hl, hseen⟩ := List.mem_map.1 h
    obtain ⟨rfl, hstage⟩ := Prod.mk.inj hseen
    cases stage with
    | answered m a =>
      cases Option.some.inj hstage
      exact ⟨a, hl⟩
    | waiting | received | prepared => cases hstage
  obtain ⟨a, ha⟩ := hanswered (hloads ▸ List.mem_cons_self)
  obtain ⟨a', ha'⟩ := hanswered (hloads ▸ List.mem_cons_of_mem _ List.mem_cons_self)
  obtain ⟨-, -, hanswers⟩ := answers_framed _ 0 .empty _ s hs
  have hknown : (KeyMap.empty.insert "cart" "cart" : RemoteTable).get? r.remoteName = some "cart" := by decide
  have hknown' : (KeyMap.empty.insert "cart" "cart" : RemoteTable).get? r'.remoteName = some "cart" := by decide
  have hredirected : ¬r.LeftAlone s.plugin.table (some m) := by
    intro h
    cases h with
    | name empty => exact absurd empty (by decide)
    | remote undeclared => exact absurd (undeclared _ List.mem_cons_self) (by decide)
    | entry kept missing =>
      cases htable.symm.trans kept
      cases hknown.symm.trans missing
    | dependency kept named missing =>
      cases htable.symm.trans kept
      cases hknown.symm.trans named
      cases missing
  obtain ⟨overrides, ha₁⟩ := (hanswers _ ha _ _ rfl).2.2 hredirected
  have ha₂ : a' = r' := (hanswers _ ha' _ _ rfl).2.1 (.dependency htable hknown' rfl)
  exact ⟨s, overrides, a, hs, ha, ha₁, ha₂ ▸ ha'⟩

end Page

end Federation
