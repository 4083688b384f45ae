import Federation.Proofs.Client.Fleet
import Federation.Proofs.Plugin.Tables

/-!
# Requests that meet on the way

A host page sends any number of requests through one plugin, while the clients of its fleet look up, fetch,
refresh and report, and somebody changes the overrides. Everything happens in atomic steps, which come in any order:

* `request`: a request asks the plugin's client for the current manifest;
* `receive`: the call that it waits for has ended, and it takes the client's answer;
* `prepare`: with a manifest in hand it takes the plugin's table, which is made now if there is none;
* `answer`: it reads the overrides and is answered;
* `fleet`, `store`, `override`, `removeOverride`, `clearOverrides`: what goes on around the requests.

A page that is run `afresh` throws the table away after every step, so that each request makes its own. When all
requests declare the same remotes and all manifests that they saw agree on the names of these, both pages do the same
(`answers_as_afresh`): the table that is kept is the one that each request would make (`Tabled`).
-/

namespace Federation

namespace Page

inductive Stage where
  /-- It waits for the call of that place in the fleet. -/
  | waiting (caller : Nat)
  | received (manifest : Option Manifest)
  | prepared (manifest : Manifest) (table : RemoteTable)
  | answered (manifest : Option Manifest) (answer : ModuleRequest)

/-- A request that was sent, and how far it has come. -/
structure Load where
  request : ModuleRequest
  stage : Stage

inductive Action where
  | fleet (action : Fleet.Action)
  | store (uid : String) (manifest : Manifest)
  | override (uid url : String)
  | removeOverride (uid : String)
  | clearOverrides
  | request (r : ModuleRequest)
  | receive (load : Nat)
  | prepare (load : Nat)
  | answer (load : Nat)

/-- The manifest that a request saw. -/
def Load.manifest? (l : Load) : Option Manifest :=
  match l.stage with
  | .waiting _ => none
  | .received m => m
  | .prepared m _ => some m
  | .answered m _ => m

end Page

open Page

structure Page where
  fleet : Fleet
  /-- The place of the plugin's client in the fleet. -/
  client : Nat
  overrides : SessionOverrides
  plugin : RequestPlugin
  loads : List Load

namespace Page

def start (ms : List Fleet.Member) (client : Nat) (overrides : SessionOverrides) : Page :=
  ⟨.start ms, client, overrides, .fresh, []⟩

def setStage (s : Page) (k : Nat) (l : Load) (stage : Stage) : Page := { s with loads := s.loads.set k { l with stage } }

def send (s : Page) (r : ModuleRequest) : Option Page :=
  if RequestPlugin.needsManifest r then do
    let c ← s.fleet.clients[s.client]?
    let fleet ← s.fleet.beginCall s.client .current
    let stage := match (c.begin .current s.fleet.cache).1 with
      | .cached m => .received (some m)
      | .waiting _ => .waiting s.fleet.callers.length
    some { s with fleet, loads := s.loads ++ [⟨r, stage⟩] }
  else some { s with loads := s.loads ++ [⟨r, .answered none (s.plugin.redirect s.overrides none r).1⟩] }

def receive (s : Page) (k : Nat) : Option Page := do
  let l ← s.loads[k]?
  match l.stage with
  | .waiting j => do
    let w ← s.fleet.callers[j]?
    let m ← w.result?
    some (s.setStage k l (.received m))
  | _ => none

def prepare (s : Page) (k : Nat) : Option Page := do
  let l ← s.loads[k]?
  match l.stage with
  | .received (some m) =>
    let t := s.plugin.tableFor m l.request
    some { s.setStage k l (.prepared m t) with plugin := ⟨some t⟩ }
  | _ => none

def answer (s : Page) (k : Nat) : Option Page := do
  let l ← s.loads[k]?
  match l.stage with
  | .received none => some (s.setStage k l (.answered none (s.plugin.redirect s.overrides none l.request).1))
  | .prepared m t =>
    some (s.setStage k l (.answered (some m) ((RequestPlugin.mk (some t)).redirect s.overrides (some m) l.request).1))
  | _ => none

def step (s : Page) : Action → Option Page
  | .fleet a => (s.fleet.step a).map fun fleet => { s with fleet }
  | .store uid m => some { s with fleet := { s.fleet with cache := s.fleet.cache.set uid m } }
  | .override uid url => some { s with overrides := s.overrides.insert uid url }
  | .removeOverride uid => some { s with overrides := s.overrides.erase uid }
  | .clearOverrides => some { s with overrides := .empty }
  | .request r => s.send r
  | .receive k => s.receive k
  | .prepare k => s.prepare k
  | .answer k => s.answer k

def run (s : Page) : List Action → Option Page
  | [] => some s
  | a :: as => (s.step a).bind (·.run as)

/-- The page with a plugin that has no table. -/
def afresh (s : Page) : Page := { s with plugin := .fresh }

/-- A run in which each step meets a plugin that has no table. -/
def runAfresh (s : Page) : List Action → Option Page
  | [] => some s.afresh
  | a :: as => (s.afresh.step a).bind (·.runAfresh as)

/-- A manifest that some request saw. -/
def Saw (s : Page) (m : Manifest) : Prop := ∃ l ∈ s.loads, l.manifest? = some m

/-- The requests declare these remotes, and the manifests that they saw agree on which names of theirs are
dependencies. -/
structure Agreeing (rs : List RemoteDeclaration) (s : Page) : Prop where
  remotes : ∀ l ∈ s.loads, l.request.remotes = rs
  names : ∀ m m', s.Saw m → s.Saw m' → ∀ d ∈ rs, ∀ n ∈ d.names, m.dependencies.contains n = m'.dependencies.contains n

/-- The table that is kept is that of a manifest that some request saw. -/
def Tabled (rs : List RemoteDeclaration) (s : Page) : Prop :=
  ∀ t, s.plugin.table = some t → ∃ m, s.Saw m ∧ t = .ofRemotes m rs

variable {s s' : Page} {a : Action} {as : List Action} {rs : List RemoteDeclaration} {k : Nat}

/-! ### What each step does to the requests -/

theorem send_eq_some {r : ModuleRequest} (h : s.send r = some s') :
    ∃ fleet stage, s' = { s with fleet, loads := s.loads ++ [⟨r, stage⟩] } := by
  unfold send at h
  split at h
  · obtain ⟨c, -, h⟩ := Option.bind_eq_some_iff.1 h
    obtain ⟨fleet, -, h⟩ := Option.bind_eq_some_iff.1 h
    exact ⟨fleet, _, (Option.some.inj h).symm⟩
  · exact ⟨s.fleet, _, (Option.some.inj h).symm⟩

theorem receive_eq_some (h : s.receive k = some s') :
    ∃ l j m, s.loads[k]? = some l ∧ l.stage = .waiting j ∧ s' = s.setStage k l (.received m) := by
  obtain ⟨l, hl, h⟩ := Option.bind_eq_some_iff.1 h
  split at h
  · rename_i j hstage
    obtain ⟨w, -, h⟩ := Option.bind_eq_some_iff.1 h
    obtain ⟨m, -, h⟩ := Option.bind_eq_some_iff.1 h
    exact ⟨l, j, m, hl, hstage, (Option.some.inj h).symm⟩
  · cases h

theorem prepare_eq_some : s.prepare k = some s' ↔ ∃ l m, s.loads[k]? = some l ∧ l.stage = .received (some m) ∧
    s' = { s.setStage k l (.prepared m (s.plugin.tableFor m l.request)) with
      plugin := ⟨some (s.plugin.tableFor m l.request)⟩ } := by
  constructor
  · intro h
    obtain ⟨l, hl, h⟩ := Option.bind_eq_some_iff.1 h
    split at h
    · rename_i m hstage
      exact ⟨l, m, hl, hstage, (Option.some.inj h).symm⟩
    · cases h
  · rintro ⟨l, m, hl, hstage, rfl⟩
    simp [prepare, hl, hstage]

theorem answer_eq_some (h : s.answer k = some s') :
    ∃ l answer, s.loads[k]? = some l ∧ s' = s.setStage k l (.answered l.manifest? answer) := by
  obtain ⟨l, hl, h⟩ := Option.bind_eq_some_iff.1 h
  split at h
  · rename_i hstage
    exact ⟨l, _, hl, by rw [Load.manifest?, hstage]; exact (Option.some.inj h).symm⟩
  · rename_i m t hstage
    exact ⟨l, _, hl, by rw [Load.manifest?, hstage]; exact (Option.some.inj h).symm⟩
  · cases h

/-- A request stays, with what it declares and the manifest that it saw. -/
theorem exists_load_of_step (h : s.step a = some s') {l : Load} (hl : l ∈ s.loads) :
    ∃ l' ∈ s'.loads, l'.request = l.request ∧ ∀ m, l.manifest? = some m → l'.manifest? = some m := by
  have hset (k : Nat) (l₀ : Load) (stage : Stage) (hk : s.loads[k]? = some l₀)
      (hstage : ∀ m, l₀.manifest? = some m → ({ l₀ with stage } : Load).manifest? = some m) :
      ∃ l' ∈ s.loads.set k { l₀ with stage }, l'.request = l.request ∧
        ∀ m, l.manifest? = some m → l'.manifest? = some m := by
    obtain ⟨j, hj⟩ := List.mem_iff_getElem?.1 hl
    by_cases hjk : k = j
    · subst hjk
      cases hk.symm.trans hj
      have hlt := (List.getElem?_eq_some_iff.1 hk).1
      exact ⟨_, List.mem_iff_getElem?.2 ⟨k, List.getElem?_set_self hlt⟩, rfl, hstage⟩
    · exact ⟨l, List.mem_iff_getElem?.2 ⟨j, by rw [List.getElem?_set_ne hjk, hj]⟩, rfl, fun _ => id⟩
  cases a with
  | fleet a =>
    obtain ⟨fleet, -, rfl⟩ := Option.map_eq_some_iff.1 h
    exact ⟨l, hl, rfl, fun _ => id⟩
  | store | override | removeOverride | clearOverrides => cases h; exact ⟨l, hl, rfl, fun _ => id⟩
  | request r =>
    obtain ⟨fleet, stage, rfl⟩ := send_eq_some h
    exact ⟨l, List.mem_append_left _ hl, rfl, fun _ => id⟩
  | receive k =>
    obtain ⟨l₀, j, m, hk, hstage, rfl⟩ := receive_eq_some h
    exact hset k l₀ _ hk fun m hm => by simp [Load.manifest?, hstage] at hm
  | prepare k =>
    obtain ⟨l₀, m, hk, hstage, rfl⟩ := prepare_eq_some.1 h
    exact hset k l₀ _ hk fun m' hm => by simpa [Load.manifest?, hstage] using hm
  | answer k =>
    obtain ⟨l₀, x, hk, rfl⟩ := answer_eq_some h
    exact hset k l₀ _ hk fun m hm => hm

theorem Saw.step {m : Manifest} (hm : s.Saw m) (h : s.step a = some s') : s'.Saw m := by
  obtain ⟨l, hl, hm⟩ := hm
  obtain ⟨l', hl', -, hkeep⟩ := exists_load_of_step h hl
  exact ⟨l', hl', hkeep m hm⟩

theorem Agreeing.of_step (hs : s'.Agreeing rs) (h : s.step a = some s') : s.Agreeing rs where
  remotes l hl := by
    obtain ⟨l', hl', hr, -⟩ := exists_load_of_step h hl
    exact hr ▸ hs.remotes l' hl'
  names m m' hm hm' := hs.names m m' (hm.step h) (hm'.step h)

theorem run_cons : s.run (a :: as) = some s' ↔ ∃ t, s.step a = some t ∧ t.run as = some s' := Option.bind_eq_some_iff

theorem Agreeing.of_run (hs : s'.Agreeing rs) (h : s.run as = some s') : s.Agreeing rs := by
  induction as generalizing s with
  | nil => cases h; exact hs
  | cons a as ih =>
    obtain ⟨t, ha, h⟩ := run_cons.1 h
    exact (ih h).of_step ha

/-! ### The table that is kept -/

/-- The table for a request is the one that it would make itself. -/
theorem Tabled.tableFor (ht : s.Tabled rs) {m : Manifest} {r : ModuleRequest} (hr : r.remotes = rs)
    (hm : ∀ m', s.Saw m' → ∀ d ∈ rs, ∀ n ∈ d.names, m'.dependencies.contains n = m.dependencies.contains n) :
    s.plugin.tableFor m r = .ofRemotes m rs := by
  rw [RequestPlugin.tableFor, hr]
  cases hp : s.plugin.table with
  | none => rfl
  | some t =>
    obtain ⟨m', hm', rfl⟩ := ht t hp
    exact RemoteTable.ofRemotes_congr (hm m' hm')

theorem redirect_none (p : RequestPlugin) (overrides : SessionOverrides) (r : ModuleRequest) :
    p.redirect overrides none r = (r, p) := by
  unfold RequestPlugin.redirect
  split
  · rename_i h; cases h
  · rfl

/-- Only `prepare` looks at the table. -/
theorem step_afresh (hne : ∀ k, a ≠ .prepare k) : s.afresh.step a = (s.step a).map afresh := by
  cases a with
  | fleet a => simp [step, afresh, Function.comp_def]
  | store | override | removeOverride | clearOverrides => rfl
  | request r =>
    simp only [step, send, redirect_none]
    split <;> simp [afresh, Option.map_bind, Function.comp_def]
  | receive k =>
    simp only [step, receive, bind, Option.map_bind]
    refine congrArg (s.loads[k]?.bind ·) (funext fun l => ?_)
    dsimp only [Function.comp_apply]
    split <;> simp [afresh, setStage, Option.map_bind, Function.comp_def]
  | prepare k => exact absurd rfl (hne k)
  | answer k =>
    simp only [step, answer, redirect_none, bind, Option.map_bind]
    refine congrArg (s.loads[k]?.bind ·) (funext fun l => ?_)
    dsimp only [Function.comp_apply]
    split <;> rfl

/-! ### Runs -/

theorem Tabled.of_plugin (ht : s.Tabled rs) (hp : s'.plugin = s.plugin) (hsaw : ∀ m, s.Saw m → s'.Saw m) :
    s'.Tabled rs := by
  intro t h
  obtain ⟨m, hm, rfl⟩ := ht t (hp ▸ h)
  exact ⟨m, hsaw m hm, rfl⟩

theorem plugin_of_step (h : s.step a = some s') (hne : ∀ k, a ≠ .prepare k) : s'.plugin = s.plugin := by
  cases a with
  | fleet a =>
    obtain ⟨fleet, -, rfl⟩ := Option.map_eq_some_iff.1 h
    rfl
  | store | override | removeOverride | clearOverrides => cases h; rfl
  | request r =>
    obtain ⟨fleet, stage, rfl⟩ := send_eq_some h
    rfl
  | receive k =>
    obtain ⟨l, j, m, -, -, rfl⟩ := receive_eq_some h
    rfl
  | prepare k => exact absurd rfl (hne k)
  | answer k =>
    obtain ⟨l, x, -, rfl⟩ := answer_eq_some h
    rfl

/-- A request that makes its own table makes the one that is kept, or that is kept from now on. -/
theorem prepare_afresh (ht : s.Tabled rs) (hs : s'.Agreeing rs) (h : s.prepare k = some s') :
    (∃ t, s.afresh.prepare k = some t ∧ t.afresh = s'.afresh) ∧ s'.Tabled rs := by
  have hstep : s.step (.prepare k) = some s' := h
  have hagree := hs.of_step hstep
  have hkeep (m : Manifest) (hm : s.Saw m) : s'.Saw m := hm.step hstep
  obtain ⟨l, m, hk, hstage, rfl⟩ := prepare_eq_some.1 h
  have hl : l ∈ s.loads := List.mem_of_getElem? hk
  have hm : s.Saw m := ⟨l, hl, by rw [Load.manifest?, hstage]⟩
  have hr := hagree.remotes l hl
  have htable : s.plugin.tableFor m l.request = .ofRemotes m rs :=
    ht.tableFor hr fun m' hm' => hagree.names m' m hm' hm
  have hown : RequestPlugin.fresh.tableFor m l.request = .ofRemotes m rs := by
    rw [← hr]
    rfl
  refine ⟨⟨_, prepare_eq_some.2 ⟨l, m, hk, hstage, rfl⟩, ?_⟩, ?_⟩
  · rw [htable]
    change { s.setStage k l (.prepared m (RequestPlugin.fresh.tableFor m l.request)) with plugin := .fresh } = _
    rw [hown]
    rfl
  · intro t hp
    have htm : t = .ofRemotes m rs := (Option.some.inj hp).symm.trans htable
    exact ⟨m, hkeep m hm, htm⟩

theorem runAfresh_congr (h : s.afresh = s'.afresh) : s.runAfresh as = s'.runAfresh as := by
  cases as with
  | nil => exact congrArg some h
  | cons a as => rw [runAfresh, runAfresh, h]

theorem Tabled.run (ht : s.Tabled rs) (hs : s'.Agreeing rs) (h : s.run as = some s') :
    s.runAfresh as = some s'.afresh ∧ s'.Tabled rs := by
  induction as generalizing s with
  | nil => cases h; exact ⟨rfl, ht⟩
  | cons a as ih =>
    obtain ⟨t, ha, h⟩ := run_cons.1 h
    have hagree := hs.of_run h
    have hstep : (∃ t', s.afresh.step a = some t' ∧ t'.afresh = t.afresh) ∧ t.Tabled rs := by
      by_cases hne : ∀ k, a ≠ .prepare k
      · have hafresh : s.afresh.step a = some t.afresh := by rw [step_afresh hne, ha, Option.map_some]
        exact ⟨⟨_, hafresh, rfl⟩, ht.of_plugin (plugin_of_step ha hne) fun m hm => hm.step ha⟩
      · obtain ⟨k, rfl⟩ := not_forall_not.1 hne
        exact prepare_afresh ht hagree ha
    obtain ⟨⟨t', ht', heq⟩, htable⟩ := hstep
    obtain ⟨hrun, hend⟩ := ih htable h
    refine ⟨?_, hend⟩
    rw [runAfresh, ht', Option.bind_some, runAfresh_congr heq, hrun]

/-! ### A request that finds a manifest -/

theorem send_of_ready {c : ManifestClient} {r : ModuleRequest} {m : Manifest} (hc : s.fleet.clients[s.client]? = some c)
    (hm : s.fleet.cache.state c.applicationUid = .ready m) (hr : r.remoteName ≠ "") :
    s.send r = some { s with loads := s.loads ++ [⟨r, .received (some m)⟩] } := by
  have hbegin : c.begin .current s.fleet.cache = (.cached m, s.fleet.cache) := by
    rw [ManifestClient.begin, ManifestCache.lookup, hm]
  simp [send, RequestPlugin.needsManifest_iff.2 hr, Fleet.beginCall, hc, hbegin]

/-- A request that finds a manifest is answered, by the table of the plugin. -/
theorem run_of_ready {c : ManifestClient} {r : ModuleRequest} {m : Manifest} (hc : s.fleet.clients[s.client]? = some c)
    (hm : s.fleet.cache.state c.applicationUid = .ready m) (hr : r.remoteName ≠ "") :
    ∃ s', s.run [.request r, .prepare s.loads.length, .answer s.loads.length] = some s' ∧
      s'.loads = s.loads ++ [⟨r, .answered (some m) (s.plugin.redirect s.overrides (some m) r).1⟩] := by
  have hsend : s.step (.request r) = some { s with loads := s.loads ++ [⟨r, .received (some m)⟩] } :=
    send_of_ready hc hm hr
  let t := s.plugin.tableFor m r
  have hprepare : ({ s with loads := s.loads ++ [⟨r, .received (some m)⟩] } : Page).step (.prepare s.loads.length) =
      some { s with loads := s.loads ++ [⟨r, .prepared m t⟩], plugin := ⟨some t⟩ } := by
    simp [step, prepare, setStage, t]
  have hanswer : ({ s with loads := s.loads ++ [⟨r, .prepared m t⟩], plugin := ⟨some t⟩ } : Page).step
      (.answer s.loads.length) = some { s with
        loads := s.loads ++ [⟨r, .answered (some m) (s.plugin.redirect s.overrides (some m) r).1⟩]
        plugin := ⟨some t⟩ } := by
    have hneeds := RequestPlugin.needsManifest_iff.2 hr
    simp [step, answer, setStage, RequestPlugin.redirect_eq _ _ _ hneeds, RequestPlugin.tableFor, t]
  exact ⟨_, run_cons.2 ⟨_, hsend, run_cons.2 ⟨_, hprepare, run_cons.2 ⟨_, hanswer, rfl⟩⟩⟩, rfl⟩

/-- A plugin that keeps its table answers as one that has none: all that were sent so far, and the next, by the
manifest and the overrides of the moment. -/
theorem answers_as_afresh (ms : List Fleet.Member) (client : Nat) (overrides : SessionOverrides) (as : List Action)
    (s : Page) (rs : List RemoteDeclaration) (hrun : (start ms client overrides).run as = some s)
    (hagree : s.Agreeing rs) :
    (start ms client overrides).runAfresh as = some s.afresh ∧
    ∀ c r m, s.fleet.clients[s.client]? = some c → s.fleet.cache.state c.applicationUid = .ready m →
      r.remotes = rs → r.remoteName ≠ "" →
      (∀ m', s.Saw m' → ∀ d ∈ rs, ∀ n ∈ d.names, m'.dependencies.contains n = m.dependencies.contains n) →
      ∃ s', s.run [.request r, .prepare s.loads.length, .answer s.loads.length] = some s' ∧
        s'.loads = s.loads ++ [⟨r, .answered (some m) (RequestPlugin.fresh.redirect s.overrides (some m) r).1⟩] := by
  have hstart : (start ms client overrides).Tabled rs := by
    intro t h
    cases h
  obtain ⟨hafresh, htable⟩ := hstart.run hagree hrun
  refine ⟨hafresh, ?_⟩
  intro c r m hc hm hremotes hr hnames
  have hneeds := RequestPlugin.needsManifest_iff.2 hr
  have hsame : s.plugin.tableFor m r = RequestPlugin.fresh.tableFor m r := by
    rw [htable.tableFor hremotes hnames, ← hremotes]
    rfl
  have hanswer : s.plugin.redirect s.overrides (some m) r = RequestPlugin.fresh.redirect s.overrides (some m) r := by
    rw [RequestPlugin.redirect_eq _ _ _ hneeds, RequestPlugin.redirect_eq _ _ _ hneeds, hsame]
  rw [← hanswer]
  exact run_of_ready hc hm hr

def cartRemotes : List RemoteDeclaration := [⟨"cart", none, "http://localhost:3001/entry.js"⟩]

/-- A manifest whose `cart` belongs to an application and lies somewhere. -/
def cartAt (uid url : String) : Manifest :=
  ⟨"1.0.0", "2026-01-01T00:00:00Z", "host.shop.acme", KeyMap.empty.insert "cart" ⟨uid, url, "", "1.0.0"⟩⟩

/-- The table was made when `cart` belonged to another application. A refresh brought a new uid and a new URL, and
the session overrides the new uid; the next request is answered by the override. -/
theorem override_of_new_uid : ∃ s s',
    (start [⟨"u", "host", 1⟩] 0 .empty).run [.request ⟨"cart/Button", cartRemotes⟩,
      .fleet (.arrive 1 (.ok (cartAt "cart.shop.acme" "https://a/entry.js"))), .fleet (.settle 0), .fleet (.report 0),
      .receive 0, .prepare 0, .answer 0, .fleet (.begin 0 .refresh), .override "basket.shop.acme" "https://c/entry.js",
      .fleet (.arrive 2 (.ok (cartAt "basket.shop.acme" "https://b/entry.js"))), .fleet (.settle 1)] = some s ∧
    s.Agreeing cartRemotes ∧ s.plugin.table = some (KeyMap.empty.insert "cart" "cart") ∧
    s.run [.request ⟨"cart/Card", cartRemotes⟩, .prepare s.loads.length, .answer s.loads.length] = some s' ∧
    s'.loads = s.loads ++ [⟨⟨"cart/Card", cartRemotes⟩,
      .answered (some (cartAt "basket.shop.acme" "https://b/entry.js"))
        ⟨"cart/Card", [⟨"cart", none, "https://c/entry.js"⟩]⟩⟩] := by
  have hview : ((start [⟨"u", "host", 1⟩] 0 .empty).run [.request ⟨"cart/Button", cartRemotes⟩,
      .fleet (.arrive 1 (.ok (cartAt "cart.shop.acme" "https://a/entry.js"))), .fleet (.settle 0), .fleet (.report 0),
      .receive 0, .prepare 0, .answer 0, .fleet (.begin 0 .refresh), .override "basket.shop.acme" "https://c/entry.js",
      .fleet (.arrive 2 (.ok (cartAt "basket.shop.acme" "https://b/entry.js"))), .fleet (.settle 1)]).map
      (fun s => decide (s.loads.map (fun l => (l.request.remotes, l.manifest?)) =
          [(cartRemotes, some (cartAt "cart.shop.acme" "https://a/entry.js"))] ∧
        s.plugin.table = some (KeyMap.empty.insert "cart" "cart") ∧
        s.overrides = KeyMap.empty.insert "basket.shop.acme" "https://c/entry.js" ∧
        s.fleet.clients[s.client]?.map (·.applicationUid) = some "host" ∧
        s.fleet.cache.state "host" = .ready (cartAt "basket.shop.acme" "https://b/entry.js"))) = some true := by decide
  obtain ⟨s, hs, hview⟩ := Option.map_eq_some_iff.1 hview
  obtain ⟨hloads, htable, hoverrides, hclient, hready⟩ := of_decide_eq_true hview
  obtain ⟨c, hc, huid⟩ := Option.map_eq_some_iff.1 hclient
  have hload (l : Load) (hl : l ∈ s.loads) :
      l.request.remotes = cartRemotes ∧ l.manifest? = some (cartAt "cart.shop.acme" "https://a/entry.js") := by
    have := List.mem_map_of_mem (f := fun l : Load => (l.request.remotes, l.manifest?)) hl
    simpa [hloads] using this
  have hsaw (m : Manifest) (hm : s.Saw m) : m = cartAt "cart.shop.acme" "https://a/entry.js" := by
    obtain ⟨l, hl, hm⟩ := hm
    exact Option.some.inj (hm.symm.trans (hload l hl).2)
  have hagree : s.Agreeing cartRemotes :=
    ⟨fun l hl => (hload l hl).1, fun m m' hm hm' d _ n _ => by rw [hsaw m hm, hsaw m' hm']⟩
  obtain ⟨-, hnext⟩ := answers_as_afresh _ _ _ _ s cartRemotes hs hagree
  obtain ⟨s', hs', hloads'⟩ := hnext c ⟨"cart/Card", cartRemotes⟩ _ hc (huid ▸ hready) rfl (by decide)
    (fun m hm => by rw [hsaw m hm]; decide)
  refine ⟨s, s', hs, hagree, htable, hs', ?_⟩
  rw [hloads', hoverrides]
  have hanswer : (RequestPlugin.fresh.redirect (KeyMap.empty.insert "basket.shop.acme" "https://c/entry.js")
      (some (cartAt "basket.shop.acme" "https://b/entry.js")) ⟨"cart/Card", cartRemotes⟩).1 =
      ⟨"cart/Card", [⟨"cart", none, "https://c/entry.js"⟩]⟩ := by decide
  rw [hanswer]

end Page

end Federation
