import Federation.Proofs.Client.Calls

/-!
# Clients that share a cache

A fleet is any number of clients on one cache, with any number of calls on their way. It changes by atomic
steps, which come in any order:

* `begin`: a call looks into the cache, and is answered from there or gets a ticket;
* `arrive`: a fetch completes with some outcome, which everybody who awaits it will see;
* `settle`: a caller whose fetch is complete settles it in the cache;
* `report`: it takes its generation to its client and learns what it has to tell;
* `tell`: it tells one observer of one event;
* `clear`: somebody clears an entry of the cache.

`fetches`, `settled`, `reports` and `told` are records of what happened, with the latest first. No step reads them,
but for the outcome of a fetch, which its callers await. Callers stand in the order in which they began, so that a
call keeps its place.
-/

namespace Federation

namespace Fleet

structure Fetch where
  uid : String
  generation : Nat
  /-- The manifest that was ready when it was started. -/
  previous : Option Manifest
  outcome : Option FetchOutcome

/-- How far a call has come since it got its ticket. -/
inductive Stage where
  | waiting
  | settled (outcome : FetchOutcome)
  /-- It has taken its generation to its client, and `untold` is left to be told. -/
  | reported (outcome : FetchOutcome) (untold : List Observation)

structure Caller where
  client : Nat
  call : ClientCall
  ticket : Ticket
  stage : Stage

/-- A generation that a caller took to its client. -/
structure Report where
  client : Nat
  subject : Subject
  generation : Nat
  /-- Whether the client had reported another generation, or none, on the subject before. -/
  first : Bool
  /-- What it gave the caller to tell. -/
  tells : List Observation

structure Telling where
  client : Nat
  generation : Nat
  observation : Observation
deriving DecidableEq

structure Member where
  url : String
  applicationUid : String
  observers : Nat

inductive Action where
  | begin (client : Nat) (call : ClientCall)
  | arrive (generation : Nat) (outcome : FetchOutcome)
  | settle (caller : Nat)
  | report (caller : Nat)
  | tell (caller : Nat)
  | clear (uid : String)

namespace Fetch

/-- The fetch, completed if it is the one of a generation. -/
def complete (g : Nat) (o : FetchOutcome) (f : Fetch) : Fetch :=
  if f.generation = g then { f with outcome := some o } else f

end Fetch

namespace Stage

def outcome? : Stage → Option FetchOutcome
  | waiting => none
  | settled o | reported o _ => some o

def untold : Stage → List Observation
  | waiting | settled _ => []
  | reported _ os => os

end Stage

namespace Caller

/-- What a call that has ended answers. -/
def result? (w : Caller) : Option (Option Manifest) :=
  match w.stage with
  | .reported o [] => some (ManifestClient.answer o)
  | _ => none

theorem stage_of_result? {w : Caller} {r : Option Manifest} (h : w.result? = some r) :
    ∃ o, w.stage = .reported o [] ∧ r = ManifestClient.answer o := by
  unfold result? at h
  split at h
  · rename_i o hst
    cases h
    exact ⟨o, hst, rfl⟩
  · cases h

end Caller

def Member.client (m : Member) : ManifestClient := .new m.url m.applicationUid m.observers

end Fleet

open Fleet

structure Fleet where
  cache : ManifestCache
  clients : List ManifestClient
  fetches : List Fetch
  /-- All calls that got a ticket. -/
  callers : List Caller
  /-- The applications whose entries were settled. -/
  settled : List String
  reports : List Report
  told : List Telling

namespace Fleet

def start (ms : List Member) : Fleet := ⟨.empty, ms.map Member.client, [], [], [], [], []⟩

/-- The outcome of the fetch of a generation, once it is complete. -/
def outcome? (s : Fleet) (g : Nat) : Option FetchOutcome := (s.fetches.find? (·.generation = g)).bind (·.outcome)

def beginCall (s : Fleet) (i : Nat) (call : ClientCall) : Option Fleet := do
  let c ← s.clients[i]?
  match c.begin call s.cache with
  | (.cached _, cache) => some { s with cache }
  | (.waiting t, cache) => some { s with
      cache
      fetches := if t.initiated then ⟨c.applicationUid, t.generation, t.previous, none⟩ :: s.fetches else s.fetches
      callers := s.callers ++ [⟨i, call, t, .waiting⟩] }

def arrive (s : Fleet) (g : Nat) (o : FetchOutcome) : Option Fleet :=
  if s.fetches.any fun f => f.generation == g && f.outcome.isNone then
    some { s with fetches := s.fetches.map (Fetch.complete g o) }
  else none

def settle (s : Fleet) (k : Nat) : Option Fleet := do
  let w ← s.callers[k]?
  let c ← s.clients[w.client]?
  let o ← s.outcome? w.ticket.generation
  match w.stage with
  | .waiting =>
    let (took, cache) := s.cache.settle c.applicationUid w.ticket.generation o
    some { s with
      cache
      callers := s.callers.set k { w with stage := .settled o }
      settled := if took then c.applicationUid :: s.settled else s.settled }
  | _ => none

def report (s : Fleet) (k : Nat) : Option Fleet := do
  let w ← s.callers[k]?
  let c ← s.clients[w.client]?
  match w.stage with
  | .settled o =>
    let (os, c') := c.report w.call w.ticket o
    some { s with
      clients := s.clients.set w.client c'
      callers := s.callers.set k { w with stage := .reported o os }
      reports := ((ManifestClient.subject? w.call w.ticket o).map fun x =>
        ⟨w.client, x, w.ticket.generation, c.lastReported x ≠ w.ticket.generation, os⟩).toList ++ s.reports }
  | _ => none

def tell (s : Fleet) (k : Nat) : Option Fleet := do
  let w ← s.callers[k]?
  match w.stage with
  | .reported o (x :: untold) => some { s with
      callers := s.callers.set k { w with stage := .reported o untold }
      told := ⟨w.client, w.ticket.generation, x⟩ :: s.told }
  | _ => none

def step (s : Fleet) : Action → Option Fleet
  | .begin i call => s.beginCall i call
  | .arrive g o => s.arrive g o
  | .settle k => s.settle k
  | .report k => s.report k
  | .tell k => s.tell k
  | .clear uid => some { s with cache := s.cache.clear uid }

def run (s : Fleet) : List Action → Option Fleet
  | [] => some s
  | a :: as => (s.step a).bind (·.run as)

variable {s s' : Fleet}

/-! ### What each step does -/

theorem run_cons {a : Action} {as : List Action} :
    s.run (a :: as) = some s' ↔ ∃ t, s.step a = some t ∧ t.run as = some s' := Option.bind_eq_some_iff

theorem run_append (as bs : List Action) : s.run (as ++ bs) = (s.run as).bind (·.run bs) := by
  induction as generalizing s with
  | nil => rfl
  | cons a as ih =>
    rw [List.cons_append, run, run, Option.bind_assoc]
    exact congrArg _ (funext fun t => ih)

/-- What a fleet does step by step, it does in runs. -/
theorem run_induction {P : Fleet → Prop} (step : ∀ {s s' a}, P s → s.step a = some s' → P s') {as : List Action}
    (h : s.run as = some s') (hs : P s) : P s' := by
  induction as generalizing s with
  | nil => cases h; exact hs
  | cons a as ih =>
    obtain ⟨t, ha, h⟩ := run_cons.1 h
    exact ih h (step hs ha)

/-- A call leaves no trace, joins the fetch under way, or starts one. -/
theorem beginCall_eq_some {i : Nat} {call : ClientCall} (h : s.beginCall i call = some s') :
    ∃ c, s.clients[i]? = some c ∧
      ((∃ m, call = .current ∧ s.cache.state c.applicationUid = .ready m ∧ s' = s) ∨
      (∃ f, s.cache.state c.applicationUid = .fetching f ∧
        s' = { s with callers := s.callers ++ [⟨i, call, f.ticket false, .waiting⟩] }) ∨
      (∃ p, p = s.cache.ready? c.applicationUid ∧ (∀ f, s.cache.state c.applicationUid ≠ .fetching f) ∧
        s' = { s with
          cache := (s.cache.begin c.applicationUid p).2
          fetches := ⟨c.applicationUid, s.cache.nextGeneration, p, none⟩ :: s.fetches
          callers := s.callers ++ [⟨i, call, ⟨s.cache.nextGeneration, p, true⟩, .waiting⟩] })) := by
  obtain ⟨c, hc, h⟩ := Option.bind_eq_some_iff.1 h
  refine ⟨c, hc, ?_⟩
  rcases c.begin_cases call s.cache with ⟨m, hcall, hm, hb⟩ | ⟨f, hf, hb⟩ | ⟨hno, hb⟩ <;> rw [hb] at h <;> cases h
  · exact .inl ⟨m, hcall, hm, rfl⟩
  · exact .inr (.inl ⟨f, hf, rfl⟩)
  · exact .inr (.inr ⟨_, rfl, hno, rfl⟩)

theorem arrive_eq_some {g : Nat} {o : FetchOutcome} (h : s.arrive g o = some s') :
    (∃ f ∈ s.fetches, f.generation = g ∧ f.outcome = none) ∧
      s' = { s with fetches := s.fetches.map (Fetch.complete g o) } := by
  unfold arrive at h
  split at h
  · rename_i ha
    cases h
    refine ⟨?_, rfl⟩
    simpa using ha
  · cases h

theorem settle_eq_some {k : Nat} (h : s.settle k = some s') :
    ∃ w c o, s.callers[k]? = some w ∧ s.clients[w.client]? = some c ∧ w.stage = .waiting ∧
      s.outcome? w.ticket.generation = some o ∧
      s' = { s with
        cache := (s.cache.settle c.applicationUid w.ticket.generation o).2
        callers := s.callers.set k { w with stage := .settled o }
        settled := if (s.cache.settle c.applicationUid w.ticket.generation o).1 then c.applicationUid :: s.settled
          else s.settled } := by
  obtain ⟨w, hw, h⟩ := Option.bind_eq_some_iff.1 h
  obtain ⟨c, hc, h⟩ := Option.bind_eq_some_iff.1 h
  obtain ⟨o, ho, h⟩ := Option.bind_eq_some_iff.1 h
  split at h
  · rename_i hst
    cases h
    exact ⟨w, c, o, hw, hc, hst, ho, rfl⟩
  · cases h

theorem report_eq_some {k : Nat} (h : s.report k = some s') :
    ∃ w c o, s.callers[k]? = some w ∧ s.clients[w.client]? = some c ∧ w.stage = .settled o ∧
      s' = { s with
        clients := s.clients.set w.client (c.report w.call w.ticket o).2
        callers := s.callers.set k { w with stage := .reported o (c.report w.call w.ticket o).1 }
        reports := ((ManifestClient.subject? w.call w.ticket o).map fun x =>
          ⟨w.client, x, w.ticket.generation, c.lastReported x ≠ w.ticket.generation,
            (c.report w.call w.ticket o).1⟩).toList ++ s.reports } := by
  obtain ⟨w, hw, h⟩ := Option.bind_eq_some_iff.1 h
  obtain ⟨c, hc, h⟩ := Option.bind_eq_some_iff.1 h
  split at h
  · rename_i o hst
    cases h
    exact ⟨w, c, o, hw, hc, hst, rfl⟩
  · cases h

theorem tell_eq_some {k : Nat} (h : s.tell k = some s') :
    ∃ w o x untold, s.callers[k]? = some w ∧ w.stage = .reported o (x :: untold) ∧
      s' = { s with
        callers := s.callers.set k { w with stage := .reported o untold }
        told := ⟨w.client, w.ticket.generation, x⟩ :: s.told } := by
  obtain ⟨w, hw, h⟩ := Option.bind_eq_some_iff.1 h
  split at h
  · rename_i o x untold hst
    cases h
    exact ⟨w, o, x, untold, hw, hst, rfl⟩
  · cases h

/-! ### What no step changes -/

/-- What the client at a place is. -/
def member? (s : Fleet) (i : Nat) : Option Member := s.clients[i]?.map fun c => ⟨c.url, c.applicationUid, c.observers⟩

theorem member?_of_client {i : Nat} {c : ManifestClient} (h : s.clients[i]? = some c) :
    s.member? i = some ⟨c.url, c.applicationUid, c.observers⟩ := by rw [member?, h]; rfl

theorem client_of_member? {i : Nat} {m : Member} (h : s.member? i = some m) :
    ∃ c, s.clients[i]? = some c ∧ c.applicationUid = m.applicationUid ∧ c.observers = m.observers := by
  obtain ⟨c, hc, rfl⟩ := Option.map_eq_some_iff.1 h
  exact ⟨c, hc, rfl, rfl⟩

theorem member?_start (ms : List Member) (i : Nat) : (start ms).member? i = ms[i]? := by
  simp only [member?, start, List.getElem?_map, Option.map_map]
  cases ms[i]? <;> rfl

theorem member?_step {a : Action} (h : s.step a = some s') (i : Nat) : s'.member? i = s.member? i := by
  cases a with
  | begin j call => obtain ⟨c, -, ⟨m, -, -, rfl⟩ | ⟨f, -, rfl⟩ | ⟨p, -, -, rfl⟩⟩ := beginCall_eq_some h <;> rfl
  | arrive g o => obtain ⟨-, rfl⟩ := arrive_eq_some h; rfl
  | settle k => obtain ⟨w, c, o, -, -, -, -, rfl⟩ := settle_eq_some h; rfl
  | report k =>
    obtain ⟨w, c, o, -, hc, -, rfl⟩ := report_eq_some h
    obtain ⟨hurl, huid, hobs⟩ := c.report_snd w.call w.ticket o
    show ((s.clients.set w.client _)[i]?).map _ = (s.clients[i]?).map _
    by_cases hi : w.client = i
    · subst hi
      rw [List.getElem?_set_self (List.getElem?_eq_some_iff.1 hc).1, hc, Option.map_some, Option.map_some, hurl,
        huid, hobs]
    · rw [List.getElem?_set_ne hi]
  | tell k => obtain ⟨w, o, x, untold, -, -, rfl⟩ := tell_eq_some h; rfl
  | clear uid => cases h; rfl

theorem member?_run {as : List Action} (h : s.run as = some s') (i : Nat) : s'.member? i = s.member? i :=
  run_induction (P := fun t => t.member? i = s.member? i) (fun ht ha => (member?_step ha i).trans ht) h rfl

/-- A caller only gets on; whose it is and its ticket stay. -/
theorem caller_step {a : Action} {k : Nat} {w : Caller} (h : s.step a = some s') (hw : s.callers[k]? = some w) :
    ∃ w', s'.callers[k]? = some w' ∧ w'.client = w.client ∧ w'.ticket = w.ticket := by
  have hlt : k < s.callers.length := (List.getElem?_eq_some_iff.1 hw).1
  have hset (j : Nat) (v : Caller) (stage : Stage) (hv : s.callers[j]? = some v) :
      ∃ w', (s.callers.set j { v with stage })[k]? = some w' ∧ w'.client = w.client ∧ w'.ticket = w.ticket := by
    by_cases hj : j = k
    · subst hj
      cases hw.symm.trans hv
      exact ⟨_, List.getElem?_set_self hlt, rfl, rfl⟩
    · exact ⟨w, by rw [List.getElem?_set_ne hj, hw], rfl, rfl⟩
  cases a with
  | begin j call =>
    obtain ⟨c, -, ⟨m, -, -, rfl⟩ | ⟨f, -, rfl⟩ | ⟨p, -, -, rfl⟩⟩ := beginCall_eq_some h
    · exact ⟨w, hw, rfl, rfl⟩
    · exact ⟨w, by rw [List.getElem?_append_left hlt, hw], rfl, rfl⟩
    · exact ⟨w, by rw [List.getElem?_append_left hlt, hw], rfl, rfl⟩
  | arrive g o => obtain ⟨-, rfl⟩ := arrive_eq_some h; exact ⟨w, hw, rfl, rfl⟩
  | settle j => obtain ⟨v, c, o, hv, -, -, -, rfl⟩ := settle_eq_some h; exact hset j v _ hv
  | report j => obtain ⟨v, c, o, hv, -, -, rfl⟩ := report_eq_some h; exact hset j v _ hv
  | tell j => obtain ⟨v, o, x, untold, hv, -, rfl⟩ := tell_eq_some h; exact hset j v _ hv
  | clear uid => cases h; exact ⟨w, hw, rfl, rfl⟩

theorem caller_run {as : List Action} {k : Nat} {w : Caller} (h : s.run as = some s') (hw : s.callers[k]? = some w) :
    ∃ w', s'.callers[k]? = some w' ∧ w'.client = w.client ∧ w'.ticket = w.ticket := by
  refine run_induction
    (P := fun t => ∃ w', t.callers[k]? = some w' ∧ w'.client = w.client ∧ w'.ticket = w.ticket) ?_ h ⟨w, hw, rfl, rfl⟩
  rintro t t' a ⟨v, hv, hcl, ht⟩ ha
  obtain ⟨v', hv', hcl', ht'⟩ := caller_step ha hv
  exact ⟨v', hv', hcl'.trans hcl, ht'.trans ht⟩

/-! ### A call that ends without others in between -/

theorem run_tells {j : Nat} {w : Caller} {o : FetchOutcome} {os : List Observation} (hw : s.callers[j]? = some w)
    (hst : w.stage = .reported o os) : s.run (List.replicate os.length (.tell j)) = some { s with
      callers := s.callers.set j { w with stage := .reported o [] }
      told := (os.map (⟨w.client, w.ticket.generation, ·⟩)).reverse ++ s.told } := by
  have hlt := (List.getElem?_eq_some_iff.1 hw).1
  induction os generalizing s w with
  | nil =>
    obtain rfl : w = s.callers[j] := ((List.getElem?_eq_some_iff.1 hw).2).symm
    have hself : { s.callers[j] with stage := .reported o [] } = s.callers[j] := by rw [← hst]
    rw [hself, List.set_getElem_self]
    rfl
  | cons x os ih =>
    have htell : s.step (.tell j) = some { s with
        callers := s.callers.set j { w with stage := .reported o os }
        told := ⟨w.client, w.ticket.generation, x⟩ :: s.told } := by
      simp only [step, tell, hw, hst, Option.bind_eq_bind, Option.bind_some]
    rw [List.length_cons, List.replicate_succ, run, htell, Option.bind_some,
      ih (List.getElem?_set_self hlt) rfl (by rwa [List.length_set])]
    simp

/-- A caller whose fetch is complete can settle, report and tell at one go. -/
theorem exists_run_conclude {j : Nat} {w : Caller} {c : ManifestClient} {o : FetchOutcome}
    (hw : s.callers[j]? = some w) (hst : w.stage = .waiting) (hc : s.clients[w.client]? = some c)
    (ho : s.outcome? w.ticket.generation = some o) : ∃ as s', s.run as = some s' ∧
      s'.cache = (s.cache.settle c.applicationUid w.ticket.generation o).2 ∧
      s'.clients = s.clients.set w.client (c.report w.call w.ticket o).2 ∧ s'.fetches = s.fetches ∧
      s'.callers = s.callers.set j { w with stage := .reported o [] } ∧
      s'.told = ((c.report w.call w.ticket o).1.map (⟨w.client, w.ticket.generation, ·⟩)).reverse ++ s.told := by
  have hlt := (List.getElem?_eq_some_iff.1 hw).1
  obtain ⟨s₁, hs₁, hcache, hclients, hfetches, hcallers, htold⟩ : ∃ s₁, s.step (.settle j) = some s₁ ∧
      s₁.cache = (s.cache.settle c.applicationUid w.ticket.generation o).2 ∧ s₁.clients = s.clients ∧
      s₁.fetches = s.fetches ∧ s₁.callers = s.callers.set j { w with stage := .settled o } ∧ s₁.told = s.told := by
    simp only [step, settle, hw, hc, ho, hst, Option.bind_eq_bind, Option.bind_some]
    exact ⟨_, rfl, rfl, rfl, rfl, rfl, rfl⟩
  have hw₁ : s₁.callers[j]? = some { w with stage := .settled o } := by rw [hcallers, List.getElem?_set_self hlt]
  rw [← hclients] at hc
  obtain ⟨s₂, hs₂, hcache₂, hclients₂, hfetches₂, hcallers₂, htold₂⟩ : ∃ s₂, s₁.step (.report j) = some s₂ ∧
      s₂.cache = s₁.cache ∧ s₂.clients = s₁.clients.set w.client (c.report w.call w.ticket o).2 ∧
      s₂.fetches = s₁.fetches ∧
      s₂.callers = s₁.callers.set j { w with stage := .reported o (c.report w.call w.ticket o).1 } ∧
      s₂.told = s₁.told := by
    simp only [step, report, hw₁, hc, Option.bind_eq_bind, Option.bind_some]
    exact ⟨_, rfl, rfl, rfl, rfl, rfl, rfl⟩
  have hw₂ : s₂.callers[j]? = some { w with stage := .reported o (c.report w.call w.ticket o).1 } := by
    rw [hcallers₂, List.getElem?_set_self (by rwa [hcallers, List.length_set])]
  refine ⟨_, _, run_cons.2 ⟨s₁, hs₁, run_cons.2 ⟨s₂, hs₂, run_tells hw₂ rfl⟩⟩, hcache₂.trans hcache, ?_,
    hfetches₂.trans hfetches, ?_, ?_⟩
  · rw [← hclients]
    exact hclients₂
  · show s₂.callers.set j _ = _
    rw [hcallers₂, hcallers, List.set_set, List.set_set]
  · show _ ++ s₂.told = _
    rw [htold₂, htold]

end Fleet

end Federation
