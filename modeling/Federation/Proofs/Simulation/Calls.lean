import Federation.Proofs.Client.Session
import Federation.Simulation.Call

/-!
# Calls in the world

What each step of a call in the world comes to. A call that is made by itself, when no fetch is under way for it, is
the call of a session (`after_run_client`).
-/

namespace Federation

namespace World

section
variable {α β : Type}

/-- What a step comes to, and the world after it. -/
def after (m : WorldM α) (w : World) : Option α × World := m.run.run w

theorem after_bind (m : WorldM α) (f : α → WorldM β) (w : World) : after (m >>= f) w =
    match after m w with
    | (none, w') => (none, w')
    | (some a, w') => after (f a) w' := by
  unfold after
  rw [OptionT.run_bind, Option.elimM, StateT.run_bind]
  show (match m.run.run w with | (o, w') => _) = _
  generalize m.run.run w = r
  obtain ⟨_ | a, w'⟩ := r <;> rfl

theorem after_pure (a : α) (w : World) : after (pure a) w = (some a, w) := rfl

theorem after_getClient (i : Nat) (w : World) : after (getClient i) w = (w.clients[i]?, w) := rfl

theorem after_getCache (i : Nat) (w : World) : after (getCache i) w = (w.caches[i]?, w) := rfl

theorem after_setCache (i : Nat) (c : ManifestCache) (w : World) :
    after (setCache i c) w = (some (), { w with caches := w.caches.set i c }) := rfl

theorem set_cache_self {i : Nat} {c : ManifestCache} {w : World} (hc : w.caches[i]? = some c) :
    w.caches.set i c = w.caches := by
  obtain ⟨hi, rfl⟩ := List.getElem?_eq_some_iff.1 hc
  exact List.set_getElem_self hi

theorem after_fetchOf (cache generation : Nat) (w : World) : after (fetchOf cache generation) w =
    (w.fetches.find? fun f => f.cache == cache && f.generation == generation, w) := rfl

theorem after_advance (t : Nat) (w : World) : after (advance t) w = (some (), { w with now := max w.now t }) := rfl

/-- What a fetch from a URL comes to that starts now. -/
def reply (w : World) (url : String) : FetchOutcome :=
  (((w.script.get? url).getD []).head?.getD noAnswer).result.outcome url

theorem after_startFetch (c g : Nat) (url : String) (w : World) : ∃ f script,
    after (startFetch c g url) w = (some (), { w with script, fetches := f :: w.fetches }) ∧ f.cache = c ∧
      f.generation = g ∧ f.outcome = w.reply url := by
  refine ⟨_, _, rfl, ?_⟩
  unfold reply
  split <;> rename_i h <;> rw [h] <;> exact ⟨rfl, rfl, rfl⟩

end

section
variable {i : Nat} {w : World} {p : PlacedClient} {c cache : ManifestCache} {call : ClientCall} {onward : Continuation}
  {x : WaitingCall}

/-- A call for which the cache has a manifest goes on with that. -/
theorem after_beginClient_cached {m : Manifest} (hp : w.clients[i]? = some p) (hc : w.caches[p.cache]? = some c)
    (hl : p.client.begin call c = (.cached m, cache)) :
    after (beginClient call i onward) w = after (proceed (some m) onward >>= fun a => pure (.done a)) w := by
  obtain rfl := ManifestClient.cache_of_cached hl
  simp only [beginClient, after_bind, after_getClient, hp, after_getCache, hc, hl, after_setCache, set_cache_self hc]

theorem after_beginClient_waiting {t : Ticket} (hp : w.clients[i]? = some p) (hc : w.caches[p.cache]? = some c)
    (onward : Continuation) (hl : p.client.begin call c = (.waiting t, cache)) : ∃ f script, f.cache = p.cache ∧
      f.generation = t.generation ∧ f.outcome = w.reply p.client.url ∧
      after (beginClient call i onward) w = (some (.waiting ⟨call, i, t, onward⟩),
        if t.initiated then { w with caches := w.caches.set p.cache cache, script, fetches := f :: w.fetches }
        else { w with caches := w.caches.set p.cache cache }) := by
  obtain ⟨f, script, hf, hcache, hgeneration, houtcome⟩ := after_startFetch p.cache t.generation p.client.url
    { w with caches := w.caches.set p.cache cache }
  refine ⟨f, script, hcache, hgeneration, houtcome, ?_⟩
  simp only [beginClient, after_bind, after_getClient, hp, after_getCache, hc, hl, after_setCache]
  split
  · simp only [after_bind, hf, after_pure]
  · rfl

theorem after_beginClient_none (h : ∀ p, w.clients[i]? = some p → w.caches[p.cache]? = none) :
    after (beginClient call i onward) w = (none, w) := by
  rw [beginClient, after_bind, after_getClient]
  cases hp : w.clients[i]? with
  | none => rfl
  | some p => simp only [after_bind, after_getCache, h p hp]

theorem after_conclude {f : StartedFetch} (hp : w.clients[x.client]? = some p)
    (hf : (w.fetches.find? fun f => f.cache == p.cache && f.generation == x.ticket.generation) = some f)
    (hc : w.caches[p.cache]? = some c) : after (conclude x) w =
      after (proceed (ManifestClient.answer f.outcome) x.onward) { w with
        caches := w.caches.set p.cache (c.settle p.client.applicationUid x.ticket.generation f.outcome).2
        clients := w.clients.modify x.client fun q =>
          { q with client := (p.client.report x.call x.ticket f.outcome).2 }
        events := w.events ++ (p.client.report x.call x.ticket f.outcome).1.map (WorldEvent.mk x.client) } := by
  simp only [conclude, after_bind, after_getClient, hp, after_fetchOf, hf, after_getCache, hc, after_setCache]
  rfl

theorem after_conclude_none (h : ∀ p f c, w.clients[x.client]? = some p →
    (w.fetches.find? fun f => f.cache == p.cache && f.generation == x.ticket.generation) = some f →
    w.caches[p.cache]? ≠ some c) : after (conclude x) w = (none, w) := by
  rw [conclude, after_bind, after_getClient]
  cases hp : w.clients[x.client]? with
  | none => rfl
  | some p =>
    simp only [after_bind, after_fetchOf]
    cases hf : w.fetches.find? fun f => f.cache == p.cache && f.generation == x.ticket.generation with
    | none => rfl
    | some f =>
      simp only [after_getCache]
      cases hc : w.caches[p.cache]? with
      | none => rfl
      | some c => exact absurd hc (h p f c hp hf)

end

theorem modify_client_self {i : Nat} {w : World} {p : PlacedClient} (hp : w.clients[i]? = some p) :
    w.clients.modify i (fun q => { q with client := p.client }) = w.clients := by
  refine List.ext_getElem? fun j => ?_
  rw [List.getElem?_modify]
  by_cases hj : i = j
  · rw [← hj, hp]
    simp
  · simp [hj]

open ManifestClient in
/-- A call that is made by itself, when no fetch is under way for it, does what the call of a session does whose fetch
comes to what the network has ready. -/
theorem after_run_client {i : Nat} {w : World} {p : PlacedClient} {c : ManifestCache} (call : ClientCall)
    (hp : w.clients[i]? = some p) (hc : w.caches[p.cache]? = some c)
    (hidle : ∀ f, c.state p.client.applicationUid ≠ .fetching f) {m : Option Manifest} {os : List Observation}
    {s : Session} (hs : Session.next ⟨p.client, c⟩ (call, w.reply p.client.url) = (m, os, s)) :
    ∃ w', after (run (.client call i)) w = (some (.manifest m), w') ∧ w'.caches = w.caches.set p.cache s.cache ∧
      w'.clients = w.clients.modify i (fun q => { q with client := s.client }) ∧
      w'.events = w.events ++ os.map (WorldEvent.mk i) := by
  rcases p.client.begin_cases call c with ⟨x, -, -, hl⟩ | ⟨f, hf, -⟩ | ⟨-, hl⟩
  · cases (Session.next_of_cached (s := ⟨p.client, c⟩) hl).symm.trans hs
    refine ⟨w, ?_, (set_cache_self hc).symm, (modify_client_self hp).symm, (List.append_nil _).symm⟩
    rw [run, after_bind, begin, after_beginClient_cached hp hc hl]
    rfl
  · exact absurd hf (hidle f)
  · cases (Session.next_of_waiting (s := ⟨p.client, c⟩) hl).symm.trans hs
    obtain ⟨f, script, hf, hgeneration, houtcome, hw⟩ := after_beginClient_waiting hp hc .answer hl
    have hfind : ((f :: w.fetches).find? fun f => f.cache == p.cache && f.generation == c.nextGeneration) = some f :=
      List.find?_cons_of_pos (by simp [hf, hgeneration])
    have hset (cache : ManifestCache) : (w.caches.set p.cache cache)[p.cache]? = some cache :=
      List.getElem?_set_self (List.getElem?_eq_some_iff.1 hc).1
    rw [run, after_bind, begin, hw]
    simp only [if_true, arrivalOf, after_bind, after_getClient, hp, after_fetchOf, hfind, after_pure, after_advance]
    rw [after_conclude hp hfind (hset _), houtcome]
    refine ⟨_, rfl, ?_, rfl, rfl⟩
    exact List.set_set ..

end World

end Federation
