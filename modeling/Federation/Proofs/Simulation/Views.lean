import Federation.Proofs.Simulation.Calls

/-!
# A world as one of its caches sees it

Of a world, a cache sees itself, the clients that share it, the fetches that were started for it and the events that
its clients reported: its `View`. Subscriptions are left out, since no call depends on them (`ManifestClient.bare`).
-/

namespace Federation

namespace World

/-- The client at a place, if it is one of a cache. -/
def clientOf (k : Nat) (w : World) (i : Nat) : Option ManifestClient :=
  w.clients[i]?.bind fun p => if p.cache = k then some p.client.bare else none

@[ext]
structure View where
  cache : Option ManifestCache
  client : Nat → Option ManifestClient
  /-- The latest first, as in the world. -/
  fetches : List StartedFetch
  events : List WorldEvent

def view (k : Nat) (w : World) : View where
  cache := w.caches[k]?
  client := w.clientOf k
  fetches := w.fetches.filter (·.cache = k)
  events := w.events.filter fun e => (w.clientOf k e.client).isSome

variable {k i : Nat} {w : World} {p : PlacedClient}

theorem clientOf_eq_some {c : ManifestClient} :
    w.clientOf k i = some c ↔ ∃ p, w.clients[i]? = some p ∧ p.cache = k ∧ p.client.bare = c := by
  simp only [clientOf, Option.bind_eq_some_iff, Option.ite_none_right_eq_some, Option.some.injEq]

theorem clientOf_of_ne (hp : w.clients[i]? = some p) (hk : p.cache ≠ k) : w.clientOf k i = none := by
  rw [clientOf, hp]
  exact if_neg hk

theorem clientOf_modify (hp : w.clients[i]? = some p) (c : ManifestClient) (j : Nat) :
    clientOf k { w with clients := w.clients.modify i fun p => { p with client := c } } j =
      if j = i ∧ p.cache = k then some c.bare else w.clientOf k j := by
  unfold clientOf
  rw [List.getElem?_modify]
  by_cases hj : j = i
  · subst hj
    rw [hp]
    by_cases hk : p.cache = k <;> simp [hk]
  · have hij : i ≠ j := fun h => hj h.symm
    simp [hj, hij]

/-- Whatever a client does, its place stays one of its cache. -/
theorem isSome_clientOf_modify (hp : w.clients[i]? = some p) (c : ManifestClient) (j : Nat) :
    (clientOf k { w with clients := w.clients.modify i fun p => { p with client := c } } j).isSome =
      (w.clientOf k j).isSome := by
  rw [clientOf_modify hp]
  split
  · rename_i h
    obtain ⟨rfl, hk⟩ := h
    rw [clientOf_eq_some.2 ⟨p, hp, hk, rfl⟩]
    rfl
  · rfl

theorem view_setCache {c : ManifestCache} (hi : w.caches[i]? = some c) (cache : ManifestCache) :
    view k { w with caches := w.caches.set i cache } =
      if i = k then { w.view k with cache := some cache } else w.view k := by
  have hcache : (w.caches.set i cache)[k]? = if i = k then some cache else w.caches[k]? := by
    split
    · rename_i hik
      subst hik
      exact List.getElem?_set_self (List.getElem?_eq_some_iff.1 hi).1
    · rename_i hik
      exact List.getElem?_set_ne hik
  unfold view
  dsimp only
  rw [hcache]
  split <;> rfl

theorem view_fetch (f : StartedFetch) (script : KeyMap (List ScriptedAnswer)) :
    view k { w with script, fetches := f :: w.fetches } =
      if f.cache = k then { w.view k with fetches := f :: (w.view k).fetches } else w.view k := by
  unfold view
  dsimp only
  rw [List.filter_cons]
  simp only [decide_eq_true_eq]
  split <;> rfl

/-- A call that has begun: the cache has changed, and a fetch may have been started. -/
theorem view_begun {c : ManifestCache} (hi : w.caches[i]? = some c) (cache : ManifestCache) {f : StartedFetch}
    (hf : f.cache = i) (script : KeyMap (List ScriptedAnswer)) (initiated : Bool) :
    view k (if initiated then { w with caches := w.caches.set i cache, script, fetches := f :: w.fetches }
        else { w with caches := w.caches.set i cache }) =
      if i = k then { w.view k with
        cache := some cache
        fetches := if initiated then f :: (w.view k).fetches else (w.view k).fetches }
      else w.view k := by
  have hcaches := view_setCache (k := k) hi cache
  cases initiated with
  | false => exact hcaches
  | true =>
    refine (view_fetch (w := { w with caches := w.caches.set i cache }) f script).trans ?_
    rw [hcaches, hf]
    split <;> rfl

theorem filter_events_mk (hp : w.clients[i]? = some p) (os : List Observation) :
    (os.map (WorldEvent.mk i)).filter (fun e => (w.clientOf k e.client).isSome) =
      if p.cache = k then os.map (WorldEvent.mk i) else [] := by
  have hconst : (fun e : WorldEvent => (w.clientOf k e.client).isSome) ∘ WorldEvent.mk i =
      fun _ => decide (p.cache = k) := by
    funext o
    show (w.clientOf k i).isSome = _
    rw [clientOf, hp, Option.bind_some]
    split <;> rename_i hk <;> simp [hk]
  rw [List.filter_map, hconst]
  split <;> rename_i hk <;> simp [hk]

/-- A call that is concluded: the cache, the client and its events have changed. -/
theorem view_concluded {c : ManifestCache} (hp : w.clients[i]? = some p) (hc : w.caches[p.cache]? = some c)
    (cache : ManifestCache) (client : ManifestClient) (os : List Observation) :
    view k { w with
        caches := w.caches.set p.cache cache
        clients := w.clients.modify i fun q => { q with client }
        events := w.events ++ os.map (WorldEvent.mk i) } =
      if p.cache = k then { w.view k with
        cache := some cache
        client := fun j => if j = i then some client.bare else (w.view k).client j
        events := (w.view k).events ++ os.map (WorldEvent.mk i) }
      else w.view k := by
  have hcache := congrArg View.cache (view_setCache (k := k) hc cache)
  have hclient (j : Nat) := clientOf_modify (k := k) hp client j
  have hevents : (w.events ++ os.map (WorldEvent.mk i)).filter (fun e => (clientOf k { w with
      clients := w.clients.modify i fun q => { q with client } } e.client).isSome) =
        (w.view k).events ++ if p.cache = k then os.map (WorldEvent.mk i) else [] := by
    simp only [isSome_clientOf_modify hp client]
    rw [List.filter_append, filter_events_mk hp]
    rfl
  by_cases hk : p.cache = k
  · simp only [hk, and_true, if_true] at hcache hclient hevents ⊢
    exact View.ext (hk ▸ hcache) (funext hclient) rfl hevents
  · simp only [hk, and_false, if_false, List.append_nil] at hcache hclient hevents ⊢
    exact View.ext hcache (funext hclient) rfl hevents

/-- What is done with the subscriptions of a client is not in view. -/
theorem view_bare (hp : w.clients[i]? = some p) {client : ManifestClient} (h : client.bare = p.client.bare) :
    view k { w with clients := w.clients.modify i fun q => { q with client } } = w.view k := by
  have hclient : clientOf k { w with clients := w.clients.modify i fun q => { q with client } } = w.clientOf k := by
    funext j
    rw [clientOf_modify hp, h]
    split
    · rename_i hj
      rw [hj.1]
      exact (clientOf_eq_some.2 ⟨p, hp, hj.2, rfl⟩).symm
    · rfl
  unfold view
  rw [hclient]

/-! ### Steps of which nothing is in view -/

section
variable {α β : Type}

def Unseen (k : Nat) (m : WorldM α) : Prop := ∀ w, (after m w).2.view k = w.view k

theorem Unseen.bind {m : WorldM α} {f : α → WorldM β} (hm : Unseen k m) (hf : ∀ a, Unseen k (f a)) :
    Unseen k (m >>= f) := by
  intro w
  rw [after_bind]
  have hw := hm w
  generalize after m w = r at hw ⊢
  obtain ⟨_ | a, w'⟩ := r
  · exact hw
  · exact (hf a w').trans hw

theorem unseen_pure (a : α) : Unseen k (pure a) := fun _ => rfl

theorem unseen_get : Unseen k get := fun _ => rfl

theorem unseen_getClient (i : Nat) : Unseen k (getClient i) := fun _ => rfl

theorem unseen_getCache (i : Nat) : Unseen k (getCache i) := fun _ => rfl

theorem unseen_getOverrides (i : Nat) : Unseen k (getOverrides i) := fun _ => rfl

theorem unseen_getPlugin (i : Nat) : Unseen k (getPlugin i) := fun _ => rfl

theorem unseen_fetchOf (cache generation : Nat) : Unseen k (fetchOf cache generation) := fun _ => rfl

theorem unseen_setOverrides (i : Nat) (o : SessionOverrides) : Unseen k (setOverrides i o) := fun _ => rfl

theorem unseen_setPlugin (i : Nat) (p : RequestPlugin) : Unseen k (setPlugin i p) := fun _ => rfl

theorem unseen_setCache (h : i ≠ k) (c : ManifestCache) : Unseen k (setCache i c) := fun _ =>
  View.ext (List.getElem?_set_ne h) rfl rfl rfl

theorem unseen_advance (t : Nat) : Unseen k (advance t) := fun _ => rfl

theorem unseen_proceed (m : Option Manifest) (c : Continuation) : Unseen k (proceed m c) := by
  cases c with
  | answer => exact unseen_pure _
  | redirect i r =>
    exact (unseen_getPlugin i).bind fun p => (unseen_getOverrides p.overrides).bind fun o =>
      (unseen_setPlugin i _).bind fun _ => unseen_pure _

theorem unseen_arrivalOf (x : WaitingCall) : Unseen k (arrivalOf x) :=
  (unseen_getClient x.client).bind fun _ => (unseen_fetchOf _ _).bind fun _ => unseen_pure _

end

end World

end Federation
