import Mathlib.Data.List.Forall2
import Mathlib.Data.List.Perm.Subperm
import Federation.Proofs.Client.SingleFlight
import Federation.Proofs.Simulation.Views

/-!
# Fleets that show a view

A fleet shows a view of the world (`View.ShownBy`) if cache, clients and fetches agree and the same was told, and if
the calls of the world that wait, wait in the fleet too. The world knows the outcome of a fetch from its start, where
the fleet learns it when the fetch arrives; so a fetch of the fleet may still be open (`Shown`). In a fleet the callers
stay that have ended, or that nobody in the world waits for any longer; hence the `Subperm`.

What a call does to the view, the fleet can do in some steps: `View.ShownBy.begin` and `View.ShownBy.conclude`.
-/

namespace Federation

namespace World

/-- A fetch of a fleet that is one of the world. -/
def Shown (f : StartedFetch) (f' : Fleet.Fetch) : Prop :=
  f'.generation = f.generation ∧ ∀ o, f'.outcome = some o → o = f.outcome

theorem Shown.of_open {f : StartedFetch} {f' : Fleet.Fetch} (hg : f'.generation = f.generation)
    (ho : f'.outcome = none) : Shown f f' := by
  refine ⟨hg, fun o h => ?_⟩
  cases ho.symm.trans h

def callerOf (x : WaitingCall) : Fleet.Caller := ⟨x.client, x.call, x.ticket, .waiting⟩

/-- The waiting calls of the clients in view, as a fleet has them. -/
def View.callers (v : View) (ws : List WaitingCall) : List Fleet.Caller :=
  (ws.filter fun x => (v.client x.client).isSome).map callerOf

structure View.ShownBy (v : View) (ws : List WaitingCall) (s : Fleet) : Prop where
  cache : v.cache = some s.cache
  client : ∀ i c, v.client i = some c → s.clients[i]? = some c
  fetches : List.Forall₂ Shown v.fetches s.fetches
  callers : (v.callers ws).Subperm s.callers
  events : v.events.map (fun e => (e.client, e.observation)) = s.told.reverse.map fun t => (t.client, t.observation)

variable {k i : Nat} {w : World} {v : View} {s : Fleet} {ws : List WaitingCall}

theorem View.ShownBy.eq_cache (h : (w.view k).ShownBy ws s) {c : ManifestCache} (hc : w.caches[k]? = some c) :
    c = s.cache :=
  Option.some.inj (hc.symm.trans h.cache)

theorem View.ShownBy.of_subperm {ws' : List WaitingCall} (h : v.ShownBy ws s) (hws : ws'.Subperm ws) :
    v.ShownBy ws' s := by
  refine { h with callers := List.Subperm.trans ?_ h.callers }
  obtain ⟨l, hperm, hsub⟩ := hws.filter fun x => (v.client x.client).isSome
  exact ⟨l.map callerOf, hperm.map _, hsub.map _⟩

theorem View.ShownBy.of_unseen {x : WaitingCall} (h : v.ShownBy ws s) (hx : v.client x.client = none) :
    v.ShownBy (x :: ws) s := by
  refine { h with callers := ?_ }
  rw [View.callers, List.filter_cons_of_neg (by rw [hx]; exact Bool.false_ne_true)]
  exact h.callers

theorem View.callers_cons {x : WaitingCall} {c : ManifestClient} (hc : v.client x.client = some c) :
    v.callers (x :: ws) = callerOf x :: v.callers ws := by
  rw [View.callers, List.filter_cons_of_pos (by rw [hc]; rfl), List.map_cons, View.callers]

/-! ### A call that begins -/

/-- A client in view begins a call for which it has to wait, and so does the client of the fleet. -/
theorem View.ShownBy.begin (h : v.ShownBy ws s) {c : ManifestClient} (hc : v.client i = some c) {call : ClientCall}
    {t : Ticket} {cache : ManifestCache} (ht : c.begin call s.cache = (.waiting t, cache)) (onward : Continuation)
    {f : StartedFetch} (hf : f.generation = t.generation) : ∃ s', s.step (.begin i call) = some s' ∧
      { v with cache := some cache, fetches := if t.initiated then f :: v.fetches else v.fetches }.ShownBy
        (⟨call, i, t, onward⟩ :: ws) s' := by
  have hs : s.clients[i]? = some c := h.client i c hc
  refine ⟨{ s with
    cache
    fetches := if t.initiated then ⟨c.applicationUid, t.generation, t.previous, none⟩ :: s.fetches else s.fetches
    callers := s.callers ++ [⟨i, call, t, .waiting⟩] }, ?_, rfl, h.client, ?_, ?_, h.events⟩
  · simp only [Fleet.step, Fleet.beginCall, hs, ht, Option.bind_eq_bind, Option.bind_some]
  · dsimp only
    split
    · exact .cons (.of_open hf.symm rfl) h.fetches
    · exact h.fetches
  · show (v.callers (⟨call, i, t, onward⟩ :: ws)).Subperm _
    rw [View.callers_cons hc]
    exact ((List.subperm_cons _).2 h.callers).trans (List.perm_append_singleton _ _).symm.subperm

/-! ### A call that ends -/

theorem Shown.find? {fs : List StartedFetch} {fs' : List Fleet.Fetch} (h : List.Forall₂ Shown fs fs') {g : Nat}
    {f : StartedFetch} (hf : fs.find? (·.generation = g) = some f) :
    ∃ f', fs'.find? (·.generation = g) = some f' ∧ Shown f f' := by
  induction h with
  | nil => cases hf
  | @cons x x' xs xs' hx _ ih =>
    rw [List.find?_cons] at hf ⊢
    rw [hx.1]
    split at hf
    · cases hf
      exact ⟨x', rfl, hx⟩
    · exact ih hf

theorem Shown.map_generation {fs : List StartedFetch} {fs' : List Fleet.Fetch} (h : List.Forall₂ Shown fs fs') :
    fs.map (·.generation) = fs'.map (·.generation) := by
  induction h with
  | nil => rfl
  | cons hx _ ih => rw [List.map_cons, List.map_cons, ih, hx.1]

/-- A fetch that completes with the outcome that it has in the world is still shown. -/
theorem Shown.complete {fs : List StartedFetch} {fs' : List Fleet.Fetch} (h : List.Forall₂ Shown fs fs')
    (hnodup : (fs'.map (·.generation)).Nodup) {g : Nat} {f : StartedFetch} (hf : fs.find? (·.generation = g) = some f) :
    List.Forall₂ Shown fs (fs'.map (Fleet.Fetch.complete g f.outcome)) := by
  induction h with
  | nil => cases hf
  | @cons x x' xs xs' hx hxs ih =>
    rw [List.map_cons] at hnodup ⊢
    obtain ⟨hfresh, hnodup⟩ := List.nodup_cons.1 hnodup
    rw [List.find?_cons] at hf
    split at hf
    · rename_i hg
      cases hf
      have hg : f.generation = g := of_decide_eq_true hg
      -- the numbers differ, so that no other fetch completes
      have hrest : xs'.map (Fleet.Fetch.complete g f.outcome) = xs' := by
        refine (List.map_congr_left fun y hy => Fleet.Fetch.complete_of_ne fun hy' => hfresh ?_).trans (List.map_id _)
        rw [hx.1, hg, ← hy']
        exact List.mem_map_of_mem hy
      rw [hrest]
      refine .cons ⟨Fleet.Fetch.generation_complete.trans hx.1, fun o ho => ?_⟩ hxs
      rw [Fleet.Fetch.complete, if_pos (hx.1.trans hg)] at ho
      cases ho
      rfl
    · rename_i hg
      have hg : x'.generation ≠ g := hx.1 ▸ of_decide_eq_false hg
      rw [Fleet.Fetch.complete_of_ne hg]
      exact .cons hx (ih hnodup hf)

/-- A fetch in view can arrive in the fleet, if it has not arrived yet. -/
theorem View.ShownBy.arrive (h : v.ShownBy ws s) (hs : s.Tracked) {g : Nat} {f : StartedFetch}
    (hf : v.fetches.find? (·.generation = g) = some f) :
    ∃ as s', s.run as = some s' ∧ v.ShownBy ws s' ∧ s'.outcome? g = some f.outcome ∧ s'.cache = s.cache := by
  obtain ⟨f', hf', hgeneration, houtcome⟩ := Shown.find? h.fetches hf
  cases ho : f'.outcome with
  | some o =>
    refine ⟨[], s, rfl, h, ?_, rfl⟩
    rw [Fleet.outcome?, hf', Option.bind_some, ho, houtcome o ho]
  | none =>
    have hg : f'.generation = g := by simpa using List.find?_some hf'
    have harrive : s.step (.arrive g f.outcome) =
        some { s with fetches := s.fetches.map (Fleet.Fetch.complete g f.outcome) } := by
      refine if_pos (List.any_eq_true.2 ⟨f', List.mem_of_find?_eq_some hf', ?_⟩)
      simp [hg, ho]
    refine ⟨[.arrive g f.outcome], _, Fleet.run_cons.2 ⟨_, harrive, rfl⟩,
      { h with fetches := Shown.complete h.fetches hs.nodup hf }, ?_, rfl⟩
    have hcomplete : ((fun x : Fleet.Fetch => decide (x.generation = g)) ∘ Fleet.Fetch.complete g f.outcome) =
        fun x => decide (x.generation = g) := funext fun x => by simp
    rw [Fleet.outcome?, List.find?_map, hcomplete, hf', Option.map_some, Option.bind_some, Fleet.Fetch.complete,
      if_pos hg]

/-- One of the callers of a fleet may get on, for the others still to be among its callers. -/
theorem subperm_set {a b : Fleet.Caller} {cs l : List Fleet.Caller} (h : (a :: cs).Subperm l) :
    ∃ j : Nat, l[j]? = some a ∧ cs.Subperm (l.set j b) := by
  obtain ⟨j, hj⟩ := List.mem_iff_getElem?.1 (h.subset List.mem_cons_self)
  refine ⟨j, hj, ?_⟩
  obtain ⟨hlt, rfl⟩ := List.getElem?_eq_some_iff.1 hj
  obtain ⟨l₁, l₂, hl, -, hset⟩ : ∃ l₁ l₂, l = l₁ ++ l[j] :: l₂ ∧ l₁.length = j ∧ l.set j b = l₁ ++ b :: l₂ :=
    List.exists_of_set hlt
  have hperm : l.Perm (l[j] :: (l₁ ++ l₂)) := by
    conv_lhs => rw [hl]
    exact List.perm_middle
  have hrest : cs.Subperm (l₁ ++ l₂) := (List.subperm_cons _).1 (h.trans hperm.subperm)
  rw [hset]
  exact hrest.trans ((List.sublist_cons_self b l₂).append_left l₁).subperm

/-- A client in view concludes a call, and so can the client of the fleet. -/
theorem View.ShownBy.conclude {x : WaitingCall} (h : v.ShownBy (x :: ws) s) (hs : s.Tracked) {c : ManifestClient}
    (hc : v.client x.client = some c) {f : StartedFetch}
    (hf : v.fetches.find? (·.generation = x.ticket.generation) = some f) :
    ∃ as s', s.run as = some s' ∧ View.ShownBy { v with
      cache := some (s.cache.settle c.applicationUid x.ticket.generation f.outcome).2
      client := fun j => if j = x.client then some (c.report x.call x.ticket f.outcome).2 else v.client j
      events := v.events ++ (c.report x.call x.ticket f.outcome).1.map (⟨x.client, ·⟩) } ws s' := by
  obtain ⟨as, s₁, hrun₁, h₁, ho, hcache₁⟩ := h.arrive hs hf
  have hsub := h₁.callers
  rw [View.callers_cons hc] at hsub
  obtain ⟨j, hj, hrest⟩ := subperm_set (b := { callerOf x with stage := .reported f.outcome [] }) hsub
  obtain ⟨as', s', hrun, hcache, hclients, hfetches, hcallers, htold⟩ :=
    Fleet.exists_run_conclude hj rfl (h₁.client x.client c hc) ho
  refine ⟨as ++ as', s', ?_, ?_, ?_, ?_, ?_, ?_⟩
  · rw [Fleet.run_append, hrun₁]
    exact hrun
  · rw [hcache, hcache₁]
    rfl
  · intro i d hd
    rw [hclients]
    dsimp only at hd
    split at hd
    · rename_i hi
      subst hi
      rw [← hd]
      exact List.getElem?_set_self (List.getElem?_eq_some_iff.1 (h₁.client _ c hc)).1
    · rename_i hi
      exact (List.getElem?_set_ne fun h => hi h.symm).trans (h₁.client i d hd)
  · rw [hfetches]
    exact h₁.fetches
  · rw [hcallers]
    refine List.Subperm.trans (List.Perm.subperm (List.Perm.of_eq ?_)) hrest
    refine congrArg (List.map callerOf) (List.filter_congr fun y _ => ?_)
    dsimp only
    split
    · rename_i hy
      rw [hy, hc]
      rfl
    · rfl
  · rw [htold, List.reverse_append, List.reverse_reverse, List.map_append, List.map_append, List.map_map, List.map_map]
    exact congrArg₂ _ h₁.events rfl

end World

end Federation
