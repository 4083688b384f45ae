import Mathlib.Data.List.Nodup
import Federation.Proofs.Client.Fleet

/-!
# Single flight

However the calls of a fleet are interleaved, an application has one fetch under way at most, and everybody who
joins it sees its one outcome.

The invariant is `Tracked`: a fetch that is not complete is the one its entry holds, an entry that holds a fetch
holds one that was started, and each ticket is for a fetch of its caller's application, whose outcome is what
the caller saw. It needs no more than that a completed fetch stays in its entry until it is settled, so that a
later call finds it there and joins. `Tallied` counts: of the fetches of an application all but the one under
way were settled.
-/

namespace Federation

def CacheEntry.underWay : CacheEntry → Nat
  | .fetching _ => 1
  | .empty | .ready _ | .failed _ => 0

@[simp] theorem CacheEntry.underWay_fetching (f : Flight) : (fetching f).underWay = 1 := rfl

@[simp] theorem underWay_entryOf (o : FetchOutcome) : (ManifestCache.entryOf o).underWay = 0 := by cases o <;> rfl

namespace Fleet
variable {s s' : Fleet}

/-- The fetch is the one that a caller has a ticket for. -/
structure Carries (clients : List ManifestClient) (w : Caller) (f : Fetch) : Prop where
  client : ∃ c, clients[w.client]? = some c ∧ c.applicationUid = f.uid
  generation : f.generation = w.ticket.generation
  previous : f.previous = w.ticket.previous
  outcome : ∀ o, w.stage.outcome? = some o → f.outcome = some o

/-- Fetches, tickets and entries of the cache agree. -/
structure Tracked (s : Fleet) : Prop where
  lt : ∀ f ∈ s.fetches, f.generation < s.cache.nextGeneration
  nodup : (s.fetches.map (·.generation)).Nodup
  open_ : ∀ f ∈ s.fetches, f.outcome = none → s.cache.state f.uid = .fetching ⟨f.generation, f.previous⟩
  flight : ∀ u x, s.cache.state u = .fetching x → ∃ o, ⟨u, x.generation, x.previous, o⟩ ∈ s.fetches
  caller : ∀ w ∈ s.callers, ∃ f ∈ s.fetches, Carries s.clients w f

theorem Carries.of_member {w : Caller} {f : Fetch} (h : Carries s.clients w f)
    (hm : ∀ i, s'.member? i = s.member? i) : Carries s'.clients w f := by
  obtain ⟨c, hc, hu⟩ := h.client
  obtain ⟨c', hc', hu', -⟩ := client_of_member? ((hm w.client).trans (member?_of_client hc))
  exact ⟨⟨c', hc', hu'.trans hu⟩, h.generation, h.previous, h.outcome⟩

/-- A caller that gets on carries the same fetch, if that has the outcome that it saw. -/
theorem Carries.withStage {clients : List ManifestClient} {w : Caller} {f : Fetch} (h : Carries clients w f)
    {stage : Stage} (ho : ∀ o, stage.outcome? = some o → f.outcome = some o) : Carries clients { w with stage } f :=
  ⟨h.client, h.generation, h.previous, ho⟩

theorem outcome?_eq_some {g : Nat} {o : FetchOutcome} (h : s.outcome? g = some o) :
    ∃ f ∈ s.fetches, f.generation = g ∧ f.outcome = some o := by
  obtain ⟨f, hf, ho⟩ := Option.bind_eq_some_iff.1 h
  exact ⟨f, List.mem_of_find?_eq_some hf, by simpa using List.find?_some hf, ho⟩

namespace Fetch
variable {f : Fetch} {g : Nat} {o : FetchOutcome}

theorem complete_of_ne (h : f.generation ≠ g) : f.complete g o = f := if_neg h

@[simp] theorem generation_complete : (f.complete g o).generation = f.generation := by
  unfold complete; split <;> rfl

@[simp] theorem uid_complete : (f.complete g o).uid = f.uid := by
  unfold complete; split <;> rfl

@[simp] theorem previous_complete : (f.complete g o).previous = f.previous := by
  unfold complete; split <;> rfl

theorem generation_ne_of_complete (h : (f.complete g o).outcome = none) : f.generation ≠ g := by
  intro hg
  rw [complete, if_pos hg] at h
  cases h

end Fetch

namespace Tracked

theorem start (ms : List Member) : (start ms).Tracked where
  lt := nofun
  nodup := List.nodup_nil
  open_ := nofun
  flight := nofun
  caller := nofun

theorem eq_of_generation (h : s.Tracked) {f f' : Fetch} (hf : f ∈ s.fetches) (hf' : f' ∈ s.fetches)
    (hg : f.generation = f'.generation) : f = f' :=
  List.inj_on_of_nodup_map h.nodup hf hf' hg

/-- The step of a caller: its stage changes, and its fetch has the outcome that it saw. -/
theorem set_caller (h : s.Tracked) {k : Nat} {w : Caller} (hw : s.callers[k]? = some w) (stage : Stage)
    (ho : ∀ f ∈ s.fetches, Carries s.clients w f → ∀ o, stage.outcome? = some o → f.outcome = some o) :
    ∀ v ∈ s.callers.set k { w with stage }, ∃ f ∈ s.fetches, Carries s.clients v f := by
  intro v hv
  rcases List.mem_or_eq_of_mem_set hv with hv | rfl
  · exact h.caller v hv
  · obtain ⟨f, hf, hc⟩ := h.caller w (List.mem_of_getElem? hw)
    exact ⟨f, hf, hc.withStage (ho f hf hc)⟩

theorem beginCall (h : s.Tracked) {i : Nat} {call : ClientCall} (hs : s.beginCall i call = some s') : s'.Tracked := by
  obtain ⟨c, hc, ⟨m, -, -, rfl⟩ | ⟨x, hx, rfl⟩ | ⟨p, -, hno, rfl⟩⟩ := beginCall_eq_some hs
  · exact h
  · refine ⟨h.lt, h.nodup, h.open_, h.flight, fun w hw => ?_⟩
    rcases List.mem_append.1 hw with hw | hw
    · exact h.caller w hw
    · obtain ⟨o, ho⟩ := h.flight _ _ hx
      rw [List.mem_singleton.1 hw]
      exact ⟨_, ho, ⟨c, hc, rfl⟩, rfl, rfl, nofun⟩
  · refine ⟨fun f hf => ?_, List.nodup_cons.2 ⟨fun hm => ?_, h.nodup⟩, fun f hf ho => ?_, fun u x hx => ?_,
      fun w hw => ?_⟩
    · rcases List.mem_cons.1 hf with rfl | hf
      · exact Nat.lt_succ_self _
      · exact Nat.lt_succ_of_lt (h.lt f hf)
    · obtain ⟨f, hf, hg⟩ := List.mem_map.1 hm
      exact absurd (h.lt f hf) (hg ▸ Nat.lt_irrefl _)
    · rcases List.mem_cons.1 hf with rfl | hf
      · exact (ManifestCache.state_begin ..).trans (if_pos rfl)
      · -- the entry of an open fetch is under way, so it is not the one that begins a fetch here
        have hfx := h.open_ f hf ho
        have hne : f.uid ≠ c.applicationUid := fun hu => hno _ (hu ▸ hfx)
        exact (ManifestCache.state_begin ..).trans ((if_neg hne).trans hfx)
    · have hx := (ManifestCache.state_begin ..).symm.trans hx
      split at hx
      · rename_i hu
        cases hx
        exact ⟨none, hu ▸ List.mem_cons_self⟩
      · obtain ⟨o, ho⟩ := h.flight u x hx
        exact ⟨o, List.mem_cons_of_mem _ ho⟩
    · rcases List.mem_append.1 hw with hw | hw
      · obtain ⟨f, hf, hcar⟩ := h.caller w hw
        exact ⟨f, List.mem_cons_of_mem _ hf, hcar⟩
      · rw [List.mem_singleton.1 hw]
        exact ⟨_, List.mem_cons_self, ⟨c, hc, rfl⟩, rfl, rfl, nofun⟩

theorem arrive (h : s.Tracked) {g : Nat} {o : FetchOutcome} (hs : s.arrive g o = some s') : s'.Tracked := by
  obtain ⟨⟨f₀, hf₀, hg₀, ho₀⟩, rfl⟩ := arrive_eq_some hs
  refine ⟨fun f' hf' => ?_, ?_, fun f' hf' ho => ?_, fun u x hx => ?_, fun w hw => ?_⟩
  · obtain ⟨f, hf, rfl⟩ := List.mem_map.1 hf'
    rw [Fetch.generation_complete]
    exact h.lt f hf
  · show ((s.fetches.map (Fetch.complete g o)).map (·.generation)).Nodup
    rw [List.map_map]
    simpa [Function.comp_def] using h.nodup
  · obtain ⟨f, hf, rfl⟩ := List.mem_map.1 hf'
    have hne := Fetch.generation_ne_of_complete ho
    rw [Fetch.complete_of_ne hne] at ho ⊢
    exact h.open_ f hf ho
  · obtain ⟨o', ho'⟩ := h.flight u x hx
    refine ⟨(Fetch.complete g o ⟨u, x.generation, x.previous, o'⟩).outcome, List.mem_map.2 ⟨_, ho', ?_⟩⟩
    unfold Fetch.complete; split <;> rfl
  · obtain ⟨f, hf, hcar⟩ := h.caller w hw
    refine ⟨f.complete g o, List.mem_map.2 ⟨f, hf, rfl⟩, by simpa using hcar.client, by simpa using hcar.generation,
      by simpa using hcar.previous, fun o' ho' => ?_⟩
    -- nobody saw an outcome of the fetch that completes, since it had none
    have hfo := hcar.outcome o' ho'
    have hne : f.generation ≠ g := by
      intro hg
      rw [h.eq_of_generation hf hf₀ (hg.trans hg₀.symm), ho₀] at hfo
      cases hfo
    rw [Fetch.complete_of_ne hne]
    exact hfo

theorem settle (h : s.Tracked) {k : Nat} (hs : s.settle k = some s') : s'.Tracked := by
  obtain ⟨w, c, o, hw, hc, -, ho, rfl⟩ := settle_eq_some hs
  obtain ⟨f₀, hf₀, hg₀, ho₀⟩ := outcome?_eq_some ho
  have hcallers := h.set_caller hw (.settled o) fun f hf hcar o' ho' => by
    rw [h.eq_of_generation hf hf₀ (hcar.generation.trans hg₀.symm), ho₀]
    exact ho'
  rcases s.cache.settle_cases c.applicationUid w.ticket.generation o with ⟨ha, he⟩ | ⟨-, he⟩ <;> rw [he]
  · refine ⟨h.lt, h.nodup, fun f hf hfo => ?_, fun u x hx => ?_, hcallers⟩
    · -- an open fetch is not the one that is settled, so it is of another application
      have hfx := h.open_ f hf hfo
      have hne : f.uid ≠ c.applicationUid := by
        rintro hu
        obtain ⟨x, hx, hg⟩ := ha
        rw [← hu, hfx] at hx
        cases hx
        rw [h.eq_of_generation hf hf₀ (hg.trans hg₀.symm), ho₀] at hfo
        cases hfo
      exact (ManifestCache.state_insert ..).trans ((if_neg hne).trans hfx)
    · have hx := (ManifestCache.state_insert ..).symm.trans hx
      split at hx
      · cases o <;> cases hx
      · exact h.flight u x hx
  · exact ⟨h.lt, h.nodup, h.open_, h.flight, hcallers⟩

theorem report (h : s.Tracked) {k : Nat} (hs : s.report k = some s') : s'.Tracked := by
  have hmember := member?_step (a := .report k) hs
  obtain ⟨w, c, o, hw, hc, hst, rfl⟩ := report_eq_some hs
  refine ⟨h.lt, h.nodup, h.open_, h.flight, fun v hv => ?_⟩
  obtain ⟨f, hf, hcar⟩ := h.set_caller hw (.reported o (c.report w.call w.ticket o).1)
    (fun f hf hcar o' ho' => hcar.outcome o' (by rw [hst]; exact ho')) v hv
  exact ⟨f, hf, hcar.of_member hmember⟩

theorem tell (h : s.Tracked) {k : Nat} (hs : s.tell k = some s') : s'.Tracked := by
  obtain ⟨w, o, x, untold, hw, hst, rfl⟩ := tell_eq_some hs
  exact ⟨h.lt, h.nodup, h.open_, h.flight, h.set_caller hw (.reported o untold)
    fun f hf hcar o' ho' => hcar.outcome o' (by rw [hst]; exact ho')⟩

theorem clear (h : s.Tracked) (uid : String) : Tracked { s with cache := s.cache.clear uid } := by
  rcases s.cache.clear_cases uid with ⟨he, -⟩ | ⟨he, hno⟩ <;> rw [he]
  · exact h
  · refine ⟨h.lt, h.nodup, fun f hf hfo => ?_, fun u x hx => ?_, h.caller⟩
    · have hfx := h.open_ f hf hfo
      have hne : f.uid ≠ uid := fun hu => hno _ (hu ▸ hfx)
      exact (ManifestCache.state_insert ..).trans ((if_neg hne).trans hfx)
    · have hx := (ManifestCache.state_insert ..).symm.trans hx
      split at hx
      · cases hx
      · exact h.flight u x hx

theorem step (h : s.Tracked) {a : Action} (hs : s.step a = some s') : s'.Tracked := by
  cases a with
  | begin i call => exact h.beginCall hs
  | arrive g o => exact h.arrive hs
  | settle k => exact h.settle hs
  | report k => exact h.report hs
  | tell k => exact h.tell hs
  | clear uid => cases hs; exact h.clear uid

theorem run (h : s.Tracked) {as : List Action} (hs : s.run as = some s') : s'.Tracked :=
  run_induction (fun h ha => h.step ha) hs h

end Tracked

/-! ### Counting fetches -/

/-- Of the fetches of an application all but the one under way were settled. -/
def Tallied (s : Fleet) : Prop :=
  ∀ u, s.fetches.countP (·.uid = u) = s.settled.count u + (s.cache.state u).underWay

theorem underWay_of_not_fetching {x : CacheEntry} (h : ∀ f, x ≠ .fetching f) : x.underWay = 0 := by
  cases x with
  | fetching f => exact absurd rfl (h f)
  | empty | ready m | failed e => rfl

theorem state_clear_underWay (c : ManifestCache) (uid u : String) :
    ((c.clear uid).state u).underWay = (c.state u).underWay := by
  rcases c.clear_cases uid with ⟨he, -⟩ | ⟨he, hno⟩ <;> rw [he]
  rw [ManifestCache.state_insert]
  split
  · rename_i hu
    rw [hu, underWay_of_not_fetching hno]
    rfl
  · rfl

theorem Tallied.step (h : s.Tallied) {a : Action} (hs : s.step a = some s') : s'.Tallied := by
  intro u
  cases a with
  | begin i call =>
    obtain ⟨c, hc, ⟨m, -, -, rfl⟩ | ⟨x, hx, rfl⟩ | ⟨p, -, hno, rfl⟩⟩ := beginCall_eq_some hs
    · exact h u
    · exact h u
    · have hu := h u
      simp only [List.countP_cons, ManifestCache.state_begin]
      by_cases hcu : c.applicationUid = u
      · rw [← hcu, underWay_of_not_fetching hno] at hu
        simp [← hcu, hu]
      · simp [hcu, hu, Ne.symm hcu]
  | arrive g o =>
    obtain ⟨-, rfl⟩ := arrive_eq_some hs
    show (s.fetches.map (Fetch.complete g o)).countP _ = _
    rw [List.countP_map, ← h u]
    simp [Function.comp_def]
  | settle k =>
    obtain ⟨w, c, o, -, -, -, -, rfl⟩ := settle_eq_some hs
    have hu := h u
    rcases s.cache.settle_cases c.applicationUid w.ticket.generation o with ⟨⟨x, hx, -⟩, he⟩ | ⟨-, he⟩ <;>
      simp only [he]
    · simp only [ManifestCache.state_insert, if_true, List.count_cons]
      by_cases hcu : c.applicationUid = u
      · rw [← hcu, hx] at hu
        simp [← hcu, hu]
      · simp [hcu, hu, Ne.symm hcu]
    · exact hu
  | report k => obtain ⟨w, c, o, -, -, -, rfl⟩ := report_eq_some hs; exact h u
  | tell k => obtain ⟨w, o, x, untold, -, -, rfl⟩ := tell_eq_some hs; exact h u
  | clear uid =>
    cases hs
    show _ = _ + ((s.cache.clear uid).state u).underWay
    rw [state_clear_underWay]
    exact h u

theorem Tallied.run (h : s.Tallied) {as : List Action} (hs : s.run as = some s') : s'.Tallied :=
  run_induction (fun h ha => h.step ha) hs h

theorem count_settled_step {a : Action} (hs : s.step a = some s') (u : String) :
    s.settled.count u ≤ s'.settled.count u := by
  cases a with
  | begin i call =>
    obtain ⟨c, -, ⟨m, -, -, rfl⟩ | ⟨x, -, rfl⟩ | ⟨p, -, -, rfl⟩⟩ := beginCall_eq_some hs <;> exact Nat.le_refl _
  | arrive g o => obtain ⟨-, rfl⟩ := arrive_eq_some hs; exact Nat.le_refl _
  | settle k =>
    obtain ⟨w, c, o, -, -, -, -, rfl⟩ := settle_eq_some hs
    show _ ≤ List.count u (if _ then _ else _)
    split
    · exact (List.sublist_cons_self ..).count_le u
    · exact Nat.le_refl _
  | report k => obtain ⟨w, c, o, -, -, -, rfl⟩ := report_eq_some hs; exact Nat.le_refl _
  | tell k => obtain ⟨w, o, x, untold, -, -, rfl⟩ := tell_eq_some hs; exact Nat.le_refl _
  | clear uid => cases hs; exact Nat.le_refl _

theorem count_settled_run {as : List Action} (hs : s.run as = some s') (u : String) :
    s.settled.count u ≤ s'.settled.count u :=
  run_induction (P := fun t => s.settled.count u ≤ t.settled.count u)
    (fun h ha => Nat.le_trans h (count_settled_step ha u)) hs (Nat.le_refl _)

/-- While an entry is not settled, no manifest gets ready, a fetch stays under way, and a call has one under way
for it. -/
theorem state_step_of_unsettled {a : Action} {u : String} (hs : s.step a = some s')
    (hu : s'.settled.count u = s.settled.count u) (hm : ∀ m, s.cache.state u ≠ .ready m) :
    (∀ m, s'.cache.state u ≠ .ready m) ∧
    ((s.cache.state u).underWay = 1 → (s'.cache.state u).underWay = 1) ∧
    (∀ i m call, a = .begin i call → s.member? i = some m → m.applicationUid = u →
      (s'.cache.state u).underWay = 1) := by
  cases a with
  | begin i call =>
    obtain ⟨c, hc, h⟩ := beginCall_eq_some hs
    have hcu : ∀ j m call', Action.begin i call = .begin j call' → s.member? j = some m → m.applicationUid = u →
        c.applicationUid = u := by
      rintro j m call' he hj rfl
      cases he
      cases (member?_of_client hc).symm.trans hj
      rfl
    rcases h with ⟨m, -, hr, rfl⟩ | ⟨x, hx, rfl⟩ | ⟨p, -, -, rfl⟩
    · exact ⟨hm, id, fun j m' call' he hj hu' => absurd (hcu j m' call' he hj hu' ▸ hr) (hm m)⟩
    · refine ⟨hm, id, fun j m call' he hj hu' => ?_⟩
      show (s.cache.state u).underWay = 1
      rw [← hcu j m call' he hj hu', hx]
      rfl
    · simp only [ManifestCache.state_begin]
      split
      · exact ⟨nofun, fun _ => rfl, fun _ _ _ _ _ _ => rfl⟩
      · rename_i hne
        exact ⟨hm, id, fun j m call' he hj hu' => absurd (hcu j m call' he hj hu').symm hne⟩
  | arrive g o => obtain ⟨-, rfl⟩ := arrive_eq_some hs; exact ⟨hm, id, nofun⟩
  | settle k =>
    obtain ⟨w, c, o, -, -, -, -, rfl⟩ := settle_eq_some hs
    rcases s.cache.settle_cases c.applicationUid w.ticket.generation o with ⟨-, he⟩ | ⟨-, he⟩ <;>
      simp only [he] at hu ⊢
    · have hne : u ≠ c.applicationUid := by
        rintro rfl
        simp at hu
      simp only [ManifestCache.state_insert, if_neg hne]
      exact ⟨hm, id, nofun⟩
    · exact ⟨hm, id, nofun⟩
  | report k => obtain ⟨w, c, o, -, -, -, rfl⟩ := report_eq_some hs; exact ⟨hm, id, nofun⟩
  | tell k => obtain ⟨w, o, x, untold, -, -, rfl⟩ := tell_eq_some hs; exact ⟨hm, id, nofun⟩
  | clear uid =>
    cases hs
    refine ⟨fun m => ?_, fun h => ?_, nofun⟩
    · show (s.cache.clear uid).state u ≠ .ready m
      rcases s.cache.clear_cases uid with ⟨he, -⟩ | ⟨he, -⟩ <;> rw [he]
      · exact hm m
      · rw [ManifestCache.state_insert]
        split
        · nofun
        · exact hm m
    · exact (state_clear_underWay ..).trans h

/-- A call that comes before an entry is settled finds or leaves a fetch under way, which stays. -/
theorem underWay_run_of_unsettled {as : List Action} {u : String} (hs : s.run as = some s')
    (hu : s'.settled.count u = s.settled.count u) (hm : ∀ m, s.cache.state u ≠ .ready m)
    (h : (s.cache.state u).underWay = 1 ∨
      ∃ i m call, s.member? i = some m ∧ m.applicationUid = u ∧ .begin i call ∈ as) :
    (s'.cache.state u).underWay = 1 := by
  induction as generalizing s with
  | nil =>
    cases hs
    rcases h with h | ⟨i, m, call, -, -, h⟩
    · exact h
    · cases h
  | cons a as ih =>
    obtain ⟨t, ha, ht⟩ := run_cons.1 hs
    have hst := count_settled_step ha u
    have hts := count_settled_run ht u
    have hut : t.settled.count u = s.settled.count u := by omega
    obtain ⟨hm', hstay, hbegin⟩ := state_step_of_unsettled ha hut hm
    refine ih ht (hu.trans hut.symm) hm' ?_
    rcases h with h | ⟨i, m, call, hi, hmu, h⟩
    · exact .inl (hstay h)
    · rcases List.mem_cons.1 h with rfl | h
      · exact .inl (hbegin i m call rfl hi hmu)
      · exact .inr ⟨i, m, call, (member?_step ha i).trans hi, hmu, h⟩

/-! ### The guarantee -/

theorem Tracked.length_open_le (h : s.Tracked) (u : String) :
    (s.fetches.filter fun f => f.uid = u ∧ f.outcome.isNone).length ≤ 1 := by
  have hopen : ∀ f ∈ s.fetches.filter fun f => f.uid = u ∧ f.outcome.isNone,
      s.cache.state u = .fetching ⟨f.generation, f.previous⟩ := by
    intro f hf
    obtain ⟨hmem, hp⟩ := List.mem_filter.1 hf
    obtain ⟨hu, ho⟩ : f.uid = u ∧ f.outcome = none := by simpa using hp
    exact hu ▸ h.open_ f hmem ho
  have hnodup : ((s.fetches.filter fun f => f.uid = u ∧ f.outcome.isNone).map (·.generation)).Nodup :=
    h.nodup.sublist (List.filter_sublist.map _)
  generalize s.fetches.filter (fun f => f.uid = u ∧ f.outcome.isNone) = fs at hopen hnodup
  match fs with
  | [] | [_] => simp
  | f :: f' :: fs =>
    have hf := hopen f List.mem_cons_self
    have hf' := hopen f' (List.mem_cons_of_mem _ List.mem_cons_self)
    have hg : f.generation = f'.generation := (Flight.mk.inj (CacheEntry.fetching.inj (hf.symm.trans hf'))).1
    simp [hg] at hnodup

theorem Tracked.result_eq (h : s.Tracked) {w w' : Caller} (hw : w ∈ s.callers) (hw' : w' ∈ s.callers)
    (hg : w.ticket.generation = w'.ticket.generation) {r r' : Option Manifest} (hr : w.result? = some r)
    (hr' : w'.result? = some r') : r = r' := by
  obtain ⟨f, hf, hcar⟩ := h.caller w hw
  obtain ⟨f', hf', hcar'⟩ := h.caller w' hw'
  obtain ⟨o, hst, rfl⟩ := Caller.stage_of_result? hr
  obtain ⟨o', hst', rfl⟩ := Caller.stage_of_result? hr'
  have hff : f = f' := h.eq_of_generation hf hf' (hcar.generation.trans (hg.trans hcar'.generation.symm))
  have ho : f.outcome = some o := hcar.outcome o (by rw [hst]; rfl)
  have ho' : f'.outcome = some o' := hcar'.outcome o' (by rw [hst']; rfl)
  have hoo : some o = some o' := by rw [← ho, hff, ho']
  rw [Option.some.inj hoo]

theorem step_begin_of_fetching {i : Nat} {m : Member} {f : Flight} (hi : s.member? i = some m)
    (hf : s.cache.state m.applicationUid = .fetching f) (call : ClientCall) :
    s.step (.begin i call) =
      some { s with callers := s.callers ++ [⟨i, call, f.ticket false, .waiting⟩] } := by
  obtain ⟨c, hc, hu, -⟩ := client_of_member? hi
  rw [← hu] at hf
  have hb : c.begin call s.cache = (.waiting (f.ticket false), s.cache) := by
    rcases c.begin_cases call s.cache with ⟨m', -, hr, -⟩ | ⟨f', hf', hb⟩ | ⟨hno, -⟩
    · cases hr.symm.trans hf
    · cases hf'.symm.trans hf
      exact hb
    · exact absurd hf (hno f)
  simp [step, beginCall, hc, hb, Flight.ticket]

/-- In every state that a fleet reaches, an application has at most one fetch that is not complete; a call that
finds a fetch under way gets a ticket for it; calls with tickets of one generation have one result; and from an
entry that is empty or failed until it is settled, calls for it start exactly one fetch, however many they are. -/
theorem single_flight {ms : List Member} {as : List Action} (h : (start ms).run as = some s) :
    (∀ u, (s.fetches.filter fun f => f.uid = u ∧ f.outcome.isNone).length ≤ 1) ∧
    (∀ i m f call, ms[i]? = some m → s.cache.state m.applicationUid = .fetching f →
      ∃ t, s.step (.begin i call) = some t ∧ t.fetches = s.fetches ∧
        ∀ bs s', t.run bs = some s' → ∃ w, s'.callers[s.callers.length]? = some w ∧ w.client = i ∧
          w.ticket.generation = f.generation) ∧
    (∀ w ∈ s.callers, ∀ w' ∈ s.callers, w.ticket.generation = w'.ticket.generation →
      ∀ r r', w.result? = some r → w'.result? = some r' → r = r') ∧
    (∀ u bs s', (s.cache.state u = .empty ∨ ∃ e, s.cache.state u = .failed e) → s.run bs = some s' →
      s'.settled.count u = s.settled.count u →
      (∃ i m call, ms[i]? = some m ∧ m.applicationUid = u ∧ .begin i call ∈ bs) →
      s'.fetches.countP (·.uid = u) = s.fetches.countP (·.uid = u) + 1) := by
  have htracked : s.Tracked := (Tracked.start ms).run h
  have htallied : s.Tallied := Tallied.run (s := start ms) (fun _ => rfl) h
  have hmember (i : Nat) : s.member? i = ms[i]? := (member?_run h i).trans (member?_start ms i)
  refine ⟨htracked.length_open_le, fun i m f call hi hf => ?_, fun w hw w' hw' hg r r' => htracked.result_eq hw hw' hg,
    fun u bs s' hidle hs' hu hcall => ?_⟩
  · refine ⟨_, step_begin_of_fetching ((hmember i).trans hi) hf call, rfl, fun bs s' hs' => ?_⟩
    obtain ⟨w, hw, hcl, ht⟩ := caller_run (k := s.callers.length) hs' List.getElem?_concat_length
    exact ⟨w, hw, hcl, by rw [ht]; rfl⟩
  · have hs := htallied u
    have hs'u := htallied.run hs' u
    have hm : ∀ m, s.cache.state u ≠ .ready m := by rcases hidle with hx | ⟨e, hx⟩ <;> rw [hx] <;> nofun
    have hno : (s.cache.state u).underWay = 0 := by rcases hidle with hx | ⟨e, hx⟩ <;> rw [hx] <;> rfl
    obtain ⟨i, m, call, hi, hmu, hb⟩ := hcall
    have hone := underWay_run_of_unsettled hs' hu hm (.inr ⟨i, m, call, (hmember i).trans hi, hmu, hb⟩)
    omega

/-- Two clients of one application, of which one looks up and one refreshes, share the fetch and its failure. -/
theorem single_flight_of_two : ∃ s,
    (start [⟨"u", "host", 1⟩, ⟨"v", "host", 0⟩]).run [.begin 0 .current, .begin 1 .refresh,
      .arrive 1 (.error (.other "down")), .settle 1, .settle 0, .report 0, .report 1, .tell 0] = some s ∧
    s.callers.map (·.result?) = [some none, some none] ∧ s.fetches.length = 1 ∧
    (∀ w ∈ s.callers, ∀ w' ∈ s.callers, w.ticket.generation = w'.ticket.generation →
      ∀ r r', w.result? = some r → w'.result? = some r' → r = r') := by
  have hview : ((start [⟨"u", "host", 1⟩, ⟨"v", "host", 0⟩]).run [.begin 0 .current, .begin 1 .refresh,
      .arrive 1 (.error (.other "down")), .settle 1, .settle 0, .report 0, .report 1, .tell 0]).map
      (fun s => (s.callers.map (·.result?), s.fetches.length)) = some ([some none, some none], 1) := by decide
  obtain ⟨s, hs, hview⟩ := Option.map_eq_some_iff.1 hview
  obtain ⟨hresults, hfetches⟩ := Prod.mk.inj hview
  exact ⟨s, hs, hresults, hfetches, (single_flight hs).2.2.1⟩

end Fleet

end Federation
