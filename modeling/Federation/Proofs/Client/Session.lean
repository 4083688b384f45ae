import Mathlib.Data.List.Nodup
import Federation.Proofs.Client.Calls

/-!
# Calls that follow one another

A client that has its cache for itself, and whose calls do not overlap, is in one of three states: nothing was
fetched yet, the last fetch failed, or the last call answered a manifest, which is then ready. `Follows` says so,
and that the client has reported no generation that is still to come, so that it lets every report through.

A failure takes the place of the manifest in the cache. So a refresh tells observers what moved since the last
manifest when no fetch has failed since, and tells them nothing when one has: see `drift_of_refresh` and
`drift_lost`.
-/

namespace Federation

namespace ManifestClient

/-! ### What an observer hears -/

/-- The events that one observer is told of, in order. -/
def heard (k : Nat) (os : List Observation) : List ClientEvent := (os.filter (·.observer = k)).map (·.event)

/-- What each observer is to hear when one manifest takes the place of another. -/
def drift (old new : Manifest) : List ClientEvent :=
  if old.changes new = [] then [] else .manifestChanged new old :: (old.changes new).map .remoteChanged

section
variable {c : ManifestClient} {k : Nat}

@[simp] theorem heard_nil : heard k [] = [] := rfl

theorem heard_append (os os' : List Observation) : heard k (os ++ os') = heard k os ++ heard k os' := by
  rw [heard, List.filter_append, List.map_append, heard, heard]

theorem heard_tell (hk : k < c.observers) (e : ClientEvent) : heard k (c.tell e) = [e] := by
  have hfilter : (List.range c.observers).filter (· = k) = [k] := by
    rw [List.filter_eq, List.count_eq_one_of_mem List.nodup_range (List.mem_range.2 hk), List.replicate_one]
  rw [heard, tell, List.filter_map, List.map_map]
  show ((List.range c.observers).filter fun j => decide (j = k)).map (fun _ => e) = [e]
  rw [hfilter, List.map_singleton]

theorem heard_flatMap_tell (hk : k < c.observers) {α : Type} (l : List α) (f : α → ClientEvent) :
    heard k (l.flatMap fun x => c.tell (f x)) = l.map f := by
  induction l with
  | nil => rfl
  | cons x l ih => rw [List.flatMap_cons, heard_append, heard_tell hk, ih, List.map_cons, List.singleton_append]

theorem heard_changeReport (hk : k < c.observers) (old new : Manifest) :
    heard k (c.changeReport old new) = drift old new := by
  unfold changeReport drift
  cases h : old.changes new with
  | nil => rfl
  | cons x xs => rw [heard_append, heard_tell hk, heard_flatMap_tell hk, if_neg (List.cons_ne_nil x xs),
      List.singleton_append]

end

/-! ### Histories -/

namespace Session
variable {s : Session} {call : ClientCall} {o : FetchOutcome} {last : Option (Option Manifest)}

def start (url uid : String) (observers : Nat) : Session := ⟨.new url uid observers, .empty⟩

/-- A call, if it is known what comes of the fetch that it may start. -/
def next (s : Session) (x : ClientCall × FetchOutcome) : Option Manifest × List Observation × Session :=
  Id.run (s.call (fun _ => pure x.2) x.1)

def after (s : Session) : List (ClientCall × FetchOutcome) → Session
  | [] => s
  | x :: xs => (s.next x).2.2.after xs

def answers (s : Session) : List (ClientCall × FetchOutcome) → List (Option Manifest)
  | [] => []
  | x :: xs => (s.next x).1 :: (s.next x).2.2.answers xs

/-- The entry in which the last call left the cache, if there was one, by what it answered. -/
def Left : Option (Option Manifest) → CacheEntry → Prop
  | none, x => x = .empty
  | some none, x => ∃ e, x = .failed e
  | some (some m), x => x = .ready m

/-- The cache holds what the last call answered, and no generation to come was reported. -/
structure Follows (s : Session) (last : Option (Option Manifest)) : Prop where
  left : Left last (s.cache.state s.client.applicationUid)
  unreported : ∀ x, s.client.lastReported x < s.cache.nextGeneration

theorem Follows.not_fetching (h : s.Follows last) (f : Flight) :
    s.cache.state s.client.applicationUid ≠ .fetching f := by
  have hleft := h.left
  intro hf
  rw [hf] at hleft
  match last, hleft with
  | none, hleft => cases hleft
  | some none, ⟨e, hleft⟩ => cases hleft
  | some (some m), hleft => cases hleft

theorem Follows.ready? (h : s.Follows last) : s.cache.ready? s.client.applicationUid = last.join := by
  have hleft := h.left
  unfold ManifestCache.ready?
  match last, hleft with
  | none, hleft => rw [hleft]; rfl
  | some none, ⟨e, hleft⟩ => rw [hleft]; rfl
  | some (some m), hleft => rw [hleft]; rfl

theorem Follows.start (url uid : String) (observers : Nat) : (start url uid observers).Follows none where
  left := rfl
  unreported := by intro x; cases x <;> exact Nat.one_pos

theorem next_of_cached {m : Manifest} {cache : ManifestCache} (h : s.client.begin call s.cache = (.cached m, cache)) :
    s.next (call, o) = (some m, [], { s with cache }) := by
  simp [next, Session.call, h]

theorem next_of_waiting {t : Ticket} {cache : ManifestCache} (h : s.client.begin call s.cache = (.waiting t, cache)) :
    s.next (call, o) = (answer o, (s.client.report call t o).1,
      ⟨(s.client.report call t o).2, (cache.settle s.client.applicationUid t.generation o).2⟩) := by
  simp [next, Session.call, h]

def fresh (s : Session) : Ticket := ⟨s.cache.nextGeneration, s.cache.ready? s.client.applicationUid, true⟩

/-- A call is answered from the cache, or it fetches, and the outcome is then in the cache. -/
theorem next_cases (h : s.Follows last) (call : ClientCall) (o : FetchOutcome) :
    (∃ m, call = .current ∧ last = some (some m) ∧ s.next (call, o) = (some m, [], s)) ∨
    (∃ cache, cache.state s.client.applicationUid = ManifestCache.entryOf o ∧
      cache.nextGeneration = s.cache.nextGeneration + 1 ∧
      s.next (call, o) =
        (answer o, (s.client.report call s.fresh o).1, ⟨(s.client.report call s.fresh o).2, cache⟩)) := by
  rcases s.client.begin_cases call s.cache with ⟨m, hcall, hm, hb⟩ | ⟨f, hf, -⟩ | ⟨-, hb⟩
  · have hlast : last.join = some m := by
      rw [← h.ready?, ManifestCache.ready?, hm]
    exact .inl ⟨m, hcall, Option.join_eq_some_iff.1 hlast, next_of_cached hb⟩
  · exact absurd hf (h.not_fetching f)
  · have hawaits : (s.cache.begin s.client.applicationUid (s.cache.ready? s.client.applicationUid)).2.Awaits
        s.client.applicationUid s.cache.nextGeneration :=
      ⟨_, (ManifestCache.state_begin ..).trans (if_pos rfl), rfl⟩
    have hnext := next_of_waiting (o := o) hb
    rw [ManifestCache.settle_of_awaits hawaits] at hnext
    exact .inr ⟨_, (ManifestCache.state_insert ..).trans (if_pos rfl), rfl, hnext⟩

theorem Follows.next (h : s.Follows last) (x : ClientCall × FetchOutcome) :
    (s.next x).2.2.Follows (some (s.next x).1) ∧ (s.next x).2.2.client.observers = s.client.observers := by
  obtain ⟨call, o⟩ := x
  rcases next_cases h call o with ⟨m, -, rfl, hn⟩ | ⟨cache, hstate, hgen, hn⟩ <;> rw [hn]
  · exact ⟨h, rfl⟩
  · obtain ⟨-, huid, hobs⟩ := s.client.report_snd call s.fresh o
    refine ⟨⟨?_, fun y => ?_⟩, hobs⟩
    · rw [huid, hstate]
      cases o with
      | ok m => rfl
      | error e => exact ⟨e, rfl⟩
    · show (s.client.report call s.fresh o).2.lastReported y < cache.nextGeneration
      rw [lastReported_report, hgen]
      split
      · exact Nat.lt_succ_self _
      · exact Nat.lt_succ_of_lt (h.unreported y)

theorem Follows.after (h : s.Follows last) (xs : List (ClientCall × FetchOutcome)) :
    (s.after xs).Follows ((s.answers xs).getLast?.or last) ∧ (s.after xs).client.observers = s.client.observers := by
  induction xs generalizing s last with
  | nil => exact ⟨h, rfl⟩
  | cons x xs ih =>
    obtain ⟨hnext, hobs⟩ := h.next x
    obtain ⟨hafter, hobs'⟩ := ih hnext
    refine ⟨?_, hobs'.trans hobs⟩
    rw [Session.after, answers, List.getLast?_cons]
    cases hl : ((s.next x).2.2.answers xs).getLast? <;> simpa [hl] using hafter

/-- A refresh that succeeds reports what moved since the manifest that the last call answered, if it did. -/
theorem Follows.refresh (h : s.Follows last) (m : Manifest) :
    (s.next (.refresh, .ok m)).1 = some m ∧
    (s.next (.refresh, .ok m)).2.1 = match last.join with
      | none => []
      | some old => s.client.changeReport old m := by
  rcases next_cases h .refresh (.ok m) with ⟨m, hcall, -⟩ | ⟨cache, -, -, hn⟩
  · cases hcall
  · rw [hn]
    refine ⟨rfl, ?_⟩
    have hprevious : s.fresh.previous = last.join := h.ready?
    cases hl : last.join with
    | none =>
      have hs : subject? .refresh s.fresh (.ok m) = none := by simp [subject?, hprevious, hl]
      rw [report_of_subject_none hs]
    | some old =>
      have hs : subject? .refresh s.fresh (.ok m) = some .change := by simp [subject?, hprevious, hl]
      have hne : s.client.lastReported .change ≠ s.fresh.generation := Nat.ne_of_lt (h.unreported .change)
      rw [report_fst hs, if_neg hne, hprevious, hl]
      rfl

/-- The manifest that calls obtained last. -/
def obtained (s : Session) (xs : List (ClientCall × FetchOutcome)) : Option Manifest :=
  ((s.answers xs).filterMap id).getLast?

theorem obtained_of_getLast? {xs : List (ClientCall × FetchOutcome)} {m : Manifest}
    (h : (s.answers xs).getLast? = some (some m)) : s.obtained xs = some m := by
  obtain ⟨l, hl⟩ := List.getLast?_eq_some_iff.1 h
  simp [obtained, hl]

theorem obtained_of_nil {xs : List (ClientCall × FetchOutcome)} (h : (s.answers xs).getLast? = none) :
    s.obtained xs = none := by
  simp [obtained, List.getLast?_eq_none_iff.1 h]

/-- After any calls, a refresh that succeeds answers its manifest, and each observer hears of the drift from the
manifest that was obtained last, unless the last call answered none; then, or when there is no such manifest, it
hears of nothing. -/
theorem drift_of_refresh (url uid : String) (observers : Nat) (past : List (ClientCall × FetchOutcome))
    (m : Manifest) :
    (((start url uid observers).after past).next (.refresh, .ok m)).1 = some m ∧
    ∀ k < observers, heard k (((start url uid observers).after past).next (.refresh, .ok m)).2.1 =
      match (start url uid observers).obtained past with
      | none => []
      | some old => if ((start url uid observers).answers past).getLast? = some none then [] else drift old m := by
  obtain ⟨hafter, hobs⟩ := (Follows.start url uid observers).after past
  obtain ⟨hanswer, htold⟩ := hafter.refresh m
  refine ⟨hanswer, fun k hk => ?_⟩
  rw [htold, Option.or_none]
  match hl : ((start url uid observers).answers past).getLast? with
  | none =>
    rw [obtained_of_nil hl]
    rfl
  | some none =>
    cases (start url uid observers).obtained past with
    | none => rfl
    | some old => exact (if_pos rfl).symm
  | some (some old) =>
    rw [obtained_of_getLast? hl]
    show heard k (changeReport _ old m) = if some (some old) = some none then [] else drift old m
    rw [if_neg (by simp)]
    exact heard_changeReport (hobs ▸ hk) old m

def cartAt (url : String) : Manifest :=
  ⟨"1.0.0", "2026-01-01T00:00:00Z", "host.shop.acme",
    KeyMap.empty.insert "cart" ⟨"cart.shop.acme", url, "https://cdn.acme.dev/cart/", "1.0.0"⟩⟩

/-- The cart moves while a refresh fails, and the refresh that succeeds afterwards tells nobody. -/
theorem drift_lost :
    (start "u" "host.shop.acme" 1).obtained [(.current, .ok (cartAt "https://v1.acme.dev/")),
      (.refresh, .error (.other "down"))] = some (cartAt "https://v1.acme.dev/") ∧
    drift (cartAt "https://v1.acme.dev/") (cartAt "https://v2.acme.dev/") ≠ [] ∧
    heard 0 (((start "u" "host.shop.acme" 1).after [(.current, .ok (cartAt "https://v1.acme.dev/")),
      (.refresh, .error (.other "down"))]).next (.refresh, .ok (cartAt "https://v2.acme.dev/"))).2.1 = [] := by
  exact ⟨by decide, by decide, by decide⟩

end Session

end ManifestClient

end Federation
