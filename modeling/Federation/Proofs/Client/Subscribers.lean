import Federation.Proofs.Client.Session

/-!
# What subscribers read

A report sends all its changes at once, and a subscriber cannot read in between. So what waits for it are the last
changes of which observers were told since it read last, as many as there is room for (`Subscription.after`), and
whether it reads all of them depends on their number alone (`read_eq_heard_iff`). One refresh may have too many
(`lagged_behind_crowd`).
-/

namespace Federation

namespace Subscription
variable {cs : List RemoteChange}

/-- A subscription to which changes were sent that nobody has read. -/
def after (cs : List RemoteChange) : Subscription :=
  ⟨cs.drop (cs.length - subscriptionCapacity), cs.length - subscriptionCapacity⟩

theorem send_after (cs : List RemoteChange) (c : RemoteChange) : (after cs).send c = after (cs ++ [c]) := by
  have hlength : (cs ++ [c]).length = cs.length + 1 := by simp
  have hpending : (after cs).pending.length = cs.length - (cs.length - subscriptionCapacity) := List.length_drop
  unfold send
  split
  · -- there is room left, so nothing was lost and nothing is
    rename_i hroom
    have hnone : cs.length - subscriptionCapacity = 0 := by omega
    have hnone' : cs.length + 1 - subscriptionCapacity = 0 := by omega
    simp only [after, hlength, hnone, hnone', List.drop_zero]
  · rename_i hfull
    have hnext : cs.length + 1 - subscriptionCapacity = cs.length - subscriptionCapacity + 1 := by omega
    have hpos : 0 < subscriptionCapacity := by decide
    have hle : cs.length - subscriptionCapacity + 1 ≤ cs.length := by omega
    simp only [after, hlength, hnext, List.tail_drop, List.drop_append_of_le_length hle]

theorem foldl_send (cs cs' : List RemoteChange) : cs'.foldl send (after cs) = after (cs ++ cs') := by
  induction cs' generalizing cs with
  | nil => rw [List.foldl_nil, List.append_nil]
  | cons c cs' ih => rw [List.foldl_cons, send_after, ih, List.append_assoc, List.singleton_append]

theorem drain_after (cs : List RemoteChange) : (after cs).drain.1 =
    (if cs.length ≤ subscriptionCapacity then [] else [.lagged (cs.length - subscriptionCapacity)]) ++
      (cs.drop (cs.length - subscriptionCapacity)).map .change := by
  simp only [drain, after, Nat.sub_eq_zero_iff_le]

theorem drain_after_eq_iff : (after cs).drain.1 = cs.map .change ↔ cs.length ≤ subscriptionCapacity := by
  rw [drain_after]
  split
  · rename_i hroom
    rw [Nat.sub_eq_zero_of_le hroom]
    exact iff_of_true rfl hroom
  · rename_i hfull
    refine iff_of_false (fun h => ?_) hfull
    cases cs with
    | nil => exact hfull (Nat.zero_le _)
    | cons c cs => cases (List.cons.inj h).1

end Subscription

namespace ManifestClient
variable {c : ManifestClient} {i k : Nat} {cs : List RemoteChange}

/-! ### Between two readings -/

/-- What is done to a client: a call reports, somebody subscribes, or a subscriber reads. -/
inductive Act where
  | report (call : ClientCall) (t : Ticket) (outcome : FetchOutcome)
  | subscribe
  | drain (place : Nat)

/-- What observers are told in an act, and the client after it. -/
def act (c : ManifestClient) : Act → List Observation × ManifestClient
  | .report call t o => c.report call t o
  | .subscribe => ([], c.subscribe.2)
  | .drain place => ([], (c.drain place).2)

def acts (c : ManifestClient) : List Act → List Observation × ManifestClient
  | [] => ([], c)
  | x :: xs => ((c.act x).1 ++ ((c.act x).2.acts xs).1, ((c.act x).2.acts xs).2)

/-- The moved remotes of which one observer is told, in order. -/
def moves (k : Nat) (os : List Observation) : List RemoteChange :=
  (heard k os).filterMap fun
    | .remoteChanged ch => some ch
    | _ => none

theorem moves_append (os os' : List Observation) : moves k (os ++ os') = moves k os ++ moves k os' := by
  rw [moves, heard_append, List.filterMap_append, moves, moves]

theorem moves_changeReport (hk : k < c.observers) (old new : Manifest) :
    moves k (c.changeReport old new) = old.changes new := by
  rw [moves, heard_changeReport hk, drift]
  split
  · rename_i h
    exact h.symm
  · rw [List.filterMap_cons_none rfl, List.filterMap_map]
    exact List.filterMap_some

theorem moves_tell_fetchFailed (hk : k < c.observers) (e : FetchError) : moves k (c.tell (.fetchFailed e)) = [] := by
  rw [moves, heard_tell hk]
  rfl

/-- A report sends each subscriber what it tells each observer. -/
theorem subscriptions_report (hk : k < c.observers) (call : ClientCall) (t : Ticket) (o : FetchOutcome) :
    (c.report call t o).2.subscriptions =
      c.subscriptions.map fun s => (moves k (c.report call t o).1).foldl Subscription.send s := by
  have hquiet {os : List Observation} (hos : moves k os = []) :
      c.subscriptions = c.subscriptions.map fun s => (moves k os).foldl Subscription.send s := by
    rw [hos]
    exact (List.map_id _).symm
  unfold report
  split
  · unfold reportError
    refine hquiet ?_
    dsimp only
    split
    · rfl
    · exact moves_tell_fetchFailed hk _
  · unfold reportChange
    split
    · exact hquiet rfl
    · rw [moves_changeReport hk]
      rfl
  · exact hquiet rfl

theorem observers_act (c : ManifestClient) (x : Act) : (c.act x).2.observers = c.observers := by
  cases x with
  | report call t o => exact (c.report_snd call t o).2.2
  | subscribe => rfl
  | drain place =>
    show (c.drain place).2.observers = c.observers
    unfold drain
    split <;> rfl

/-- Whatever is done, what an observer is told of is added to what waits for a subscriber, unless that one reads. -/
theorem waits_act (hk : k < c.observers) {x : Act} (hx : x ≠ .drain i) (h : c.subscriptions[i]? = some (.after cs)) :
    (c.act x).2.subscriptions[i]? = some (.after (cs ++ moves k (c.act x).1)) := by
  cases x with
  | report call t o =>
    show (c.report call t o).2.subscriptions[i]? = some (.after (cs ++ moves k (c.report call t o).1))
    rw [subscriptions_report hk, List.getElem?_map, h, Option.map_some, Subscription.foldl_send]
  | subscribe =>
    have hlt : i < c.subscriptions.length := (List.getElem?_eq_some_iff.1 h).1
    show (c.subscriptions ++ [.empty])[i]? = some (.after (cs ++ []))
    rw [List.getElem?_append_left hlt, h, List.append_nil]
  | drain place =>
    have hne : place ≠ i := fun he => hx (he ▸ rfl)
    show (c.drain place).2.subscriptions[i]? = some (.after (cs ++ []))
    rw [List.append_nil]
    unfold drain
    split
    · exact h
    · exact (List.getElem?_set_ne hne).trans h

theorem waits_acts (hk : k < c.observers) {xs : List Act} (hxs : .drain i ∉ xs)
    (h : c.subscriptions[i]? = some (.after cs)) :
    (c.acts xs).2.subscriptions[i]? = some (.after (cs ++ moves k (c.acts xs).1)) := by
  induction xs generalizing c cs with
  | nil => exact h.trans (by rw [acts, moves, heard_nil, List.filterMap_nil, List.append_nil])
  | cons x xs ih =>
    obtain ⟨hx, hxs⟩ := not_or.1 (mt List.mem_cons.2 hxs)
    have hact := waits_act hk (Ne.symm hx) h
    rw [acts, moves_append, ← List.append_assoc]
    exact ih (by rwa [observers_act]) hxs hact

theorem drain_of_after (h : c.subscriptions[i]? = some (.after cs)) :
    (c.drain i).1 = (Subscription.after cs).drain.1 := by
  rw [drain, h]

/-- A whole refresh ends in a report, and observers are told just what it reports. -/
theorem next_refresh (s : Session) (o : FetchOutcome) : ∃ t,
    (s.next (.refresh, o)).2.1 = (s.client.report .refresh t o).1 ∧
    (s.next (.refresh, o)).2.2.client = (s.client.report .refresh t o).2 := by
  obtain ⟨t, cache, hbegin⟩ : ∃ t cache, s.client.begin .refresh s.cache = (.waiting t, cache) := ⟨_, _, rfl⟩
  have hnext := Session.next_of_waiting (o := o) hbegin
  exact ⟨t, by rw [hnext], by rw [hnext]⟩

/-- A subscriber for whom nothing waited reads later, after any reports of the client and whatever other subscribers
did: it reads the moved remotes of which each observer was told in between, in the same order, if and only if they were
no more than there is room for. Otherwise it reads how many of them were lost, and the last ones. In particular, this is
so after one refresh, of any outcome and with any cache. -/
theorem read_eq_heard_iff (c : ManifestClient) {i k : Nat} (hi : c.subscriptions[i]? = some .empty)
    (hk : k < c.observers) :
    (∀ xs, .drain i ∉ xs →
      let moved := moves k (c.acts xs).1
      let read := ((c.acts xs).2.drain i).1
      (read = moved.map .change ↔ moved.length ≤ 64) ∧
      (¬ moved.length ≤ 64 → read = .lagged (moved.length - 64) :: (moved.drop (moved.length - 64)).map .change)) ∧
    ∀ cache o,
      let (_, told, s) := Session.next ⟨c, cache⟩ (.refresh, o)
      let read := (s.client.drain i).1
      (read = (moves k told).map .change ↔ (moves k told).length ≤ 64) := by
  have hempty : c.subscriptions[i]? = some (.after []) := hi
  have hread (xs : List Act) (hxs : .drain i ∉ xs) :
      ((c.acts xs).2.drain i).1 = (Subscription.after (moves k (c.acts xs).1)).drain.1 := by
    have hwaits := waits_acts hk hxs hempty
    rw [List.nil_append] at hwaits
    exact drain_of_after hwaits
  refine ⟨fun xs hxs => ⟨?_, fun hfull => ?_⟩, fun cache o => ?_⟩
  · rw [hread xs hxs]
    exact Subscription.drain_after_eq_iff
  · exact ((hread xs hxs).trans (Subscription.drain_after _)).trans (congrArg (· ++ _) (if_neg hfull))
  · obtain ⟨t, htold, hclient⟩ := next_refresh ⟨c, cache⟩ o
    have hone : c.acts [.report .refresh t o] = c.report .refresh t o := by simp [acts, act]
    dsimp only
    rw [htold, hclient, ← hone, hread _ (by simp)]
    exact Subscription.drain_after_eq_iff

/-- The cart moves to and fro, and a subscriber that did not read in between reads both moves. -/
theorem read_eq_heard_of_cart :
    let c := (new "u" "host.shop.acme" 1).subscribe.2
    let v1 := Session.cartAt "https://v1.acme.dev/"
    let v2 := Session.cartAt "https://v2.acme.dev/"
    let (told, c') := c.acts [.report .refresh ⟨1, some v1, true⟩ (.ok v2), .subscribe, .drain 1,
      .report .refresh ⟨2, some v2, true⟩ (.ok v1)]
    moves 0 told = v1.changes v2 ++ v2.changes v1 ∧ (c'.drain 0).1 = (moves 0 told).map .change :=
  let c := (new "u" "host.shop.acme" 1).subscribe.2
  have hread := (read_eq_heard_iff c (i := 0) (k := 0) rfl Nat.one_pos).1 [.report .refresh
    ⟨1, some (Session.cartAt "https://v1.acme.dev/"), true⟩ (.ok (Session.cartAt "https://v2.acme.dev/")), .subscribe,
    .drain 1, .report .refresh ⟨2, some (Session.cartAt "https://v2.acme.dev/"), true⟩
    (.ok (Session.cartAt "https://v1.acme.dev/"))] (by simp)
  ⟨by decide, hread.1.2 (by decide)⟩

/-- A manifest of 65 remotes that all have one entry URL. -/
def crowd (url : String) : Manifest where
  version := "1.0.0"
  timestamp := "2026-01-01T00:00:00Z"
  applicationUid := "host.shop.acme"
  dependencies := (List.range 65).foldr (fun n ds =>
    ds.insert (toString (10 + n)) ⟨"cart.shop.acme", url, "https://cdn.acme.dev/cart/", "1.0.0"⟩) .empty

/-- All remotes of a crowd move in one refresh; the observer is told of each, and the subscriber misses one. -/
theorem lagged_behind_crowd :
    let c := (new "u" "host.shop.acme" 1).subscribe.2
    let before := (Session.next ⟨c, .empty⟩ (.current, .ok (crowd "https://v1.acme.dev/"))).2.2
    let (_, told, s) := before.next (.refresh, .ok (crowd "https://v2.acme.dev/"))
    (before.client.drain 0).1 = [] ∧ (moves 0 told).length = 65 ∧ (s.client.drain 0).1.head? = some (.lagged 1) ∧
      (s.client.drain 0).1 ≠ (moves 0 told).map .change := by
  decide +kernel

end ManifestClient

end Federation
