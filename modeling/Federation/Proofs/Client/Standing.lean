import Federation.Proofs.Client.Session
import Federation.Proofs.Manifest.Moves

/-!
# A client as a machine of three states

To somebody who makes one call after another, a client with its own new cache is a machine of three states
(`Standing`): there is no manifest yet, or there is one, or the last fetch failed. In each state a call comes to a
`Turn`, by the outcome of the fetch that it may make. The turns of a session are those of the machine, over any calls
and any outcomes of fetches (`turns_follow_machine`): the states match step by step (`Stands`), and since each fetch
has a generation that the client never reported, what the machine tells is told in full and once.
-/

namespace Federation

namespace ManifestClient

structure Turn where
  answer : Option Manifest
  /-- Who is told of what, in order. -/
  told : List Observation
  /-- The URLs that are fetched. -/
  fetched : List String

inductive Standing where
  | nothing
  | ready (manifest : Manifest)
  | failed

namespace Standing

def announce (observers : Nat) (e : ClientEvent) : List Observation := (List.range observers).map (⟨·, e⟩)

/-- What is told when a refresh puts one manifest in the place of another. -/
def moved (observers : Nat) (old new : Manifest) : List Observation :=
  if old.changes new = [] then []
  else announce observers (.manifestChanged new old) ++
    (old.changes new).flatMap fun x => announce observers (.remoteChanged x)

def tellings (observers : Nat) : Standing → ClientCall → FetchOutcome → List Observation
  | _, _, .error e => announce observers (.fetchFailed e)
  | ready old, .refresh, .ok new => moved observers old new
  | _, _, .ok _ => []

def turn (url : String) (observers : Nat) (st : Standing) (call : ClientCall) (o : FetchOutcome) : Turn × Standing :=
  match st, call with
  | ready m, .current => (⟨some m, [], []⟩, ready m)
  | st, call =>
    let told := st.tellings observers call o
    match o with
    | .ok m => (⟨some m, told, [url]⟩, ready m)
    | .error _ => (⟨none, told, [url]⟩, failed)

/-- The turns of calls, where some number of fetches were made before. -/
def turns (url : String) (observers : Nat) (outcomes : Nat → FetchOutcome) (st : Standing) (fetches : Nat) :
    List ClientCall → List Turn
  | [] => []
  | call :: calls =>
    let (t, st) := st.turn url observers call (outcomes fetches)
    t :: st.turns url observers outcomes (fetches + t.fetched.length) calls

def last : Standing → Option (Option Manifest)
  | nothing => none
  | ready m => some (some m)
  | failed => some none

end Standing

namespace Session
variable {s s' : Session} {st : Standing} {url : String} {observers : Nat} {call : ClientCall} {o : FetchOutcome}
  {outcomes : Nat → FetchOutcome} {log : List String}

/-- Fetches come out one after the other as foretold, and their URLs are written down. -/
def script (outcomes : Nat → FetchOutcome) (url : String) : StateM (List String) FetchOutcome :=
  fun log => (outcomes log.length, log ++ [url])

/-- The turns of calls, where the URLs in the log were fetched before. -/
def turns (outcomes : Nat → FetchOutcome) (s : Session) (log : List String) : List ClientCall → List Turn
  | [] => []
  | call :: calls =>
    let ((answer, told, s), log') := s.call (script outcomes) call log
    ⟨answer, told, log'.drop log.length⟩ :: s.turns outcomes log' calls

/-- A session of a client with its own cache is at a state of the machine. -/
structure Stands (url : String) (observers : Nat) (s : Session) (st : Standing) : Prop where
  follows : s.Follows st.last
  url_eq : s.client.url = url
  observers_eq : s.client.observers = observers

theorem Stands.start (url uid : String) (observers : Nat) : (start url uid observers).Stands url observers .nothing :=
  ⟨.start url uid observers, rfl, rfl⟩

/-! ### One call -/

theorem call_of_cached {m : Manifest} {cache : ManifestCache} (h : s.client.begin call s.cache = (.cached m, cache)) :
    s.call (script outcomes) call log = (s.next (call, outcomes log.length), log) := by
  rw [next_of_cached h]
  simp only [Session.call, h]
  rfl

theorem call_of_waiting {t : Ticket} {cache : ManifestCache} (h : s.client.begin call s.cache = (.waiting t, cache)) :
    s.call (script outcomes) call log = (s.next (call, outcomes log.length), log ++ [s.client.url]) := by
  rw [next_of_waiting h]
  simp only [Session.call, h]
  rfl

theorem Stands.state_of_ready {m : Manifest} (h : s.Stands url observers (.ready m)) :
    s.cache.state s.client.applicationUid = .ready m := h.follows.left

theorem Stands.ready_of_state {m : Manifest} (h : s.Stands url observers st)
    (hm : s.cache.state s.client.applicationUid = .ready m) : st = .ready m := by
  have hleft := h.follows.left
  rw [hm] at hleft
  cases st with
  | nothing => cases hleft
  | ready m' => cases hleft; rfl
  | failed => obtain ⟨e, he⟩ := hleft; cases he

theorem Stands.changeReport_eq (h : s.Stands url observers st) (old new : Manifest) :
    s.client.changeReport old new = Standing.moved observers old new := by
  unfold changeReport Standing.moved
  cases old.changes new with
  | nil => rfl
  | cons x xs => simp only [tell, h.observers_eq, Standing.announce, reduceCtorEq, if_false]

/-- A call that fetches tells what the machine tells: its generation is one that was never reported. -/
theorem Stands.report_fresh (h : s.Stands url observers st) (call : ClientCall) (o : FetchOutcome) :
    (s.client.report call s.fresh o).1 = st.tellings observers call o := by
  have hne (x : Subject) : s.client.lastReported x ≠ s.fresh.generation := Nat.ne_of_lt (h.follows.unreported x)
  have hprevious : s.fresh.previous = st.last.join := h.follows.ready?
  cases o with
  | error e =>
    rw [report_fst (x := .failure) rfl, if_neg (hne .failure), due, tell, h.observers_eq]
    cases st <;> rfl
  | ok m =>
    cases call with
    | current =>
      rw [report_of_subject_none (by simp [subject?])]
      cases st <;> rfl
    | refresh =>
      cases st with
      | nothing | failed =>
        rw [report_of_subject_none (by simp [subject?, hprevious, Standing.last])]
        rfl
      | ready old =>
        have hs : subject? .refresh s.fresh (.ok m) = some .change := by simp [subject?, hprevious, Standing.last]
        rw [report_fst hs, if_neg (hne .change), hprevious]
        exact h.changeReport_eq old m

/-- The machine fetches unless a manifest is ready and none is asked for anew. -/
theorem turn_of_fetch (h : ∀ m, st = .ready m → call ≠ .current) :
    ∃ st' : Standing, st.turn url observers call o = (⟨answer o, st.tellings observers call o, [url]⟩, st') ∧
      st'.last = some (answer o) := by
  unfold Standing.turn
  split
  · rename_i m
    exact absurd rfl (h m rfl)
  · cases o with
    | ok m => exact ⟨.ready m, rfl, rfl⟩
    | error e => exact ⟨.failed, rfl, rfl⟩

theorem Stands.turn (h : s.Stands url observers st) (outcomes : Nat → FetchOutcome) (log : List String)
    (call : ClientCall) :
    ∃ t st' s', st.turn url observers call (outcomes log.length) = (t, st') ∧
      s.call (script outcomes) call log = ((t.answer, t.told, s'), log ++ t.fetched) ∧
      s'.Stands url observers st' := by
  rcases s.client.begin_cases call s.cache with ⟨m, rfl, hm, hb⟩ | ⟨f, hf, -⟩ | ⟨-, hb⟩
  · obtain rfl := h.ready_of_state hm
    refine ⟨⟨some m, [], []⟩, .ready m, s, rfl, ?_, h⟩
    rw [call_of_cached hb, next_of_cached hb, List.append_nil]
  · exact absurd hf (h.follows.not_fetching f)
  · have hfetches (m : Manifest) (hst : st = .ready m) : call ≠ .current := by
      rintro rfl
      subst hst
      rw [begin, ManifestCache.lookup, h.state_of_ready] at hb
      cases hb
    have hcall : s.call (script outcomes) call log =
        (s.next (call, outcomes log.length), log ++ [s.client.url]) := call_of_waiting hb
    generalize outcomes log.length = o at hcall ⊢
    have hnext : s.next (call, o) = (answer o, (s.client.report call s.fresh o).1, _) := next_of_waiting hb
    obtain ⟨hfollows, hobservers⟩ := h.follows.next (call, o)
    obtain ⟨hurl, -, -⟩ := s.client.report_snd call s.fresh o
    rw [hnext] at hcall hfollows hobservers
    rw [h.report_fresh, h.url_eq] at hcall
    obtain ⟨st', hturn, hlast⟩ := @turn_of_fetch st url observers call o hfetches
    rw [← hlast] at hfollows
    exact ⟨_, st', _, hturn, hcall, hfollows, hurl.trans h.url_eq, hobservers.trans h.observers_eq⟩

/-! ### All calls -/

theorem Stands.turns (h : s.Stands url observers st) (outcomes : Nat → FetchOutcome) (log : List String)
    (calls : List ClientCall) : s.turns outcomes log calls = st.turns url observers outcomes log.length calls := by
  induction calls generalizing s st log with
  | nil => rfl
  | cons call calls ih =>
    obtain ⟨t, st', s', hturn, hcall, hs'⟩ := h.turn outcomes log call
    have hrest := ih hs' (log ++ t.fetched)
    rw [List.length_append] at hrest
    simp only [Session.turns, hcall, List.drop_left, Standing.turns, hturn, hrest]

/-- A client with its own new cache answers, fetches and tells as the machine does, whatever is called and whatever
comes of the fetches, and it tells of moved remotes in the order of their names. -/
theorem turns_follow_machine (url uid : String) (observers : Nat) (outcomes : Nat → FetchOutcome)
    (calls : List ClientCall) :
    (start url uid observers).turns outcomes [] calls = Standing.nothing.turns url observers outcomes 0 calls ∧
    ∀ old new : Manifest, (old.changes new).Pairwise fun a b => a.remoteName < b.remoteName :=
  ⟨(Stands.start url uid observers).turns outcomes [] calls, Manifest.remoteName_lt_of_changes⟩

end Session

end ManifestClient

end Federation
