import Mathlib.Data.List.DropRight
import Mathlib.Data.List.Forall2
import Mathlib.Data.List.Perm.Subperm
import Federation.Proofs.Resolver.Talks
import Federation.Proofs.Resolver.Targets

/-!
# What a resolution sends

A resolution searches for a token first. Then the calls for all dependencies run together, and each sends its request
and hears its answer whenever it likes; an answer may be anything, and may be missing. In a `Resolving` the search and
the calls are the talks of the resolver, carried out by one thread each.

A thread has sent nothing or the one request of its talk (`Thread.Sent`), and what a resolution has sent is what its
threads have sent (`Resolving.Holds`). Both are kept by every step, so `requests_of_run` holds for any order in which
requests are sent and answers come.

A request is what is given to the transport. Where that has to try twice, or is sent on to another place, it is still
one request.
-/

namespace Federation

/-! ### Threads -/

/-- How far a talk has come. -/
inductive Talk.Phase (α : Type) where
  | ready (t : Talk α)
  /-- A request is under way. -/
  | waiting (next : Option HttpResponse → Talk α)

/-- A talk that is carried out, and what it has sent. -/
structure Thread (α : Type) where
  phase : Talk.Phase α
  sent : List HttpRequest

namespace Thread
variable {α : Type} {q? : Option HttpRequest} {t t' : Thread α} {qs : List HttpRequest}

/-- What a thread can do: send its request, or hear the answer. -/
inductive Move where
  | go
  | hear (answer : Option HttpResponse)

def start (t : Talk α) : Thread α := ⟨.ready t, []⟩

/-- The result of a thread that has ended. -/
def result? (t : Thread α) : Option α :=
  match t.phase with
  | .ready (.done a) => some a
  | _ => none

/-- A thread moves; with what it sends. -/
def move (t : Thread α) (m : Move) : Option (List HttpRequest × Thread α) :=
  match t.phase, m with
  | .ready (.ask q next), .go => some ([q], ⟨.waiting next, t.sent ++ [q]⟩)
  | .waiting next, .hear answer => some ([], ⟨.ready (next answer), t.sent⟩)
  | _, _ => none

/-- How many moves a thread that sends at most one request may still make. -/
def left (t : Thread α) : Nat :=
  match t.phase with
  | .ready (.done _) => 0
  | .ready (.ask _ _) => 2
  | .waiting _ => 1

theorem left_le (t : Thread α) : t.left ≤ 2 := by
  unfold left
  split <;> decide

theorem sent_move {m : Move} (h : t.move m = some (qs, t')) : t'.sent = t.sent ++ qs := by
  unfold move at h
  split at h <;> cases h
  · rfl
  · exact (List.append_nil _).symm

/-- A thread that has ended, or can move. -/
theorem ended_or_move (t : Thread α) : t.result?.isSome = true ∨ ∃ m, (t.move m).isSome = true := by
  obtain ⟨(⟨a⟩ | ⟨q, next⟩) | next, sent⟩ := t
  · exact .inl rfl
  · exact .inr ⟨.go, rfl⟩
  · exact .inr ⟨.hear none, rfl⟩

/-- A thread that sends one request has not sent it yet, is waiting for the answer, or has ended. -/
inductive Sent : Option HttpRequest → Thread α → Prop
  | before {q? : Option HttpRequest} {t : Talk α} (sends : t.Sends q?) : Sent q? (start t)
  | underway {q : HttpRequest} {next : Option HttpResponse → Talk α} (ends : ∀ r, ∃ a, next r = .done a) :
      Sent (some q) ⟨.waiting next, [q]⟩
  | ended {q : HttpRequest} {a : α} : Sent (some q) ⟨.ready (.done a), [q]⟩

theorem Sent.move (h : t.Sent q?) {m : Move} (hm : t.move m = some (qs, t')) : t'.Sent q? ∧ t'.left < t.left := by
  cases h with
  | before sends =>
    cases sends with
    | nothing a => cases m <;> cases hm
    | once q ends =>
      cases m with
      | go =>
        cases hm
        exact ⟨.underway ends, Nat.lt_succ_self 1⟩
      | hear answer => cases hm
  | underway ends =>
    cases m with
    | go => cases hm
    | hear answer =>
      cases hm
      obtain ⟨a, ha⟩ := ends answer
      rw [ha]
      exact ⟨.ended, Nat.one_pos⟩
  | ended => cases m <;> cases hm

theorem Sent.sublist (h : t.Sent q?) : t.sent.Sublist q?.toList := by
  cases h with
  | before sends => exact List.nil_sublist _
  | underway | ended => exact .refl _

theorem Sent.eq_of_result (h : t.Sent q?) (hr : t.result?.isSome = true) : t.sent = q?.toList := by
  cases h with
  | before sends =>
    cases sends with
    | nothing a => rfl
    | once q ends => cases hr
  | underway ends => cases hr
  | ended => rfl

end Thread

/-! ### Resolutions under way -/

/-- A resolution under way: the token is searched for, or all calls run together. -/
inductive Resolving.Stage where
  | searching (search : Thread (Except Error AuthToken))
  | calling (token : Except Error AuthToken) (calls : List (Thread Outcome))

/-- A resolution under way, and everything it has sent, in order. -/
structure Resolving where
  stage : Resolving.Stage
  sent : List HttpRequest

namespace Resolving

inductive Event where
  /-- The search for a token moves. -/
  | search (m : Thread.Move)
  /-- The search is over and the calls start. -/
  | spread
  /-- The call at the place `i` moves. -/
  | call (i : Nat) (m : Thread.Move)

/-- What the search for a token came to, once it is over. -/
def token? (s : Resolving) : Option (Except Error AuthToken) :=
  match s.stage with
  | .searching _ => none
  | .calling token _ => some token

/-- Whether all calls have ended. -/
def isOver (s : Resolving) : Bool :=
  match s.stage with
  | .searching _ => false
  | .calling _ calls => calls.all fun c => c.result?.isSome

def start (r : RemoteResolver) (explicit : Option String) (ds : List Descriptor) : Resolving :=
  ⟨.searching (.start (r.token Talk.send explicit ds)), []⟩

/-- The calls for dependencies, before they have done anything. -/
def callsOf (r : RemoteResolver) (found : Option AppContext) (ds : List Descriptor) (token : Except Error AuthToken) :
    List (Thread Outcome) :=
  ds.map fun d => .start ((d.plan (r.contextOr found) token).carryOut Talk.send r.config.apiBase d.key)

/-- One step of a resolution. -/
def step (r : RemoteResolver) (found : Option AppContext) (ds : List Descriptor) (s : Resolving) :
    Event → Option Resolving
  | .search m =>
    match s.stage with
    | .searching t => (t.move m).map fun p => ⟨.searching p.2, s.sent ++ p.1⟩
    | .calling .. => none
  | .spread =>
    match s.stage with
    | .searching t => t.result?.map fun token => ⟨.calling token (callsOf r found ds token), s.sent⟩
    | .calling .. => none
  | .call i m =>
    match s.stage with
    | .searching _ => none
    | .calling token calls =>
      calls[i]?.bind fun t => (t.move m).map fun p => ⟨.calling token (calls.set i p.2), s.sent ++ p.1⟩

/-- The resolution after some steps. -/
def run (r : RemoteResolver) (found : Option AppContext) (ds : List Descriptor) (s : Resolving) (es : List Event) :
    Option Resolving :=
  es.foldlM (step r found ds) s

/-- How many moves some calls may still make. -/
def movesLeft : List (Thread Outcome) → Nat
  | [] => 0
  | t :: calls => t.left + movesLeft calls

/-- How many steps a resolution may still make. -/
def left (ds : List Descriptor) (s : Resolving) : Nat :=
  match s.stage with
  | .searching t => t.left + 1 + 2 * ds.length
  | .calling _ calls => movesLeft calls

variable {r : RemoteResolver} {found : Option AppContext} {explicit : Option String} {ds : List Descriptor}
  {token : Except Error AuthToken} {calls : List (Thread Outcome)} {s s' : Resolving} {es : List Event}

/-- The question of the call for a dependency. -/
def questionOf (r : RemoteResolver) (found : Option AppContext) (token : Except Error AuthToken) (d : Descriptor) :
    Option HttpRequest :=
  token.toOption.bind fun t => d.question? (r.contextOr found) r.config.apiBase t.value

/-- Each call stands where its own question leaves it. -/
def Each (r : RemoteResolver) (found : Option AppContext) (token : Except Error AuthToken) (ds : List Descriptor)
    (calls : List (Thread Outcome)) : Prop :=
  List.Forall₂ (fun d t => t.Sent (questionOf r found token d)) ds calls

theorem each_callsOf (token : Except Error AuthToken) (ds : List Descriptor) :
    Each r found token ds (callsOf r found ds token) := by
  refine List.forall₂_map_right_iff.2 (List.forall₂_same.2 fun d _ => .before ?_)
  rw [questionOf, ← Descriptor.request?_plan]
  exact ResolutionPlan.sends_carryOut ..

theorem Each.set (h : Each r found token ds calls) {i : Nat} {t t' : Thread Outcome} (ht : calls[i]? = some t)
    (hsent : ∀ q?, t.Sent q? → t'.Sent q?) : Each r found token ds (calls.set i t') := by
  unfold Each at h ⊢
  induction h generalizing i with
  | nil => cases ht
  | cons hd hds ih =>
    cases i with
    | zero =>
      cases ht
      exact .cons (hsent _ hd) hds
    | succ i => exact .cons hd (ih ht)

theorem Each.exists_sent (h : Each r found token ds calls) {t : Thread Outcome} (ht : t ∈ calls) :
    ∃ q?, t.Sent q? := by
  unfold Each at h
  induction h with
  | nil => cases ht
  | cons hd _ ih =>
    rcases List.mem_cons.1 ht with rfl | ht
    · exact ⟨_, hd⟩
    · exact ih ht

theorem exists_set {i : Nat} {t : Thread Outcome} (ht : calls[i]? = some t) (t' : Thread Outcome) :
    ∃ l l', calls = l ++ t :: l' ∧ calls.set i t' = l ++ t' :: l' := by
  obtain ⟨hi, rfl⟩ := List.getElem?_eq_some_iff.1 ht
  obtain ⟨l, l', hcalls, -, hset⟩ := List.exists_of_set hi
  exact ⟨l, l', hcalls, hset⟩

theorem sent_set {i : Nat} {t t' : Thread Outcome} {qs : List HttpRequest} (ht : calls[i]? = some t)
    (hsent : t'.sent = t.sent ++ qs) :
    (calls.flatMap Thread.sent ++ qs).Perm ((calls.set i t').flatMap Thread.sent) := by
  obtain ⟨l, l', rfl, hset⟩ := exists_set ht t'
  rw [hset, List.flatMap_append, List.flatMap_append, List.flatMap_cons, List.flatMap_cons, hsent, List.append_assoc,
    List.append_assoc, List.append_assoc]
  exact (List.perm_append_comm.append_left _).append_left _

theorem movesLeft_append (l l' : List (Thread Outcome)) : movesLeft (l ++ l') = movesLeft l + movesLeft l' := by
  induction l with
  | nil => exact (Nat.zero_add _).symm
  | cons t l ih => rw [List.cons_append, movesLeft, movesLeft, ih, Nat.add_assoc]

theorem movesLeft_set {i : Nat} {t t' : Thread Outcome} (ht : calls[i]? = some t) (hleft : t'.left < t.left) :
    movesLeft (calls.set i t') < movesLeft calls := by
  obtain ⟨l, l', rfl, hset⟩ := exists_set ht t'
  rw [hset, movesLeft_append, movesLeft_append, movesLeft, movesLeft]
  omega

/-- Among the requests of the calls there are only those asked for, each at most once. -/
theorem Each.sublist (h : Each r found token ds calls) :
    (calls.flatMap Thread.sent).Sublist (ds.filterMap (questionOf r found token)) := by
  rw [List.filterMap_eq_flatMap_toList]
  unfold Each at h
  induction h with
  | nil => exact .refl _
  | cons hd _ ih => exact hd.sublist.append ih

theorem Each.sent_eq_nil (h : Each r found token ds calls) (hnone : ∀ d ∈ ds, questionOf r found token d = none) :
    calls.flatMap Thread.sent = [] := by
  have hsub := h.sublist
  rw [List.filterMap_eq_nil_iff.2 hnone] at hsub
  exact List.sublist_nil.1 hsub

/-- Calls that have ended have sent what was asked for. -/
theorem Each.eq_of_ended (h : Each r found token ds calls) (hended : ∀ t ∈ calls, t.result?.isSome = true) :
    calls.flatMap Thread.sent = ds.filterMap (questionOf r found token) := by
  rw [List.filterMap_eq_flatMap_toList]
  unfold Each at h
  induction h with
  | nil => rfl
  | cons hd _ ih =>
    obtain ⟨ht, hrest⟩ := List.forall_mem_cons.1 hended
    rw [List.flatMap_cons, List.flatMap_cons, hd.eq_of_result ht, ih hrest]

/-- What a resolution has sent: the exchange, as far as the search has come, and then the requests of the calls in any
order. -/
inductive Holds (r : RemoteResolver) (found : Option AppContext) (explicit : Option String) (ds : List Descriptor) :
    Resolving → Prop
  | searching {t : Thread (Except Error AuthToken)} (sent : t.Sent (r.exchangeRequest? explicit ds)) :
      Holds r found explicit ds ⟨.searching t, t.sent⟩
  | calling {token : Except Error AuthToken} {calls : List (Thread Outcome)} {gets : List HttpRequest}
      (each : Each r found token ds calls) (perm : gets.Perm (calls.flatMap Thread.sent)) :
      Holds r found explicit ds ⟨.calling token calls, (r.exchangeRequest? explicit ds).toList ++ gets⟩

theorem Holds.start (r : RemoteResolver) (found : Option AppContext) (explicit : Option String)
    (ds : List Descriptor) : Holds r found explicit ds (start r explicit ds) :=
  .searching (.before (r.sends_token explicit ds))

variable (r found) in
theorem movesLeft_callsOf (token : Except Error AuthToken) (ds : List Descriptor) :
    movesLeft (callsOf r found ds token) ≤ 2 * ds.length := by
  induction ds with
  | nil => exact Nat.le_refl 0
  | cons d ds ih =>
    have hd := Thread.left_le (.start ((d.plan (r.contextOr found) token).carryOut Talk.send r.config.apiBase d.key))
    rw [callsOf, List.map_cons, ← callsOf, movesLeft, List.length_cons]
    omega

theorem Holds.search {t : Thread (Except Error AuthToken)} (h : t.Sent (r.exchangeRequest? explicit ds))
    {m : Thread.Move} (hs : step r found ds ⟨.searching t, t.sent⟩ (.search m) = some s') :
    Holds r found explicit ds s' ∧ s'.left ds < left ds ⟨.searching t, t.sent⟩ := by
  obtain ⟨⟨qs, t'⟩, hm, rfl⟩ := Option.map_eq_some_iff.1 hs
  obtain ⟨hsent, hleft⟩ := h.move hm
  refine ⟨?_, ?_⟩
  · show Holds r found explicit ds ⟨.searching t', t.sent ++ qs⟩
    rw [← Thread.sent_move hm]
    exact .searching hsent
  · show t'.left + 1 + 2 * ds.length < t.left + 1 + 2 * ds.length
    omega

theorem Holds.spread {t : Thread (Except Error AuthToken)} (h : t.Sent (r.exchangeRequest? explicit ds))
    (hs : step r found ds ⟨.searching t, t.sent⟩ .spread = some s') :
    Holds r found explicit ds s' ∧ s'.left ds < left ds ⟨.searching t, t.sent⟩ := by
  obtain ⟨token, ht, rfl⟩ := Option.map_eq_some_iff.1 hs
  refine ⟨?_, ?_⟩
  · rw [h.eq_of_result (by rw [ht]; rfl), ← List.append_nil (Option.toList _)]
    refine .calling (each_callsOf token ds) ?_
    rw [callsOf, List.flatMap_map]
    simp [Thread.start]
  · have hle := movesLeft_callsOf r found token ds
    show movesLeft (callsOf r found ds token) < t.left + 1 + 2 * ds.length
    omega

theorem Holds.call {gets : List HttpRequest} (heach : Each r found token ds calls)
    (hgets : gets.Perm (calls.flatMap Thread.sent)) {i : Nat} {m : Thread.Move}
    (hs : step r found ds ⟨.calling token calls, (r.exchangeRequest? explicit ds).toList ++ gets⟩ (.call i m) =
      some s') :
    Holds r found explicit ds s' ∧ s'.left ds < movesLeft calls := by
  obtain ⟨t, ht, hs⟩ := Option.bind_eq_some_iff.1 hs
  obtain ⟨⟨qs, t'⟩, hm, rfl⟩ := Option.map_eq_some_iff.1 hs
  obtain ⟨q?, hq⟩ := heach.exists_sent (List.mem_of_getElem? ht)
  refine ⟨?_, movesLeft_set ht (hq.move hm).2⟩
  show Holds r found explicit ds ⟨.calling token (calls.set i t'), (_ ++ gets) ++ qs⟩
  rw [List.append_assoc]
  exact .calling (heach.set ht fun q? hq => (hq.move hm).1)
    ((hgets.append_right qs).trans (sent_set ht (Thread.sent_move hm)))

/-- Every step keeps what is known of the requests, and leaves fewer steps. -/
theorem Holds.step (h : Holds r found explicit ds s) {e : Event} (hs : step r found ds s e = some s') :
    Holds r found explicit ds s' ∧ s'.left ds < s.left ds := by
  cases h with
  | searching sent =>
    cases e with
    | search m => exact Holds.search sent hs
    | spread => exact Holds.spread sent hs
    | call i m => cases hs
  | calling each perm =>
    cases e with
    | search m => cases hs
    | spread => cases hs
    | call i m => exact Holds.call each perm hs

theorem Holds.run (h : Holds r found explicit ds s) (hs : run r found ds s es = some s') :
    Holds r found explicit ds s' ∧ s'.left ds + es.length ≤ s.left ds := by
  induction es generalizing s with
  | nil =>
    cases hs
    exact ⟨h, Nat.le_refl _⟩
  | cons e es ih =>
    obtain ⟨s₁, hs₁, hrest⟩ := Option.bind_eq_some_iff.1 hs
    obtain ⟨h₁, hlt⟩ := h.step hs₁
    obtain ⟨h', hle⟩ := ih h₁ hrest
    exact ⟨h', by rw [List.length_cons]; omega⟩

/-- A resolution that is not over can make a step. -/
theorem over_or_step (r : RemoteResolver) (found : Option AppContext) (ds : List Descriptor) (s : Resolving) :
    s.isOver = true ∨ ∃ e, (step r found ds s e).isSome = true := by
  obtain ⟨t | ⟨token, calls⟩, sent⟩ := s
  · refine .inr ?_
    rcases t.ended_or_move with ht | ⟨m, hm⟩
    · exact ⟨.spread, by rw [step, Option.isSome_map]; exact ht⟩
    · exact ⟨.search m, by rw [step, Option.isSome_map]; exact hm⟩
  · by_cases hall : ∀ t ∈ calls, t.result?.isSome = true
    · exact .inl (List.all_eq_true.2 hall)
    · push Not at hall
      obtain ⟨t, ht, hend⟩ := hall
      obtain ⟨m, hm⟩ := t.ended_or_move.resolve_left (by simp [hend])
      obtain ⟨i, hi⟩ := List.mem_iff_getElem?.1 ht
      exact .inr ⟨.call i m, by simpa [step, hi] using hm⟩

/-! ### One call after another -/

theorem run_append (s : Resolving) (es es' : List Event) :
    run r found ds s (es ++ es') = (run r found ds s es).bind fun s => run r found ds s es' :=
  List.foldlM_append

variable (r found ds) in
/-- A talk can be carried out to its end in any place where the moves of its thread are steps. -/
theorem exists_run_of_course {α : Type} (place : Thread α → List HttpRequest → Resolving)
    (hplace : ∀ t m p sent, t.move m = some p → ∃ e, step r found ds (place t sent) e = some (place p.2 (sent ++ p.1)))
    {t : Talk α} {qs : List HttpRequest} {a : α} (h : t.Course qs a) (own sent : List HttpRequest) :
    ∃ es, run r found ds (place ⟨.ready t, own⟩ sent) es = some (place ⟨.ready (.done a), own ++ qs⟩ (sent ++ qs)) := by
  induction h generalizing own sent with
  | done a => exact ⟨[], by rw [List.append_nil, List.append_nil]; rfl⟩
  | @ask q next answer qs a _ ih =>
    obtain ⟨go, hgo⟩ := hplace ⟨.ready (.ask q next), own⟩ .go _ sent rfl
    obtain ⟨hear, hhear⟩ := hplace ⟨.waiting next, own ++ [q]⟩ (.hear answer) _ (sent ++ [q]) rfl
    obtain ⟨es, hes⟩ := ih (own ++ [q]) (sent ++ [q])
    refine ⟨go :: hear :: es, ?_⟩
    rw [run, List.foldlM_cons, hgo]
    show (step r found ds _ hear).bind _ = _
    rw [hhear, List.append_nil]
    rw [List.append_assoc, List.append_assoc] at hes
    exact hes

variable (ds) in
theorem exists_run_of_calls {ds' : List Descriptor} {qs : List HttpRequest} {os : List Outcome}
    (h : (ds'.mapM fun (d : Descriptor) =>
      (d.plan (r.contextOr found) token).carryOut Talk.send r.config.apiBase d.key).Course qs os)
    (before : List (Thread Outcome)) (hbefore : ∀ t ∈ before, t.result?.isSome = true) (sent : List HttpRequest) :
    ∃ es calls, run r found ds ⟨.calling token (before ++ callsOf r found ds' token), sent⟩ es =
      some ⟨.calling token calls, sent ++ qs⟩ ∧ ∀ t ∈ calls, t.result?.isSome = true := by
  induction ds' generalizing before sent qs os with
  | nil =>
    cases h
    exact ⟨[], before, by rw [callsOf, List.map_nil, List.append_nil, List.append_nil]; rfl, hbefore⟩
  | cons d ds' ih =>
    rw [List.mapM_cons] at h
    obtain ⟨o, qs₁, qs', hone, hrest, rfl⟩ := h.of_bind
    obtain ⟨os', qs₂, qs₃, hothers, hlast, rfl⟩ := hrest.of_bind
    cases hlast
    rw [List.append_nil]
    obtain ⟨es, hes⟩ := exists_run_of_course r found ds
      (fun t sent => ⟨.calling token (before ++ t :: callsOf r found ds' token), sent⟩)
      (fun t m p sent hm => ⟨.call before.length m, by simp [step, hm]⟩) hone [] sent
    have hended : ∀ t ∈ before ++ [⟨.ready (.done o), [] ++ qs₁⟩], t.result?.isSome = true :=
      List.forall_mem_append.2 ⟨hbefore, List.forall_mem_singleton.2 rfl⟩
    obtain ⟨es', calls, hes', hcalls⟩ := ih hothers _ hended (sent ++ qs₁)
    refine ⟨es ++ es', calls, ?_, hcalls⟩
    rw [run_append, callsOf, List.map_cons, ← callsOf, Thread.start, hes, Option.bind_some]
    rw [List.append_assoc, List.append_assoc] at hes'
    exact hes'

/-- What the resolver itself sends is what one of these resolutions has sent when it is over. -/
theorem exists_run_of_resolve {qs : List HttpRequest} {answer : Except Error (List Remote) × RemoteResolver}
    (h : (r.resolve Talk.send found ⟨false, explicit⟩ ds).Course qs answer) :
    ∃ es s, run r found ds (start r explicit ds) es = some s ∧ s.isOver = true ∧ s.sent = qs := by
  obtain ⟨token, qs₁, qs', htoken, hrest, rfl⟩ := h.of_bind
  obtain ⟨os, qs₂, qs₃, houtcomes, hlast, rfl⟩ := hrest.of_bind
  cases hlast
  have hmapM : (ds.mapM fun (d : Descriptor) =>
      (d.plan (r.contextOr found) token).carryOut Talk.send r.config.apiBase d.key).Course qs₂ os := by
    rw [RemoteResolver.outcomes, if_neg Bool.false_ne_true, List.mapM_map] at houtcomes
    exact houtcomes
  obtain ⟨es, hes⟩ := exists_run_of_course r found ds (fun t sent => ⟨.searching t, sent⟩)
    (fun t m p sent hm => ⟨.search m, by simp [step, hm]⟩) htoken [] []
  obtain ⟨es', calls, hes', hcalls⟩ := exists_run_of_calls ds hmapM [] (List.forall_mem_nil _) qs₁
  refine ⟨es ++ .spread :: es', ⟨.calling token calls, qs₁ ++ qs₂⟩, ?_, List.all_eq_true.2 hcalls, by simp⟩
  rw [run_append, start, Thread.start, hes, Option.bind_some, run, List.foldlM_cons]
  exact hes'

end Resolving

/-! ### Questions that can be sent -/

theorem Config.resolveUrl_apiBase (c : Config) (uid version : String) :
    Registry.resolveUrl c.apiBase uid version = Registry.resolveUrl c.apiBaseUrl uid version := by
  have hbase : c.apiBase.toList = Text.dropEndWhile (· == '/') c.apiBaseUrl.toList := String.toList_ofList
  rw [← String.toList_inj, Registry.toList_resolveUrl, Registry.toList_resolveUrl, hbase, Text.dropEndWhile,
    Text.dropEndWhile, List.reverse_reverse, List.dropWhile_idempotent]

/-- The base of usable settings is a URL of a scheme that is spoken. -/
theorem Config.exists_parse_of_validate {c : Config} (h : c.validate = .ok ()) :
    ∃ u, Url.parse c.apiBaseUrl = .ok u ∧ u.scheme ∈ Http.schemes := by
  unfold validate at h
  split at h
  · cases h
  · rename_i u hu
    split at h
    · cases h
    · rename_i hscheme
      rw [Bool.not_eq_true', Bool.not_eq_false, Bool.or_eq_true, beq_iff_eq, beq_iff_eq] at hscheme
      exact ⟨u, hu, by simpa [Http.schemes] using hscheme⟩

/-- With usable settings, either every question can be put as a URL or none can: it depends on the base. -/
theorem Config.exists_parse_resolveUrl_iff {c : Config} (h : c.validate = .ok ()) (uid version : String) :
    ((∃ u, Url.parse (Registry.resolveUrl c.apiBase uid version) = .ok u) ↔
      ∃ u, Url.parse (c.apiBase ++ "/") = .ok u) ∧
    ∀ u, Url.parse (Registry.resolveUrl c.apiBase uid version) = .ok u → u.scheme ∈ Http.schemes := by
  obtain ⟨u, hu, hscheme⟩ := exists_parse_of_validate h
  have hnetwork := Registry.network_of_mem_schemes hscheme
  obtain ⟨x, hx, hbase⟩ := Text.exists_dropEndWhile (· == '/') c.apiBaseUrl.toList
  have hslashes : ∀ d ∈ x, d = '/' := fun d hd => beq_iff_eq.1 (hx d hd)
  rw [← String.ofList_toList (s := c.apiBaseUrl), hbase] at hu
  obtain ⟨a, r, hr⟩ := Url.exists_authority_of_base hu hnetwork hslashes
  have hquestion := hr _ (by rintro d ⟨⟩; rfl) (List.cons_ne_nil _ _) (@Registry.isEdge_components uid version)
  have hslash := hr ['/'] (by rintro d ⟨⟩; rfl) (List.cons_ne_nil _ _) (List.forall_mem_singleton.2 rfl)
  rw [← Registry.toList_resolveUrl, String.ofList_toList, ← resolveUrl_apiBase] at hquestion
  rw [String.ofList_append] at hslash
  refine ⟨⟨?_, ?_⟩, fun v hv => ?_⟩
  · rintro ⟨v, hv⟩
    obtain ⟨b, hb, -⟩ := (hquestion v).1 hv
    exact ⟨_, (hslash _).2 ⟨b, hb, rfl⟩⟩
  · rintro ⟨v, hv⟩
    obtain ⟨b, hb, -⟩ := (hslash v).1 hv
    exact ⟨_, (hquestion _).2 ⟨b, hb, rfl⟩⟩
  · obtain ⟨b, -, rfl⟩ := (hquestion v).1 hv
    rw [Url.scheme_afterAuthority]
    exact hscheme

/-- A base that is a URL takes a path if there is no white space and no control at its end. -/
theorem Config.exists_parse_of_last {c : Config} (h : c.validate = .ok ())
    (hlast : ∀ ch ∈ c.apiBase.toList.getLast?, Url.isEdge ch = false) : ∃ u, Url.parse (c.apiBase ++ "/") = .ok u := by
  obtain ⟨u, hu, hscheme⟩ := exists_parse_of_validate h
  rw [apiBase, String.toList_ofList] at hlast
  obtain ⟨a, ha⟩ := Registry.exists_parse_resolveUrl hu (Registry.network_of_mem_schemes hscheme) hlast
  refine (exists_parse_resolveUrl_iff h "" "").1.1 ?_
  rw [resolveUrl_apiBase]
  exact ⟨_, ha "" ""⟩

/-- A dependency is asked about if it is one for the registry, can be named, and its question is a URL. -/
theorem Descriptor.question?_eq_some_iff {c : Config} (h : c.validate = .ok ()) {token : String}
    (htoken : Http.isHeaderValue (Http.bearer token).2 = true) {d : Descriptor} {context : Option AppContext}
    {q : HttpRequest} : d.question? context c.apiBase token = some q ↔
      d.needsRegistry = true ∧ ∃ uid u, qualifyUid d.applicationUid context = .ok uid ∧
        Url.parse (Registry.resolveUrl c.apiBase uid (requestedVersion d.version)) = .ok u ∧
        q = ⟨"GET", u, [("user-agent", Http.userAgent), Http.bearer token], none⟩ := by
  unfold question?
  split
  · rename_i hneeds
    cases huid : qualifyUid d.applicationUid context with
    | error e => exact iff_of_false nofun (by rintro ⟨-, uid, u, ⟨⟩, -⟩)
    | ok uid =>
      cases hu : Url.parse (Registry.resolveUrl c.apiBase uid (requestedVersion d.version)) with
      | error e =>
        dsimp only
        rw [Http.request?, hu]
        refine iff_of_false nofun ?_
        rintro ⟨-, uid, u, ⟨⟩, hparse, -⟩
        rw [hu] at hparse
        cases hparse
      | ok u =>
        have hscheme := (Config.exists_parse_resolveUrl_iff h uid (requestedVersion d.version)).2 u hu
        dsimp only
        rw [Http.request?_of_parse hu hscheme (List.forall_mem_singleton.2 htoken)]
        constructor
        · rintro ⟨⟩
          exact ⟨hneeds, uid, u, rfl, hu, rfl⟩
        · rintro ⟨-, uid, v, ⟨⟩, hv, rfl⟩
          rw [hu] at hv
          cases hv
          rfl
  · rename_i hlocal
    exact iff_of_false nofun fun h => hlocal h.1

namespace Resolving
variable {r : RemoteResolver} {found : Option AppContext} {explicit : Option String} {ds : List Descriptor}
  {s : Resolving} {es : List Event}

/-- If no dependency needs the registry, there is no request. -/
theorem Holds.sent_eq_nil (h : Holds r found explicit ds s) (hds : ∀ d ∈ ds, d.needsRegistry = false) :
    s.sent = [] := by
  have hexchange : r.exchangeRequest? explicit ds = none := if_neg (by simpa using hds)
  cases h with
  | searching sent =>
    rw [hexchange] at sent
    exact List.sublist_nil.1 sent.sublist
  | @calling token calls gets each perm =>
    have hnone (d : Descriptor) (hd : d ∈ ds) : questionOf r found token d = none := by
      cases token with
      | error e => rfl
      | ok t => exact Descriptor.question?_of_local (hds d hd) t.value
    rw [each.sent_eq_nil hnone, List.perm_nil] at perm
    show (r.exchangeRequest? explicit ds).toList ++ gets = []
    rw [hexchange, perm]
    rfl

/-- What has been sent: at most one exchange, and behind it the questions of the calls. -/
theorem Holds.exists_posts_gets (h : Holds r found explicit ds s) : ∃ posts gets, s.sent = posts ++ gets ∧
    posts.length ≤ 1 ∧ (∀ q ∈ posts, r.exchangeRequest? explicit ds = some q) ∧
    ((∀ t, s.token? ≠ some (.ok t)) → gets = []) ∧
    ∀ t, s.token? = some (.ok t) →
      let questions := ds.filterMap fun d => d.question? (r.contextOr found) r.config.apiBase t.value
      gets.Subperm questions ∧ (s.isOver = true → gets.Perm questions) := by
  cases h with
  | @searching t sent =>
    have hsub := sent.sublist
    refine ⟨t.sent, [], (List.append_nil _).symm, ?_, fun q hq => ?_, fun _ => rfl, fun t ht => nomatch ht⟩
    · exact hsub.length_le.trans Option.length_toList_le
    · exact Option.mem_toList.1 (hsub.subset hq)
  | @calling token calls gets each perm =>
    refine ⟨_, gets, rfl, Option.length_toList_le, fun q hq => Option.mem_toList.1 hq, fun hno => ?_, fun t ht => ?_⟩
    · cases token with
      | ok t => exact absurd rfl (hno t)
      | error e =>
        rw [each.sent_eq_nil fun _ _ => rfl, List.perm_nil] at perm
        exact perm
    · cases ht
      refine ⟨perm.subperm.trans ?_, fun hover => perm.trans ?_⟩
      · exact each.sublist.subperm
      · rw [each.eq_of_ended (List.all_eq_true.1 hover)]
        rfl

/-- Leniently, dependencies are resolved by calls that run together, and their requests are sent and answered in any
order. There is no request if no dependency needs the registry. Otherwise there is at most one exchange of a server
token, before anything else. Without a token nothing is asked of the registry. With one, the questions are asked, each
once and in the end all of them; every dependency has its own, with the same token. A dependency that does not need the
registry or cannot be named has none. If the token can be sent, the others have theirs exactly if the base is still a
URL with a slash behind it, which it is unless there is white space or a control at its end. A resolution that is not
over can go on, though not forever, and what the resolver itself sends is what one of these sends. -/
theorem requests_of_run (r : RemoteResolver) (found : Option AppContext) (explicit : Option String)
    (ds : List Descriptor) (es : List Event) (s : Resolving) (h : run r found ds (start r explicit ds) es = some s) :
    let question? (token : String) (d : Descriptor) := d.question? (r.contextOr found) r.config.apiBase token
    ((∀ d ∈ ds, d.needsRegistry = false) → s.sent = []) ∧
    (∃ posts gets, s.sent = posts ++ gets ∧ posts.length ≤ 1 ∧ (∀ q ∈ posts, r.exchangeRequest? explicit ds = some q) ∧
      ((∀ t, s.token? ≠ some (.ok t)) → gets = []) ∧
      ∀ t, s.token? = some (.ok t) →
        gets.Subperm (ds.filterMap (question? t.value)) ∧
        (s.isOver = true → gets.Perm (ds.filterMap (question? t.value)))) ∧
    (∀ token d, d.needsRegistry = false ∨ (∃ e, qualifyUid d.applicationUid (r.contextOr found) = .error e) →
      question? token d = none) ∧
    (r.config.validate = .ok () →
      (∀ token, Http.isHeaderValue (Http.bearer token).2 = true → ∀ d q, question? token d = some q ↔
        d.needsRegistry = true ∧ ∃ uid u, qualifyUid d.applicationUid (r.contextOr found) = .ok uid ∧
          Url.parse (Registry.resolveUrl r.config.apiBase uid (requestedVersion d.version)) = .ok u ∧
          q = ⟨"GET", u, [("user-agent", Http.userAgent), Http.bearer token], none⟩) ∧
      (∀ uid version, (∃ u, Url.parse (Registry.resolveUrl r.config.apiBase uid version) = .ok u) ↔
        ∃ u, Url.parse (r.config.apiBase ++ "/") = .ok u) ∧
      ((∀ c ∈ r.config.apiBase.toList.getLast?, Url.isEdge c = false) →
        ∃ u, Url.parse (r.config.apiBase ++ "/") = .ok u)) ∧
    (s.isOver = true ∨ ∃ e, (step r found ds s e).isSome = true) ∧ es.length ≤ 2 * ds.length + 3 ∧
    ∀ qs answer, (r.resolve Talk.send found ⟨false, explicit⟩ ds).Course qs answer →
      ∃ es s, run r found ds (start r explicit ds) es = some s ∧ s.isOver = true ∧ s.sent = qs := by
  intro question?
  obtain ⟨hholds, hleft⟩ := (Holds.start r found explicit ds).run h
  refine ⟨hholds.sent_eq_nil, hholds.exists_posts_gets, fun token d => Descriptor.question?_eq_none _ token, ?_,
    over_or_step r found ds s, ?_, fun qs answer => exists_run_of_resolve⟩
  · intro hvalid
    exact ⟨fun token htoken d q => Descriptor.question?_eq_some_iff hvalid htoken,
      fun uid version => (Config.exists_parse_resolveUrl_iff hvalid uid version).1, Config.exists_parse_of_last hvalid⟩
  · have htwo := Thread.left_le (.start (r.token Talk.send explicit ds))
    have hstart : (start r explicit ds).left ds =
        (Thread.start (r.token Talk.send explicit ds)).left + 1 + 2 * ds.length := rfl
    omega

/-- Of five dependencies the registry is asked for the last two, in the other order, with the token of the exchange: one
belongs to another registry, one has its URL, and one cannot be named without a context. -/
theorem requests_of_run_of_five :
    let r : RemoteResolver := ⟨Config.default, ⟨[("ZE_SERVER_TOKEN", "server"), ("ZE_USER_EMAIL", "a@b.c")]⟩, none⟩
    let ds : List Descriptor := [.parse "ui" "npm:design-system@2.0.0", .parse "nav" "https://cdn.acme.dev/nav.js",
      .parse "orders" "orders@1.0.0", .parse "cart.shop.acme" "workspace:*", .parse "ads" "ads.shop.acme@2.0.0"]
    let token : HttpResponse := ⟨200, "\x7b\"token\":\"t0k\"\x7d".toList.map fun c => UInt8.ofNat c.toNat⟩
    let es : List Event := [.search .go, .search (.hear (some token)), .spread, .call 4 .go, .call 3 .go,
      .call 4 (.hear none), .call 3 (.hear (some ⟨404, []⟩))]
    let lines := [("POST", "https://api.zephyr-cloud.io/v2/auth/server-token/exchange",
        ["zephyr-core/0.1.0", "application/json"]),
      ("GET", "https://api.zephyr-cloud.io/resolve/ads.shop.acme/2.0.0", ["zephyr-core/0.1.0", "Bearer t0k"]),
      ("GET", "https://api.zephyr-cloud.io/resolve/cart.shop.acme/%2A", ["zephyr-core/0.1.0", "Bearer t0k"])]
    ∃ s posts gets, run r none ds (start r none ds) es = some s ∧ s.sent = posts ++ gets ∧ posts.length ≤ 1 ∧
      (s.sent.map fun q => (q.method, q.url.text, q.headers.map (·.2))) = lines := by
  intro r ds token es lines
  have hrun : (run r none ds (start r none ds) es).map (fun s =>
      (s.sent.map fun q => (q.method, q.url.text, q.headers.map (·.2)))) = some lines := by
    decide +kernel
  obtain ⟨s, hs, hsent⟩ := Option.map_eq_some_iff.1 hrun
  obtain ⟨-, ⟨posts, gets, hposts, hlength, -⟩, -⟩ := requests_of_run r none none ds es s hs
  exact ⟨s, posts, gets, hs, hposts, hlength, hsent⟩

/-- A base with a control at its end is taken as a setting, since it can be read as a URL. But with a path behind it it
cannot, so the resolution is over without a request although it has a token for the dependency. -/
theorem question_lost_behind_control :
    let env : Environment := ⟨[("ZE_API", "https://api.x.io\x01")]⟩
    let d : Descriptor := .parse "cart.shop.acme" "1.0.0"
    let token : AuthToken := ⟨"tok", .explicit⟩
    d.needsRegistry = true ∧ qualifyUid d.applicationUid none = .ok "cart.shop.acme" ∧
      Http.isHeaderValue (Http.bearer token.value).2 = true ∧
      ∃ r s, (Config.ofEnvironment env).bind (RemoteResolver.ofConfig · env) = .ok r ∧ r.config.validate = .ok () ∧
        run r none [d] (start r (some "tok") [d]) [.spread] = some s ∧ s.isOver = true ∧
        s.token? = some (.ok token) ∧ s.sent = [] := by
  intro env d token
  let c : Config := ⟨"https://api.x.io\x01", Config.default.tokenExchangePath, 30, Manifest.defaultFileName⟩
  let r : RemoteResolver := ⟨c, env, none⟩
  have hvalid : c.validate = .ok () := eq_ok_of_toOption (by decide +kernel)
  have hconfig : Config.ofEnvironment env = .ok c := eq_ok_of_toOption (by decide +kernel)
  have hr : (Config.ofEnvironment env).bind (RemoteResolver.ofConfig · env) = .ok r := by
    rw [hconfig]
    show (c.validate.bind fun _ => _) = _
    rw [hvalid]
    rfl
  have hrun : (run r none [d] (start r (some "tok") [d]) [.spread]).map (fun s =>
      (s.isOver, s.token?.bind (·.toOption), s.sent.isEmpty)) = some (true, some token, true) := by
    decide +kernel
  obtain ⟨s, hs, hend⟩ := Option.map_eq_some_iff.1 hrun
  obtain ⟨hover, htoken, hsent⟩ : s.isOver = true ∧ s.token?.bind (·.toOption) = some token ∧ s.sent.isEmpty = true := by
    simpa using hend
  refine ⟨by decide +kernel, qualifyUid_eq_ok.2 (.inl ⟨by decide +kernel, rfl⟩), by decide +kernel, r, s, hr, hvalid,
    hs, hover, ?_, List.isEmpty_iff.1 hsent⟩
  obtain ⟨t, ht, hok⟩ := Option.bind_eq_some_iff.1 htoken
  rw [ht, eq_ok_of_toOption hok]

end Resolving

end Federation
