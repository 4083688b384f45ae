import Federation.Proofs.Simulation.Shown
import Federation.Simulation.Poll

/-!
# What a world does, fleets can do

In a world, calls go on in the order that virtual time gives them. Whatever is done in it, calls one by one, together
or by pollers, the clients of a cache do what a fleet can do in some run (`exists_run_showing`); so what holds of every
run of a fleet holds of worlds. The exception is a manifest that is stored in the cache from outside, which has no
counterpart in a fleet.

A step in the world takes calls that wait and leaves calls that wait. `Keeps` says of a step that fleets can go along
with it, where other calls may wait meanwhile, and `Tries` says so of a step that may fail. Both are closed under
`bind`, so that the proofs follow the definitions of the steps.
-/

namespace Federation

namespace World
variable {α β : Type} {k i : Nat} {w w' : World} {p : PlacedClient} {ms : List Fleet.Member}
  {pre ws : List WaitingCall} {x : WaitingCall}

/-- A fleet that starts with some members can come to show the world. -/
def Led (k : Nat) (ms : List Fleet.Member) (w : World) (ws : List WaitingCall) : Prop :=
  ∃ as s, (Fleet.start ms).run as = some s ∧ (w.view k).ShownBy ws s

theorem Led.of_view {ws' : List WaitingCall} (h : Led k ms w ws) (hview : w'.view k = w.view k)
    (hws : ws'.Subperm ws) : Led k ms w' ws' := by
  obtain ⟨as, s, hs, hshown⟩ := h
  exact ⟨as, s, hs, hview ▸ hshown.of_subperm hws⟩

/-! ### Steps that fleets go along with -/

/-- After the step, fleets can still show the world: of the calls that wait, the step takes some and leaves others. -/
def Keeps (k : Nat) (ms : List Fleet.Member) (m : StateM World α) (pre : List WaitingCall)
    (post : α → List WaitingCall) : Prop :=
  ∀ w ws, Led k ms w (pre ++ ws) → Led k ms (m.run w).2 (post (m.run w).1 ++ ws)

namespace Keeps
variable {m : StateM World α} {f : α → StateM World β} {post : β → List WaitingCall}

protected theorem pure {b : β} (h : (post b).Sublist pre) : Keeps k ms (pure b) pre post :=
  fun _ ws hw => hw.of_view rfl (h.append (.refl ws)).subperm

protected theorem bind {q : α → List WaitingCall} (hm : Keeps k ms m pre q)
    (hf : ∀ a, Keeps k ms (f a) (q a) post) : Keeps k ms (m >>= f) pre post :=
  fun w ws hw => hf _ _ ws (hm w ws hw)

/-- A step of which nothing is in view takes no call. -/
theorem of_view (hm : ∀ w, (m.run w).2.view k = w.view k) : Keeps k ms m pre fun _ => pre :=
  fun w _ hw => hw.of_view (hm w) (.refl _)

/-- Other calls that wait go on waiting. -/
theorem frame {q : α → List WaitingCall} (h : Keeps k ms m pre q) (others : List WaitingCall) :
    Keeps k ms m (pre ++ others) fun a => q a ++ others := by
  intro w ws hw
  rw [List.append_assoc] at hw ⊢
  exact h w _ hw

theorem perm {q q' : α → List WaitingCall} {pre' : List WaitingCall} (h : Keeps k ms m pre q) (hpre : pre.Perm pre')
    (hq : ∀ a, (q' a).Perm (q a)) : Keeps k ms m pre' q' :=
  fun w ws hw => (h w ws (hw.of_view rfl (hpre.append_right ws).subperm)).of_view rfl
    ((hq _).append_right ws).subperm

end Keeps

/-- After a step that may fail, fleets can still show the world. If it fails, the calls that it took are given up. -/
def Tries (k : Nat) (ms : List Fleet.Member) (m : WorldM α) (pre : List WaitingCall) (post : α → List WaitingCall) :
    Prop :=
  Keeps k ms (attempt m) pre fun a => a.elim [] post

namespace Tries
variable {m : WorldM α} {f : α → WorldM β} {post : β → List WaitingCall}

protected theorem pure {b : β} (h : (post b).Sublist pre) : Tries k ms (pure b) pre post := Keeps.pure h

protected theorem bind {q : α → List WaitingCall} (hm : Tries k ms m pre q)
    (hf : ∀ a, Tries k ms (f a) (q a) post) : Tries k ms (m >>= f) pre post := by
  unfold Tries attempt
  rw [OptionT.run_bind]
  refine Keeps.bind hm fun a => ?_
  cases a with
  | none => exact .pure (.refl [])
  | some a => exact hf a

theorem led {post : α → List WaitingCall} (h : Tries k ms m pre post) (hw : Led k ms w (pre ++ ws)) :
    Led k ms (after m w).2 ((after m w).1.elim [] post ++ ws) :=
  h w ws hw

theorem of_led {post : α → List WaitingCall} (h : ∀ {w ws}, Led k ms w (pre ++ ws) →
    Led k ms (after m w).2 ((after m w).1.elim [] post ++ ws)) : Tries k ms m pre post :=
  fun _ _ hw => h hw

end Tries

theorem Unseen.tries {m : WorldM α} (h : Unseen k m) {post : α → List WaitingCall} (hpost : ∀ a, (post a).Sublist pre) :
    Tries k ms m pre post := by
  refine .of_led fun {w ws} hw => hw.of_view (h w) (List.Sublist.append ?_ (.refl ws)).subperm
  cases (after m w).1 with
  | none => exact List.nil_sublist pre
  | some a => exact hpost a

/-- A step of which nothing is in view, before one that fleets go along with. -/
theorem Unseen.before {m : WorldM α} {f : α → WorldM β} {post : β → List WaitingCall} (hm : Unseen k m)
    (hf : ∀ a, Tries k ms (f a) pre post) : Tries k ms (m >>= f) pre post :=
  .bind (q := fun _ => pre) (hm.tries fun _ => .refl pre) hf

/-! ### Calls that begin -/

/-- The calls that wait when one has been begun. -/
def Progress.calls : Progress → List WaitingCall
  | .waiting x => [x]
  | .done _ => []

theorem tries_beginClient (call : ClientCall) (i : Nat) (onward : Continuation) :
    Tries k ms (beginClient call i onward) [] Progress.calls := by
  refine .of_led fun {w ws} h => ?_
  by_cases hnone : ∀ p, w.clients[i]? = some p → w.caches[p.cache]? = none
  · rw [after_beginClient_none hnone]
    exact h
  push Not at hnone
  obtain ⟨p, hp, hc⟩ := hnone
  obtain ⟨c, hc⟩ := Option.ne_none_iff_exists'.1 hc
  rcases hl : p.client.begin call c with ⟨m | t, cache⟩
  · have hproceed : Tries k ms (proceed (some m) onward >>= fun a => pure (Progress.done a)) [] Progress.calls :=
      (unseen_proceed (some m) onward).before fun a => .pure (.refl [])
    rw [after_beginClient_cached hp hc hl]
    exact hproceed.led h
  obtain ⟨f, script, hf, hgeneration, -, hw⟩ := after_beginClient_waiting hp hc onward hl
  have hview := view_begun (k := k) hc cache hf script t.initiated
  obtain ⟨as, s, hs, hshown⟩ := h
  rw [hw]
  by_cases hk : p.cache = k
  · rw [if_pos hk] at hview
    obtain rfl := hshown.eq_cache (hk ▸ hc)
    obtain ⟨s', hs', hnext⟩ := hshown.begin (clientOf_eq_some.2 ⟨p, hp, hk, rfl⟩) ((p.client.begin_bare ..).trans hl)
      onward hgeneration
    refine ⟨as ++ [.begin i call], s', ?_, ?_⟩
    · rw [Fleet.run_append, hs]
      exact Fleet.run_cons.2 ⟨s', hs', rfl⟩
    · dsimp only
      rw [hview]
      exact hnext
  · rw [if_neg hk] at hview
    refine ⟨as, s, hs, ?_⟩
    dsimp only
    rw [hview]
    exact hshown.of_unseen (clientOf_of_ne hp hk)

/-- What is done with the subscriptions of a client is not in view. -/
theorem tries_onClient {f : ManifestClient → ManifestClient} (hf : ∀ c, (f c).bare = c.bare)
    {g : PlacedClient → WorldM β} {post : β → List WaitingCall} (hg : ∀ p, Tries k ms (g p) [] post) :
    Tries k ms (getClient i >>= fun p => setClient i (f p.client) >>= fun _ => g p) [] post := by
  refine .of_led fun {w ws} h => ?_
  rw [after_bind, after_getClient]
  cases hp : w.clients[i]? with
  | none => exact h
  | some p =>
    dsimp only
    rw [after_bind]
    exact (hg p).led (h.of_view (view_bare hp (hf p.client)) (.refl ws))

theorem tries_cacheClear (i : Nat) (uid : String) : Tries k ms (begin (.cacheClear i uid)) [] Progress.calls := by
  refine .of_led fun {w ws} h => ?_
  rw [begin, after_bind, after_getCache]
  cases hc : w.caches[i]? with
  | none => exact h
  | some c =>
    have hview := view_setCache (k := k) hc (c.clear uid)
    show Led k ms { w with caches := w.caches.set i (c.clear uid) } ws
    by_cases hik : i = k
    · rw [if_pos hik] at hview
      obtain ⟨as, s, hs, hshown⟩ := h
      obtain rfl := hshown.eq_cache (hik ▸ hc)
      refine ⟨as ++ [.clear uid], { s with cache := s.cache.clear uid }, ?_, ?_⟩
      · rw [Fleet.run_append, hs]
        rfl
      · rw [hview]
        exact { hshown with cache := rfl }
    · rw [if_neg hik] at hview
      exact h.of_view hview (.refl ws)

/-- A call that stores a manifest in the cache, which nobody in a fleet does. -/
def Stores (k : Nat) (call : WorldCall) : Prop := ∃ uid m, call = .cacheSet k uid m

theorem tries_begin {call : WorldCall} (h : ¬ Stores k call) : Tries k ms (begin call) [] Progress.calls := by
  have hdone (a : WorldAnswer) : Tries k ms (pure (Progress.done a)) [] Progress.calls := .pure (.refl [])
  cases call with
  | client call i => exact tries_beginClient call i .answer
  | plugin call i => exact (unseen_getPlugin i).before fun p => tries_beginClient call p.client .answer
  | redirect i r =>
    refine (unseen_getPlugin i).before fun p => ?_
    split
    · exact tries_beginClient _ _ _
    · exact hdone _
  | cacheReady i uid => exact (unseen_getCache i).before fun _ => hdone _
  | cacheSet i uid m =>
    have hi : i ≠ k := by
      rintro rfl
      exact h ⟨uid, m, rfl⟩
    exact (unseen_getCache i).before fun c => (unseen_setCache hi _).before fun _ => hdone _
  | cacheClear i uid => exact tries_cacheClear i uid
  | cacheState i uid => exact (unseen_getCache i).before fun _ => hdone _
  | overrideSet i uid url =>
    exact (unseen_getOverrides i).before fun o => (unseen_setOverrides i _).before fun _ => hdone _
  | overrideGet i uid => exact (unseen_getOverrides i).before fun _ => hdone _
  | overrideRemove i uid =>
    exact (unseen_getOverrides i).before fun o => (unseen_setOverrides i _).before fun _ => hdone _
  | overrideClear i => exact (unseen_getOverrides i).before fun _ => (unseen_setOverrides i _).before fun _ => hdone _
  | info i j => exact (unseen_getPlugin i).before fun _ => (unseen_getClient j).before fun _ => hdone _
  | subscribe i =>
    refine tries_onClient (f := fun c => c.subscribe.2) (fun c => rfl) fun p => unseen_get.before fun w => ?_
    exact Unseen.before (m := modify _) (fun _ => rfl) fun _ => hdone _
  | drain j =>
    refine Unseen.before (m := fun w => (w.subscribers[j]?, w)) (fun _ => rfl) fun r => ?_
    exact tries_onClient (f := fun c => (c.drain r.2).2) (fun c => c.bare_drain r.2) fun p =>
      hdone (.messages (p.client.drain r.2).1)

/-! ### Calls that end -/

theorem tries_conclude (x : WaitingCall) : Tries k ms (conclude x) [x] fun _ => [] := by
  refine .of_led fun {w ws} h => ?_
  by_cases hnone : ∀ p f c, w.clients[x.client]? = some p →
      (w.fetches.find? fun f => f.cache == p.cache && f.generation == x.ticket.generation) = some f →
      w.caches[p.cache]? ≠ some c
  · rw [after_conclude_none hnone]
    exact h.of_view rfl (List.sublist_cons_self x ws).subperm
  push Not at hnone
  obtain ⟨p, f, c, hp, hf, hc⟩ := hnone
  have hproceed : Tries k ms (proceed (ManifestClient.answer f.outcome) x.onward) [] fun _ => [] :=
    (unseen_proceed _ x.onward).tries fun _ => .refl []
  have hview := view_concluded (k := k) hp hc (c.settle p.client.applicationUid x.ticket.generation f.outcome).2
    (p.client.report x.call x.ticket f.outcome).2 (p.client.report x.call x.ticket f.outcome).1
  rw [after_conclude hp hf hc]
  refine hproceed.led ?_
  obtain ⟨as, s, hs, hshown⟩ := h
  by_cases hk : p.cache = k
  · rw [if_pos hk] at hview
    obtain rfl := hshown.eq_cache (hk ▸ hc)
    have hfetch : (w.view k).fetches.find? (·.generation = x.ticket.generation) = some f := by
      show (w.fetches.filter _).find? _ = _
      rw [List.find?_filter, ← hf, hk]
      exact congrArg (List.find? · w.fetches) (funext fun f => by simp [Bool.beq_eq_decide_eq])
    obtain ⟨as', s', hs', hshown'⟩ := hshown.conclude ((Fleet.Tracked.start ms).run hs)
      (clientOf_eq_some.2 ⟨p, hp, hk, rfl⟩) hfetch
    refine ⟨as ++ as', s', by rw [Fleet.run_append, hs]; exact hs', ?_⟩
    rw [hview]
    rw [ManifestClient.report_bare] at hshown'
    exact hshown'
  · rw [if_neg hk] at hview
    exact Led.of_view ⟨as, s, hs, hshown⟩ hview (List.sublist_cons_self x ws).subperm

theorem tries_run {call : WorldCall} (h : ¬ Stores k call) : Tries k ms (run call) [] fun _ => [] := by
  refine .bind (tries_begin h) fun r => ?_
  cases r with
  | done a => exact .pure (.refl [])
  | waiting x => exact (unseen_arrivalOf x).before fun t => (unseen_advance t).before fun _ => tries_conclude x

/-! ### Calls that are made together -/

/-- The calls among several that wait. -/
def Member.calls : Member → List WaitingCall
  | .waiting _ x => [x]
  | .toStart _ _ | .done _ => []

theorem keeps_tryConclude (x : WaitingCall) : Keeps k ms (tryConclude x) [x] Member.calls := by
  refine .bind (.of_view (unseen_arrivalOf x)) fun t => ?_
  cases t with
  | none => exact .pure (List.nil_sublist [x])
  | some t =>
    refine .bind (m := get) (.of_view fun w => rfl) fun w => ?_
    split
    · exact .bind (tries_conclude x) fun a => .pure (List.nil_sublist _)
    · exact .pure (.refl [x])

/-- A call that is still to be started stores nothing in the cache. -/
def Member.Calm (k : Nat) : Member → Prop
  | .toStart _ call => ¬ Stores k call
  | .waiting _ _ | .done _ => True

theorem keeps_goOn {m : Member} (h : m.Calm k) : Keeps k ms (goOn m) m.calls Member.calls := by
  refine .bind (m := get) (.of_view fun w => rfl) fun w => ?_
  cases m with
  | toStart t call =>
    dsimp only
    split
    · exact .pure (.refl [])
    · refine .bind (tries_begin h) fun r => ?_
      rcases r with _ | (x | a)
      · exact .pure (.refl [])
      · exact keeps_tryConclude x
      · exact .pure (.refl [])
  | waiting t x =>
    dsimp only
    split
    · exact .pure (.refl [x])
    · exact keeps_tryConclude x
  | done a => exact .pure (.refl [])

/-- In every world, the result of a step is one of these. -/
def Gives (P : α → Prop) (m : StateM World α) : Prop := ∀ w, P (m.run w).1

namespace Gives
variable {P : α → Prop} {Q : β → Prop} {m : StateM World α} {f : α → StateM World β}

protected theorem pure {a : α} (h : P a) : Gives P (pure a) := fun _ => h

protected theorem bind (hm : Gives P m) (hf : ∀ a, P a → Gives Q (f a)) : Gives Q (m >>= f) :=
  fun w => hf _ (hm w) _

theorem bind_any (hf : ∀ a, Gives Q (f a)) : Gives Q (m >>= f) := fun _ => hf _ _

end Gives

theorem calm_tryConclude (x : WaitingCall) : Gives (Member.Calm k) (tryConclude x) := by
  refine .bind_any fun t => ?_
  cases t with
  | none => exact .pure trivial
  | some t =>
    refine .bind_any fun w => ?_
    split
    · exact .bind_any fun a => .pure trivial
    · exact .pure trivial

theorem calm_goOn {m : Member} (h : m.Calm k) : Gives (Member.Calm k) (goOn m) := by
  refine .bind_any fun w => ?_
  cases m with
  | toStart t call =>
    dsimp only
    split
    · exact .pure h
    · refine .bind_any fun r => ?_
      rcases r with _ | (x | a)
      · exact .pure trivial
      · exact calm_tryConclude x
      · exact .pure trivial
  | waiting t x =>
    dsimp only
    split
    · exact .pure h
    · exact calm_tryConclude x
  | done a => exact .pure h

theorem calm_goOnAll {l : List Member} (h : ∀ m ∈ l, m.Calm k) (i : Nat) :
    Gives (fun r => ∀ m ∈ r.1, m.Calm k) (goOnAll i l) := by
  induction l generalizing i with
  | nil => exact .pure (List.forall_mem_nil _)
  | cons m l ih =>
    obtain ⟨hm, hl⟩ := List.forall_mem_cons.1 h
    exact .bind (calm_goOn hm) fun m' hm' => .bind (ih hl (i + 1)) fun r hr =>
      .pure (List.forall_mem_cons.2 ⟨hm', hr⟩)

theorem keeps_goOnAll {l : List Member} (h : ∀ m ∈ l, m.Calm k) (i : Nat) :
    Keeps k ms (goOnAll i l) (l.flatMap Member.calls) fun r => r.1.flatMap Member.calls := by
  induction l generalizing i with
  | nil => exact .pure (.refl [])
  | cons m l ih =>
    obtain ⟨hm, hl⟩ := List.forall_mem_cons.1 h
    rw [List.flatMap_cons]
    refine .bind ((keeps_goOn hm).frame _) fun m' => ?_
    -- the call that went on waits, or not, while the others go on
    refine .bind (q := fun r => (m' :: r.1).flatMap Member.calls)
      (((ih hl (i + 1)).frame m'.calls).perm List.perm_append_comm fun r => ?_) fun r => .pure (.refl _)
    rw [List.flatMap_cons]
    exact List.perm_append_comm

theorem keeps_finishAll {l : List Member} (h : ∀ m ∈ l, m.Calm k) (fuel : Nat) :
    Keeps k ms (finishAll fuel l) (l.flatMap Member.calls) fun r => r.1.flatMap Member.calls := by
  induction fuel generalizing l with
  | zero => exact .pure (.refl _)
  | succ fuel ih =>
    rw [finishAll]
    split
    · exact .pure (.refl _)
    · refine .bind (.of_view fun w => rfl) fun _ => ?_
      intro w ws hw
      have hcalm := calm_goOnAll h 0 w
      exact Keeps.bind (ih hcalm) (fun r' => .pure (.refl _)) _ ws (keeps_goOnAll h 0 w ws hw)

theorem keeps_together {calls : List (Nat × WorldCall)} (h : ∀ c ∈ calls, ¬ Stores k c.2) :
    Keeps k ms (together calls) [] fun _ => [] := by
  refine .bind (m := get) (.of_view fun w => rfl) fun w => ?_
  have hcalm : ∀ m ∈ calls.map (fun c => Member.toStart (w.now + c.1) c.2), m.Calm k := List.forall_mem_map.2 h
  have hnone : (calls.map fun c => Member.toStart (w.now + c.1) c.2).flatMap Member.calls = [] := by
    rw [List.flatMap_map]
    exact List.flatMap_eq_nil_iff.2 fun c _ => rfl
  have hfinish : Keeps k ms _ _ _ := keeps_finishAll hcalm (2 * calls.length + 1)
  rw [hnone] at hfinish
  exact .bind hfinish fun r => .pure (List.nil_sublist _)

/-! ### Pollers -/

theorem tries_ticks (i interval stop fuel due : Nat) : Tries k ms (ticks i interval stop fuel due) [] fun _ => [] := by
  induction fuel generalizing due with
  | zero => exact .pure (.refl [])
  | succ fuel ih =>
    have hrefresh : ¬ Stores k (.client .refresh i) := by rintro ⟨uid, m, ⟨⟩⟩
    refine unseen_get.before fun w => ?_
    dsimp only
    split
    · exact .pure (.refl [])
    · refine (unseen_advance _).before fun _ => .bind (tries_begin hrefresh) fun r => ?_
      cases r with
      | done a => exact ih _
      | waiting x =>
        refine (unseen_arrivalOf x).before fun t => ?_
        split
        · exact .pure (List.nil_sublist [x])
        · exact (unseen_advance t).before fun _ => .bind (tries_conclude x) fun _ => ih _

theorem tries_poll (i interval duration : Nat) : Tries k ms (poll i interval duration) [] fun _ => [] := by
  have hstop (stop : Nat) : Tries k ms (advance stop) [] fun _ => [] := (unseen_advance stop).tries fun _ => .refl []
  refine (unseen_getClient i).before fun p => unseen_get.before fun w => ?_
  split
  · exact .bind (tries_ticks _ _ _ _ _) fun _ => hstop _
  · exact hstop _

/-! ### Everything that is done -/

/-- What can be done in a world. -/
inductive Doing where
  | call (call : WorldCall)
  | together (calls : List (Nat × WorldCall))
  | poll (client interval duration : Nat)

/-- The calls that are made from outside. -/
def Doing.calls : Doing → List WorldCall
  | .call c => [c]
  | .together cs => cs.map (·.2)
  | .poll _ _ _ => []

/-- The world after something was done. -/
def did (w : World) : Doing → World
  | .call c => (after (run c) w).2
  | .together cs => ((together cs).run w).2
  | .poll i interval duration => (after (poll i interval duration) w).2

theorem Led.of_tries {m : WorldM α} (h : Led k ms w []) (hm : Tries k ms m [] fun _ => []) :
    Led k ms (after m w).2 [] := by
  have hw : Led k ms (after m w).2 ((after m w).1.elim [] (fun _ => []) ++ []) := hm.led h
  cases hr : (after m w).1 <;> rw [hr] at hw <;> exact hw

theorem led_did (h : Led k ms w []) {d : Doing} (hd : ∀ c ∈ d.calls, ¬ Stores k c) : Led k ms (w.did d) [] := by
  cases d with
  | call c => exact h.of_tries (tries_run (hd c (List.mem_singleton_self c)))
  | together cs => exact keeps_together (fun c hc => hd c.2 (List.mem_map_of_mem hc)) w [] h
  | poll i interval duration => exact h.of_tries (tries_poll i interval duration)

theorem led_foldl_did (h : Led k ms w []) {ds : List Doing} (hds : ∀ d ∈ ds, ∀ c ∈ d.calls, ¬ Stores k c) :
    Led k ms (ds.foldl did w) [] := by
  induction ds generalizing w with
  | nil => exact h
  | cons d ds ih =>
    obtain ⟨hd, hds⟩ := List.forall_mem_cons.1 hds
    exact ih (led_did h hd) hds

/-- A world in which nothing has happened yet. -/
structure Fresh (w : World) : Prop where
  cache : ∀ c ∈ w.caches, c = .empty
  client : ∀ p ∈ w.clients, ∃ url uid observers, p.client = .new url uid observers
  fetches : w.fetches = []
  events : w.events = []

/-- The clients of a world, as members of a fleet. -/
def members (w : World) : List Fleet.Member :=
  w.clients.map fun p => ⟨p.client.url, p.client.applicationUid, p.client.observers⟩

theorem Fresh.led (hw : w.Fresh) (hk : k < w.caches.length) : Led k w.members w [] := by
  refine ⟨[], Fleet.start w.members, rfl, ?_, fun i c hc => ?_, ?_, ?_, ?_⟩
  · show w.caches[k]? = some .empty
    rw [List.getElem?_eq_getElem hk, hw.cache _ (List.getElem_mem hk)]
  · obtain ⟨p, hp, -, rfl⟩ := clientOf_eq_some.1 hc
    obtain ⟨url, uid, observers, hnew⟩ := hw.client p (List.mem_of_getElem? hp)
    show ((w.clients.map _).map _)[i]? = _
    rw [List.getElem?_map, List.getElem?_map, hp, Option.map_some, hnew]
    rfl
  · show List.Forall₂ Shown (w.fetches.filter _) []
    rw [hw.fetches]
    exact .nil
  · exact List.nil_subperm
  · show (w.events.filter _).map _ = []
    rw [hw.events]
    rfl

/-- Whatever is done in a world, if no manifest is stored in a cache from outside, a fleet of the clients does it in
some run, as far as the cache can see. -/
theorem exists_run_showing (hw : w.Fresh) (hk : k < w.caches.length) {ds : List Doing}
    (hds : ∀ d ∈ ds, ∀ c ∈ d.calls, ¬ Stores k c) :
    ∃ as s, (Fleet.start w.members).run as = some s ∧ ((ds.foldl did w).view k).ShownBy [] s :=
  led_foldl_did (hw.led hk) hds

/-- So the fetches for a cache have numbers of their own. -/
theorem nodup_generations (hw : w.Fresh) (hk : k < w.caches.length) {ds : List Doing}
    (hds : ∀ d ∈ ds, ∀ c ∈ d.calls, ¬ Stores k c) :
    (((ds.foldl did w).fetches.filter (·.cache = k)).map (·.generation)).Nodup := by
  obtain ⟨as, s, hs, hshown⟩ := exists_run_showing hw hk hds
  have hnodup := ((Fleet.Tracked.start w.members).run hs).nodup
  rwa [← Shown.map_generation hshown.fetches] at hnodup

end World

end Federation
