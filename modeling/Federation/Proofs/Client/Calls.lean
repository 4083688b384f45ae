import Federation.Client.Basic
import Federation.Proofs.Client.CacheMachine

/-!
# The steps of a call

What the first and the last step of a call do, said once: `begin_cases` lists how a call comes out of the cache,
and `report` is taken apart into the subject of a report, the word of the client that guards it
(`lastReported`), and what is due to be told when the guard lets the report through (`due`).
-/

namespace Federation

/-- What a report is about; a client keeps one word for each. -/
inductive Subject where
  | failure
  | change
deriving DecidableEq

namespace ManifestClient
variable {c c' : ManifestClient} {call : ClientCall} {t : Ticket} {o : FetchOutcome} {x : Subject}

/-- A call is answered from the cache, joins the fetch under way, or begins one, which remembers the manifest
that was ready. -/
theorem begin_cases (c : ManifestClient) (call : ClientCall) (cache : ManifestCache) :
    (∃ m, call = .current ∧ cache.state c.applicationUid = .ready m ∧ c.begin call cache = (.cached m, cache)) ∨
    (∃ f, cache.state c.applicationUid = .fetching f ∧
      c.begin call cache = (.waiting (f.ticket false), cache)) ∨
    ((∀ f, cache.state c.applicationUid ≠ .fetching f) ∧
      c.begin call cache = (.waiting ⟨cache.nextGeneration, cache.ready? c.applicationUid, true⟩,
        (cache.begin c.applicationUid (cache.ready? c.applicationUid)).2)) := by
  cases call with
  | current =>
    rcases cache.lookup_cases c.applicationUid with ⟨m, hs, h⟩ | ⟨f, hs, h⟩ | ⟨hs, h⟩
    · exact .inl ⟨m, rfl, hs, h⟩
    · exact .inr (.inl ⟨f, hs, h⟩)
    · refine .inr (.inr ⟨?_, ?_⟩)
      · rcases hs with hs | ⟨e, hs⟩ <;> rw [hs] <;> nofun
      · have hr : cache.ready? c.applicationUid = none := by
          rcases hs with hs | ⟨e, hs⟩ <;> rw [ManifestCache.ready?, hs]
        rw [hr]
        exact h
  | refresh =>
    rcases cache.refresh_cases c.applicationUid with ⟨f, hs, h⟩ | ⟨hs, h⟩
    · exact .inr (.inl ⟨f, hs, by rw [begin, h]⟩)
    · exact .inr (.inr ⟨hs, by rw [begin, h]; rfl⟩)

theorem cache_of_cached {m : Manifest} {cache cache' : ManifestCache} (h : c.begin call cache = (.cached m, cache')) :
    cache' = cache := by
  rcases c.begin_cases call cache with ⟨m', -, -, hb⟩ | ⟨f, -, hb⟩ | ⟨-, hb⟩ <;> cases h.symm.trans hb
  rfl

/-- The last generation that a client reported on a subject. -/
def lastReported (c : ManifestClient) : Subject → Nat
  | .failure => c.reportedError
  | .change => c.reportedChange

def subject? (call : ClientCall) (t : Ticket) : FetchOutcome → Option Subject
  | .error _ => some .failure
  | .ok _ => if call = .refresh ∧ t.previous.isSome then some .change else none

/-- What observers are to be told of an outcome, where `previous` is what the fetch remembers. -/
def due (c : ManifestClient) (previous : Option Manifest) : FetchOutcome → List Observation
  | .error e => c.tell (.fetchFailed e)
  | .ok new => (previous.map fun old => c.changeReport old new).getD []

theorem report_of_subject_none (h : subject? call t o = none) : c.report call t o = ([], c) := by
  cases o with
  | error e => cases h
  | ok m =>
    cases call with
    | current => rfl
    | refresh =>
      cases hp : t.previous with
      | none => simp [report, hp]
      | some old => simp [subject?, hp] at h

/-- A report is made unless its generation was the last one that the client reported on the subject. -/
theorem report_fst (h : subject? call t o = some x) :
    (c.report call t o).1 = if c.lastReported x = t.generation then [] else c.due t.previous o := by
  cases o with
  | error e => cases h; rfl
  | ok m =>
    obtain ⟨⟨rfl, hp⟩, rfl⟩ : (call = .refresh ∧ t.previous.isSome) ∧ .change = x := by
      simpa [subject?] using h
    obtain ⟨old, hp⟩ := Option.isSome_iff_exists.1 hp
    simp only [report, hp, reportChange, lastReported, due, Option.map_some, Option.getD_some]
    split <;> rfl

theorem lastReported_report (c : ManifestClient) (call : ClientCall) (t : Ticket) (o : FetchOutcome) (x : Subject) :
    (c.report call t o).2.lastReported x = if subject? call t o = some x then t.generation else c.lastReported x := by
  cases o with
  | error e => cases x <;> rfl
  | ok m =>
    cases hs : subject? call t (.ok m) with
    | none => rw [report_of_subject_none hs, if_neg nofun]
    | some y =>
      obtain ⟨⟨rfl, hp⟩, rfl⟩ : (call = .refresh ∧ t.previous.isSome) ∧ .change = y := by
        simpa [subject?] using hs
      obtain ⟨old, hp⟩ := Option.isSome_iff_exists.1 hp
      simp only [report, hp, reportChange]
      by_cases hg : c.reportedChange = t.generation
      · cases x <;> simp [hg, lastReported]
      · cases x <;> simp [hg, lastReported, publish]

theorem report_snd (c : ManifestClient) (call : ClientCall) (t : Ticket) (o : FetchOutcome) :
    (c.report call t o).2.url = c.url ∧ (c.report call t o).2.applicationUid = c.applicationUid ∧
      (c.report call t o).2.observers = c.observers := by
  unfold report
  split
  · exact ⟨rfl, rfl, rfl⟩
  · unfold reportChange
    split <;> exact ⟨rfl, rfl, rfl⟩
  · exact ⟨rfl, rfl, rfl⟩

theorem due_congr (h : c.observers = c'.observers) (previous : Option Manifest) (o : FetchOutcome) :
    c.due previous o = c'.due previous o := by
  cases o with
  | error e => simp [due, tell, h]
  | ok m => simp [due, changeReport, tell, h]

/-! ### Subscriptions aside -/

/-- The client without its subscriptions, on which no call depends. -/
def bare (c : ManifestClient) : ManifestClient := { c with subscriptions := [] }

theorem begin_bare (c : ManifestClient) (call : ClientCall) (cache : ManifestCache) :
    c.bare.begin call cache = c.begin call cache := by
  cases call <;> rfl

theorem report_bare (c : ManifestClient) (call : ClientCall) (t : Ticket) (o : FetchOutcome) :
    c.bare.report call t o = ((c.report call t o).1, (c.report call t o).2.bare) := by
  unfold report
  split
  · rfl
  · rename_i m old _
    unfold reportChange
    show (if c.reportedChange = _ then _ else _) = _
    split <;> rfl
  · rfl

theorem bare_drain (c : ManifestClient) (i : Nat) : (c.drain i).2.bare = c.bare := by
  unfold drain
  split <;> rfl

end ManifestClient

end Federation
