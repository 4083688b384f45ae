import Federation.Client.Cache

/-!
# The entries of a cache as state machines

A cache is asked for look-ups, refreshes, settlements, stores and clearings, in any order and for any
applications. `Moves` lists the moves of an entry that such a request may cause; every other entry stays as
it is, and no entry is ever removed.

What ties the moves of a whole run together is whether an entry *awaits* a generation. An entry comes to await
a generation only when the fetch of that generation is begun (`Awaits.of_serve`), each fetch gets the next
number, and an outcome is stored only in the entry that awaits it. So a generation that an entry does not await
any more, because it was settled or the entry was overwritten, can never be stored there later.
-/

namespace Federation

inductive CacheRequest where
  | lookup (uid : String)
  | refresh (uid : String)
  | settle (uid : String) (generation : Nat) (outcome : FetchOutcome)
  | set (uid : String) (manifest : Manifest)
  | clear (uid : String)

inductive CacheReply where
  | found (l : Lookup)
  | ticket (t : Ticket)
  | settled (took : Bool)
  | done
deriving DecidableEq

namespace CacheRequest

def uid : CacheRequest → String
  | lookup u | refresh u | settle u _ _ | set u _ | clear u => u

end CacheRequest

namespace CacheReply

def ticket? : CacheReply → Option Ticket
  | found (.waiting t) | ticket t => some t
  | found (.cached _) | settled _ | done => none

/-- The generation of the fetch that was begun for a reply. -/
def begun? (a : CacheReply) : Option Nat := a.ticket?.bind fun t => if t.initiated then some t.generation else none

end CacheReply

/-- The generation whose outcome a request stored. -/
def stored? : CacheRequest × CacheReply → Option Nat
  | (.settle _ g _, .settled true) => some g
  | _ => none

/-- `Moves n r x y`: the request `r` takes the entry of its application from `x` to `y`, where `n` is the
number of the next fetch. -/
inductive Moves (n : Nat) : CacheRequest → CacheEntry → CacheEntry → Prop
  | lookup_empty (u : String) : Moves n (.lookup u) .empty (.fetching ⟨n, none⟩)
  | lookup_failed (u : String) (e : FetchError) : Moves n (.lookup u) (.failed e) (.fetching ⟨n, none⟩)
  | refresh_empty (u : String) : Moves n (.refresh u) .empty (.fetching ⟨n, none⟩)
  | refresh_failed (u : String) (e : FetchError) : Moves n (.refresh u) (.failed e) (.fetching ⟨n, none⟩)
  | refresh_ready (u : String) (m : Manifest) : Moves n (.refresh u) (.ready m) (.fetching ⟨n, some m⟩)
  | settle_ok (u : String) (f : Flight) (m : Manifest) :
    Moves n (.settle u f.generation (.ok m)) (.fetching f) (.ready m)
  | settle_error (u : String) (f : Flight) (e : FetchError) :
    Moves n (.settle u f.generation (.error e)) (.fetching f) (.failed e)
  | set (u : String) (x : CacheEntry) (m : Manifest) : Moves n (.set u m) x (.ready m)
  | clear_ready (u : String) (m : Manifest) : Moves n (.clear u) (.ready m) .empty
  | clear_failed (u : String) (e : FetchError) : Moves n (.clear u) (.failed e) .empty

namespace ManifestCache

def serve (c : ManifestCache) : CacheRequest → CacheReply × ManifestCache
  | .lookup u => (.found (c.lookup u).1, (c.lookup u).2)
  | .refresh u => (.ticket (c.refresh u).1, (c.refresh u).2)
  | .settle u g o => (.settled (c.settle u g o).1, (c.settle u g o).2)
  | .set u m => (.done, c.set u m)
  | .clear u => (.done, c.clear u)

def after (c : ManifestCache) : List CacheRequest → ManifestCache
  | [] => c
  | r :: rs => (c.serve r).2.after rs

/-- Some requests with the replies to them. -/
def transcript (c : ManifestCache) : List CacheRequest → List (CacheRequest × CacheReply)
  | [] => []
  | r :: rs => (r, (c.serve r).1) :: (c.serve r).2.transcript rs

/-- The generations of the fetches that some requests begin, in order. -/
def begun (c : ManifestCache) (rs : List CacheRequest) : List Nat := (c.transcript rs).filterMap (·.2.begun?)

/-- The generations whose outcomes some requests store, in order. -/
def stored (c : ManifestCache) (rs : List CacheRequest) : List Nat := (c.transcript rs).filterMap stored?

/-- The entry of `uid` is to be settled with the outcome of the fetch `g`. -/
def Awaits (c : ManifestCache) (uid : String) (g : Nat) : Prop :=
  ∃ f, c.state uid = .fetching f ∧ f.generation = g

variable {c : ManifestCache} {uid : String}

/-! ### What the operations do -/

theorem lookup_cases (c : ManifestCache) (uid : String) :
    (∃ m, c.state uid = .ready m ∧ c.lookup uid = (.cached m, c)) ∨
    (∃ f, c.state uid = .fetching f ∧ c.lookup uid = (.waiting (f.ticket false), c)) ∨
    ((c.state uid = .empty ∨ ∃ e, c.state uid = .failed e) ∧
      c.lookup uid = (.waiting (c.begin uid none).1, (c.begin uid none).2)) := by
  unfold lookup
  cases h : c.state uid with
  | empty => exact .inr (.inr ⟨.inl rfl, rfl⟩)
  | fetching f => exact .inr (.inl ⟨f, rfl, rfl⟩)
  | ready m => exact .inl ⟨m, rfl, rfl⟩
  | failed e => exact .inr (.inr ⟨.inr ⟨e, rfl⟩, rfl⟩)

theorem refresh_cases (c : ManifestCache) (uid : String) :
    (∃ f, c.state uid = .fetching f ∧ c.refresh uid = (f.ticket false, c)) ∨
    ((∀ f, c.state uid ≠ .fetching f) ∧ c.refresh uid = c.begin uid (c.ready? uid)) := by
  unfold refresh ready?
  cases h : c.state uid with
  | fetching f => exact .inl ⟨f, rfl, rfl⟩
  | empty | ready m | failed e => exact .inr ⟨nofun, rfl⟩

/-- An outcome is stored exactly in the entry that awaits it. -/
theorem settle_cases (c : ManifestCache) (uid : String) (g : Nat) (o : FetchOutcome) :
    (c.Awaits uid g ∧ c.settle uid g o = (true, { c with entries := c.entries.insert uid (entryOf o) })) ∨
    (¬ c.Awaits uid g ∧ c.settle uid g o = (false, c)) := by
  have hno (h : ∀ f, c.state uid ≠ .fetching f) : ¬ c.Awaits uid g := fun ⟨f, hf, _⟩ => h f hf
  unfold settle
  cases hg : c.entries.get? uid with
  | none => exact .inr ⟨hno (by simp [state, hg]), rfl⟩
  | some x =>
    have hx : c.state uid = x := by rw [state, hg]; rfl
    cases x with
    | fetching f =>
      by_cases hf : f.generation = g
      · exact .inl ⟨⟨f, hx, hf⟩, by simp only [if_pos hf]⟩
      · refine .inr ⟨?_, by simp only [if_neg hf]⟩
        rintro ⟨f', hf', hg'⟩
        rw [hx] at hf'
        cases hf'
        exact hf hg'
    | empty | ready m | failed e =>
      have hidle : ∀ f, c.state uid ≠ .fetching f := fun f hf => by cases hx.symm.trans hf
      exact .inr ⟨hno hidle, rfl⟩

theorem settle_of_awaits {g : Nat} (h : c.Awaits uid g) (o : FetchOutcome) :
    c.settle uid g o = (true, { c with entries := c.entries.insert uid (entryOf o) }) := by
  rcases c.settle_cases uid g o with ⟨-, he⟩ | ⟨hno, -⟩
  · exact he
  · exact absurd h hno

theorem clear_cases (c : ManifestCache) (uid : String) :
    (c.clear uid = c ∧ (c.state uid = .empty ∨ ∃ f, c.state uid = .fetching f)) ∨
    (c.clear uid = { c with entries := c.entries.insert uid .empty } ∧ ∀ f, c.state uid ≠ .fetching f) := by
  unfold clear
  cases hg : c.entries.get? uid with
  | none => exact .inl ⟨rfl, .inl (by simp [state, hg])⟩
  | some x =>
    have hx : c.state uid = x := by rw [state, hg]; rfl
    cases x with
    | fetching f => exact .inl ⟨rfl, .inr ⟨f, hx⟩⟩
    | empty | ready m | failed e => exact .inr ⟨rfl, fun f hf => by cases hx.symm.trans hf⟩

/-- What serving a request comes to: a fetch is begun, nothing happens, or an entry is written that is not
under way. -/
theorem serve_cases (c : ManifestCache) (r : CacheRequest) :
    (∃ p, (∀ f, c.state r.uid ≠ .fetching f) ∧ (c.serve r).1.begun? = some c.nextGeneration ∧
      stored? (r, (c.serve r).1) = none ∧ (c.serve r).2 = (c.begin r.uid p).2) ∨
    ((c.serve r).1.begun? = none ∧ stored? (r, (c.serve r).1) = none ∧ (c.serve r).2 = c) ∨
    (∃ x, (∀ f, x ≠ .fetching f) ∧ (c.serve r).1.begun? = none ∧
      (∀ g, stored? (r, (c.serve r).1) = some g → c.Awaits r.uid g) ∧
      (c.serve r).2 = { c with entries := c.entries.insert r.uid x }) := by
  cases r with
  | lookup u =>
    rcases c.lookup_cases u with ⟨m, -, h⟩ | ⟨f, -, h⟩ | ⟨hs, h⟩
    · exact .inr (.inl (by simp [serve, h, CacheReply.begun?, CacheReply.ticket?, stored?]))
    · exact .inr (.inl (by simp [serve, h, CacheReply.begun?, CacheReply.ticket?, stored?, Flight.ticket]))
    · refine .inl ⟨none, ?_, ?_⟩
      · show ∀ f, c.state u ≠ .fetching f
        rcases hs with hs | ⟨e, hs⟩ <;> rw [hs] <;> nofun
      · simp [serve, h, begin, CacheReply.begun?, CacheReply.ticket?, stored?, Flight.ticket, CacheRequest.uid]
  | refresh u =>
    rcases c.refresh_cases u with ⟨f, -, h⟩ | ⟨hs, h⟩
    · exact .inr (.inl (by simp [serve, h, CacheReply.begun?, CacheReply.ticket?, stored?, Flight.ticket]))
    · refine .inl ⟨c.ready? u, hs, ?_⟩
      simp [serve, h, begin, CacheReply.begun?, CacheReply.ticket?, stored?, Flight.ticket, CacheRequest.uid]
  | settle u g o =>
    rcases c.settle_cases u g o with ⟨ha, h⟩ | ⟨-, h⟩
    · refine .inr (.inr ⟨entryOf o, by cases o <;> nofun, rfl, fun g' hg' => ?_, by simp [serve, h, CacheRequest.uid]⟩)
      have : g = g' := by simpa [serve, h, stored?] using hg'
      exact this ▸ ha
    · exact .inr (.inl (by simp [serve, h, CacheReply.begun?, CacheReply.ticket?, stored?]))
  | set u m => exact .inr (.inr ⟨.ready m, nofun, rfl, nofun, rfl⟩)
  | clear u =>
    rcases c.clear_cases u with ⟨h, -⟩ | ⟨h, -⟩
    · exact .inr (.inl ⟨rfl, rfl, h⟩)
    · exact .inr (.inr ⟨.empty, nofun, rfl, nofun, h⟩)

/-! ### One request -/

theorem entries_serve (c : ManifestCache) (r : CacheRequest) :
    (c.serve r).2.entries = c.entries ∨ ∃ x, (c.serve r).2.entries = c.entries.insert r.uid x := by
  rcases c.serve_cases r with ⟨p, -, -, -, h⟩ | ⟨-, -, h⟩ | ⟨x, -, -, -, h⟩ <;> rw [h]
  · exact .inr ⟨_, rfl⟩
  · exact .inl rfl
  · exact .inr ⟨x, rfl⟩

theorem get?_serve_of_ne {r : CacheRequest} (h : uid ≠ r.uid) :
    (c.serve r).2.entries.get? uid = c.entries.get? uid := by
  rcases c.entries_serve r with he | ⟨x, he⟩ <;> rw [he]
  rw [KeyMap.get?_insert, if_neg h]

theorem isSome_get?_serve {r : CacheRequest} (h : (c.entries.get? uid).isSome) :
    ((c.serve r).2.entries.get? uid).isSome := by
  rcases c.entries_serve r with he | ⟨x, he⟩ <;> rw [he]
  · exact h
  · rw [KeyMap.get?_insert]
    split
    · rfl
    · exact h

theorem state_serve_of_ne {r : CacheRequest} (h : uid ≠ r.uid) : (c.serve r).2.state uid = c.state uid := by
  rw [state, get?_serve_of_ne h, state]

/-- The entry of a request's application stays or makes one of the listed moves. -/
theorem state_serve (c : ManifestCache) (r : CacheRequest) :
    (c.serve r).2.state r.uid = c.state r.uid ∨
      Moves c.nextGeneration r (c.state r.uid) ((c.serve r).2.state r.uid) := by
  cases r with
  | lookup u =>
    show (c.lookup u).2.state u = c.state u ∨ Moves _ _ (c.state u) ((c.lookup u).2.state u)
    rcases c.lookup_cases u with ⟨m, -, h⟩ | ⟨f, -, h⟩ | ⟨hs, h⟩
    · exact .inl (by rw [h])
    · exact .inl (by rw [h])
    · rw [h, state_begin, if_pos rfl]
      rcases hs with hs | ⟨e, hs⟩ <;> rw [hs]
      · exact .inr (.lookup_empty u)
      · exact .inr (.lookup_failed u e)
  | refresh u =>
    show (c.refresh u).2.state u = c.state u ∨ Moves _ _ (c.state u) ((c.refresh u).2.state u)
    rcases c.refresh_cases u with ⟨f, -, h⟩ | ⟨hs, h⟩
    · exact .inl (by rw [h])
    · rw [h, state_begin, if_pos rfl, ready?]
      cases hc : c.state u with
      | empty => exact .inr (.refresh_empty u)
      | fetching f => exact absurd hc (hs f)
      | ready m => exact .inr (.refresh_ready u m)
      | failed e => exact .inr (.refresh_failed u e)
  | settle u g o =>
    show (c.settle u g o).2.state u = c.state u ∨ Moves _ _ (c.state u) ((c.settle u g o).2.state u)
    rcases c.settle_cases u g o with ⟨⟨f, hf, rfl⟩, h⟩ | ⟨-, h⟩
    · rw [h, state_insert, if_pos rfl, hf]
      cases o with
      | ok m => exact .inr (.settle_ok u f m)
      | error e => exact .inr (.settle_error u f e)
    · exact .inl (by rw [h])
  | set u m =>
    show (c.set u m).state u = c.state u ∨ Moves _ _ (c.state u) ((c.set u m).state u)
    rw [state_set, if_pos rfl]
    exact .inr (.set u _ m)
  | clear u =>
    show (c.clear u).state u = c.state u ∨ Moves _ _ (c.state u) ((c.clear u).state u)
    rcases c.clear_cases u with ⟨h, -⟩ | ⟨h, hs⟩
    · exact .inl (by rw [h])
    · rw [h, state_insert, if_pos rfl]
      cases hc : c.state u with
      | empty => exact .inl rfl
      | fetching f => exact absurd hc (hs f)
      | ready m => exact .inr (.clear_ready u m)
      | failed e => exact .inr (.clear_failed u e)

theorem state_serve_of_moves {r : CacheRequest} {x : CacheEntry}
    (h : Moves c.nextGeneration r (c.state r.uid) x) : (c.serve r).2.state r.uid = x := by
  generalize hy : c.state r.uid = y at h
  cases h with
  | lookup_empty u | lookup_failed u e =>
    have hu : c.state u = _ := hy
    show (c.lookup u).2.state u = _
    simp [lookup, hu, state_begin]
  | refresh_empty u | refresh_failed u e | refresh_ready u m =>
    have hu : c.state u = _ := hy
    show (c.refresh u).2.state u = _
    simp [refresh, hu, state_begin]
  | settle_ok u f m | settle_error u f e =>
    have hu : c.entries.get? u = _ := get?_of_state hy nofun
    show (c.settle u f.generation _).2.state u = _
    simp [settle, hu, entryOf, state_insert]
  | set u x m =>
    show (c.set u m).state u = _
    rw [state_set, if_pos rfl]
  | clear_ready u m | clear_failed u e =>
    have hu : c.entries.get? u = _ := get?_of_state hy nofun
    show (c.clear u).state u = _
    simp [clear, hu, state_insert]

/-! ### Numbers -/

theorem begun?_serve (c : ManifestCache) (r : CacheRequest) :
    ((c.serve r).1.begun? = none ∧ (c.serve r).2.nextGeneration = c.nextGeneration) ∨
    ((c.serve r).1.begun? = some c.nextGeneration ∧ (c.serve r).2.nextGeneration = c.nextGeneration + 1) := by
  rcases c.serve_cases r with ⟨p, -, hb, -, h⟩ | ⟨hb, -, h⟩ | ⟨x, -, hb, -, h⟩ <;> rw [h]
  · exact .inr ⟨hb, rfl⟩
  · exact .inl ⟨hb, rfl⟩
  · exact .inl ⟨hb, rfl⟩

theorem begun_cons (c : ManifestCache) (r : CacheRequest) (rs : List CacheRequest) :
    c.begun (r :: rs) = (c.serve r).1.begun?.toList ++ (c.serve r).2.begun rs := by
  simp only [begun, transcript, List.filterMap_cons]
  cases (c.serve r).1.begun? <;> rfl

theorem stored_cons (c : ManifestCache) (r : CacheRequest) (rs : List CacheRequest) :
    c.stored (r :: rs) = (stored? (r, (c.serve r).1)).toList ++ (c.serve r).2.stored rs := by
  simp only [stored, transcript, List.filterMap_cons]
  cases stored? (r, (c.serve r).1) <;> rfl

theorem begun_eq_range' (c : ManifestCache) (rs : List CacheRequest) :
    c.begun rs = List.range' c.nextGeneration (c.begun rs).length := by
  induction rs generalizing c with
  | nil => rfl
  | cons r rs ih =>
    have hrs := ih (c.serve r).2
    rw [begun_cons]
    rcases c.begun?_serve r with ⟨hb, hn⟩ | ⟨hb, hn⟩ <;> rw [hb] <;> rw [hn] at hrs
    · exact hrs
    · show c.nextGeneration :: (c.serve r).2.begun rs = List.range' _ (((c.serve r).2.begun rs).length + 1)
      rw [List.range'_succ, ← hrs]

theorem nextGeneration_after (c : ManifestCache) (rs : List CacheRequest) :
    (c.after rs).nextGeneration = c.nextGeneration + (c.begun rs).length := by
  induction rs generalizing c with
  | nil => rfl
  | cons r rs ih =>
    rw [after, ih, begun_cons]
    rcases c.begun?_serve r with ⟨hb, hn⟩ | ⟨hb, hn⟩ <;> rw [hb, hn]
    · rfl
    · simp only [Option.toList_some, List.singleton_append, List.length_cons]
      omega

theorem lt_of_mem_begun {rs : List CacheRequest} {g : Nat} (h : g ∈ c.begun rs) :
    g < (c.after rs).nextGeneration := by
  rw [nextGeneration_after]
  rw [begun_eq_range', List.mem_range'_1] at h
  exact h.2

/-! ### What entries await -/

/-- An entry comes to await a generation only when the fetch of that generation is begun for it. -/
theorem Awaits.of_serve {r : CacheRequest} {g : Nat} (h : (c.serve r).2.Awaits uid g) :
    c.Awaits uid g ∨ (uid = r.uid ∧ (c.serve r).1.begun? = some g ∧ g = c.nextGeneration) := by
  obtain ⟨f, hf, rfl⟩ := h
  by_cases hu : uid = r.uid
  · rcases c.serve_cases r with ⟨p, -, hb, -, hc⟩ | ⟨-, -, hc⟩ | ⟨x, hx, -, -, hc⟩ <;> rw [hc] at hf
    · rw [state_begin, if_pos hu] at hf
      cases hf
      exact .inr ⟨hu, hb, rfl⟩
    · exact .inl ⟨f, hf, rfl⟩
    · rw [state_insert, if_pos hu] at hf
      exact absurd hf (hx f)
  · rw [state_serve_of_ne hu] at hf
    exact .inl ⟨f, hf, rfl⟩

theorem awaits_of_ticket {r : CacheRequest} {t : Ticket} (h : (c.serve r).1.ticket? = some t) :
    (c.serve r).2.Awaits r.uid t.generation := by
  cases r with
  | lookup u =>
    show (c.lookup u).2.Awaits u t.generation
    have h : (CacheReply.found (c.lookup u).1).ticket? = some t := h
    rcases c.lookup_cases u with ⟨m, -, hc⟩ | ⟨f, hf, hc⟩ | ⟨-, hc⟩ <;> rw [hc] at h ⊢
    · cases h
    · cases h
      exact ⟨f, hf, rfl⟩
    · cases h
      exact ⟨_, by rw [state_begin, if_pos rfl], rfl⟩
  | refresh u =>
    show (c.refresh u).2.Awaits u t.generation
    have h : (CacheReply.ticket (c.refresh u).1).ticket? = some t := h
    rcases c.refresh_cases u with ⟨f, hf, hc⟩ | ⟨-, hc⟩ <;> rw [hc] at h ⊢ <;> cases h
    · exact ⟨f, hf, rfl⟩
    · exact ⟨_, by rw [state_begin, if_pos rfl], rfl⟩
  | settle u g o | set u m | clear u => cases h

/-- No entry awaits a generation any more once its outcome is stored. -/
theorem not_awaits_of_stored {r : CacheRequest} {g : Nat} (h : stored? (r, (c.serve r).1) = some g) :
    c.Awaits r.uid g ∧ ¬ (c.serve r).2.Awaits r.uid g := by
  rcases c.serve_cases r with ⟨p, -, -, hs, -⟩ | ⟨-, hs, -⟩ | ⟨x, hx, -, hs, hc⟩
  · rw [hs] at h; cases h
  · rw [hs] at h; cases h
  · refine ⟨hs g h, ?_⟩
    rintro ⟨f, hf, -⟩
    rw [hc, state_insert, if_pos rfl] at hf
    exact hx f hf

/-- Awaited generations were handed out, each to one entry only. -/
structure Numbered (c : ManifestCache) : Prop where
  lt : ∀ u g, c.Awaits u g → g < c.nextGeneration
  inj : ∀ u v g, c.Awaits u g → c.Awaits v g → u = v

namespace Numbered

theorem empty : Numbered .empty where
  lt := fun _ _ ⟨_, h, _⟩ => nomatch h
  inj := fun _ _ _ ⟨_, h, _⟩ => nomatch h

theorem serve (hc : Numbered c) (r : CacheRequest) : Numbered (c.serve r).2 where
  lt u g h := by
    rcases h.of_serve with h | ⟨-, hb, rfl⟩ <;> rcases c.begun?_serve r with ⟨hb', hn⟩ | ⟨-, hn⟩
    · rw [hn]; exact hc.lt u g h
    · rw [hn]; exact Nat.lt_succ_of_lt (hc.lt u g h)
    · rw [hb'] at hb; cases hb
    · rw [hn]; exact Nat.lt_succ_self _
  inj u v g hu hv := by
    rcases hu.of_serve with hu | ⟨rfl, -, rfl⟩ <;> rcases hv.of_serve with hv | ⟨rfl, -, hg⟩
    · exact hc.inj u v g hu hv
    · exact absurd (hc.lt u g hu) (hg ▸ Nat.lt_irrefl _)
    · exact absurd (hc.lt v _ hv) (Nat.lt_irrefl _)
    · rfl

end Numbered

/-- An entry that does not await a generation that was handed out never awaits it later. -/
theorem not_awaits_after {g : Nat} (hg : g < c.nextGeneration) (h : ¬ c.Awaits uid g) (rs : List CacheRequest) :
    ¬ (c.after rs).Awaits uid g := by
  induction rs generalizing c with
  | nil => exact h
  | cons r rs ih =>
    refine ih ?_ fun ha => ?_
    · rcases c.begun?_serve r with ⟨-, hn⟩ | ⟨-, hn⟩ <;> rw [hn]
      · exact hg
      · exact Nat.lt_succ_of_lt hg
    · rcases ha.of_serve with ha | ⟨-, -, rfl⟩
      · exact h ha
      · exact Nat.lt_irrefl _ hg

theorem not_mem_stored {g : Nat} (hg : g < c.nextGeneration) (h : ∀ u, ¬ c.Awaits u g) (rs : List CacheRequest) :
    g ∉ c.stored rs := by
  induction rs generalizing c with
  | nil => nofun
  | cons r rs ih =>
    have hg' : g < (c.serve r).2.nextGeneration := by
      rcases c.begun?_serve r with ⟨-, hn⟩ | ⟨-, hn⟩ <;> omega
    have hrs : g ∉ (c.serve r).2.stored rs := ih hg' fun u => not_awaits_after hg (h u) [r]
    rw [stored_cons, List.mem_append]
    rintro (hm | hm)
    · exact h r.uid (not_awaits_of_stored (Option.mem_toList.1 hm)).1
    · exact hrs hm

theorem stored_nodup (hc : Numbered c) (rs : List CacheRequest) : (c.stored rs).Nodup := by
  induction rs generalizing c with
  | nil => exact List.nodup_nil
  | cons r rs ih =>
    rw [stored_cons]
    cases hs : stored? (r, (c.serve r).1) with
    | none => exact ih (hc.serve r)
    | some g =>
      obtain ⟨hr, hr'⟩ := not_awaits_of_stored hs
      have hg : g < (c.serve r).2.nextGeneration := by
        have := hc.lt _ _ hr
        rcases c.begun?_serve r with ⟨-, hn⟩ | ⟨-, hn⟩ <;> omega
      refine List.nodup_cons.2 ⟨not_mem_stored hg (fun u hu => ?_) rs, ih (hc.serve r)⟩
      -- whoever awaits `g` after the request awaited it before, so it is the entry that was settled
      rcases hu.of_serve with ha | ⟨-, -, hn⟩
      · exact hr' (hc.inj _ _ _ ha hr ▸ hu)
      · exact absurd (hc.lt _ _ hr) (hn ▸ Nat.lt_irrefl _)

/-- The entries of a cache are state machines, in every run of requests: an entry moves as `Moves` lists and in
no other way, and only on requests about its application; entries are never removed; fetches are numbered
`1, 2, …` (so `k` fetches use up no number above `k`); no outcome is stored twice; and none is stored in an entry
that does not await its generation any more, whatever else was asked for in between. -/
theorem entries_follow_machine (past : List CacheRequest) :
    let c := empty.after past
    (∀ r u, (c.serve r).2.state u ≠ c.state u →
      u = r.uid ∧ Moves c.nextGeneration r (c.state u) ((c.serve r).2.state u)) ∧
    (∀ r x, Moves c.nextGeneration r (c.state r.uid) x → (c.serve r).2.state r.uid = x) ∧
    (∀ r u, u ≠ r.uid → (c.serve r).2.entries.get? u = c.entries.get? u) ∧
    (∀ r u, (c.entries.get? u).isSome → ((c.serve r).2.entries.get? u).isSome) ∧
    (∀ r t, (c.serve r).1.ticket? = some t → (c.serve r).2.Awaits r.uid t.generation) ∧
    empty.begun past = List.range' 1 (empty.begun past).length ∧
    (empty.begun past).Nodup ∧
    (empty.stored past).Nodup ∧
    (∀ u m g, ¬ (c.set u m).Awaits u g) ∧
    (∀ u g, g ∈ empty.begun past → ¬ c.Awaits u g → ∀ future o,
      (c.after future).serve (.settle u g o) = (.settled false, c.after future)) := by
  intro c
  have hrange : empty.begun past = List.range' 1 (empty.begun past).length := begun_eq_range' empty past
  refine ⟨fun r u h => ?_, fun r x => state_serve_of_moves, fun r u => get?_serve_of_ne,
    fun r u => isSome_get?_serve, fun r t => awaits_of_ticket, hrange, hrange ▸ List.nodup_range',
    stored_nodup .empty past, fun u m g => ?_, fun u g hg h future o => ?_⟩
  · by_cases hu : u = r.uid
    · subst hu
      exact ⟨rfl, (state_serve c r).resolve_left h⟩
    · exact absurd (state_serve_of_ne hu) h
  · rintro ⟨f, hf, -⟩
    rw [state_set, if_pos rfl] at hf
    cases hf
  · have hno : ¬ (c.after future).Awaits u g := not_awaits_after (lt_of_mem_begun hg) h future
    rcases settle_cases (c.after future) u g o with ⟨ha, -⟩ | ⟨-, hs⟩
    · exact absurd ha hno
    · simp only [serve, hs]

end ManifestCache

end Federation
