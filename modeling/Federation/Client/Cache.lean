import Federation.Manifest.Fetch

/-!
# The manifest cache

A cache keeps one entry per application, shared by all clients that use the cache. An entry is a small state
machine:

* `empty` or `failed` goes to `fetching` when a manifest is looked up or refreshed,
* `ready` goes to `fetching` when it is refreshed, and the fetch remembers the manifest that was ready,
* `fetching` goes to `ready` or `failed` when the fetch of that very generation is settled,
* everything goes to `ready` when a manifest is stored, and all but `fetching` to `empty` when it is cleared.

Fetches are numbered by generations, which no two fetches of a cache share. A caller that finds a fetch under
way joins it: it gets a ticket of the same generation.
-/

namespace Federation

/-- A fetch that is under way. -/
structure Flight where
  generation : Nat
  /-- The manifest that was ready when the fetch was begun by a refresh. -/
  previous : Option Manifest
deriving DecidableEq

/-- The entry of an application. -/
inductive CacheEntry where
  | empty
  | fetching (flight : Flight)
  | ready (manifest : Manifest)
  | failed (error : FetchError)
deriving DecidableEq

/-- The text that shows the state of an entry. -/
def CacheEntry.text : CacheEntry → String
  | empty => "Empty"
  | fetching f => s!"Fetching(#{f.generation})"
  | ready m => s!"Ready({m.timestamp})"
  | failed e => s!"Failed({e.message})"

/-- What a caller holds who waits for a fetch. -/
structure Ticket where
  generation : Nat
  previous : Option Manifest
  /-- Whether this caller began the fetch. -/
  initiated : Bool
deriving DecidableEq

/-- The ticket of a flight. -/
def Flight.ticket (f : Flight) (initiated : Bool) : Ticket := ⟨f.generation, f.previous, initiated⟩

/-- What a look-up comes to. -/
inductive Lookup where
  | cached (manifest : Manifest)
  | waiting (ticket : Ticket)
deriving DecidableEq

/-- The entries of all applications and the number of the next fetch. -/
structure ManifestCache where
  entries : KeyMap CacheEntry
  nextGeneration : Nat

namespace ManifestCache

/-- The cache without entries. -/
def empty : ManifestCache := ⟨.empty, 1⟩

/-- The entry of an application; one that was never touched is empty. -/
def state (c : ManifestCache) (uid : String) : CacheEntry := (c.entries.get? uid).getD .empty

/-- The manifest of an application, if it is ready. -/
def ready? (c : ManifestCache) (uid : String) : Option Manifest :=
  match c.state uid with
  | .ready m => some m
  | _ => none

/-- Stores a manifest, whatever the entry holds. -/
def set (c : ManifestCache) (uid : String) (m : Manifest) : ManifestCache :=
  { c with entries := c.entries.insert uid (.ready m) }

/-- Drops a manifest or a failure; a fetch under way is kept. -/
def clear (c : ManifestCache) (uid : String) : ManifestCache :=
  match c.entries.get? uid with
  | none => c
  | some (.fetching _) => c
  | some _ => { c with entries := c.entries.insert uid .empty }

/-- Begins a fetch with the next generation. -/
def begin (c : ManifestCache) (uid : String) (previous : Option Manifest) : Ticket × ManifestCache :=
  let f : Flight := ⟨c.nextGeneration, previous⟩
  (f.ticket true, ⟨c.entries.insert uid (.fetching f), c.nextGeneration + 1⟩)

/-- The manifest that is ready, or a ticket for the fetch that will tell. -/
def lookup (c : ManifestCache) (uid : String) : Lookup × ManifestCache :=
  match c.state uid with
  | .ready m => (.cached m, c)
  | .fetching f => (.waiting (f.ticket false), c)
  | .empty | .failed _ =>
    let (t, c) := c.begin uid none
    (.waiting t, c)

/-- A ticket for a fetch: the one that is under way, or else a new one. -/
def refresh (c : ManifestCache) (uid : String) : Ticket × ManifestCache :=
  match c.state uid with
  | .fetching f => (f.ticket false, c)
  | .ready m => c.begin uid (some m)
  | .empty | .failed _ => c.begin uid none

/-- The entry that an outcome leaves. -/
def entryOf : FetchOutcome → CacheEntry
  | .ok m => .ready m
  | .error e => .failed e

/-- Stores the outcome of a fetch, unless it is settled already or the entry has moved on. -/
def settle (c : ManifestCache) (uid : String) (generation : Nat) (outcome : FetchOutcome) : Bool × ManifestCache :=
  match c.entries.get? uid with
  | some (.fetching f) =>
    if f.generation = generation then (true, { c with entries := c.entries.insert uid (entryOf outcome) })
    else (false, c)
  | _ => (false, c)

variable {c : ManifestCache} {uid : String}

@[simp] theorem state_empty (uid : String) : empty.state uid = .empty := rfl

@[simp] theorem nextGeneration_empty : empty.nextGeneration = 1 := rfl

/-- Of an entry that is not empty there is a record. -/
theorem get?_of_state {x : CacheEntry} (h : c.state uid = x) (hx : x ≠ .empty) : c.entries.get? uid = some x := by
  unfold state at h
  cases hg : c.entries.get? uid with
  | none => rw [hg] at h; exact absurd h.symm hx
  | some y => rw [hg] at h; exact congrArg some h

/-- Writing one entry changes that entry alone. -/
theorem state_insert (c : ManifestCache) (uid u : String) (x : CacheEntry) (n : Nat) :
    (⟨c.entries.insert uid x, n⟩ : ManifestCache).state u = if u = uid then x else c.state u := by
  simp only [state, KeyMap.get?_insert]
  split <;> rfl

theorem state_begin (c : ManifestCache) (uid u : String) (previous : Option Manifest) :
    (c.begin uid previous).2.state u = if u = uid then .fetching ⟨c.nextGeneration, previous⟩ else c.state u :=
  state_insert ..

theorem state_set (c : ManifestCache) (uid u : String) (m : Manifest) :
    (c.set uid m).state u = if u = uid then .ready m else c.state u :=
  state_insert ..

end ManifestCache

end Federation
