import Federation.Client.Cache
import Federation.Client.Subscription

/-!
# Manifest clients

A client serves the manifest of one application from a cache that it may share with other clients. A call
takes three steps, between which other callers may take theirs: it looks into the cache, waits for the fetch
whose ticket it got, and concludes: it settles the fetch in the cache, reports to the client's observers and
answers. However many calls of a client wait for one fetch, the client reports that fetch once; it remembers
for this the generation that it reported last.
-/

namespace Federation

/-- What is asked of a client. -/
inductive ClientCall where
  /-- The manifest of the cache, fetched only if there is none. -/
  | current
  /-- A manifest fetched anew. -/
  | refresh
deriving DecidableEq, Repr

/-- What observers are told. -/
inductive ClientEvent where
  /-- A refresh brought a manifest in which remotes moved. -/
  | manifestChanged (new old : Manifest)
  | remoteChanged (change : RemoteChange)
  | fetchFailed (error : FetchError)
deriving DecidableEq

/-- An event and the observer that is told. -/
structure Observation where
  observer : Nat
  event : ClientEvent
deriving DecidableEq

/-- A client of a cache. -/
structure ManifestClient where
  /-- Where the manifest is fetched from. -/
  url : String
  /-- The application whose manifest it is. -/
  applicationUid : String
  /-- How many observers there are; they are told in order. -/
  observers : Nat
  /-- The last generation whose failure was reported; 0 before any. -/
  reportedError : Nat
  /-- The last generation whose changes were reported; 0 before any. -/
  reportedChange : Nat
  subscriptions : List Subscription

namespace ManifestClient

/-- A client that has reported nothing yet. -/
def new (url applicationUid : String) (observers : Nat) : ManifestClient := ⟨url, applicationUid, observers, 0, 0, []⟩

/-- Looks into the cache for a call. -/
def begin (c : ManifestClient) (call : ClientCall) (cache : ManifestCache) : Lookup × ManifestCache :=
  match call with
  | .current => cache.lookup c.applicationUid
  | .refresh =>
    let (t, cache) := cache.refresh c.applicationUid
    (.waiting t, cache)

/-- Tells all observers of an event. -/
def tell (c : ManifestClient) (e : ClientEvent) : List Observation := (List.range c.observers).map (⟨·, e⟩)

/-- What observers are told when a refresh went from one manifest to another: the change as a whole, then each
remote. -/
def changeReport (c : ManifestClient) (old new : Manifest) : List Observation :=
  match old.changes new with
  | [] => []
  | changes => c.tell (.manifestChanged new old) ++ changes.flatMap fun ch => c.tell (.remoteChanged ch)

/-- Sends changes to all subscribers. -/
def publish (c : ManifestClient) (changes : List RemoteChange) : ManifestClient :=
  { c with subscriptions := c.subscriptions.map fun s => changes.foldl Subscription.send s }

/-- Reports the failure of a fetch, unless it was the last one to be reported. -/
def reportError (c : ManifestClient) (generation : Nat) (e : FetchError) : List Observation × ManifestClient :=
  (if c.reportedError = generation then [] else c.tell (.fetchFailed e), { c with reportedError := generation })

/-- Reports the changes that a fetch brought, unless it was the last one to be reported. -/
def reportChange (c : ManifestClient) (generation : Nat) (old new : Manifest) : List Observation × ManifestClient :=
  if c.reportedChange = generation then ([], c)
  else (c.changeReport old new, { c.publish (old.changes new) with reportedChange := generation })

/-- The last step of a call: what it reports, and the client after it. -/
def report (c : ManifestClient) (call : ClientCall) (t : Ticket) (outcome : FetchOutcome) :
    List Observation × ManifestClient :=
  match outcome, call, t.previous with
  | .error e, _, _ => c.reportError t.generation e
  | .ok m, .refresh, some old => c.reportChange t.generation old m
  | .ok _, _, _ => ([], c)

/-- What a call answers. -/
def answer : FetchOutcome → Option Manifest
  | .ok m => some m
  | .error _ => none

/-- A new subscription, and its place. -/
def subscribe (c : ManifestClient) : Nat × ManifestClient :=
  (c.subscriptions.length, { c with subscriptions := c.subscriptions ++ [.empty] })

/-- Reads the messages of a subscription. -/
def drain (c : ManifestClient) (i : Nat) : List Message × ManifestClient :=
  match c.subscriptions[i]? with
  | none => ([], c)
  | some s =>
    let (ms, s) := s.drain
    (ms, { c with subscriptions := c.subscriptions.set i s })

/-- A client together with its cache. -/
structure Session where
  client : ManifestClient
  cache : ManifestCache

variable {m : Type → Type} [Monad m]

/-- A whole call without others in between: its answer and what observers are told. -/
def Session.call (fetch : String → m FetchOutcome) (call : ClientCall) (s : Session) :
    m (Option Manifest × List Observation × Session) := do
  match s.client.begin call s.cache with
  | (.cached x, cache) => pure (some x, [], { s with cache })
  | (.waiting t, cache) =>
    let outcome ← fetch s.client.url
    let (_, cache) := cache.settle s.client.applicationUid t.generation outcome
    let (os, client) := s.client.report call t outcome
    pure (answer outcome, os, ⟨client, cache⟩)

end ManifestClient

end Federation
