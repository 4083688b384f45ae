import Federation.Client.Basic
import Federation.Client.Plugin

/-!
# Clients in virtual time

A world of clients, caches and plugins over a scripted network, in which time passes only when everybody waits.
A fetch takes the next answer of its URL when it starts, and the answer arrives after a delay; so a run of the
world depends on its script alone.
-/

namespace Federation

/-- What the network has ready for one fetch. -/
inductive ScriptedResult where
  | manifest (m : Manifest)
  | failure (text : String)
  | status (n : Nat)
  | document (text : String)

/-- A result and how long it takes, in milliseconds. -/
structure ScriptedAnswer where
  result : ScriptedResult
  delay : Nat

/-- What a fetch from a URL comes to. -/
def ScriptedResult.outcome (url : String) : ScriptedResult → FetchOutcome
  | manifest m => .ok m
  | failure text => .error (.other text)
  | status n => .error (.status url n)
  | document text => Manifest.ofFetched url text

/-- A fetch that was started. -/
structure StartedFetch where
  cache : Nat
  generation : Nat
  outcome : FetchOutcome
  /-- When the answer arrives. -/
  arrival : Nat

/-- A client in the world, and the place of its cache. -/
structure PlacedClient where
  client : ManifestClient
  cache : Nat

/-- A plugin in the world, and the places of its client and of its overrides. -/
structure PlacedPlugin where
  plugin : RequestPlugin
  client : Nat
  overrides : Nat

/-- An event, the client that reports it and the observer that is told. -/
structure WorldEvent where
  client : Nat
  observation : Observation

/-- Everything there is. -/
structure World where
  /-- The time, in milliseconds. -/
  now : Nat
  caches : List ManifestCache
  clients : List PlacedClient
  overrides : List SessionOverrides
  plugins : List PlacedPlugin
  /-- The answers that each URL still has. -/
  script : KeyMap (List ScriptedAnswer)
  /-- All fetches, the latest first. -/
  fetches : List StartedFetch
  /-- The events so far, in order. -/
  events : List WorldEvent
  /-- The subscribers: the place of the client, and the place of the subscription with it. -/
  subscribers : List (Nat × Nat)

/-- A step in the world; it fails when something named in it does not exist. -/
abbrev WorldM := OptionT (StateM World)

namespace World

/-- The answer of a URL without a script. -/
def noAnswer : ScriptedAnswer := ⟨.failure "no scripted response", 1⟩

def getClient (i : Nat) : WorldM PlacedClient := fun w => (w.clients[i]?, w)
def getCache (i : Nat) : WorldM ManifestCache := fun w => (w.caches[i]?, w)
def getOverrides (i : Nat) : WorldM SessionOverrides := fun w => (w.overrides[i]?, w)
def getPlugin (i : Nat) : WorldM PlacedPlugin := fun w => (w.plugins[i]?, w)

def setClient (i : Nat) (c : ManifestClient) : WorldM Unit :=
  modify fun w => { w with clients := w.clients.modify i fun p => { p with client := c } }

def setCache (i : Nat) (c : ManifestCache) : WorldM Unit := modify fun w => { w with caches := w.caches.set i c }

def setOverrides (i : Nat) (o : SessionOverrides) : WorldM Unit :=
  modify fun w => { w with overrides := w.overrides.set i o }

def setPlugin (i : Nat) (p : RequestPlugin) : WorldM Unit :=
  modify fun w => { w with plugins := w.plugins.modify i fun q => { q with plugin := p } }

/-- Starts a fetch: takes the next answer of the URL. -/
def startFetch (cache generation : Nat) (url : String) : WorldM Unit :=
  modify fun w =>
    let (a, rest) := match (w.script.get? url).getD [] with
      | a :: rest => (a, rest)
      | [] => (noAnswer, [])
    { w with
      script := w.script.insert url rest
      fetches := ⟨cache, generation, a.result.outcome url, w.now + a.delay⟩ :: w.fetches }

/-- The fetch that a ticket of a cache is for. -/
def fetchOf (cache generation : Nat) : WorldM StartedFetch := fun w =>
  (w.fetches.find? fun f => f.cache == cache && f.generation == generation, w)

/-- Lets time pass up to an instant. -/
def advance (t : Nat) : WorldM Unit := modify fun w => { w with now := max w.now t }

end World

end Federation
