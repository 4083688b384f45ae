import Federation.Simulation.World

/-!
# Calls in virtual time

A call to something in the world either answers at once or waits for one fetch and answers when that has
arrived. `World.run` makes one call; `World.together` makes several, of which each starts at its own time, and
those that can go on at the same instant do so in the order of their list.
-/

namespace Federation

/-- A call to something in the world, named by its place. -/
inductive WorldCall where
  | client (call : ClientCall) (client : Nat)
  | plugin (call : ClientCall) (plugin : Nat)
  | redirect (plugin : Nat) (request : ModuleRequest)
  | cacheReady (cache : Nat) (uid : String)
  | cacheSet (cache : Nat) (uid : String) (manifest : Manifest)
  | cacheClear (cache : Nat) (uid : String)
  | cacheState (cache : Nat) (uid : String)
  | overrideSet (overrides : Nat) (uid url : String)
  | overrideGet (overrides : Nat) (uid : String)
  | overrideRemove (overrides : Nat) (uid : String)
  | overrideClear (overrides : Nat)
  | info (plugin client : Nat)
  | subscribe (client : Nat)
  | drain (subscriber : Nat)

/-- What a call answers. -/
inductive WorldAnswer where
  | nothing
  | manifest (m : Option Manifest)
  | request (r : ModuleRequest)
  | text (s : Option String)
  | info (plugin uid : String)
  | subscriber (place : Nat)
  | messages (ms : List Message)

/-- What a call does with the manifest that it waits for. -/
inductive Continuation where
  | answer
  | redirect (plugin : Nat) (request : ModuleRequest)

/-- A call that waits for a fetch. -/
structure WaitingCall where
  call : ClientCall
  client : Nat
  ticket : Ticket
  onward : Continuation

/-- How far a call has come. -/
inductive Progress where
  | waiting (w : WaitingCall)
  | done (a : WorldAnswer)

namespace World

/-- Goes on with a manifest. -/
def proceed (m : Option Manifest) : Continuation → WorldM WorldAnswer
  | .answer => pure (.manifest m)
  | .redirect i r => do
    let p ← getPlugin i
    let (r, plugin) := p.plugin.redirect (← getOverrides p.overrides) m r
    setPlugin i plugin
    pure (.request r)

/-- Begins a call of a client. -/
def beginClient (call : ClientCall) (i : Nat) (onward : Continuation) : WorldM Progress := do
  let p ← getClient i
  let (l, cache) := p.client.begin call (← getCache p.cache)
  setCache p.cache cache
  match l with
  | .cached m => return .done (← proceed (some m) onward)
  | .waiting t =>
    if t.initiated then startFetch p.cache t.generation p.client.url
    pure (.waiting ⟨call, i, t, onward⟩)

/-- Begins a call. -/
def begin : WorldCall → WorldM Progress
  | .client call i => beginClient call i .answer
  | .plugin call i => do beginClient call (← getPlugin i).client .answer
  | .redirect i r => do
    let p ← getPlugin i
    if RequestPlugin.needsManifest r then beginClient .current p.client (.redirect i r)
    else pure (.done (.request r))
  | .cacheReady i uid => return .done (.manifest ((← getCache i).ready? uid))
  | .cacheSet i uid m => do
    setCache i ((← getCache i).set uid m)
    pure (.done .nothing)
  | .cacheClear i uid => do
    setCache i ((← getCache i).clear uid)
    pure (.done .nothing)
  | .cacheState i uid => return .done (.text (some ((← getCache i).state uid).text))
  | .overrideSet i uid url => do
    setOverrides i ((← getOverrides i).insert uid url)
    pure (.done .nothing)
  | .overrideGet i uid => return .done (.text ((← getOverrides i).get? uid))
  | .overrideRemove i uid => do
    let o ← getOverrides i
    setOverrides i (o.erase uid)
    pure (.done (.text (o.get? uid)))
  | .overrideClear i => do
    let _ ← getOverrides i
    setOverrides i .empty
    pure (.done .nothing)
  | .info i j => do
    let _ ← getPlugin i
    return .done (.info RequestPlugin.name (← getClient j).client.applicationUid)
  | .subscribe i => do
    let (k, client) := (← getClient i).client.subscribe
    setClient i client
    let n := (← get).subscribers.length
    modify fun w => { w with subscribers := w.subscribers ++ [(i, k)] }
    pure (.done (.subscriber n))
  | .drain j => do
    let (i, k) ← (fun w => (w.subscribers[j]?, w) : WorldM (Nat × Nat))
    let (ms, client) := (← getClient i).client.drain k
    setClient i client
    pure (.done (.messages ms))

/-- When the fetch arrives that a call waits for. -/
def arrivalOf (w : WaitingCall) : WorldM Nat := do
  return (← fetchOf (← getClient w.client).cache w.ticket.generation).arrival

/-- Concludes a call whose fetch has arrived. -/
def conclude (w : WaitingCall) : WorldM WorldAnswer := do
  let p ← getClient w.client
  let f ← fetchOf p.cache w.ticket.generation
  let (_, cache) := (← getCache p.cache).settle p.client.applicationUid w.ticket.generation f.outcome
  setCache p.cache cache
  let (os, client) := p.client.report w.call w.ticket f.outcome
  setClient w.client client
  modify fun s => { s with events := s.events ++ os.map (⟨w.client, ·⟩) }
  proceed (ManifestClient.answer f.outcome) w.onward

/-- Makes one call, and lets time pass until it is done. -/
def run (call : WorldCall) : WorldM WorldAnswer := do
  match ← begin call with
  | .done a => pure a
  | .waiting w =>
    advance (← arrivalOf w)
    conclude w

/-- A call among others: it is to be started, waits for a fetch, or is done. -/
inductive Member where
  | toStart (time : Nat) (call : WorldCall)
  | waiting (arrival : Nat) (w : WaitingCall)
  /-- Its answer, if nothing was missing that the call names. -/
  | done (a : Option WorldAnswer)

namespace Member

/-- The instant at which a call can go on. -/
def due? : Member → Option Nat
  | toStart t _ => some t
  | waiting t _ => some t
  | done _ => none

end Member

/-- The outcome of a step, and the world after it; the world changes even when the step fails. -/
def attempt {α : Type} (step : WorldM α) : StateM World (Option α) := step.run

/-- Lets a waiting call conclude, if its fetch has arrived. -/
def tryConclude (w : WaitingCall) : StateM World Member := do
  match ← attempt (arrivalOf w) with
  | none => pure (.done none)
  | some t =>
    if t ≤ (← get).now then return .done (← attempt (conclude w)) else pure (.waiting t w)

/-- Lets a call go on as far as it can at this instant. -/
def goOn (m : Member) : StateM World Member := do
  let now := (← get).now
  match m with
  | .toStart t call =>
    if now < t then pure m
    else
      match ← attempt (begin call) with
      | none => pure (.done none)
      | some (.done a) => pure (.done (some a))
      | some (.waiting w) => tryConclude w
  | .waiting t w => if now < t then pure m else tryConclude w
  | .done _ => pure m

/-- Lets all calls go on at this instant, in order. Also tells which of them are done after it and were not
before. -/
def goOnAll : (place : Nat) → List Member → StateM World (List Member × List Nat)
  | _, [] => pure ([], [])
  | i, m :: ms => do
    let m' ← goOn m
    let (ms, ds) ← goOnAll (i + 1) ms
    pure (m' :: ms, if m.due?.isSome && m'.due?.isNone then i :: ds else ds)

/-- Lets time pass from instant to instant until all calls are done. -/
def finishAll : (fuel : Nat) → List Member → StateM World (List Member × List Nat)
  | 0, ms => pure (ms, [])
  | fuel + 1, ms => do
    match (ms.filterMap Member.due?).min? with
    | none => pure (ms, [])
    | some t =>
      modify fun w => { w with now := max w.now t }
      let (ms, ds) ← goOnAll 0 ms
      let (ms, rest) ← finishAll fuel ms
      pure (ms, ds ++ rest)

/-- Makes calls that start some time from now. Gives their answers, and the order in which they were done. A
call goes on at two instants at most: its start and the arrival of its fetch. -/
def together (calls : List (Nat × WorldCall)) : StateM World (List (Option WorldAnswer) × List Nat) := do
  let now := (← get).now
  let (ms, finished) ← finishAll (2 * calls.length + 1) (calls.map fun c => .toStart (now + c.1) c.2)
  let answers := ms.map fun
    | .done a => a
    | _ => none
  pure (answers, finished)

end World

end Federation
