import Federation.Simulation.Call

/-!
# Polling in virtual time

A poller refreshes a client at fixed intervals. A refresh that takes longer than an interval shifts the later
ones, unless it is late by no more than a few milliseconds.
-/

namespace Federation.World

/-- How late a tick may be, in milliseconds, without shifting the following ones. -/
def tickTolerance : Nat := 5

/-- The tick after the one that was due at `due` and came at `t`. -/
def nextTick (interval due t : Nat) : Nat := if due + tickTolerance < t then t + interval else due + interval

/-- The ticks of a poller before it is stopped. A refresh whose fetch has not arrived by then is abandoned. -/
def ticks (client interval stop : Nat) : (fuel : Nat) → (due : Nat) → WorldM Unit
  | 0, _ => pure ()
  | fuel + 1, due => do
    let t := max due (← get).now
    if stop ≤ t then pure ()
    else
      advance t
      match ← begin (.client .refresh client) with
      | .done _ => ticks client interval stop fuel (nextTick interval due t)
      | .waiting w =>
        let arrival ← arrivalOf w
        if stop ≤ arrival then pure ()
        else
          advance arrival
          let _ ← conclude w
          ticks client interval stop fuel (nextTick interval due t)

/-- Polls a client for some time; a poller without an interval never ticks. -/
def poll (client interval duration : Nat) : WorldM Unit := do
  let _ ← getClient client
  let start := (← get).now
  let stop := start + duration
  if interval ≠ 0 then ticks client interval stop (duration + 1) (start + interval)
  advance stop

end Federation.World
