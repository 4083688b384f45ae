import Federation.Manifest.Changes

/-!
# Subscriptions to moved remotes

A subscriber gets a message for each remote that moves. Messages wait until they are read, but only a bounded
number of them: for each message beyond it the oldest one is lost, and the reader is told how many were.
-/

namespace Federation

/-- How many messages wait for a subscriber. -/
def subscriptionCapacity : Nat := 64

/-- The messages that wait for one subscriber. -/
structure Subscription where
  pending : List RemoteChange
  /-- How many messages were lost since the last reading. -/
  lost : Nat
deriving DecidableEq

/-- What a subscriber reads. -/
inductive Message where
  | lagged (count : Nat)
  | change (c : RemoteChange)
deriving DecidableEq

namespace Subscription

/-- A new subscription. -/
def empty : Subscription := ⟨[], 0⟩

/-- One more message. -/
def send (s : Subscription) (c : RemoteChange) : Subscription :=
  if s.pending.length < subscriptionCapacity then { s with pending := s.pending ++ [c] }
  else ⟨s.pending.tail ++ [c], s.lost + 1⟩

/-- Reads everything that waits. -/
def drain (s : Subscription) : List Message × Subscription :=
  ((if s.lost = 0 then [] else [.lagged s.lost]) ++ s.pending.map .change, empty)

end Subscription

end Federation
