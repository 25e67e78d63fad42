/-
# The feed of events

Every subscriber gets the events that are published after it has subscribed.
The feed keeps as many events as its capacity, which is a power of two; a
subscriber that falls further behind is told how many it has missed.

Key definitions: `Feed`, `Feed.publish`, `Feed.subscribe`, `Feed.receive`.
-/
import EfsControl.Reply

namespace EfsControl
namespace Connector

/-- What a subscriber gets. -/
inductive Delivery
  /-- So many events have been overwritten before they were read. -/
  | missed (count : Nat)
  | event (e : Event)
  deriving DecidableEq

/-- The published events and how far each subscriber has read them. -/
structure Feed where
  capacity : Nat
  published : List Event := []
  readers : List Nat := []

namespace Feed

/-- The least power of two that is at least `n`, if `fuel` doublings reach it. -/
def roundUp (n : Nat) : (fuel power : Nat) → Nat
  | 0, power => power
  | fuel + 1, power => if n ≤ power then power else roundUp n fuel (2 * power)

/-- A feed that keeps at least so many events, and at least one. -/
def ofBuffer (size : Nat) : Feed := ⟨roundUp size 64 1, [], []⟩

/-- One more event. -/
def publish (f : Feed) (e : Event) : Feed := { f with published := f.published ++ [e] }

/-- One more subscriber, for what is still to come. -/
def subscribe (f : Feed) : Feed := { f with readers := f.readers ++ [f.published.length] }

/-- What a subscriber that has read so many events gets. -/
def unread (f : Feed) (position : Nat) : List Delivery :=
  let kept := f.published.length - f.capacity
  (if position < kept then [.missed (kept - position)] else []) ++
    (f.published.drop (max position kept)).map .event

/-- What every subscriber gets, and the feed after all have read it. -/
def receive (f : Feed) : Feed × List (List Delivery) :=
  ({ f with readers := f.readers.map fun _ => f.published.length }, f.readers.map f.unread)

end Feed
end Connector
end EfsControl
