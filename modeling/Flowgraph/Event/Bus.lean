/- # Flowgraph.Event.Bus -- broadcasting events

A bus keeps the events in the order they were sent and, for each receiver, how
many of them it has behind it.  A receiver gets what was sent after it
subscribed, once and in order.
-/
import Flowgraph.Event.Basic

set_option autoImplicit false

namespace Flowgraph

structure Bus where
  sent : List Event
  /-- How many events each receiver has behind it, by receiver. -/
  behind : List Nat

namespace Bus

def empty : Bus := ⟨[], []⟩

/-- A new receiver; receivers are numbered from zero. -/
def subscribe (b : Bus) : Bus := { b with behind := b.behind ++ [b.sent.length] }

def emit (b : Bus) (e : Event) : Bus := { b with sent := b.sent ++ [e] }

/-- What a receiver has not had yet, and the bus once it has. -/
def drain (b : Bus) (receiver : Nat) : List Event × Bus :=
  match b.behind[receiver]? with
  | some n => (b.sent.drop n, { b with behind := b.behind.set receiver b.sent.length })
  | none => ([], b)

end Bus

/-- What a function sends events with: they are about its node and its run. -/
structure Emitter where
  execution : ExecutionId
  node : NodeId

namespace Emitter

/-- The event of a notice raised at a time. -/
def event (m : Emitter) (time : Instant) (n : Notice) : Event :=
  ⟨m.execution, time, .node m.node (.notice n)⟩

end Emitter
end Flowgraph
