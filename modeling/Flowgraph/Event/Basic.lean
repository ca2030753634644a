/- # Flowgraph.Event.Basic -- what a run reports

An event is about a whole run or about one node of it.  Functions raise events of
their own, which are reported as a kind of node event.  Every event carries the
identifier of its run and the time it was emitted.
-/
import Flowgraph.Uuid
import Flowgraph.Time.Instant

set_option autoImplicit false

namespace Flowgraph

/-- What a function reports while it runs. -/
inductive Notice where
  | info (message : String)
  | warning (message : String)
  | progress (percent : Float) (message : Option String)
  | data (key : String) (value : Value)
  deriving DecidableEq

/-- What happened to a node. -/
inductive NodeFact where
  | started (function : String)
  | completed (milliseconds : Nat)
  | failed (name : Option String) (error : String)
  | portFired (port : String) (queued : Bool)
  | notice (n : Notice)
  deriving DecidableEq

/-- What happened to a run. -/
inductive RunFact where
  | started (workflow : WorkflowId) (entries : List NodeId)
  | completed (success : Bool) (milliseconds : Nat)
  deriving DecidableEq

inductive Fact where
  | run (fact : RunFact)
  | node (id : NodeId) (fact : NodeFact)
  deriving DecidableEq

structure Event where
  execution : ExecutionId
  time : Instant
  fact : Fact
  deriving DecidableEq

namespace Event

/-- The node that an event is about, if it is about one. -/
def node? (e : Event) : Option NodeId :=
  match e.fact with
  | .node id _ => some id
  | .run _ => none

end Event
end Flowgraph
