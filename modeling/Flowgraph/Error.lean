/- # Flowgraph.Error -- what can go wrong around a graph

A graph error is about structure and is found when a graph is built or asked for.
A node error is the failure of one node; it is contained there and becomes the
node's result.  A flow error is what a run or a registered workflow answers with.
-/
import Flowgraph.Binding.Coerce
import Flowgraph.Path
import Flowgraph.Text.Quoted
import Flowgraph.Uuid

set_option autoImplicit false

namespace Flowgraph

inductive GraphError where
  | notFound (workflow : String)
  /-- A port was fired on a node that has none. -/
  | portless (node : NodeId)
  | nodeNotFound (node : NodeId)
  | duplicateNode (node : NodeId)
  | unknownFunction (key : String)
  | unknownPort (node : NodeId) (port : String)
  /-- A connection out of a node with ports names none of them. -/
  | unnamedPort (node : NodeId) (ports : List String)
  deriving DecidableEq

def GraphError.message : GraphError → String
  | .notFound workflow => s!"Workflow not found: {workflow}"
  | .portless node => s!"Invalid graph: node {node.toText} declares no output ports"
  | .nodeNotFound node => s!"Node not found: {node.toText}"
  | .duplicateNode node => s!"Duplicate node id: {node.toText}"
  | .unknownFunction key => s!"Unknown function: {key}"
  | .unknownPort node port => s!"Node {node.toText} has no port '{port}'"
  | .unnamedPort node ports =>
    s!"Invalid connection: node {node.toText} is port-driven; connections from it must name one of {Text.quotedNames ports}"

/-- The handles that the engine gives a function. -/
inductive Handle where
  | context
  | flow
  deriving DecidableEq

def Handle.name : Handle → String
  | .context => "context"
  | .flow => "flow"

inductive NodeError where
  | missingArgument (name : String)
  | invalidArgument (name expected actual : String)
  | binding (cause : BindingError)
  | notInjected (handle : Handle)
  | path (cause : PathError)
  | controlFlow (cause : GraphError)
  | configuration (text : String)
  | executionFailed (text : String)
  | panicked (text : String)
  deriving DecidableEq

def NodeError.message : NodeError → String
  | .missingArgument name => s!"Missing required argument: {name}"
  | .invalidArgument name expected actual =>
    s!"Invalid argument type for '{name}': expected {expected}, got {actual}"
  | .binding cause => s!"Parameter binding failed: {cause.message}"
  | .notInjected handle =>
    s!"Handle not injected: function does not declare a {handle.name} parameter"
  | .path cause => s!"Invalid path: {cause.message}"
  | .controlFlow cause => s!"Control flow error: {cause.message}"
  | .configuration text => s!"Configuration error: {text}"
  | .executionFailed text => s!"Execution failed: {text}"
  | .panicked text => s!"Panicked: {text}"

inductive FlowError where
  | graph (cause : GraphError)
  | execution (text : String)
  deriving DecidableEq

def FlowError.message : FlowError → String
  | .graph cause => s!"Graph error: {cause.message}"
  | .execution text => s!"Execution error: {text}"

end Flowgraph
