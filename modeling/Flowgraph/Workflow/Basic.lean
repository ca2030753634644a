/- # Flowgraph.Workflow.Basic -- workflow definitions

A workflow is a list of nodes and a list of connections.  A node names a
function and maps expressions to its parameters and members of its result to
places in its output.  A connection may name a port of its source; one that names
none uses the port `default`.  Nothing here is checked: that is the building of
the graph.
-/
import Flowgraph.Uuid
import Flowgraph.Binding.Bind

set_option autoImplicit false

namespace Flowgraph

/-- From an expression or path to a name. -/
structure Mapping where
  source : String
  target : String
  deriving DecidableEq

/-- A place in an editor's plane. -/
structure Position where
  x : Float32
  y : Float32
  deriving DecidableEq

structure NodeSpec where
  id : NodeId
  /-- For display only. -/
  name : Option String
  function : String
  inputs : List Mapping
  dictionary : List DictionaryEntry
  outputs : List Mapping
  /-- Replace the ports of the function unless there are none. -/
  ports : List String
  position : Option Position
  /-- Whether the result is merged into what the node received. -/
  merges : Bool
  deriving DecidableEq

structure Connection where
  source : NodeId
  port : Option String
  target : NodeId
  deriving DecidableEq

structure Workflow where
  id : WorkflowId
  name : String
  description : Option String
  nodes : List NodeSpec
  connections : List Connection
  deriving DecidableEq

/-- The port of a connection that names none. -/
def defaultPort : String := "default"

namespace Connection

def portName (c : Connection) : String := c.port.getD defaultPort

end Connection

namespace NodeSpec

/-- A node with nothing but a function. -/
def new (id : NodeId) (function : String) : NodeSpec :=
  ⟨id, none, function, [], [], [], [], none, false⟩

def named (n : NodeSpec) (name : String) : NodeSpec := { n with name := some name }

/-- Fill a parameter from an expression. -/
def withInput (n : NodeSpec) (parameter expression : String) : NodeSpec :=
  { n with inputs := n.inputs ++ [⟨expression, parameter⟩] }

def withEntry (n : NodeSpec) (parameter key expression : String) : NodeSpec :=
  { n with dictionary := n.dictionary ++ [⟨parameter, key, expression⟩] }

/-- Place a member of the result in the output. -/
def withOutput (n : NodeSpec) (source target : String) : NodeSpec :=
  { n with outputs := n.outputs ++ [⟨source, target⟩] }

def withPorts (n : NodeSpec) (ports : List String) : NodeSpec := { n with ports := ports }

def placedAt (n : NodeSpec) (x y : Float32) : NodeSpec := { n with position := some ⟨x, y⟩ }

def merging (n : NodeSpec) : NodeSpec := { n with merges := true }

/-- The expression mapped to a parameter; the first counts. -/
def inputFor (n : NodeSpec) (parameter : String) : Option String :=
  (n.inputs.find? fun m => m.target == parameter).map Mapping.source

end NodeSpec

namespace Workflow

def new (id : WorkflowId) (name : String) : Workflow := ⟨id, name, none, [], []⟩

def addNode (w : Workflow) (n : NodeSpec) : Workflow := { w with nodes := w.nodes ++ [n] }

/-- Connect two nodes, through a port if one is named. -/
def connect (w : Workflow) (source : NodeId) (port : Option String) (target : NodeId) : Workflow :=
  { w with connections := w.connections ++ [⟨source, port, target⟩] }

def findNode? (w : Workflow) (id : NodeId) : Option NodeSpec := w.nodes.find? fun n => n.id == id

end Workflow
end Flowgraph
