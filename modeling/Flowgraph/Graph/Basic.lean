/- # Flowgraph.Graph.Basic -- building a graph from a workflow

Building resolves the function of every node and wires the connections, in that
order; the first offence is the error.  A node has the ports of its definition,
or those of its function when the definition has none.  Out of a node with ports
every connection must name one of them; out of any other node it may name only
the port `default`.

A node knows its upstreams in the order of their first connection, each with
whether all its connections come out of ports: a link through ports carries a
result that is there already, any other link makes the node wait.
-/
import Flowgraph.Function.Flow
import Flowgraph.Function.Registry
import Flowgraph.Template.Render
import Flowgraph.Workflow.Basic

set_option autoImplicit false

namespace Flowgraph

/-- A link to a node that this one takes results from. -/
structure Upstream where
  node : NodeId
  viaPort : Bool
  deriving DecidableEq

structure Node where
  id : NodeId
  name : Option String
  function : Function
  inputs : List Mapping
  dictionary : List DictionaryEntry
  outputs : List Mapping
  ports : List String
  merges : Bool
  position : Option Position
  upstream : List Upstream
  downstream : List NodeId
  /-- The targets of the ports that have any. -/
  routes : List (String × List NodeId)

namespace Node

/-- A node without links. -/
def ofSpec (spec : NodeSpec) (function : Function) : Node where
  id := spec.id
  name := spec.name
  function := function
  inputs := spec.inputs
  dictionary := spec.dictionary
  outputs := spec.outputs
  ports := if spec.ports.isEmpty then function.signature.ports else spec.ports
  merges := spec.merges
  position := spec.position
  upstream := []
  downstream := []
  routes := []

def isPortDriven (n : Node) : Bool := !n.ports.isEmpty

/-- Nodes with the start marker are where a run begins. -/
def isEntry (n : Node) : Bool := n.function.signature.key == startKey

def inputNodes (n : Node) : List NodeId := n.upstream.map Upstream.node

/-- The upstreams that the node waits for. -/
def dataInputs (n : Node) : List NodeId :=
  (n.upstream.filter fun u => !u.viaPort).map Upstream.node

/-- The targets of a port. -/
def targets (n : Node) (port : String) : List NodeId := (n.routes.lookup port).getD []

/-- Add at the end what is not there yet. -/
def appendNew {α : Type} [DecidableEq α] (xs : List α) (x : α) : List α :=
  if x ∈ xs then xs else xs ++ [x]

/-- Add a target to a port. -/
def addRoute (port : String) (target : NodeId) :
    List (String × List NodeId) → List (String × List NodeId)
  | [] => [(port, [target])]
  | (p, ts) :: rest =>
    if p = port then (p, appendNew ts target) :: rest else (p, ts) :: addRoute port target rest

/-- Link a node to one downstream, through a port if one is named. -/
def linkTo (n : Node) (port : Option String) (target : NodeId) : Except GraphError Node :=
  let linked := { n with downstream := appendNew n.downstream target }
  if n.isPortDriven then
    match port with
    | none => .error (.unnamedPort n.id n.ports)
    | some p =>
      if p ∈ n.ports then .ok { linked with routes := addRoute p target n.routes }
      else .error (.unknownPort n.id p)
  else
    match port with
    | none => .ok linked
    | some p => if p = defaultPort then .ok linked else .error (.unknownPort n.id p)

/-- A link from one upstream; a link that waits prevails over those through ports. -/
def addUpstream (source : NodeId) (viaPort : Bool) : List Upstream → List Upstream
  | [] => [⟨source, viaPort⟩]
  | u :: rest =>
    if u.node = source then { u with viaPort := u.viaPort && viaPort } :: rest
    else u :: addUpstream source viaPort rest

def linkFrom (n : Node) (source : NodeId) (viaPort : Bool) : Node :=
  { n with upstream := addUpstream source viaPort n.upstream }

end Node

structure Graph where
  id : WorkflowId
  name : String
  /-- In the order of the definition. -/
  nodes : List Node
  evaluator : Evaluator
  /-- How many entries may run at a time. -/
  maxEntries : Nat

/-- What graphs are built and run with. -/
structure Settings where
  eventBufferSize : Nat
  /-- How many entries of a launch may run at a time; `0` is taken for `1`.  The launch makes a
  semaphore with as many permits, and of these one holds `Machine.maxPermits`. -/
  maxConcurrentEntries : Nat
  deriving DecidableEq

def Settings.standard : Settings := ⟨1000, 16⟩

namespace Graph

def findNode? (nodes : List Node) (id : NodeId) : Option Node := nodes.find? fun n => n.id == id

def node? (g : Graph) (id : NodeId) : Option Node := findNode? g.nodes id

def entries (g : Graph) : List NodeId := (g.nodes.filter Node.isEntry).map Node.id

/-- Change the node of an identifier. -/
def updateNode (nodes : List Node) (id : NodeId) (change : Node → Node) : List Node :=
  nodes.map fun n => if n.id = id then change n else n

/-- Resolve the nodes of a definition one after the other. -/
def resolveNodes (registry : Registry) : List Node → List NodeSpec → Except GraphError (List Node)
  | nodes, [] => .ok nodes
  | nodes, spec :: rest =>
    if (findNode? nodes spec.id).isSome then .error (.duplicateNode spec.id)
    else
      match registry.get spec.function with
      | .error e => .error e
      | .ok f => resolveNodes registry (nodes ++ [.ofSpec spec f]) rest

/-- Wire one connection. -/
def wire (nodes : List Node) (c : Connection) : Except GraphError (List Node) :=
  if (findNode? nodes c.target).isNone then .error (.nodeNotFound c.target)
  else
    match findNode? nodes c.source with
    | none => .error (.nodeNotFound c.source)
    | some source =>
      match source.linkTo c.port c.target with
      | .error e => .error e
      | .ok linked =>
        let nodes := updateNode nodes c.source fun _ => linked
        .ok (updateNode nodes c.target fun n => n.linkFrom c.source source.isPortDriven)

/-- Wire connections one after the other. -/
def wireAll : List Node → List Connection → Except GraphError (List Node)
  | nodes, [] => .ok nodes
  | nodes, c :: rest =>
    match wire nodes c with
    | .error e => .error e
    | .ok nodes => wireAll nodes rest

/-- Build the graph of a workflow. -/
def build (w : Workflow) (registry : Registry) (settings : Settings) : Except GraphError Graph :=
  match resolveNodes registry [] w.nodes with
  | .error e => .error e
  | .ok nodes =>
    match wireAll nodes w.connections with
    | .error e => .error e
    | .ok nodes =>
      .ok ⟨w.id, w.name, nodes, Template.render, max settings.maxConcurrentEntries 1⟩

end Graph
end Flowgraph
