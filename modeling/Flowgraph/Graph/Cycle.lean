/- # Flowgraph.Graph.Cycle -- data dependency cycles

Two nodes belong together when each can be reached from the other along links of
any kind.  A group of such nodes is a data cycle when a link inside it waits: a
run that reaches it never finishes.  A cycle made of links through ports only is
harmless.

Groups and their members come in the order in which a depth-first search leaves
them; it starts from the nodes in the order of the definition and takes the
latest link of a node first.
-/
import Flowgraph.Graph.Basic

set_option autoImplicit false

namespace Flowgraph

namespace Search

variable {α : Type} [DecidableEq α]

/-- What a depth-first search still has to do. -/
inductive Task (α : Type) where
  | visit (x : α)
  | leave (x : α)

/-- Work through the tasks; the result lists what was left, first left first. -/
def walk (next : α → List α) : Nat → List (Task α) → (seen left : List α) → List α
  | 0, _, _, left => left
  | _ + 1, [], _, left => left
  | steps + 1, .leave x :: tasks, seen, left => walk next steps tasks seen (left ++ [x])
  | steps + 1, .visit x :: tasks, seen, left =>
    if x ∈ seen then walk next steps tasks seen left
    else walk next steps ((next x).map .visit ++ .leave x :: tasks) (x :: seen) left

/-- Enough steps to search from `roots` everything among `nodes`. -/
def bound (next : α → List α) (nodes roots : List α) : Nat :=
  nodes.foldr (fun x steps => (next x).length + 1 + steps) (roots.length + 1)

/-- What can be reached from the roots, in the order in which the search leaves it. -/
def postOrder (next : α → List α) (nodes roots : List α) : List α :=
  walk next (bound next nodes roots) (roots.map .visit) [] []

end Search

namespace Graph

/-- The links out of a node, the latest first. -/
def successors (g : Graph) (id : NodeId) : List NodeId :=
  ((g.nodes.filter fun n => decide (id ∈ n.inputNodes)).map Node.id).reverse

def ids (g : Graph) : List NodeId := g.nodes.map Node.id

/-- Nodes that can be reached from a node, itself included. -/
def reachable (g : Graph) (id : NodeId) : List NodeId :=
  Search.postOrder g.successors g.ids [id]

/-- Whether a node waits for another. -/
def waits (g : Graph) (target source : NodeId) : Bool :=
  match g.node? target with
  | some n => decide (source ∈ n.dataInputs)
  | none => false

/-- Nodes with what can be reached from each. -/
def reachTable (g : Graph) (order : List NodeId) : List (NodeId × List NodeId) :=
  order.map fun id => (id, g.reachable id)

/-- The nodes of a table that belong together with one of them. -/
def group (table : List (NodeId × List NodeId)) (id : NodeId) (reached : List NodeId) :
    List NodeId :=
  (table.filter fun other => decide (other.1 ∈ reached) && decide (id ∈ other.2)).map Prod.fst

/-- All groups, each once: at the place of its last member. -/
def groups (g : Graph) : List (List NodeId) :=
  let table := g.reachTable (Search.postOrder g.successors g.ids g.ids)
  table.filterMap fun entry =>
    let members := group table entry.1 entry.2
    if members.getLast? = some entry.1 then some members else none

/-- Groups with a link inside that waits. -/
def dataCycles (g : Graph) : List (List NodeId) :=
  g.groups.filter fun members => members.any fun a => members.any fun b => g.waits b a

end Graph
end Flowgraph
