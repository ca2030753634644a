/- # Flowgraph.Run.Exchange -- what goes into a node and what comes out

A node receives the deep merge of its upstreams' results.  Its parameters are
bound against the shared document with the received output under `input`, and a
received error under `input.error`.

The result of a node that completes is an object with the returned members under
`output`, where the output mappings place further ones; if the node merges, that
is merged into what it received.  The result of a node that fails is an object
with the failure under `error`.
-/
import Flowgraph.Graph.Basic
import Flowgraph.Run.Shared

set_option autoImplicit false

namespace Flowgraph

/-- The deep merge of results, the first one first. -/
def mergeResults (results : List Document) : Document := results.foldl Document.merge .empty

/-- The document that a node's parameters are bound against. -/
def inputScope (shared received : Document) : Except PathError Document :=
  match shared.set "input" ((received.get? "output").getD (.obj [])) with
  | .error e => .error e
  | .ok scope =>
    match received.get? "error" with
    | some failure => scope.set "input.error" failure
    | none => .ok scope

namespace Node

/-- The expression mapped to a parameter; the first counts. -/
def inputFor (n : Node) (parameter : String) : Option String :=
  (n.inputs.find? fun m => m.target == parameter).map Mapping.source

/-- The argument for a parameter that the engine does not fill itself. -/
def bindParameter (n : Node) (evaluator : Evaluator) (scope : Document) (p : Parameter) :
    Except BindingError Value :=
  if p.kind = .map ∧ n.dictionary.any fun e => e.parameter == p.name then
    Binding.bindDictionary evaluator p.name n.dictionary scope
  else Binding.bind evaluator p (n.inputFor p.name) scope

/-- Bind parameters in order, on top of what an invocation has already. -/
def bindFrom (n : Node) (evaluator : Evaluator) (context : Context) (scope : Document) :
    Invocation → List Parameter → Except BindingError Invocation
  | i, [] => .ok i
  | i, p :: rest =>
    match p.kind with
    | .context => bindFrom n evaluator context scope { i with context := some context } rest
    | .flow => bindFrom n evaluator context scope { i with flow := some n.ports } rest
    | _ =>
      match n.bindParameter evaluator scope p with
      | .error e => .error e
      | .ok v =>
        bindFrom n evaluator context scope { i with arguments := i.arguments.put p.name v } rest

/-- The invocation of the node's function. -/
def bind (n : Node) (evaluator : Evaluator) (context : Context) (scope : Document) :
    Except BindingError Invocation :=
  bindFrom n evaluator context scope ⟨[], none, none⟩ n.function.signature.parameters

/-- Place members in the output as the mappings say; a missing member is left out. -/
def placeOutputs (members : Document) : Document → List Mapping → Except PathError Document
  | result, [] => .ok result
  | result, m :: rest =>
    match members.get? m.source with
    | none => placeOutputs members result rest
    | some v =>
      match result.set ("output." ++ m.target) v with
      | .error e => .error e
      | .ok result => placeOutputs members result rest

/-- The result of a node that completes. -/
def shape (n : Node) (received : Document) (returned : Returned) : Except PathError Document :=
  let members : Document := ⟨.obj returned.members⟩
  match placeOutputs members ⟨.obj [("output", members.root)]⟩ n.outputs with
  | .error e => .error e
  | .ok result => .ok (if n.merges then received.merge result else result)

/-- The result of a node that fails at a time. -/
def failure (n : Node) (error : NodeError) (time : Instant) : Document :=
  ⟨.obj [("error", .obj [("message", .str error.message), ("nodeId", .str n.id.toText),
    ("nodeName", (n.name.map Value.str).getD .null), ("timestamp", .str time.toOffset)])]⟩

end Node
end Flowgraph
