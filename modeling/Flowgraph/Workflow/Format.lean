/- # Flowgraph.Workflow.Format -- workflows as JSON

The written form has every field of every record in a fixed order, null for what
is missing.  When it is read, unknown fields are skipped, lists and options may
be left out where they have a default, and records may be arrays.
-/
import Flowgraph.Workflow.Basic
import Flowgraph.Json.Record
import Flowgraph.Json.Printer

set_option autoImplicit false

namespace Flowgraph

open Json

namespace Uuid

def form (u : Uuid) : Form := .str u.toText

def decode : Decoder Uuid := fun t => (Decoder.text t).bind parse?

end Uuid

/-- A single-precision number; one that is not finite is null. -/
def singleForm (x : Float32) : Form :=
  match singleText? x with
  | some cs => .scalar cs
  | none => .null

namespace Mapping

def form (m : Mapping) : Form := .obj [("from", .str m.source), ("to", .str m.target)]

def decode : Decoder Mapping := fun t => do
  let r ← Record.open? ["from", "to"] t
  let source ← r.required? "from" Decoder.text
  let target ← r.required? "to" Decoder.text
  return ⟨source, target⟩

end Mapping

namespace DictionaryEntry

def form (e : DictionaryEntry) : Form :=
  .obj [("parameter", .str e.parameter), ("key", .str e.key), ("from", .str e.source)]

def decode : Decoder DictionaryEntry := fun t => do
  let r ← Record.open? ["parameter", "key", "from"] t
  let parameter ← r.required? "parameter" Decoder.text
  let key ← r.required? "key" Decoder.text
  let source ← r.required? "from" Decoder.text
  return ⟨parameter, key, source⟩

end DictionaryEntry

namespace Position

def form (p : Position) : Form := .obj [("x", singleForm p.x), ("y", singleForm p.y)]

def decode : Decoder Position := fun t => do
  let r ← Record.open? ["x", "y"] t
  let x ← r.required? "x" Decoder.single
  let y ← r.required? "y" Decoder.single
  return ⟨x, y⟩

end Position

namespace NodeSpec

def form (n : NodeSpec) : Form :=
  .obj [("id", n.id.form), ("name", .option .str n.name), ("function", .str n.function),
    ("inputs", .arr (n.inputs.map Mapping.form)),
    ("dictionary_inputs", .arr (n.dictionary.map DictionaryEntry.form)),
    ("outputs", .arr (n.outputs.map Mapping.form)),
    ("ports", .arr (n.ports.map .str)),
    ("position", .option Position.form n.position),
    ("merge_output_with_input", .bool n.merges)]

def fieldNames : List String :=
  ["id", "name", "function", "inputs", "dictionary_inputs", "outputs", "ports", "position",
    "merge_output_with_input"]

def decode : Decoder NodeSpec := fun t => do
  let r ← Record.open? fieldNames t
  let id ← r.required? "id" Uuid.decode
  let name ← r.defaulted? "name" none (Decoder.nullable Decoder.text)
  let function ← r.required? "function" Decoder.text
  let inputs ← r.defaulted? "inputs" [] (Decoder.list Mapping.decode)
  let dictionary ← r.defaulted? "dictionary_inputs" [] (Decoder.list DictionaryEntry.decode)
  let outputs ← r.defaulted? "outputs" [] (Decoder.list Mapping.decode)
  let ports ← r.defaulted? "ports" [] (Decoder.list Decoder.text)
  let position ← r.defaulted? "position" none (Decoder.nullable Position.decode)
  let merges ← r.defaulted? "merge_output_with_input" false Decoder.bool
  return ⟨id, name, function, inputs, dictionary, outputs, ports, position, merges⟩

end NodeSpec

namespace Connection

def form (c : Connection) : Form :=
  .obj [("from_node", c.source.form), ("from_port", .option .str c.port), ("to_node", c.target.form)]

def decode : Decoder Connection := fun t => do
  let r ← Record.open? ["from_node", "from_port", "to_node"] t
  let source ← r.required? "from_node" Uuid.decode
  let port ← r.defaulted? "from_port" none (Decoder.nullable Decoder.text)
  let target ← r.required? "to_node" Uuid.decode
  return ⟨source, port, target⟩

end Connection

namespace Workflow

def form (w : Workflow) : Form :=
  .obj [("id", w.id.form), ("name", .str w.name), ("description", .option .str w.description),
    ("nodes", .arr (w.nodes.map NodeSpec.form)),
    ("connections", .arr (w.connections.map Connection.form))]

def decode : Decoder Workflow := fun t => do
  let r ← Record.open? ["id", "name", "description", "nodes", "connections"] t
  let id ← r.required? "id" Uuid.decode
  let name ← r.required? "name" Decoder.text
  let description ← r.defaulted? "description" none (Decoder.nullable Decoder.text)
  let nodes ← r.required? "nodes" (Decoder.list NodeSpec.decode)
  let connections ← r.defaulted? "connections" [] (Decoder.list Connection.decode)
  return ⟨id, name, description, nodes, connections⟩

/-- Read a workflow from JSON text. -/
def parse? (text : String) : Option Workflow := (readTree text.toList).bind decode

/-- Read a workflow from a value. -/
def ofValue? (v : Value) : Option Workflow := decode (Tree.ofValue v)

end Workflow
end Flowgraph
