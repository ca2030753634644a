/- # Flowgraph.Event.Format -- events as JSON

An event is a record tagged by `type`; what a function raised stands in it as a
record tagged by `event_type`.  Times are written in UTC with `Z`.  A text is
accepted only if it is a value as a whole, also in the parts that are skipped.
-/
import Flowgraph.Event.Basic
import Flowgraph.Workflow.Format

set_option autoImplicit false

namespace Flowgraph

open Json

/-- An integer in a written form. -/
def natForm (n : Nat) : Form := .scalar (Nat.toDigits 10 n)

/-- A double; one that is not finite is null. -/
def floatForm (x : Float) : Form :=
  match floatText? x with
  | some cs => .scalar cs
  | none => .null

namespace Instant

def form (t : Instant) : Form := .str t.toZulu

def decode : Decoder Instant := fun t => (Decoder.text t).bind parse?

end Instant

namespace Notice

def form : Notice → Form
  | .info message => .obj [("event_type", .str "Info"), ("message", .str message)]
  | .warning message => .obj [("event_type", .str "Warning"), ("message", .str message)]
  | .progress percent message =>
    .obj [("event_type", .str "Progress"), ("percent", floatForm percent),
      ("message", .option .str message)]
  | .data key value =>
    .obj [("event_type", .str "Data"), ("key", .str key), ("value", Json.form value)]

def variants : List String := ["Info", "Warning", "Progress", "Data"]

def decode : Decoder Notice := fun t => do
  let (tag, rest) ← untagged? "event_type" t
  match ← nestedVariant? variants tag with
  | "Info" =>
    let r ← Record.open? ["message"] rest
    let message ← r.required? "message" Decoder.text
    return .info message
  | "Warning" =>
    let r ← Record.open? ["message"] rest
    let message ← r.required? "message" Decoder.text
    return .warning message
  | "Progress" =>
    let r ← Record.open? ["percent", "message"] rest
    let percent ← r.required? "percent" Decoder.float
    let message ← r.optional? "message" Decoder.text
    return .progress percent message
  | "Data" =>
    let r ← Record.open? ["key", "value"] rest
    let key ← r.required? "key" Decoder.text
    let value ← r.required? "value" (Tree.value? maxDepth)
    return .data key value
  | _ => none

end Notice

namespace NodeFact

/-- The tag of a fact about a node and its fields between the node and the time. -/
def fields : NodeFact → String × List (String × Form)
  | .started function => ("NodeStarted", [("function", .str function)])
  | .completed ms => ("NodeCompleted", [("duration_ms", natForm ms)])
  | .failed name error => ("NodeFailed", [("node_name", .option .str name), ("error", .str error)])
  | .portFired port queued => ("PortFired", [("port", .str port), ("queued", .bool queued)])
  | .notice n => ("NodeEvent", [("event", n.form)])

end NodeFact

namespace RunFact

/-- The tag of a fact about a run and its fields before the time. -/
def fields : RunFact → String × List (String × Form)
  | .started workflow entries =>
    ("RunStarted", [("workflow_id", workflow.form), ("entry_nodes", .arr (entries.map Uuid.form))])
  | .completed success ms =>
    ("RunCompleted", [("success", .bool success), ("duration_ms", natForm ms)])

end RunFact

namespace Event

def form (e : Event) : Form :=
  match e.fact with
  | .run fact =>
    .obj ([("type", .str fact.fields.1), ("execution_id", e.execution.form)] ++ fact.fields.2 ++
      [("timestamp", e.time.form)])
  | .node id fact =>
    .obj ([("type", .str fact.fields.1), ("execution_id", e.execution.form), ("node_id", id.form)] ++
      fact.fields.2 ++ [("timestamp", e.time.form)])

def variants : List String :=
  ["RunStarted", "RunCompleted", "NodeStarted", "NodeCompleted", "NodeFailed", "PortFired",
    "NodeEvent"]

/-- A fact about a run whose own fields are the given ones. -/
def decodeRun (names : List String) (fact : Record → Option RunFact) : Decoder Event := fun t => do
  let r ← Record.open? (["execution_id"] ++ names ++ ["timestamp"]) t
  let execution ← r.required? "execution_id" Uuid.decode
  let time ← r.required? "timestamp" Instant.decode
  let fact ← fact r
  return ⟨execution, time, .run fact⟩

/-- A fact about a node whose own fields are the given ones. -/
def decodeNode (names : List String) (fact : Record → Option NodeFact) : Decoder Event :=
  fun t => do
    let r ← Record.open? (["execution_id", "node_id"] ++ names ++ ["timestamp"]) t
    let execution ← r.required? "execution_id" Uuid.decode
    let node ← r.required? "node_id" Uuid.decode
    let time ← r.required? "timestamp" Instant.decode
    let fact ← fact r
    return ⟨execution, time, .node node fact⟩

/-- The decoder of a variant. -/
def decodeAs : String → Decoder Event
  | "RunStarted" => decodeRun ["workflow_id", "entry_nodes"] fun r => do
    let workflow ← r.required? "workflow_id" Uuid.decode
    let entries ← r.required? "entry_nodes" (Decoder.list Uuid.decode)
    return .started workflow entries
  | "RunCompleted" => decodeRun ["success", "duration_ms"] fun r => do
    let success ← r.required? "success" Decoder.bool
    let ms ← r.required? "duration_ms" Decoder.unsigned
    return .completed success ms
  | "NodeStarted" => decodeNode ["function"] fun r => do
    let function ← r.required? "function" Decoder.text
    return .started function
  | "NodeCompleted" => decodeNode ["duration_ms"] fun r => do
    let ms ← r.required? "duration_ms" Decoder.unsigned
    return .completed ms
  | "NodeFailed" => decodeNode ["node_name", "error"] fun r => do
    let name ← r.optional? "node_name" Decoder.text
    let error ← r.required? "error" Decoder.text
    return .failed name error
  | "PortFired" => decodeNode ["port", "queued"] fun r => do
    let port ← r.required? "port" Decoder.text
    let queued ← r.required? "queued" Decoder.bool
    return .portFired port queued
  | "NodeEvent" => decodeNode ["event"] fun r => do
    let notice ← r.required? "event" Notice.decode
    return .notice notice
  | _ => fun _ => none

def decode : Decoder Event := fun t => do
  let _ ← t.value? maxDepth
  let (tag, rest) ← untagged? "type" t
  let name ← variant? variants tag
  decodeAs name rest

/-- Read an event from JSON text. -/
def parse? (text : String) : Option Event := (readTree text.toList).bind decode

end Event
end Flowgraph
