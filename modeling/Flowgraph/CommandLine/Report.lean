/- # Flowgraph.CommandLine.Report -- what the program prints

Each command has a report: the lines for standard output and standard error and
the exit code.  A failure is printed with its cause below it, indented.  What a
command needs from outside -- the text of a file, the environment, identifiers,
the time -- is given to it.
-/
import Flowgraph.Catalog
import Flowgraph.CommandLine.Arguments
import Flowgraph.Event.Format
import Flowgraph.Function.Standard
import Flowgraph.Graph.Cycle

set_option autoImplicit false

namespace Flowgraph.CommandLine

structure Report where
  code : Nat
  output : List String
  errors : List String
  deriving DecidableEq

/-- A failure of the program, with what caused it. -/
structure Failure where
  text : String
  cause : Option String
  deriving DecidableEq

/-- A text whose later lines are indented like its first. -/
def indented (text : String) : String :=
  "    " ++ String.ofList (text.toList.flatMap fun c => if c = '\n' then "\n    ".toList else [c])

def Failure.lines (f : Failure) : List String :=
  ("Error: " ++ f.text) ::
    match f.cause with
    | some cause => ["", "Caused by:", indented cause]
    | none => []

/-- The report of a command that printed lines and then came to an end. -/
def Report.of (result : List String × Except Failure Unit) : Report :=
  match result.2 with
  | .ok () => ⟨0, result.1, []⟩
  | .error f => ⟨1, result.1, f.lines⟩

def Report.refusal : Refusal → Report
  | .help => ⟨0, ["Usage: portflow <run|validate|functions|init> [OPTIONS]"], []⟩
  | r =>
    ⟨2, [], ["error: " ++ r.message, "", "Usage: portflow <run|validate|functions|init> [OPTIONS]"]⟩

/-! ## Reading workflows -/

/-- The workflow in a file, given its text or why it cannot be read. -/
def loadWorkflow (file : String) (content : Except String String) : Except Failure Workflow :=
  match content with
  | .error cause => .error ⟨s!"cannot read workflow file {file}", some cause⟩
  | .ok text =>
    match Workflow.parse? text with
    | some w => .ok w
    | none => .error ⟨s!"{file} is not a valid workflow", some "the text does not have the form of a workflow"⟩

/-! ## Running -/

/-- Split a text at its first equals sign. -/
def splitPair? (cs : List Char) : Option (List Char × List Char) :=
  match cs.dropWhile (· ≠ '=') with
  | _ :: value => some (cs.takeWhile (· ≠ '='), value)
  | [] => none

/-- Add to an environment what the arguments assign. -/
def assignAll : Dictionary String → List String → Except Failure (Dictionary String)
  | d, [] => .ok d
  | d, pair :: rest =>
    match splitPair? pair.toList with
    | none => .error ⟨s!"--env expects KEY=VALUE, got '{pair}'", none⟩
    | some (key, value) =>
      assignAll (d.put (String.ofList (Text.trim key)) (String.ofList value)) rest

/-- The parameters given as an argument. -/
def readParameters : Option String → Except Failure (Dictionary Value)
  | none => .ok []
  | some text =>
    match Json.parse text with
    | none => .error ⟨"--input is not valid JSON", some "the text is not one JSON value"⟩
    | some (.obj members) => .ok (.ofList members)
    | some _ => .error ⟨"Input must be a JSON object", none⟩

/-- The inputs of a run, in the given environment. -/
def runInputs (input : Option String) (assignments : List String) (environment : Dictionary String) :
    Except Failure RunInputs :=
  match readParameters input with
  | .error f => .error f
  | .ok parameters => (assignAll environment assignments).map fun e => ⟨parameters, e, .empty⟩

/-- A double rounded to an integer, a half to the even neighbour. -/
def wholeText (x : Float) : String :=
  if x.isFinite then
    let b := Binary.ofFloat x
    let n :=
      if 0 ≤ b.exp then b.mant * Nat.pow 2 b.exp.toNat
      else
        let unit := Nat.pow 2 (-b.exp).toNat
        let q := b.mant / unit
        let twice := 2 * (b.mant % unit)
        if unit < twice || (unit == twice && q % 2 == 1) then q + 1 else q
    (if signBit x then "-" else "") ++ String.ofList (Nat.toDigits 10 n)
  else floatName x

/-- The name of a node for display. -/
def label (node : NodeId) (name : Option String) : String := name.getD node.toText

def noticeLine (node : String) : Notice → String
  | .info message => s!"     ℹ️  [{node}] {message}"
  | .warning message => s!"     ⚠️  [{node}] {message}"
  | .progress percent message =>
    let share := s!"     📊 [{node}] {wholeText percent}%"
    match message with
    | some text => s!"{share} - {text}"
    | none => share
  | .data key value => s!"     📎 [{node}] {key} = {Json.compact value}"

def eventLine (e : Event) : String :=
  match e.fact with
  | .run (.started _ entries) => s!"▶️  Workflow started ({entries.length} entry nodes)"
  | .run (.completed success ms) =>
    if success then s!"✨ Workflow completed in {ms}ms" else s!"💥 Workflow failed after {ms}ms"
  | .node id fact =>
    let node := id.toText
    match fact with
    | .started function => s!"  ⚡ Starting node: {node} ({function})"
    | .completed ms => s!"  ✅ Node {node} completed in {ms}ms"
    | .failed name error => s!"  ❌ Node {label id name} failed: {error}"
    | .portFired port _ => s!"  🔀 Node {node} fired port '{port}'"
    | .notice n => noticeLine node n

/-- The lines about a workflow that was loaded to be run. -/
def workflowLines (w : Workflow) : List String :=
  [s!"📋 Workflow: {w.name}", s!"   Nodes: {w.nodes.length}",
    s!"   Connections: {w.connections.length}", ""]

/-- The lines about a run that is over. -/
def summaryLines (w : Workflow) (o : RunOutcome) : List String :=
  ["", "📊 Execution Summary:", s!"   Execution ID: {o.execution.toText}",
    s!"   Executed: {o.executed}/{w.nodes.length} nodes"] ++
  (if o.failures.isEmpty then []
    else ["", "❌ Failures:"] ++
      o.failures.map fun f => s!"   {label f.node f.name}: {f.message}") ++
  (match o.document.get? "workflow.output" with
    | some outputs => ["", "📤 Outputs:", Json.pretty outputs]
    | none => [])

/-- A failed run as a failure of the program. -/
def flowFailure (e : FlowError) : Failure :=
  match e with
  | .graph cause => ⟨e.message, some cause.message⟩
  | .execution _ => ⟨e.message, none⟩

/-- Run a loaded workflow with everything on one machine. -/
def runLoaded (now : Instant) (execution : ExecutionId) (w : Workflow) (inputs : RunInputs) :
    List String × Except Failure Unit :=
  let catalog := Catalog.new .standard .standard none
  let (outcome, events) := catalog.executeOnce now execution w inputs
  match outcome with
  | .error e => (events.map eventLine, .error (flowFailure e))
  | .ok o => (events.map eventLine ++ summaryLines w o, .ok ())

/-- Run the workflow in a file. -/
def runReport (now : Instant) (execution : ExecutionId) (file : String) (input : Option String)
    (assignments : List String) (environment : Dictionary String) (content : Except String String) :
    Report :=
  Report.of <|
    match runInputs input assignments environment with
    | .error f => ([], .error f)
    | .ok inputs =>
      let first := s!"🚀 Loading workflow from: {file}"
      match loadWorkflow file content with
      | .error f => ([first], .error f)
      | .ok w =>
        let (lines, result) := runLoaded now execution w inputs
        (first :: workflowLines w ++ lines, result)

/-! ## Validating -/

/-- The lines about a workflow that can be run. -/
def validLines (w : Workflow) (g : Graph) : List String :=
  ["✅ Workflow is valid:", s!"   Name: {w.name}", s!"   Nodes: {w.nodes.length}",
    s!"   Connections: {w.connections.length}",
    if g.entries.isEmpty then "⚠️  No entry nodes: nothing will run"
    else s!"   Entry nodes: {g.entries.length}"] ++
  g.dataCycles.map fun members =>
    "⚠️  Data dependency cycle: " ++ " -> ".intercalate (members.map Uuid.toText)

def validateReport (file : String) (content : Except String String) : Report :=
  Report.of <|
    let first := s!"🔍 Validating workflow: {file}"
    match loadWorkflow file content with
    | .error f => ([first], .error f)
    | .ok w =>
      match Graph.build w .standard .standard with
      | .error e => ([first], .error ⟨s!"workflow '{w.name}' is not runnable", some e.message⟩)
      | .ok g => (first :: validLines w g, .ok ())

/-! ## Listing functions -/

def signatureLines (s : Signature) : List String :=
  let parameters := (s.parameters.filter fun p => !p.kind.isInjected).map fun p =>
    s!"{p.name}: {p.kind.name}"
  [s!"  • {s.key} ({s.category})"] ++
  (if s.description.isEmpty then [] else [s!"    {s.description}"]) ++
  (if parameters.isEmpty then [] else ["    params: " ++ ", ".intercalate parameters]) ++
  (if s.ports.isEmpty then [] else ["    ports: " ++ ", ".intercalate s.ports])

def functionsReport : Report :=
  ⟨0, ["📦 Available Functions:", ""] ++ Registry.standard.signatures.flatMap signatureLines, []⟩

/-! ## Creating an example -/

/-- The identifiers of the example workflow and its six nodes. -/
structure ExampleIds where
  workflow : WorkflowId
  start : NodeId
  add : NodeId
  log : NodeId
  branch : NodeId
  multiply : NodeId
  publish : NodeId

/-- A workflow that adds two parameters and doubles the sum when asked to. -/
def exampleWorkflow (ids : ExampleIds) : Workflow :=
  let w := Workflow.new ids.workflow "Example Branching Workflow"
  let w := { w with description := some "Adds two parameters and doubles the sum when asked to" }
  w
    |>.addNode (((NodeSpec.new ids.start startKey).named "Start").placedAt 50 100)
    |>.addNode (((((NodeSpec.new ids.add "math.add").named "Add").withInput "a" "input.a").withInput
      "b" "input.b").placedAt 200 100)
    |>.addNode ((((NodeSpec.new ids.log "debug.log").named "Log Sum").withInput "message"
      "Sum is \x7b\x7b input.result \x7d\x7d").placedAt 350 50)
    |>.addNode ((((NodeSpec.new ids.branch "logic.if").named "Double?").withInput "condition"
      "workflow.parameters.double").placedAt 350 150)
    |>.addNode (((((NodeSpec.new ids.multiply "math.multiply").named "Double").withInput "a"
      ("nodes." ++ ids.add.toText ++ ".output.result")).withInput "b" "2").placedAt 500 150)
    |>.addNode (((((NodeSpec.new ids.publish "workflow.output").named "Publish").withInput "name"
      "doubled").withInput "value" "input.result").placedAt 650 150)
    |>.connect ids.start none ids.add
    |>.connect ids.add none ids.log
    |>.connect ids.add none ids.branch
    |>.connect ids.branch (some "true") ids.multiply
    |>.connect ids.multiply none ids.publish

/-- The text of the file that is created. -/
def exampleText (ids : ExampleIds) : String := (exampleWorkflow ids).form.toPretty

/-- The report once the file was written, or could not be. -/
def createReport (output : String) (written : Except String Unit) : Report :=
  Report.of <|
    match written with
    | .error cause => ([], .error ⟨cause, none⟩)
    | .ok () =>
      (["✨ Created example workflow: " ++ output, "", "Run it with:",
        "  portflow run --file " ++ output ++
          " --input '\x7b\"a\": 5, \"b\": 10, \"double\": true\x7d'"], .ok ())

end Flowgraph.CommandLine
