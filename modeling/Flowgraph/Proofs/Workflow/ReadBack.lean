/- # Flowgraph.Proofs.Workflow.ReadBack -- written workflows are read back

Every record of a workflow is read back field by field, and so is the workflow
(`Workflow.reads`), if the positions of its nodes are finite and their coordinates are read
back.  A coordinate is written with the fewest digits of a single-precision number and read
as a double first, so that it is read back is assumed of each (`SingleReadsBack`).
-/
import Flowgraph.Proofs.Json.Identifiers
import Flowgraph.Proofs.Json.Records
import Flowgraph.Workflow.Format

set_option autoImplicit false

namespace Flowgraph

open Json

/-- The text of a single-precision number, if it has one, is read as the number. -/
def SingleReadsBack (x : Float32) : Prop :=
  ∀ cs, singleText? x = some cs → (readTree cs).bind Decoder.single = some x

theorem SingleReadsBack.of_text {x : Float32}
    (back : (singleText? x).bind (fun cs => (readTree cs).bind Decoder.single) = some x) :
    SingleReadsBack x := by
  intro cs text
  rwa [text, Option.bind_some] at back

theorem reads_single {x : Float32} (finite : x.isFinite = true) (back : SingleReadsBack x) :
    (singleForm x).Reads Decoder.single x := by
  have text : singleText? x = some (singleFormat.signed (signBit32 x) (Binary.ofFloat32 x)) :=
    if_pos finite
  obtain ⟨t, tree, decoded⟩ := Option.bind_eq_some_iff.1 (back _ text)
  refine ⟨t, ?_, decoded⟩
  rw [singleForm, text]
  exact tree

theorem Uuid.reads (u : Uuid) : u.form.Reads Uuid.decode u := by
  refine ⟨.str (some u.toText), Form.tree?_str u.toText, ?_⟩
  show (some u.toText).bind parse? = some u
  rw [Option.bind_some, parse?_toText]

/-! ## Records -/

theorem Mapping.reads (m : Mapping) : m.form.Reads decode m := by
  obtain ⟨t, r, tree, opened, holds⟩ : ∃ t r, m.form.tree? = some t ∧
      Record.open? ["from", "to"] t = some r ∧ r.Holds _ :=
    Record.open?_written rfl (by decide) (by simp)
  have source : r.required? "from" Decoder.text = some m.source :=
    holds.required? (by simp) (Form.reads_str _)
  have target : r.required? "to" Decoder.text = some m.target :=
    holds.required? (by simp) (Form.reads_str _)
  refine ⟨t, tree, ?_⟩
  simp [decode, opened, source, target]

theorem DictionaryEntry.reads (e : DictionaryEntry) : e.form.Reads decode e := by
  obtain ⟨t, r, tree, opened, holds⟩ : ∃ t r, e.form.tree? = some t ∧
      Record.open? ["parameter", "key", "from"] t = some r ∧ r.Holds _ :=
    Record.open?_written rfl (by decide) (by simp)
  have parameter : r.required? "parameter" Decoder.text = some e.parameter :=
    holds.required? (by simp) (Form.reads_str _)
  have key : r.required? "key" Decoder.text = some e.key := holds.required? (by simp) (Form.reads_str _)
  have source : r.required? "from" Decoder.text = some e.source :=
    holds.required? (by simp) (Form.reads_str _)
  refine ⟨t, tree, ?_⟩
  simp [decode, opened, parameter, key, source]

namespace Position

def Finite (p : Position) : Prop := p.x.isFinite = true ∧ p.y.isFinite = true

/-- Both coordinates are read back from their texts. -/
def ReadsBack (p : Position) : Prop := SingleReadsBack p.x ∧ SingleReadsBack p.y

theorem reads {p : Position} (finite : p.Finite) (back : p.ReadsBack) :
    p.form.Reads decode p := by
  have readsX := reads_single finite.1 back.1
  have readsY := reads_single finite.2 back.2
  obtain ⟨t, r, tree, opened, holds⟩ : ∃ t r, p.form.tree? = some t ∧
      Record.open? ["x", "y"] t = some r ∧ r.Holds _ :=
    Record.open?_written rfl (by decide) (by simp [readsX.said, readsY.said])
  have x : r.required? "x" Decoder.single = some p.x := holds.required? (by simp) readsX
  have y : r.required? "y" Decoder.single = some p.y := holds.required? (by simp) readsY
  refine ⟨t, tree, ?_⟩
  simp [decode, opened, x, y]

end Position

theorem NodeSpec.reads {n : NodeSpec} (finite : ∀ p ∈ n.position, p.Finite)
    (back : ∀ p ∈ n.position, p.ReadsBack) : n.form.Reads decode n := by
  have readsId := n.id.reads
  have readsName := Form.reads_text_option n.name
  have readsInputs := Form.reads_list fun m (_ : m ∈ n.inputs) => m.reads
  have readsDictionary := Form.reads_list fun e (_ : e ∈ n.dictionary) => e.reads
  have readsOutputs := Form.reads_list fun m (_ : m ∈ n.outputs) => m.reads
  have readsPorts := Form.reads_list fun s (_ : s ∈ n.ports) => Form.reads_str s
  have readsPosition : (Form.option Position.form n.position).Reads
      (Decoder.nullable Position.decode) n.position :=
    Form.reads_option rfl fun p there => Position.reads (finite p there) (back p there)
  obtain ⟨t, r, tree, opened, holds⟩ : ∃ t r, n.form.tree? = some t ∧
      Record.open? fieldNames t = some r ∧ r.Holds _ :=
    Record.open?_written rfl (by decide) (by
      simp [readsId.said, readsName.said, readsInputs.said, readsDictionary.said,
        readsOutputs.said, readsPorts.said, readsPosition.said])
  have id : r.required? "id" Uuid.decode = some n.id := holds.required? (by simp) readsId
  have name : r.defaulted? "name" none (Decoder.nullable Decoder.text) = some n.name :=
    holds.defaulted? (by simp) readsName
  have function : r.required? "function" Decoder.text = some n.function :=
    holds.required? (by simp) (Form.reads_str _)
  have inputs : r.defaulted? "inputs" [] (Decoder.list Mapping.decode) = some n.inputs :=
    holds.defaulted? (by simp) readsInputs
  have dictionary : r.defaulted? "dictionary_inputs" [] (Decoder.list DictionaryEntry.decode) =
      some n.dictionary := holds.defaulted? (by simp) readsDictionary
  have outputs : r.defaulted? "outputs" [] (Decoder.list Mapping.decode) = some n.outputs :=
    holds.defaulted? (by simp) readsOutputs
  have ports : r.defaulted? "ports" [] (Decoder.list Decoder.text) = some n.ports :=
    holds.defaulted? (by simp) readsPorts
  have position : r.defaulted? "position" none (Decoder.nullable Position.decode) =
      some n.position := holds.defaulted? (by simp) readsPosition
  have merges : r.defaulted? "merge_output_with_input" false Decoder.bool = some n.merges :=
    holds.defaulted? (by simp) (Form.reads_bool _)
  refine ⟨t, tree, ?_⟩
  simp [decode, opened, id, name, function, inputs, dictionary, outputs, ports, position, merges]

theorem Connection.reads (c : Connection) : c.form.Reads decode c := by
  have readsSource := c.source.reads
  have readsPort := Form.reads_text_option c.port
  have readsTarget := c.target.reads
  obtain ⟨t, r, tree, opened, holds⟩ : ∃ t r, c.form.tree? = some t ∧
      Record.open? ["from_node", "from_port", "to_node"] t = some r ∧ r.Holds _ :=
    Record.open?_written rfl (by decide)
      (by simp [readsSource.said, readsPort.said, readsTarget.said])
  have source : r.required? "from_node" Uuid.decode = some c.source :=
    holds.required? (by simp) readsSource
  have port : r.defaulted? "from_port" none (Decoder.nullable Decoder.text) = some c.port :=
    holds.defaulted? (by simp) readsPort
  have target : r.required? "to_node" Uuid.decode = some c.target :=
    holds.required? (by simp) readsTarget
  refine ⟨t, tree, ?_⟩
  simp [decode, opened, source, port, target]

namespace Workflow

/-- The position of every node that has one is finite. -/
def FinitePositions (w : Workflow) : Prop := ∀ n ∈ w.nodes, ∀ p ∈ n.position, p.Finite

def PositionsReadBack (w : Workflow) : Prop := ∀ n ∈ w.nodes, ∀ p ∈ n.position, p.ReadsBack

/-- **A workflow is read back from its form.** -/
theorem reads {w : Workflow} (finite : w.FinitePositions) (back : w.PositionsReadBack) :
    w.form.Reads decode w := by
  have readsId := w.id.reads
  have readsDescription := Form.reads_text_option w.description
  have readsNodes := Form.reads_list fun n member =>
    NodeSpec.reads (finite n member) (back n member)
  have readsConnections := Form.reads_list fun c (_ : c ∈ w.connections) => c.reads
  obtain ⟨t, r, tree, opened, holds⟩ : ∃ t r, w.form.tree? = some t ∧
      Record.open? ["id", "name", "description", "nodes", "connections"] t = some r ∧ r.Holds _ :=
    Record.open?_written rfl (by decide) (by
      simp [readsId.said, readsDescription.said, readsNodes.said, readsConnections.said])
  have id : r.required? "id" Uuid.decode = some w.id := holds.required? (by simp) readsId
  have name : r.required? "name" Decoder.text = some w.name :=
    holds.required? (by simp) (Form.reads_str _)
  have description : r.defaulted? "description" none (Decoder.nullable Decoder.text) =
      some w.description := holds.defaulted? (by simp) readsDescription
  have nodes : r.required? "nodes" (Decoder.list NodeSpec.decode) = some w.nodes :=
    holds.required? (by simp) readsNodes
  have connections : r.defaulted? "connections" [] (Decoder.list Connection.decode) =
      some w.connections := holds.defaulted? (by simp) readsConnections
  refine ⟨t, tree, ?_⟩
  simp [decode, opened, id, name, description, nodes, connections]

end Workflow
end Flowgraph
