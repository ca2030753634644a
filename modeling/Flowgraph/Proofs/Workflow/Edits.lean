/- # Flowgraph.Proofs.Workflow.Edits -- edits of a workflow that mean nothing

The fields of each record of a workflow, with what may be left out of it and what may be
edited inside.  Every such edit is decoded the same (`Workflow.decode_edit`), whether the
text is accepted or not, and so are any number of them, made or taken back.
-/
import Mathlib.Logic.Relation
import Flowgraph.Proofs.Json.Edits
import Flowgraph.Workflow.Format

set_option autoImplicit false

namespace Flowgraph

open Json

variable {t t' : Tree}

namespace Mapping

def editable : List Field := [{ name := "from" }, { name := "to" }]

theorem decode_edit (edit : RecordEdit editable t t') : decode t = decode t' := by
  apply Record.bind_edit rfl (by decide) edit
  intro r r' alike
  have source : r.required? "from" Decoder.text = r'.required? "from" Decoder.text :=
    alike.required? { name := "from" } (by simp [editable]) rfl nofun
  have target : r.required? "to" Decoder.text = r'.required? "to" Decoder.text :=
    alike.required? { name := "to" } (by simp [editable]) rfl nofun
  rw [source, target]

end Mapping

namespace DictionaryEntry

def editable : List Field := [{ name := "parameter" }, { name := "key" }, { name := "from" }]

theorem decode_edit (edit : RecordEdit editable t t') : decode t = decode t' := by
  apply Record.bind_edit rfl (by decide) edit
  intro r r' alike
  have parameter : r.required? "parameter" Decoder.text = r'.required? "parameter" Decoder.text :=
    alike.required? { name := "parameter" } (by simp [editable]) rfl nofun
  have key : r.required? "key" Decoder.text = r'.required? "key" Decoder.text :=
    alike.required? { name := "key" } (by simp [editable]) rfl nofun
  have source : r.required? "from" Decoder.text = r'.required? "from" Decoder.text :=
    alike.required? { name := "from" } (by simp [editable]) rfl nofun
  rw [parameter, key, source]

end DictionaryEntry

namespace Position

def editable : List Field := [{ name := "x" }, { name := "y" }]

theorem decode_edit (edit : RecordEdit editable t t') : decode t = decode t' := by
  apply Record.bind_edit rfl (by decide) edit
  intro r r' alike
  have x : r.required? "x" Decoder.single = r'.required? "x" Decoder.single :=
    alike.required? { name := "x" } (by simp [editable]) rfl nofun
  have y : r.required? "y" Decoder.single = r'.required? "y" Decoder.single :=
    alike.required? { name := "y" } (by simp [editable]) rfl nofun
  rw [x, y]

end Position

namespace NodeSpec

def editable : List Field :=
  [{ name := "id" },
    { name := "name", default? := some .null },
    { name := "function" },
    { name := "inputs", default? := some (.arr []), Edit := ListEdit (RecordEdit Mapping.editable) },
    { name := "dictionary_inputs", default? := some (.arr [])
      Edit := ListEdit (RecordEdit DictionaryEntry.editable) },
    { name := "outputs", default? := some (.arr [])
      Edit := ListEdit (RecordEdit Mapping.editable) },
    { name := "ports", default? := some (.arr []) },
    { name := "position", default? := some .null, Edit := RecordEdit Position.editable },
    { name := "merge_output_with_input", default? := some (.bool false) }]

theorem decode_edit (edit : RecordEdit editable t t') : decode t = decode t' := by
  apply Record.bind_edit rfl (by decide) edit
  intro r r' alike
  have mappings : ∀ u u', ListEdit (RecordEdit Mapping.editable) u u' →
      Decoder.list Mapping.decode u = Decoder.list Mapping.decode u' :=
    fun _ _ edit => Decoder.list_edit (fun _ _ inner => Mapping.decode_edit inner) edit
  have entries : ∀ u u', ListEdit (RecordEdit DictionaryEntry.editable) u u' →
      Decoder.list DictionaryEntry.decode u = Decoder.list DictionaryEntry.decode u' :=
    fun _ _ edit => Decoder.list_edit (fun _ _ inner => DictionaryEntry.decode_edit inner) edit
  have positions : ∀ u u', RecordEdit Position.editable u u' →
      Decoder.nullable Position.decode u = Decoder.nullable Position.decode u' :=
    fun _ _ edit => Decoder.nullable_edit edit (Position.decode_edit edit)
  have id : r.required? "id" Uuid.decode = r'.required? "id" Uuid.decode :=
    alike.required? { name := "id" } (by simp [editable]) rfl nofun
  have name : r.defaulted? "name" none (Decoder.nullable Decoder.text) =
      r'.defaulted? "name" none (Decoder.nullable Decoder.text) :=
    alike.defaulted? { name := "name", default? := some .null } (by simp [editable]) rfl rfl nofun
  have function : r.required? "function" Decoder.text = r'.required? "function" Decoder.text :=
    alike.required? { name := "function" } (by simp [editable]) rfl nofun
  have inputs : r.defaulted? "inputs" [] (Decoder.list Mapping.decode) =
      r'.defaulted? "inputs" [] (Decoder.list Mapping.decode) :=
    alike.defaulted? ⟨"inputs", some (.arr []), ListEdit (RecordEdit Mapping.editable)⟩
      (by simp [editable]) rfl rfl mappings
  have dictionary : r.defaulted? "dictionary_inputs" [] (Decoder.list DictionaryEntry.decode) =
      r'.defaulted? "dictionary_inputs" [] (Decoder.list DictionaryEntry.decode) :=
    alike.defaulted?
      ⟨"dictionary_inputs", some (.arr []), ListEdit (RecordEdit DictionaryEntry.editable)⟩
      (by simp [editable]) rfl rfl entries
  have outputs : r.defaulted? "outputs" [] (Decoder.list Mapping.decode) =
      r'.defaulted? "outputs" [] (Decoder.list Mapping.decode) :=
    alike.defaulted? ⟨"outputs", some (.arr []), ListEdit (RecordEdit Mapping.editable)⟩
      (by simp [editable]) rfl rfl mappings
  have ports : r.defaulted? "ports" [] (Decoder.list Decoder.text) =
      r'.defaulted? "ports" [] (Decoder.list Decoder.text) :=
    alike.defaulted? { name := "ports", default? := some (.arr []) } (by simp [editable]) rfl rfl
      nofun
  have position : r.defaulted? "position" none (Decoder.nullable Position.decode) =
      r'.defaulted? "position" none (Decoder.nullable Position.decode) :=
    alike.defaulted? ⟨"position", some .null, RecordEdit Position.editable⟩ (by simp [editable])
      rfl rfl positions
  have merges : r.defaulted? "merge_output_with_input" false Decoder.bool =
      r'.defaulted? "merge_output_with_input" false Decoder.bool :=
    alike.defaulted? { name := "merge_output_with_input", default? := some (.bool false) }
      (by simp [editable]) rfl rfl nofun
  rw [id, name, function, inputs, dictionary, outputs, ports, position, merges]

end NodeSpec

namespace Connection

def editable : List Field :=
  [{ name := "from_node" }, { name := "from_port", default? := some .null }, { name := "to_node" }]

theorem decode_edit (edit : RecordEdit editable t t') : decode t = decode t' := by
  apply Record.bind_edit rfl (by decide) edit
  intro r r' alike
  have source : r.required? "from_node" Uuid.decode = r'.required? "from_node" Uuid.decode :=
    alike.required? { name := "from_node" } (by simp [editable]) rfl nofun
  have port : r.defaulted? "from_port" none (Decoder.nullable Decoder.text) =
      r'.defaulted? "from_port" none (Decoder.nullable Decoder.text) :=
    alike.defaulted? { name := "from_port", default? := some .null } (by simp [editable]) rfl rfl
      nofun
  have target : r.required? "to_node" Uuid.decode = r'.required? "to_node" Uuid.decode :=
    alike.required? { name := "to_node" } (by simp [editable]) rfl nofun
  rw [source, port, target]

end Connection

namespace Workflow

def editable : List Field :=
  [{ name := "id" },
    { name := "name" },
    { name := "description", default? := some .null },
    { name := "nodes", Edit := ListEdit (RecordEdit NodeSpec.editable) },
    { name := "connections", default? := some (.arr [])
      Edit := ListEdit (RecordEdit Connection.editable) }]

/-- One edit of the text of a workflow, anywhere in it. -/
def Edit : Tree → Tree → Prop := RecordEdit editable

theorem decode_edit (edit : Edit t t') : decode t = decode t' := by
  apply Record.bind_edit rfl (by decide) edit
  intro r r' alike
  have nodes' : ∀ u u', ListEdit (RecordEdit NodeSpec.editable) u u' →
      Decoder.list NodeSpec.decode u = Decoder.list NodeSpec.decode u' :=
    fun _ _ edit => Decoder.list_edit (fun _ _ inner => NodeSpec.decode_edit inner) edit
  have connections' : ∀ u u', ListEdit (RecordEdit Connection.editable) u u' →
      Decoder.list Connection.decode u = Decoder.list Connection.decode u' :=
    fun _ _ edit => Decoder.list_edit (fun _ _ inner => Connection.decode_edit inner) edit
  have id : r.required? "id" Uuid.decode = r'.required? "id" Uuid.decode :=
    alike.required? { name := "id" } (by simp [editable]) rfl nofun
  have name : r.required? "name" Decoder.text = r'.required? "name" Decoder.text :=
    alike.required? { name := "name" } (by simp [editable]) rfl nofun
  have description : r.defaulted? "description" none (Decoder.nullable Decoder.text) =
      r'.defaulted? "description" none (Decoder.nullable Decoder.text) :=
    alike.defaulted? { name := "description", default? := some .null } (by simp [editable]) rfl rfl
      nofun
  have nodes : r.required? "nodes" (Decoder.list NodeSpec.decode) =
      r'.required? "nodes" (Decoder.list NodeSpec.decode) :=
    alike.required? ⟨"nodes", none, ListEdit (RecordEdit NodeSpec.editable)⟩ (by simp [editable])
      rfl nodes'
  have connections : r.defaulted? "connections" [] (Decoder.list Connection.decode) =
      r'.defaulted? "connections" [] (Decoder.list Connection.decode) :=
    alike.defaulted? ⟨"connections", some (.arr []), ListEdit (RecordEdit Connection.editable)⟩
      (by simp [editable]) rfl rfl connections'
  rw [id, name, description, nodes, connections]

/-- **Edits that mean nothing change nothing**: made or taken back, any number of them. -/
theorem decode_edits (edits : Relation.EqvGen Edit t t') : decode t = decode t' := by
  induction edits with
  | rel _ _ edit => exact decode_edit edit
  | refl _ => rfl
  | symm _ _ _ ih => exact ih.symm
  | trans _ _ _ _ _ ih ih' => exact ih.trans ih'

end Workflow
end Flowgraph
