/- # Flowgraph.Proofs.Run.Unpublished -- what publishing leaves as it is

Whatever the nodes of a run publish lies under `nodes` or `workflow.output`.
`Document.unpublished` takes both away; what is left of a shared document is the
document that the run started with (`Shared.Seeded`), however much has been
published.  A node's parameters are bound against a shared document with what the
node received, and taking the published parts away commutes with that
(`inputScope_seeded`).
-/
import Flowgraph.Proofs.Document.Paths
import Flowgraph.Proofs.Document.Writing
import Flowgraph.Run.Exchange

set_option autoImplicit false

namespace Flowgraph

/-! ## Members under a filter -/

namespace Members

/-- The members that a filter keeps, each as it leaves them. -/
def filtered (keep : String → Value → Option Value) (ms : Members) : Members :=
  ms.filterMap fun e => (keep e.1 e.2).map fun v => (e.1, v)

variable {keep : String → Value → Option Value} {key : String} {change : Value → Value}

theorem filtered_put_of_dropped (dropped : ∀ v, keep key v = none) (value : Value) (ms : Members) :
    filtered keep (put key value ms) = filtered keep ms := by
  induction ms with
  | nil => simp [put, filtered, dropped]
  | cons e rest ih =>
      obtain ⟨k, v⟩ := e
      by_cases here : k = key
      · subst here
        simp [put, filtered, dropped]
      · have later : filtered keep (put key value rest) = filtered keep rest := ih
        rw [put, if_neg here]
        simp only [filtered, List.filterMap_cons] at later ⊢
        rw [later]

theorem get?_filtered (kept : ∀ v, keep key v = some (change v)) (ms : Members) :
    get? key (filtered keep ms) = (get? key ms).map change := by
  induction ms with
  | nil => rfl
  | cons e rest ih =>
      obtain ⟨k, v⟩ := e
      by_cases here : k = key
      · subst here
        simp [filtered, get?, kept]
      · have later : get? key (filtered keep rest) = (get? key rest).map change := ih
        simp only [filtered, List.filterMap_cons, get?, if_neg here] at later ⊢
        cases keep k v with
        | none => exact later
        | some w => simp [get?, here, later]

theorem filtered_put_of_kept (kept : ∀ v, keep key v = some (change v)) (value : Value)
    (ms : Members) :
    filtered keep (put key value ms) = put key (change value) (filtered keep ms) := by
  induction ms with
  | nil => simp [put, filtered, kept]
  | cons e rest ih =>
      obtain ⟨k, v⟩ := e
      by_cases here : k = key
      · subst here
        simp [put, filtered, kept]
      · have later : filtered keep (put key value rest) =
            put key (change value) (filtered keep rest) := ih
        rw [put, if_neg here]
        simp only [filtered, List.filterMap_cons] at later ⊢
        cases keep k v with
        | none => exact later
        | some w => simp [put, here, later]

end Members

/-! ## Taking away what is published -/

namespace Value

/-- An object without one member. -/
def without (key : String) : Value → Value
  | .obj members => .obj (Members.filtered (fun k v => if k = key then none else some v) members)
  | v => v

/-- What is left of a member of a shared document. -/
def unpublishedMember (key : String) (v : Value) : Option Value :=
  if key = "nodes" then none
  else some (if key = "workflow" then v.without "output" else v)

/-- A shared document without what nodes publish. -/
def unpublished : Value → Value
  | .obj members => .obj (Members.filtered unpublishedMember members)
  | v => v

theorem without_put (key : String) (v : Value) (members : Members) :
    (Value.obj (Members.put key v members)).without key = (Value.obj members).without key := by
  simp only [without]
  rw [Members.filtered_put_of_dropped (by simp)]

theorem unpublished_assign_nodes (members : Members) (rest : Path) (new : Value) :
    (assign (.obj members) (.key "nodes" :: rest) new).unpublished =
      (Value.obj members).unpublished := by
  simp only [assign, unpublished]
  rw [Members.filtered_put_of_dropped (by simp [unpublishedMember])]

theorem unpublished_assign_output {members workflow : Members}
    (there : Members.get? "workflow" members = some (.obj workflow)) (rest : Path) (new : Value) :
    (assign (.obj members) (.key "workflow" :: .key "output" :: rest) new).unpublished =
      (Value.obj members).unpublished := by
  have kept : ∀ v, unpublishedMember "workflow" v = some (v.without "output") := by
    simp [unpublishedMember]
  simp only [assign, there, Option.getD_some, unpublished]
  rw [Members.filtered_put_of_kept kept, without_put, Members.put_of_get?]
  rw [Members.get?_filtered kept, there]
  rfl

end Value

/-! ## Paths of publishing -/

namespace Path

/-- What stands before the first dot is the first segment. -/
theorem parse_word {word rest : List Char} {text : String} {segments p : Path}
    (written : text.toList = word ++ '.' :: rest)
    (solid : ∀ c ∈ word, Text.isBlank c = false ∧ c ≠ '.' ∧ c ≠ '[' ∧ c ≠ ']')
    (some : word ≠ []) (first : partSegments word = .ok segments) (parsed : parse text = .ok p) :
    ∃ late, joinParts (parts (Text.trimEnd rest)) = .ok late ∧ p = segments ++ late := by
  have trimmed : Text.trim text.toList = word ++ '.' :: Text.trimEnd rest := by
    obtain ⟨c, word, rfl⟩ := List.exists_cons_of_ne_nil some
    have start : Text.trimStart text.toList = text.toList := by
      rw [written]
      simp [Text.trimStart, (solid c List.mem_cons_self).1]
    rw [Text.trim, start, written, Text.trimEnd_append rfl]
  have whole : parts (Text.trim text.toList) = word :: parts (Text.trimEnd rest) := by
    rw [trimmed, parts_word fun c member => (solid c member).2]
  simp only [parse, whole] at parsed
  split at parsed
  · cases parsed
  · split at parsed
    · rename_i p' joined
      cases parsed
      exact joinParts_cons first joined
    all_goals cases parsed

theorem parse_nodes {below : String} {p : Path} (parsed : parse ("nodes." ++ below) = .ok p) :
    ∃ rest, p = .key "nodes" :: rest := by
  have written : ("nodes." ++ below).toList = "nodes".toList ++ '.' :: below.toList := by simp
  obtain ⟨late, -, same⟩ := parse_word written (by simp [Text.isBlank]) (by simp) rfl parsed
  exact ⟨late, same⟩

theorem parse_output {name : String} {p : Path}
    (parsed : parse ("workflow.output." ++ name) = .ok p) :
    ∃ rest, p = .key "workflow" :: .key "output" :: rest := by
  have written : ("workflow.output." ++ name).toList =
      "workflow".toList ++ '.' :: ("output".toList ++ '.' :: name.toList) := by simp
  obtain ⟨late, joined, rfl⟩ := parse_word written (by simp [Text.isBlank]) (by simp) rfl parsed
  rw [Text.trimEnd_append rfl, parts_word (by simp)] at joined
  have output : partSegments "output".toList = .ok [.key "output"] := rfl
  obtain ⟨rest, -, rfl⟩ := joinParts_cons output joined
  exact ⟨rest, rfl⟩

end Path

namespace Document

/-- A shared document without what nodes publish. -/
def unpublished (d : Document) : Document := ⟨d.root.unpublished⟩

end Document

namespace Shared

/-- What is not published is what the run started with. -/
structure Seeded (inputs : RunInputs) (s : Shared) : Prop where
  given : s.inputs = inputs
  document : s.document.unpublished = seed inputs

theorem seeded_start (inputs : RunInputs) : (start inputs).Seeded inputs where
  given := rfl
  document := rfl

variable {s : Shared} {inputs : RunInputs}

/-- A seeded document is an object, and so is its member `workflow`. -/
theorem Seeded.root (seeded : s.Seeded inputs) : ∃ members workflow,
    s.document.root = .obj members ∧ Members.get? "workflow" members = some (.obj workflow) := by
  have same : s.document.root.unpublished = (seed inputs).root := congrArg Document.root seeded.document
  cases shape : s.document.root with
  | obj members =>
      rw [shape, Value.unpublished, seed] at same
      have kept : ∀ v, Value.unpublishedMember "workflow" v = some (v.without "output") := by
        simp [Value.unpublishedMember]
      have found := Members.get?_filtered kept members
      rw [Value.obj.inj same] at found
      cases there : Members.get? "workflow" members with
      | none => simp [there, Members.get?] at found
      | some v =>
          cases v with
          | obj workflow => exact ⟨members, workflow, rfl, there⟩
          | _ => simp [there, Members.get?, Value.without] at found
  | _ =>
      rw [shape] at same
      cases same

/-- A write that leaves the unpublished parts alone keeps them seeded. -/
theorem Seeded.write (seeded : s.Seeded inputs) {path : String} (value : Value)
    (aside : ∀ p, Path.parse path = .ok p →
      (s.document.root.assign p value).unpublished = s.document.root.unpublished) :
    (s.write path value).2.Seeded inputs := by
  have untouched : ∀ d, s.document.set path value = .ok d → d.unpublished = seed inputs := by
    intro d written
    simp only [Document.set] at written
    split at written
    · cases written
    · rename_i p parsed
      split at written
      · cases written
      · cases written
        rw [Document.unpublished, aside p parsed]
        exact seeded.document
  unfold Shared.write
  split
  · rename_i d written
    exact ⟨seeded.given, untouched d written⟩
  · exact seeded

theorem Seeded.publishNode (seeded : s.Seeded inputs) (node : NodeId) (key : String)
    (value : Value) : (s.publishNode node key value).2.Seeded inputs := by
  obtain ⟨members, _, shape, -⟩ := seeded.root
  refine seeded.write value fun p parsed => ?_
  rw [nodePath, String.append_assoc, String.append_assoc] at parsed
  obtain ⟨rest, rfl⟩ := Path.parse_nodes parsed
  rw [shape]
  exact Value.unpublished_assign_nodes members rest value

theorem Seeded.publishOutput (seeded : s.Seeded inputs) (name : String) (value : Value) :
    (s.publishOutput name value).2.Seeded inputs := by
  obtain ⟨members, workflow, shape, there⟩ := seeded.root
  unfold Shared.publishOutput
  split
  · exact seeded
  · refine seeded.write value fun p parsed => ?_
    obtain ⟨rest, rfl⟩ := Path.parse_output parsed
    rw [shape]
    exact Value.unpublished_assign_output there rest value

theorem Seeded.publishResult (seeded : s.Seeded inputs) (node : NodeId) (result : Document) :
    (s.publishResult node result).Seeded inputs := by
  obtain ⟨members, _, shape, -⟩ := seeded.root
  unfold Shared.publishResult
  cases written : Document.empty.set (nodePath node) result.root with
  | error e => exact seeded
  | ok under =>
      refine ⟨seeded.given, ?_⟩
      simp only [Document.set] at written
      split at written
      · cases written
      · rename_i p parsed
        obtain ⟨rest, rfl⟩ := Path.parse_nodes parsed
        split at written
        · cases written
        · cases written
          have same : (s.document.root.merge (Value.assign (.obj []) (.key "nodes" :: rest)
              result.root)).unpublished = s.document.root.unpublished := by
            rw [shape]
            simp only [Value.assign, Members.put, Value.merge, Value.mergeMembers,
              Value.unpublished]
            split <;> rw [Members.filtered_put_of_dropped (by simp [Value.unpublishedMember])]
          exact (congrArg Document.mk same).trans seeded.document

end Shared

/-! ## Scopes -/

theorem Document.set_input (members : Members) (v : Value) :
    (⟨.obj members⟩ : Document).set "input" v =
      .ok ⟨Value.assign (.obj members) [.key "input"] v⟩ := by
  have parsed : Path.parse "input" = .ok [.key "input"] := rfl
  simp [Document.set, parsed, Value.gap?]

theorem Document.set_inputError (members : Members) (v : Value) :
    (⟨.obj members⟩ : Document).set "input.error" v =
      .ok ⟨Value.assign (.obj members) [.key "input", .key "error"] v⟩ := by
  have parsed : Path.parse "input.error" = .ok [.key "input", .key "error"] := rfl
  simp only [Document.set, parsed, Value.gap?, Segment.keyText]
  cases Members.get? "input" members with
  | none => rfl
  | some w => cases w <;> simp [Value.gap?]

/-- A node's scope can always be taken, and that it holds what has been published is
all that sets it apart from one that is taken at the start of the run. -/
theorem Shared.Seeded.inputScope {s : Shared} {inputs : RunInputs} (seeded : s.Seeded inputs)
    (received : Document) : ∃ scope, inputScope s.document received = .ok scope ∧
      inputScope (Shared.seed inputs) received = .ok scope.unpublished := by
  obtain ⟨members, -, shape, -⟩ := seeded.root
  have whole : s.document = ⟨.obj members⟩ := congrArg Document.mk shape
  have left : Shared.seed inputs = ⟨.obj (Members.filtered Value.unpublishedMember members)⟩ := by
    rw [← seeded.document, whole]
    rfl
  have input : ∀ v, Value.unpublishedMember "input" v = some (id v) := by
    simp [Value.unpublishedMember]
  have kept : ∀ ms v, Members.filtered Value.unpublishedMember (Members.put "input" v ms) =
      Members.put "input" v (Members.filtered Value.unpublishedMember ms) :=
    fun ms v => Members.filtered_put_of_kept input v ms
  have found : ∀ ms, Members.get? "input" (Members.filtered Value.unpublishedMember ms) =
      Members.get? "input" ms := by
    intro ms
    rw [Members.get?_filtered input]
    simp
  simp only [Flowgraph.inputScope, whole, left, Document.set_input]
  cases received.get? "error" with
  | none => exact ⟨_, rfl, by simp [Document.unpublished, Value.unpublished, Value.assign, kept]⟩
  | some failure =>
      simp only [Value.assign, Document.set_inputError]
      refine ⟨_, rfl, ?_⟩
      simp only [Document.unpublished, Value.unpublished, kept]
      rw [← kept, found]

end Flowgraph
