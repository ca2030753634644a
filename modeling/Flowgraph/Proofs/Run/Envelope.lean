/- # Flowgraph.Proofs.Run.Envelope -- result documents and how they merge

A result document is an object with no other members than `output`, which is an object, and
`error`, which says what went wrong (`Document.Envelope`).  A node that completes has an output; a
node that fails has an error and nothing else.  Output mappings write below `output` whatever
their targets are, so they cannot spoil it (`Node.placeOutputs_output`).

Results are merged one after the other.  That merges their outputs, and of their errors it leaves
the last one, since all errors have the same members (`mergeResults_envelope`).  A node finds the
merged outputs under `input`, with the error in them (`inputScope_inputOf`).
-/
import Mathlib.Data.List.Induction
import Flowgraph.Proofs.Document.Merging
import Flowgraph.Proofs.Run.Unpublished
import Flowgraph.Run.Step

set_option autoImplicit false

namespace Flowgraph

/-! ## Merging values -/

namespace Value

/-- Values merged one after the other. -/
def mergeAll : List Value → Option Value
  | [] => none
  | v :: rest => some (rest.foldl merge v)

theorem mergeAll_concat (vs : List Value) (v : Value) :
    mergeAll (vs ++ [v]) = mergeOption (mergeAll vs) (some v) := by
  cases vs with
  | nil => rfl
  | cons w rest => simp [mergeAll, mergeOption, List.foldl_append]

theorem isObject_iff {v : Value} : v.isObject = true ↔ ∃ ms, v = .obj ms := by
  cases v <;> simp [isObject]

theorem isObject_merge {v w : Value} (object : w.isObject = true) :
    (v.merge w).isObject = true := by
  obtain ⟨ms, rfl⟩ := isObject_iff.1 object
  cases v <;> simp [merge, isObject]

theorem isObject_mergeAll {vs : List Value} (objects : ∀ v ∈ vs, v.isObject = true) :
    ((mergeAll vs).getD (.obj [])).isObject = true := by
  induction vs using List.reverseRecOn with
  | nil => rfl
  | append_singleton vs v =>
      have last : v.isObject = true := objects v (by simp)
      rw [mergeAll_concat]
      cases mergeAll vs with
      | none => exact last
      | some w => exact isObject_merge last

/-- What a node says of its failure. -/
def failure (message node : String) (name : Option String) (time : String) : Value :=
  .obj [("message", .str message), ("nodeId", .str node), ("nodeName", (name.map .str).getD .null),
    ("timestamp", .str time)]

def IsFailure (v : Value) : Prop := ∃ message node name time, v = failure message node name time

/-- A later failure replaces an earlier one. -/
theorem IsFailure.merge {v w : Value} (one : v.IsFailure) (two : w.IsFailure) : v.merge w = w := by
  obtain ⟨message, node, name, time, rfl⟩ := one
  obtain ⟨message', node', name', time', rfl⟩ := two
  cases name <;> cases name' <;>
    simp [failure, Value.merge, mergeMembers, Members.get?, Members.put]

/-- An object with a member `error`, if there is one to set. -/
def withError : Value → Option Value → Value
  | .obj ms, some e => .obj (Members.put "error" e ms)
  | v, _ => v

theorem isObject_withError {v : Value} (object : v.isObject = true) (e : Option Value) :
    (v.withError e).isObject = true := by
  obtain ⟨ms, rfl⟩ := isObject_iff.1 object
  cases e <;> rfl

end Value

/-! ## Result documents -/

namespace Document

/-- An object with no other members than `output`, an object, and `error`, a failure. -/
structure Envelope (d : Document) : Prop where
  members : ∃ ms, d.root = .obj ms ∧ (Members.keys ms).Nodup ∧
    ∀ key ∈ Members.keys ms, key = "output" ∨ key = "error"
  output : ∀ v, d.get? "output" = some v → v.isObject = true
  failure : ∀ v, d.get? "error" = some v → v.IsFailure

/-- Reading a member of an object. -/
theorem get?_member {d : Document} {ms : Members} {key : String}
    (parsed : Path.parse key = .ok [.key key]) (root : d.root = .obj ms) :
    d.get? key = Members.get? key ms := by
  rw [get?, parsed, root]
  simp only [Value.at?, Value.child?, Segment.keyText]
  cases Members.get? key ms <;> rfl

theorem get?_output {d : Document} {ms : Members} (root : d.root = .obj ms) :
    d.get? "output" = Members.get? "output" ms :=
  get?_member rfl root

theorem get?_error {d : Document} {ms : Members} (root : d.root = .obj ms) :
    d.get? "error" = Members.get? "error" ms :=
  get?_member rfl root

theorem envelope_empty : empty.Envelope := by
  have root : empty.root = .obj [] := rfl
  refine ⟨⟨[], root, List.nodup_nil, nofun⟩, ?_, ?_⟩
  · intro v has
    rw [get?_output root] at has
    cases has
  · intro v has
    rw [get?_error root] at has
    cases has

namespace Envelope

variable {d d' : Document} (one : d.Envelope) (two : d'.Envelope)
include one two

theorem get?_merge :
    (d.merge d').get? "output" = Value.mergeOption (d.get? "output") (d'.get? "output") ∧
    (d.merge d').get? "error" = Value.mergeOption (d.get? "error") (d'.get? "error") := by
  obtain ⟨old, root, -, -⟩ := one.members
  obtain ⟨ms, root', distinct, -⟩ := two.members
  have merged : (d.merge d').root = .obj (Value.mergeMembers old ms) := by
    rw [Document.merge, root, root', Value.merge]
  rw [get?_output merged, get?_error merged, get?_output root, get?_output root', get?_error root,
    get?_error root']
  exact ⟨Value.get?_mergeMembers_of_nodup distinct _, Value.get?_mergeMembers_of_nodup distinct _⟩

theorem merge : (d.merge d').Envelope where
  members := by
    obtain ⟨old, root, distinct, only⟩ := one.members
    obtain ⟨ms, root', -, only'⟩ := two.members
    refine ⟨Value.mergeMembers old ms, ?_, Value.nodup_keys_mergeMembers distinct, ?_⟩
    · rw [Document.merge, root, root', Value.merge]
    · intro key member
      rcases Value.mem_keys_mergeMembers member with here | there
      · exact only key here
      · exact only' key there
  output := by
    intro v has
    rw [(one.get?_merge two).1] at has
    cases old : d.get? "output" with
    | none =>
        rw [old] at has
        exact two.output v has
    | some w =>
        cases new : d'.get? "output" with
        | none =>
            rw [old, new] at has
            cases has
            exact one.output _ old
        | some w' =>
            rw [old, new] at has
            cases has
            exact Value.isObject_merge (two.output _ new)
  failure := by
    intro v has
    rw [(one.get?_merge two).2] at has
    cases old : d.get? "error" with
    | none =>
        rw [old] at has
        exact two.failure v has
    | some w =>
        cases new : d'.get? "error" with
        | none =>
            rw [old, new] at has
            cases has
            exact one.failure _ old
        | some w' =>
            rw [old, new] at has
            cases has
            rw [(one.failure _ old).merge (two.failure _ new)]
            exact two.failure _ new

end Envelope
end Document

/-- **Results merge in the order in which they come**: their outputs one after the other, and of
their errors the last one stays. -/
theorem mergeResults_envelope {ds : List Document} (envelopes : ∀ d ∈ ds, d.Envelope) :
    (mergeResults ds).Envelope ∧
    (mergeResults ds).get? "output" = Value.mergeAll (ds.filterMap (·.get? "output")) ∧
    (mergeResults ds).get? "error" = (ds.filterMap (·.get? "error")).getLast? := by
  induction ds using List.reverseRecOn with
  | nil => exact ⟨Document.envelope_empty, Document.get?_output rfl, Document.get?_error rfl⟩
  | append_singleton ds d ih =>
      obtain ⟨envelope, output, failure⟩ := ih fun d' member => envelopes d' (by simp [member])
      have last : d.Envelope := envelopes d (by simp)
      have merged : mergeResults (ds ++ [d]) = (mergeResults ds).merge d := by
        simp [mergeResults, List.foldl_append]
      obtain ⟨outputs, failures⟩ := envelope.get?_merge last
      rw [merged]
      refine ⟨envelope.merge last, ?_, ?_⟩
      · rw [outputs, output, List.filterMap_append]
        cases there : d.get? "output" with
        | none =>
            simp only [List.filterMap_cons, List.filterMap_nil, there, List.append_nil]
            cases Value.mergeAll (ds.filterMap (·.get? "output")) <;> rfl
        | some v => simp only [List.filterMap_cons, List.filterMap_nil, there, Value.mergeAll_concat]
      · rw [failures, List.filterMap_append]
        cases there : d.get? "error" with
        | none =>
            simp only [List.filterMap_cons, List.filterMap_nil, there, List.append_nil, ← failure]
            cases (mergeResults ds).get? "error" <;> rfl
        | some v =>
            simp only [List.filterMap_cons, List.filterMap_nil, there, List.getLast?_concat]
            cases old : (mergeResults ds).get? "error" with
            | none => rfl
            | some w =>
                exact congrArg some ((envelope.failure w old).merge (last.failure v there))

/-! ## What a node finds under `input` -/

/-- A scope has the received output under `input`, and in it the received error. -/
theorem inputScope_input {shared received scope : Document} {ms : Members}
    (root : shared.root = .obj ms) (envelope : received.Envelope)
    (taken : inputScope shared received = .ok scope) :
    scope.get? "input" =
      some (((received.get? "output").getD (.obj [])).withError (received.get? "error")) := by
  have whole : shared = ⟨.obj ms⟩ := congrArg Document.mk root
  have object : ((received.get? "output").getD (.obj [])).isObject = true := by
    cases there : received.get? "output" with
    | none => rfl
    | some v => exact envelope.output v there
  obtain ⟨output, same⟩ := Value.isObject_iff.1 object
  have read : ∀ members : Members, (⟨.obj members⟩ : Document).get? "input" =
      Members.get? "input" members := fun members => Document.get?_member rfl rfl
  simp only [inputScope, whole, same, Document.set_input, Value.assign_obj] at taken
  rw [same]
  cases failed : received.get? "error" with
  | none =>
      simp only [failed] at taken
      cases taken
      rw [read, Segment.keyText, Members.get?_put_self]
      rfl
  | some e =>
      simp only [failed, Document.set_inputError, Value.assign_obj] at taken
      cases taken
      rw [read, Segment.keyText, Members.get?_put_self, Members.get?_put_self]
      simp only [Value.assign, Option.getD_some, Value.assign_obj]
      rfl

/-- What a node that found some results at its upstreams is given under `input`: their outputs
merged in order, and the last of their errors. -/
def inputOf (found : List Document) : Value :=
  ((Value.mergeAll (found.filterMap (·.get? "output"))).getD (.obj [])).withError
    (found.filterMap (·.get? "error")).getLast?

theorem isObject_inputOf {found : List Document} (envelopes : ∀ d ∈ found, d.Envelope) :
    (inputOf found).isObject = true := by
  refine Value.isObject_withError (Value.isObject_mergeAll fun v member => ?_) _
  obtain ⟨d, there, output⟩ := List.mem_filterMap.1 member
  exact (envelopes d there).output v output

/-- **A scope has the merged outputs under `input`**, and in it the last of the errors. -/
theorem inputScope_inputOf {shared scope : Document} {found : List Document} {ms : Members}
    (root : shared.root = .obj ms) (envelopes : ∀ d ∈ found, d.Envelope)
    (taken : inputScope shared (mergeResults found) = .ok scope) :
    scope.get? "input" = some (inputOf found) := by
  obtain ⟨envelope, output, failure⟩ := mergeResults_envelope envelopes
  rw [inputScope_input root envelope taken, output, failure]
  rfl

/-! ## The results of a node -/

namespace Path

/-- A mapping writes below the output. -/
theorem parse_outputTarget {target : String} {p : Path}
    (parsed : parse ("output." ++ target) = .ok p) : ∃ s rest, p = .key "output" :: s :: rest := by
  have written : ("output." ++ target).toList = "output".toList ++ '.' :: target.toList := by simp
  obtain ⟨late, joined, rfl⟩ := parse_word written (by simp [Text.isBlank]) (by simp) rfl parsed
  have parts : Path.parts (Text.trimEnd target.toList) ≠ [] := Text.cut_ne_nil _ _ _ _
  obtain ⟨s, rest, rfl⟩ := List.exists_cons_of_ne_nil (joinParts_ne_nil parts joined)
  exact ⟨s, rest, rfl⟩

end Path

namespace Node

/-- A document of a node that completed: there is an output, and there is nothing else unless the
node merges what it received. -/
structure Completes (n : Node) (d : Document) : Prop where
  envelope : d.Envelope
  output : (d.get? "output").isSome = true
  alone : n.merges = false → ∃ v, d.root = .obj [("output", v)]

/-- A document of a node that failed: there is an error and nothing else. -/
structure Fails (n : Node) (d : Document) : Prop where
  envelope : d.Envelope
  alone : ∃ v, d.root = .obj [("error", v)]

/-- Output mappings write below the output and leave it an object. -/
theorem placeOutputs_output {members result placed : Document} {ms : Members}
    {mappings : List Mapping} (root : result.root = .obj [("output", .obj ms)])
    (ok : placeOutputs members result mappings = .ok placed) :
    ∃ ms', placed.root = .obj [("output", .obj ms')] := by
  induction mappings generalizing result ms with
  | nil =>
      cases ok
      exact ⟨ms, root⟩
  | cons m rest ih =>
      rw [placeOutputs] at ok
      split at ok
      · exact ih root ok
      · rename_i v _
        split at ok
        · cases ok
        · rename_i result' written
          simp only [Document.set] at written
          split at written
          · cases written
          · rename_i p parsed
            obtain ⟨s, way, rfl⟩ := Path.parse_outputTarget parsed
            split at written
            · cases written
            · cases written
              have root' : result.root.assign (.key "output" :: s :: way) v = .obj [("output",
                  .obj (Members.put s.keyText (((Members.get? s.keyText ms).getD .null).assign way v)
                    ms))] := by
                rw [root, Value.assign_obj]
                simp only [Segment.keyText, Members.get?, Members.put, if_true, Option.getD_some]
                rw [Value.assign_obj]
                rfl
              exact ih root' ok

theorem envelope_of_output {d : Document} {ms : Members} (root : d.root = .obj [("output", .obj ms)]) :
    d.Envelope where
  members := ⟨_, root, by simp [Members.keys], by simp [Members.keys]⟩
  output v has := by
    rw [Document.get?_output root] at has
    cases has
    rfl
  failure v has := by
    rw [Document.get?_error root] at has
    simp [Members.get?] at has

/-- **What a node makes of what its function returns has the shape of a completed result.** -/
theorem completes_of_shape {n : Node} {received d : Document} {returned : Returned}
    (envelope : received.Envelope) (shaped : n.shape received returned = .ok d) :
    n.Completes d := by
  rw [shape] at shaped
  dsimp only at shaped
  split at shaped
  · cases shaped
  · rename_i result placed
    obtain ⟨ms, root⟩ := placeOutputs_output rfl placed
    have plain : result.Envelope := envelope_of_output root
    have output : result.get? "output" = some (.obj ms) := Document.get?_output root
    cases merges : n.merges with
    | false =>
        simp only [merges, Bool.false_eq_true, if_false, Except.ok.injEq] at shaped
        subst shaped
        exact ⟨plain, by rw [output]; rfl, fun _ => ⟨_, root⟩⟩
    | true =>
        simp only [merges, if_true, Except.ok.injEq] at shaped
        subst shaped
        refine ⟨envelope.merge plain, ?_, fun no => ?_⟩
        · rw [(envelope.get?_merge plain).1, output]
          cases received.get? "output" <;> rfl
        · rw [merges] at no
          cases no

theorem completes_of_conclude {n : Node} {received d : Document}
    {outcome : Except NodeError Returned} (envelope : received.Envelope)
    (concluded : Machine.conclude n received outcome = .ok d) : n.Completes d := by
  cases outcome with
  | error e => cases concluded
  | ok returned =>
      rw [Machine.conclude] at concluded
      cases shaped : n.shape received returned with
      | error e => simp [shaped, Except.mapError] at concluded
      | ok d' =>
          simp only [shaped, Except.mapError, Except.ok.injEq] at concluded
          subst concluded
          exact completes_of_shape envelope shaped

theorem fails_failure (n : Node) (e : NodeError) (time : Instant) : n.Fails (n.failure e time) := by
  have root : (n.failure e time).root =
      .obj [("error", Value.failure e.message n.id.toText n.name time.toOffset)] := rfl
  refine ⟨⟨⟨_, root, by simp [Members.keys], by simp [Members.keys]⟩, ?_, ?_⟩, _, root⟩
  · intro v has
    rw [Document.get?_output root] at has
    simp [Members.get?] at has
  · intro v has
    rw [Document.get?_error root] at has
    simp only [Members.get?, if_true, Option.some.injEq] at has
    exact ⟨_, _, _, _, has.symm⟩

end Node
end Flowgraph
