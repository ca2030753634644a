/- # Flowgraph.Proofs.Run.Namespaces -- who decides on which part of a shared document

A shared document belongs to many: every node has the member of `nodes` that bears its
identifier, and the outputs of the workflow share `workflow.output`.  Each of these is
an `Owner`.  Whatever is called on a shared document, with whatever texts and values,
the document stays composed of what the run was given and of one part for each owner
(`Shared.compose`), and a call changes no part but that of its owner.  How it changes
that part, and whether it is refused, follows from the part alone (`Owner.respond`).

So the part of an owner and the answers to its calls depend on nothing but its own
calls in their order (`Shared.part_calls`, `Shared.answersTo_calls`).

A shared context makes its document when it is first used.  `OnDemand` is such a
context, and nothing can be told from when that happens (`OnDemand.answer_shared`).
-/
import Flowgraph.Proofs.Document.Writing
import Flowgraph.Proofs.Run.Places

set_option autoImplicit false

namespace Flowgraph

/-! ## Calls -/

/-- Who a part of a shared document belongs to. -/
inductive Owner where
  | node (id : NodeId)
  /-- All who publish workflow outputs. -/
  | output
  deriving DecidableEq

/-- Where the part of an owner is. -/
def Owner.path : Owner → String
  | .node id => Shared.nodePath id
  | .output => "workflow.output"

/-- What can be asked of a shared document. -/
inductive Call where
  | snapshot
  | get (path : String)
  | publishNode (node : NodeId) (key : String) (value : Value)
  | publishResult (node : NodeId) (result : Document)
  | publishOutput (name : String) (value : Value)

/-- Whose part a call is about; looking is nobody's. -/
def Call.owner? : Call → Option Owner
  | .snapshot | .get _ => none
  | .publishNode node _ _ | .publishResult node _ => some (.node node)
  | .publishOutput _ _ => some .output

/-- What a call gives back. -/
inductive Answer where
  | document (d : Document)
  | found (v : Option Value)
  | done (outcome : Except PathError Unit)

namespace Shared

/-- Answer a call. -/
def answer (s : Shared) : Call → Answer × Shared
  | .snapshot => (.document s.document, s)
  | .get path => (.found (s.get? path), s)
  | .publishNode node key value =>
    let (outcome, s) := s.publishNode node key value
    (.done outcome, s)
  | .publishResult node result => (.done (.ok ()), s.publishResult node result)
  | .publishOutput name value =>
    let (outcome, s) := s.publishOutput name value
    (.done outcome, s)

/-- The document after calls. -/
def after (s : Shared) (calls : List Call) : Shared := calls.foldl (fun s c => (s.answer c).2) s

/-- The answers to calls, one after the other. -/
def answers (s : Shared) : List Call → List Answer
  | [] => []
  | c :: rest => (s.answer c).1 :: answers (s.answer c).2 rest

/-- The answers that the calls of one owner get among calls. -/
def answersTo (s : Shared) (owner : Owner) (calls : List Call) : List Answer :=
  ((calls.zip (s.answers calls)).filter fun x => x.1.owner? == some owner).map Prod.snd

end Shared

/-- A shared context that makes its document when it is first used. -/
structure OnDemand where
  inputs : RunInputs
  document : Option Document

namespace OnDemand

def start (inputs : RunInputs) : OnDemand := ⟨inputs, none⟩

/-- What is seen of the context. -/
def shared (d : OnDemand) : Shared := ⟨d.inputs, d.document.getD (Shared.seed d.inputs)⟩

/-- Answer a call; an output without a name is refused before the document is used. -/
def answer (d : OnDemand) (c : Call) : Answer × OnDemand :=
  let (answer, s) := d.shared.answer c
  match c with
  | .publishOutput name _ =>
    (answer, if Text.isBlankText name then d else { d with document := some s.document })
  | _ => (answer, { d with document := some s.document })

def after (d : OnDemand) (calls : List Call) : OnDemand := calls.foldl (fun d c => (d.answer c).2) d

def answers (d : OnDemand) : List Call → List Answer
  | [] => []
  | c :: rest => (d.answer c).1 :: answers (d.answer c).2 rest

end OnDemand

/-! ## The parts of a document -/

/-- Write into a part at a path that reads on below the place of the part. -/
def Value.place (part : Option Value) (path : String) (v : Value) : Except PathError Value :=
  match Path.parse path with
  | .error e => .error e
  | .ok p =>
    match Value.gap? part (p.drop 2) with
    | some n => .error (.indexOutOfRange path n)
    | none => .ok ((part.getD .null).assign (p.drop 2) v)

/-- A value merged into a part. -/
def Value.mergeOver (part : Option Value) (v : Value) : Value :=
  match part with
  | some w => w.merge v
  | none => v

namespace Owner

/-- What becomes of the part of an owner by a call of that owner. -/
def respond (part : Option Value) : Call → Except PathError Value
  | .publishNode id key v => Value.place part (Shared.nodePath id ++ "." ++ key) v
  | .publishResult _ d => .ok (Value.mergeOver part d.root)
  | .publishOutput name v =>
    if Text.isBlankText name then .error .empty else Value.place part ("workflow.output." ++ name) v
  | _ => .ok (part.getD .null)

/-- The part after a call of its owner; a call that is refused leaves it as it was. -/
def next (part : Option Value) (c : Call) : Option Value :=
  match respond part c with
  | .ok v => some v
  | .error _ => part

/-- The outcomes of calls of one owner, one after the other. -/
def outcomes (part : Option Value) : List Call → List Answer
  | [] => []
  | c :: rest => .done ((respond part c).map fun _ => ()) :: outcomes (next part c) rest

end Owner

/-- What was published in a shared document: the outputs, and what the nodes have under `nodes`. -/
structure Parts where
  output : Option Value
  nodes : Option Members

namespace Parts

def none : Parts := ⟨.none, .none⟩

/-- The part of an owner. -/
def of (parts : Parts) : Owner → Option Value
  | .node id => Members.get? id.toText (parts.nodes.getD [])
  | .output => parts.output

/-- Put the part of an owner in its place. -/
def put (parts : Parts) (v : Value) : Owner → Parts
  | .node id => { parts with nodes := some (Members.put id.toText v (parts.nodes.getD [])) }
  | .output => { parts with output := some v }

/-- The parts after a call. -/
def after (parts : Parts) (c : Call) : Parts :=
  match c.owner? with
  | .none => parts
  | some owner =>
    match Owner.respond (parts.of owner) c with
    | .ok v => parts.put v owner
    | .error _ => parts

variable {parts : Parts}

theorem of_put (v : Value) (owner other : Owner) :
    (parts.put v owner).of other = if other = owner then some v else parts.of other := by
  cases owner with
  | output => cases other <;> simp [put, of]
  | node id =>
      cases other with
      | output => simp [put, of]
      | node k =>
          by_cases same : k = id
          · simp [put, of, same]
          · have text : k.toText ≠ id.toText := fun text => same (Uuid.toText_injective text)
            simp [put, of, same, Members.get?_put_ne text]

/-- A call changes the part of its owner, by what that part was, and no other. -/
theorem of_after (c : Call) (owner : Owner) : (parts.after c).of owner =
    if c.owner? = some owner then Owner.next (parts.of owner) c else parts.of owner := by
  unfold after Owner.next
  cases c.owner? with
  | none => simp
  | some other =>
      by_cases same : other = owner
      · subst same
        cases responded : Owner.respond (parts.of other) c <;> simp [responded, of_put]
      · cases responded : Owner.respond (parts.of other) c <;>
          simp [responded, of_put, same, Ne.symm same]

/-- The names under `nodes`. -/
def names (parts : Parts) : List String := Members.keys (parts.nodes.getD [])

theorem after_cases (parts : Parts) (c : Call) : parts.after c = parts ∨
    ∃ owner v, c.owner? = some owner ∧ parts.after c = parts.put v owner := by
  unfold after
  cases c.owner? with
  | none => exact .inl rfl
  | some owner =>
      cases responded : Owner.respond (parts.of owner) c with
      | error => simp [responded]
      | ok v => exact .inr ⟨owner, v, rfl, by simp [responded]⟩

/-- A call adds no name but that of the node that made it, and none twice. -/
theorem names_after (c : Call) : (parts.names.Nodup → (parts.after c).names.Nodup) ∧
    ∀ name ∈ (parts.after c).names, name ∈ parts.names ∨
      ∃ id, c.owner? = some (.node id) ∧ name = id.toText := by
  obtain same | ⟨owner, v, mine, put⟩ := after_cases parts c
  · rw [same]
    exact ⟨id, fun _ => .inl⟩
  · rw [put, mine]
    cases owner with
    | output => exact ⟨id, fun _ => .inl⟩
    | node id =>
        refine ⟨Members.nodup_keys_put, fun name member => ?_⟩
        obtain rfl | old := Members.mem_keys_put.1 member
        · exact .inr ⟨id, rfl, rfl⟩
        · exact .inl old

/-- What is under `nodes` bears the identifiers of nodes that were called, each once. -/
theorem names_calls (calls : List Call) :
    (parts.names.Nodup → (calls.foldl after parts).names.Nodup) ∧
    ∀ name ∈ (calls.foldl after parts).names, name ∈ parts.names ∨
      ∃ id, (∃ c ∈ calls, c.owner? = some (.node id)) ∧ name = id.toText := by
  induction calls generalizing parts with
  | nil => exact ⟨id, fun _ => .inl⟩
  | cons c rest ih =>
      obtain ⟨distinct, called⟩ := @ih (parts.after c)
      refine ⟨fun before => distinct ((names_after c).1 before), fun name member => ?_⟩
      obtain here | ⟨id, ⟨d, later, mine⟩, text⟩ := called name member
      · obtain old | ⟨id, mine, text⟩ := (names_after c).2 name here
        · exact .inl old
        · exact .inr ⟨id, ⟨c, List.mem_cons_self, mine⟩, text⟩
      · exact .inr ⟨id, ⟨d, List.mem_cons_of_mem _ later, mine⟩, text⟩

end Parts

namespace Shared

/-- The shared document of a run with these inputs when this has been published. -/
def compose (inputs : RunInputs) (parts : Parts) : Shared :=
  ⟨inputs, ⟨.obj (("workflow", .obj (("parameters", .obj inputs.parameters) ::
      (parts.output.map fun v => ("output", v)).toList)) ::
    ("environment", .obj (inputs.environment.map fun e => (e.1, .str e.2))) ::
    (parts.nodes.map fun ms => ("nodes", .obj ms)).toList)⟩⟩

variable {inputs : RunInputs} {parts : Parts}

theorem start_eq_compose (inputs : RunInputs) : start inputs = compose inputs .none := rfl

/-! ## What is read -/

/-- The part of an owner is what is read at its place. -/
theorem get?_compose (owner : Owner) : (compose inputs parts).get? owner.path = parts.of owner := by
  obtain ⟨output, nodes⟩ := parts
  cases owner with
  | node id =>
      simp only [get?, Owner.path, Document.get?, Path.parse_nodePath, compose]
      cases nodes with
      | none => cases output <;> rfl
      | some ms =>
          cases found : Members.get? id.toText ms <;> cases output <;>
            simp [Value.at?, Value.child?, Members.get?, Segment.keyText, Parts.of, found]
  | output =>
      have parsed : Path.parse "workflow.output" = .ok [.key "workflow", .key "output"] := rfl
      simp only [get?, Owner.path, Document.get?, parsed, compose]
      cases output <;> rfl

/-- What the run was given is read where it was put. -/
theorem get?_given : (compose inputs parts).get? "workflow.parameters" =
      some (.obj inputs.parameters) ∧
    (compose inputs parts).get? "environment" =
      some (.obj (inputs.environment.map fun e => (e.1, .str e.2))) := by
  have parsed : Path.parse "workflow.parameters" = .ok [.key "workflow", .key "parameters"] := rfl
  have parsed' : Path.parse "environment" = .ok [.key "environment"] := rfl
  constructor
  · simp only [get?, Document.get?, parsed, compose]
    rfl
  · simp only [get?, Document.get?, parsed', compose]
    rfl

/-! ## What is written -/

theorem gap?_node (id : NodeId) (rest : Path) :
    Value.gap? (some (compose inputs parts).document.root) (.key "nodes" :: .key id.toText :: rest) =
      Value.gap? (parts.of (.node id)) rest := by
  obtain ⟨output, nodes⟩ := parts
  cases nodes <;> cases output <;>
    simp [compose, Value.gap?, Members.get?, Segment.keyText, Parts.of]

theorem gap?_output (rest : Path) :
    Value.gap? (some (compose inputs parts).document.root)
      (.key "workflow" :: .key "output" :: rest) = Value.gap? parts.output rest := by
  obtain ⟨output, nodes⟩ := parts
  cases output <;> simp [compose, Value.gap?, Members.get?, Segment.keyText]

theorem assign_node (id : NodeId) (rest : Path) (v : Value) :
    (compose inputs parts).document.root.assign (.key "nodes" :: .key id.toText :: rest) v =
      (compose inputs (parts.put (((parts.of (.node id)).getD .null).assign rest v)
        (.node id))).document.root := by
  obtain ⟨output, nodes⟩ := parts
  cases nodes <;> cases output <;>
    simp [compose, Value.assign, Members.get?, Members.put, Parts.of, Parts.put]

theorem assign_output (rest : Path) (v : Value) :
    (compose inputs parts).document.root.assign (.key "workflow" :: .key "output" :: rest) v =
      (compose inputs (parts.put ((parts.output.getD .null).assign rest v) .output)).document.root := by
  obtain ⟨output, nodes⟩ := parts
  cases output <;> simp [compose, Value.assign, Members.get?, Members.put, Parts.put]

theorem merge_node (id : NodeId) (v : Value) :
    (compose inputs parts).document.merge ⟨.obj [("nodes", .obj [(id.toText, v)])]⟩ =
      (compose inputs
        (parts.put (Value.mergeOver (parts.of (.node id)) v) (.node id))).document := by
  obtain ⟨output, nodes⟩ := parts
  cases nodes with
  | none =>
      cases output <;> simp [compose, Document.merge, Value.merge, Value.mergeMembers, Members.get?,
        Members.put, Parts.of, Parts.put, Value.mergeOver]
  | some ms =>
      cases found : Members.get? id.toText ms <;> cases output <;>
        simp [compose, Document.merge, Value.merge, Value.mergeMembers, Members.get?, Members.put,
          Parts.of, Parts.put, Value.mergeOver, found]

theorem publishNode_compose (id : NodeId) (key : String) (v : Value) :
    (compose inputs parts).publishNode id key v =
      match Value.place (parts.of (.node id)) (nodePath id ++ "." ++ key) v with
      | .ok w => (.ok (), compose inputs (parts.put w (.node id)))
      | .error e => (.error e, compose inputs parts) := by
  simp only [publishNode, write, Document.set, Value.place]
  cases parsed : Path.parse (nodePath id ++ "." ++ key) with
  | error e => rfl
  | ok p =>
      obtain ⟨rest, -, rfl⟩ := Path.parse_node_iff.1 parsed
      simp only [gap?_node, List.drop_succ_cons, List.drop_zero]
      cases Value.gap? (parts.of (.node id)) rest with
      | some n => rfl
      | none => simp only [assign_node]; rfl

theorem publishOutput_compose (name : String) (v : Value) :
    (compose inputs parts).publishOutput name v =
      if Text.isBlankText name then (.error .empty, compose inputs parts)
      else
        match Value.place parts.output ("workflow.output." ++ name) v with
        | .ok w => (.ok (), compose inputs (parts.put w .output))
        | .error e => (.error e, compose inputs parts) := by
  simp only [publishOutput, write, Document.set, Value.place]
  split
  · rfl
  · cases parsed : Path.parse ("workflow.output." ++ name) with
    | error e => rfl
    | ok p =>
        obtain ⟨rest, -, rfl⟩ := Path.parse_output_iff.1 parsed
        simp only [gap?_output, List.drop_succ_cons, List.drop_zero]
        cases Value.gap? parts.output rest with
        | some n => rfl
        | none => simp only [assign_output]; rfl

/-- A result is never refused. -/
theorem publishResult_compose (id : NodeId) (d : Document) :
    (compose inputs parts).publishResult id d = compose inputs
      (parts.put (Value.mergeOver (parts.of (.node id)) d.root) (.node id)) := by
  have under : Document.empty.set (nodePath id) d.root =
      .ok ⟨.obj [("nodes", .obj [(id.toText, d.root)])]⟩ := by
    simp [Document.set, Path.parse_nodePath, Document.empty, Value.gap?, Members.get?, Value.assign,
      Members.put]
  simp only [publishResult, under, merge_node]
  rfl

/-! ## Calls -/

/-- **One call.**  A call of an owner is answered by the part of that owner, and it leaves the
document composed, with all other parts as they were. -/
theorem answer_compose {c : Call} {owner : Owner} (mine : c.owner? = some owner) :
    (compose inputs parts).answer c =
      (.done ((Owner.respond (parts.of owner) c).map fun _ => ()),
        compose inputs (parts.after c)) := by
  simp only [Parts.after, mine]
  cases c with
  | snapshot | get => cases mine
  | publishNode id key v =>
      cases mine
      simp only [answer, publishNode_compose, Owner.respond]
      cases Value.place (parts.of (.node id)) (nodePath id ++ "." ++ key) v <;> rfl
  | publishResult id d =>
      cases mine
      simp only [answer, publishResult_compose, Owner.respond]
      rfl
  | publishOutput name v =>
      cases mine
      simp only [answer, publishOutput_compose, Owner.respond, Parts.of]
      split
      · rfl
      · cases Value.place parts.output ("workflow.output." ++ name) v <;> rfl

theorem answer_snd_compose (c : Call) :
    ((compose inputs parts).answer c).2 = compose inputs (parts.after c) := by
  cases owned : c.owner? with
  | none =>
      cases c with
      | snapshot | get => rfl
      | _ => cases owned
  | some owner => rw [answer_compose owned]

/-- A document stays composed. -/
theorem after_compose (calls : List Call) :
    (compose inputs parts).after calls = compose inputs (calls.foldl Parts.after parts) := by
  induction calls generalizing parts with
  | nil => rfl
  | cons c rest ih =>
      rw [after, List.foldl_cons, answer_snd_compose, List.foldl_cons]
      exact ih

theorem start_after (inputs : RunInputs) (calls : List Call) :
    (start inputs).after calls = compose inputs (calls.foldl Parts.after .none) := by
  rw [start_eq_compose, after_compose]

/-- The part of an owner comes about by its own calls in their order. -/
theorem part_calls (owner : Owner) (calls : List Call) :
    (calls.foldl Parts.after parts).of owner =
      (calls.filter fun c => c.owner? == some owner).foldl Owner.next (parts.of owner) := by
  induction calls generalizing parts with
  | nil => rfl
  | cons c rest ih =>
      rw [List.foldl_cons, ih, Parts.of_after]
      by_cases mine : c.owner? = some owner
      · simp [mine]
      · simp [mine]

/-- So do the answers to them. -/
theorem answersTo_calls (owner : Owner) (calls : List Call) :
    (compose inputs parts).answersTo owner calls =
      Owner.outcomes (parts.of owner) (calls.filter fun c => c.owner? == some owner) := by
  induction calls generalizing parts with
  | nil => rfl
  | cons c rest ih =>
      have later := @ih (parts.after c)
      rw [Parts.of_after] at later
      simp only [answersTo] at later ⊢
      rw [answers, answer_snd_compose, List.zip_cons_cons, List.filter_cons, List.filter_cons]
      by_cases mine : c.owner? = some owner
      · simp only [mine, BEq.rfl, if_true, List.map_cons, Owner.outcomes, answer_compose mine] at later ⊢
        rw [later]
      · simp only [mine, if_false] at later
        simp [mine, later]

theorem answers_of_own {owner : Owner} {calls : List Call}
    (own : ∀ c ∈ calls, c.owner? = some owner) :
    (compose inputs parts).answers calls = Owner.outcomes (parts.of owner) calls := by
  induction calls generalizing parts with
  | nil => rfl
  | cons c rest ih =>
      have mine := own c List.mem_cons_self
      have later := @ih (parts.after c) fun d member => own d (List.mem_cons_of_mem _ member)
      rw [Parts.of_after, if_pos mine] at later
      rw [answers, answer_compose mine, Owner.outcomes, later]

theorem write_cases (s : Shared) (path : String) (v : Value) :
    ((s.write path v).1 = .ok () ∧ ∃ d, (s.write path v).2 = ⟨s.inputs, d⟩) ∨
      ∃ e, s.write path v = (.error e, s) := by
  unfold write
  cases s.document.set path v with
  | ok d => exact .inl ⟨rfl, d, rfl⟩
  | error e => exact .inr ⟨e, rfl⟩

/-- A call that is refused changes nothing. -/
theorem answer_refused (s : Shared) (c : Call) {e : PathError}
    (refused : (s.answer c).1 = .done (.error e)) : (s.answer c).2 = s := by
  have written : ∀ path v, (s.write path v).1 = .error e → (s.write path v).2 = s := by
    intro path v failed
    obtain ⟨fine, -⟩ | ⟨_, same⟩ := s.write_cases path v
    · cases fine.symm.trans failed
    · rw [same]
  cases c with
  | snapshot | get => rfl
  | publishResult => cases refused
  | publishNode id key v =>
      simp only [answer, publishNode, Answer.done.injEq] at refused ⊢
      exact written (nodePath id ++ "." ++ key) v refused
  | publishOutput name v =>
      simp only [answer, publishOutput, Answer.done.injEq] at refused ⊢
      split at refused
      · rename_i blank
        rw [if_pos blank]
      · rename_i named
        rw [if_neg named]
        exact written ("workflow.output." ++ name) v refused

/-- The inputs of a context are what it was made with. -/
theorem answer_inputs (s : Shared) (c : Call) : (s.answer c).2.inputs = s.inputs := by
  have written : ∀ path v, (s.write path v).2.inputs = s.inputs := by
    intro path v
    obtain ⟨-, d, made⟩ | ⟨_, same⟩ := s.write_cases path v
    · rw [made]
    · rw [same]
  cases c with
  | snapshot | get => rfl
  | publishNode id key v =>
      simp only [answer, publishNode]
      exact written (nodePath id ++ "." ++ key) v
  | publishResult id d =>
      simp only [answer, publishResult]
      split <;> rfl
  | publishOutput name v =>
      simp only [answer, publishOutput]
      split
      · rfl
      · exact written ("workflow.output." ++ name) v

/-- Looking changes nothing. -/
theorem answer_looked (s : Shared) {c : Call} (looking : c.owner? = none) : (s.answer c).2 = s := by
  cases c with
  | snapshot | get => rfl
  | _ => cases looking

end Shared

namespace OnDemand

/-- A context that makes its document late answers as one that made it at the start, and looks
the same after it. -/
theorem answer_shared (d : OnDemand) (c : Call) : (d.answer c).1 = (d.shared.answer c).1 ∧
    (d.answer c).2.shared = (d.shared.answer c).2 := by
  have made : (⟨d.inputs, (d.shared.answer c).2.document⟩ : Shared) = (d.shared.answer c).2 := by
    have inputs : (d.shared.answer c).2.inputs = d.inputs := Shared.answer_inputs d.shared c
    rw [← inputs]
  cases c with
  | publishOutput name v =>
      refine ⟨rfl, ?_⟩
      by_cases blank : Text.isBlankText name
      · simp [answer, Shared.answer, Shared.publishOutput, blank]
      · simp only [answer, blank, Bool.false_eq_true, if_false]
        exact made
  | _ =>
      simp only [answer, true_and]
      exact made

/-- So do all its answers. -/
theorem answers_shared (d : OnDemand) (calls : List Call) :
    d.answers calls = d.shared.answers calls ∧ (d.after calls).shared = d.shared.after calls := by
  induction calls generalizing d with
  | nil => exact ⟨rfl, rfl⟩
  | cons c rest ih =>
      obtain ⟨same, seen⟩ := d.answer_shared c
      obtain ⟨answers, after⟩ := ih (d.answer c).2
      rw [seen] at answers after
      exact ⟨by rw [OnDemand.answers, Shared.answers, same, answers], after⟩

end OnDemand

/-- **Owners keep apart.**  Whatever is called on the shared document of a run, with whatever
texts and values, it stays composed of what the run was given and of the parts of the owners.
The part of an owner, and the answers to its calls, come about by its own calls in their order:
they are those of another run, of whatever inputs, in which no one else called.  A call that is
refused changes nothing, and it makes no difference when the document was made. -/
theorem Shared.owners_keep_apart (inputs : RunInputs) (calls : List Call) :
    let shared := (Shared.start inputs).after calls
    (∃ parts : Parts, shared = Shared.compose inputs parts ∧ parts.names.Nodup ∧
      ∀ name ∈ parts.names, ∃ id, (∃ c ∈ calls, c.owner? = some (.node id)) ∧ name = id.toText) ∧
    shared.get? "workflow.parameters" = some (.obj inputs.parameters) ∧
    shared.get? "environment" = some (.obj (inputs.environment.map fun e => (e.1, .str e.2))) ∧
    (∀ (owner : Owner) (others : RunInputs),
      let own := calls.filter fun c => c.owner? == some owner
      shared.get? owner.path = ((Shared.start others).after own).get? owner.path ∧
      (Shared.start inputs).answersTo owner calls = (Shared.start others).answers own) ∧
    (∀ c, c.owner? = none → (shared.answer c).2 = shared) ∧
    (∀ c e, (shared.answer c).1 = .done (.error e) → (shared.answer c).2 = shared) ∧
    (OnDemand.start inputs).answers calls = (Shared.start inputs).answers calls ∧
    ((OnDemand.start inputs).after calls).shared = shared := by
  intro shared
  have composed : shared = Shared.compose inputs (calls.foldl Parts.after .none) :=
    Shared.start_after inputs calls
  obtain ⟨distinct, named⟩ := @Parts.names_calls .none calls
  obtain ⟨answers, seen⟩ := (OnDemand.start inputs).answers_shared calls
  refine ⟨⟨_, composed, distinct List.nodup_nil, fun name member => ?_⟩,
    ?_, ?_, fun owner others => ?_,
    fun c => shared.answer_looked, fun c e => shared.answer_refused c, answers, seen⟩
  · obtain old | called := named name member
    · cases old
    · exact called
  · rw [composed, Shared.get?_given.1]
  · rw [composed, Shared.get?_given.2]
  · intro own
    have only : ∀ c ∈ own, c.owner? = some owner := fun c member => by
      simpa using (List.mem_filter.1 member).2
    have alone : own.filter (fun c => c.owner? == some owner) = own :=
      List.filter_eq_self.2 fun c member => by simp [only c member]
    constructor
    · rw [composed, Shared.start_after others own, Shared.get?_compose,
        Shared.get?_compose, Shared.part_calls, Shared.part_calls, alone]
    · rw [Shared.start_eq_compose, Shared.start_eq_compose, Shared.answersTo_calls,
        Shared.answers_of_own only]

end Flowgraph
