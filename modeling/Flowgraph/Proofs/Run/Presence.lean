/- # Flowgraph.Proofs.Run.Presence -- which nodes are present in the shared document

The shared document of a run is composed of what was published, owner by owner.  A node
has a part in it as soon as its function publishes something or its result is published,
whichever comes first; nobody takes a part away.  So a node without a result that nobody
computes is absent, and one whose result is published is present (`Presence`).
-/
import Flowgraph.Proofs.Run.Namespaces
import Flowgraph.Proofs.Run.Tidy

set_option autoImplicit false

namespace Flowgraph

theorem Owner.next_isSome {part : Option Value} (there : part.isSome = true) (c : Call) :
    (Owner.next part c).isSome = true := by
  unfold Owner.next
  split
  · rfl
  · exact there

/-- What is published of one node or as an output makes no other node present. -/
theorem Parts.isSome_after {parts : Parts} {c : Call} {owner : Owner}
    (there : ((parts.after c).of owner).isSome = true) :
    (parts.of owner).isSome = true ∨ c.owner? = some owner := by
  rw [Parts.of_after] at there
  split at there
  · rename_i mine
    exact .inr mine
  · exact .inl there

theorem Parts.isSome_kept {parts : Parts} {owner : Owner} (there : (parts.of owner).isSome = true)
    (c : Call) : ((parts.after c).of owner).isSome = true := by
  rw [Parts.of_after]
  split
  · exact Owner.next_isSome there c
  · exact there

namespace Machine

variable {g : Graph} {m m' : Machine} {t first : TaskId} {r j : RunId} {n : Node} {id : NodeId}
  {x x' : Execution} {work work' : Work} {e : Effect} {h : List Deed}

/-! ## What is published -/

/-- What a step publishes: a program for its node, or as an output, or a call its result. -/
inductive Publishes : Work → Work → Call → Prop
  | node {work work' : Work} {id x key value} (program : work.program? = some (id, x)) :
      Publishes work work' (.publishNode id key value)
  | output {work work' : Work} {id x name value} (program : work.program? = some (id, x)) :
      Publishes work work' (.publishOutput name value)
  | result {id began began' d} :
      Publishes (.call id began (.publish d)) (.call id began' (.unmark d)) (.publishResult id d)

/-- The shared document changes by what a step publishes, and a result is not passed over. -/
theorem Transition.shared (rule : Transition g m t r work work' e) (run : RunRecord) :
    ((e.run run).shared = run.shared ∧ ∀ id began d, work ≠ .call id began (.publish d)) ∨
      ∃ c, Publishes work work' c ∧ (e.run run).shared = (run.shared.answer c).2 := by
  have execution {n : Node} {x x' : Execution} (step : ExecutionStep m r n x x' e)
      (program : work.program? = some (n.id, x)) : (e.run run).shared = run.shared ∨
        ∃ c, Publishes work work' c ∧ (e.run run).shared = (run.shared.answer c).2 := by
    cases step with
    | @publish key value =>
        exact .inr ⟨.publishNode n.id key value, .node program, by simp only [Shared.answer]⟩
    | @publishOutput name value =>
        exact .inr ⟨.publishOutput name value, .output program, by simp only [Shared.answer]⟩
    | _ => exact .inl rfl
  cases rule with
  | call known step =>
      cases Graph.id_of_node? known
      cases step with
      | work step => exact (execution step rfl).imp_left fun same => ⟨same, by simp⟩
      | publish => exact .inr ⟨.publishResult _ _, .result, rfl⟩
      | _ => exact .inl ⟨rfl, by simp⟩
  | aside known step =>
      cases Graph.id_of_node? known
      exact (execution step rfl).imp_left fun same => ⟨same, by simp⟩
  | _ => exact .inl ⟨rfl, by simp⟩

/-- A result has been published, as far as `told` tells, or is about to be.  After a step this is so
still, unless the step is the one that publishes it. -/
theorem Transition.announced (told : Document → Prop) {d : Document}
    (here : m.tasks[t]? = some ⟨j, work⟩) (rule : Transition g m t j work work' e)
    (after : After m t j work' e m')
    (before : ∀ {d}, (m.cell id).result = some d → told d ∨ ∃ i k, m.Calling i k id (.publish d))
    (has : (m'.cell id).result = some d) :
    told d ∨ (∃ i k, m'.Calling i k id (.publish d)) ∨
      ∃ began, work = .call id began (.publish d) := by
  rw [after.cell] at has
  obtain same | ⟨d', stored, now⟩ := rule.result id
  · obtain there | ⟨i, k, calling⟩ := before (same ▸ has)
    · exact .inl there
    · obtain ⟨-, stays⟩ | ⟨rfl, rfl, -⟩ := calling.moved here rule after
      · exact .inr (.inl ⟨i, k, stays⟩)
      · obtain ⟨began, there⟩ := calling
        cases here.symm.trans there
        exact .inr (.inr ⟨began, rfl⟩)
  · cases has.symm.trans now
    obtain ⟨-, began, began', rfl, rfl⟩ := rule.of_stored stored
    exact .inr (.inl ⟨j, t, began', after.here⟩)

/-! ## The invariant -/

/-- The document of the run `r` is composed of parts; a node that has one has begun, and a node
with a result has one, but while the result is about to be published. -/
structure Presence (inputs : RunInputs) (r : RunId) (m : Machine) (parts : Parts) : Prop where
  running : ∃ run, m.run? r = some run ∧ run.shared = .compose inputs parts
  begun : ∀ {id}, (parts.of (.node id)).isSome = true → m.Begun id
  published : ∀ {id d}, (m.cell id).result = some d →
    (parts.of (.node id)).isSome = true ∨ ∃ j k, m.Calling j k id (.publish d)

theorem Presence.step {inputs : RunInputs} {parts : Parts} (presence : m.Presence inputs r parts)
    (traced : m.Traced first r h) (memo : m.Memo first) (here : m.tasks[t]? = some ⟨j, work⟩)
    (rule : Transition g m t j work work' e) (after : After m t j work' e m') :
    ∃ parts', m'.Presence inputs r parts' := by
  obtain rfl := traced.current here rule
  obtain ⟨run, running, composed⟩ := presence.running
  have running' : m'.run? j = some (e.run run) := by rw [after.run, if_pos rfl, running]; rfl
  obtain ⟨same, other⟩ | ⟨c, publishes, changed⟩ := rule.shared run
  · refine ⟨parts, ⟨_, running', same.trans composed⟩,
      fun there => (presence.begun there).step memo here rule after, fun has => ?_⟩
    obtain there | calling | ⟨began, now⟩ := rule.announced _ here after presence.published has
    · exact .inl there
    · exact .inr calling
    · exact absurd now (other _ _ _)
  · refine ⟨parts.after c, ⟨_, running', ?_⟩, fun there => ?_, fun has => ?_⟩
    · rw [changed, composed, Shared.answer_snd_compose]
    · obtain there | mine := Parts.isSome_after there
      · exact (presence.begun there).step memo here rule after
      · cases publishes with
        | node program =>
            cases mine
            have begun := (traced.program (traced.recent here rule) here program).1
            exact begun.step memo here rule after
        | output => cases mine
        | result =>
            cases mine
            have calling : m.Calling j t _ _ := ⟨_, here⟩
            have has := memo.known (traced.recent here rule) calling rfl
            exact .inl ⟨_, memo.result_kept here rule after has⟩
    · obtain there | calling | ⟨began, rfl⟩ := rule.announced _ here after presence.published has
      · exact .inl (Parts.isSome_kept there c)
      · exact .inr calling
      · cases publishes with
        | node program | output program => cases program
        | result =>
            left
            simp [Parts.of_after, Call.owner?, Owner.next, Owner.respond]

/-- A run starts with nothing published and no results. -/
theorem presence_launched (m : Machine) (execution : ExecutionId) (inputs : RunInputs) :
    (m.launched g execution inputs).Presence inputs m.nextRun .none where
  running := ⟨_, run?_begin g m execution inputs [.launch], Shared.start_eq_compose inputs⟩
  begun := nofun
  published := by
    intro id d has
    rw [launched, cell_begin] at has
    cases has

end Machine
end Flowgraph
