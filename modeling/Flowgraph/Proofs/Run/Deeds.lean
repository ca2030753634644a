/- # Flowgraph.Proofs.Run.Deeds -- where the deeds of a step are done

A step has at most one deed.  Calling the function, writing the result and
starting what lies behind a node are each done at one stage of a call, and
nothing else writes a result, takes along what waits in a queue, or starts a
fan-out.
-/
import Flowgraph.Proofs.Run.Standing

set_option autoImplicit false

namespace Flowgraph

namespace Machine

variable {g : Graph} {m m' : Machine} {t k f : TaskId} {r j : RunId} {n : Node} {id : NodeId}
  {x x' : Execution} {work work' : Work} {e : Effect} {d : Document}

theorem ExecutionStep.deeds (step : ExecutionStep m r n x x' e) :
    e.deeds = [] ∨ ∃ port queued, e.deeds = [.fired n.id port queued] := by
  cases step with
  | late | queue => exact .inr ⟨_, _, rfl⟩
  | _ => exact .inl rfl

/-- A step has at most one deed. -/
theorem Transition.deeds_length (rule : Transition g m t r work work' e) : e.deeds.length ≤ 1 := by
  cases rule with
  | call known step =>
      cases step with
      | work step => obtain none | ⟨_, _, one⟩ := step.deeds <;> simp [*]
      | _ => simp
  | aside known step => obtain none | ⟨_, _, one⟩ := step.deeds <;> simp [*]
  | _ => simp

/-- At which step of the task `t` a deed is done. -/
inductive DoneAt (g : Graph) (t : TaskId) : Work → Work → Deed → Prop
  | invoked {id began began' received scope x i} :
      DoneAt g t (.call id began (.record received scope)) (.call id began' (.run received x))
        (.invoked id t i)
  | ended {id began began' received stage outcome} :
      DoneAt g t (.call id began (.run received (.active (.finish outcome))))
        (.call id began' stage) (.ended id t outcome)
  | stored {id began began' d} :
      DoneAt g t (.call id began (.store d)) (.call id began' (.publish d)) (.stored id t d)
  | branched {id began began' d pending f} :
      DoneAt g t (.call id began (.branch d pending)) (.call id began' (.done d))
        (.branched id t f)
  | fired {id n port queued work work'} (known : g.node? id = some n)
      (driven : n.isPortDriven = true) : DoneAt g t work work' (.fired id port queued)

theorem ExecutionStep.doneAt (step : ExecutionStep m r n x x' e) (known : g.node? id = some n)
    {deed : Deed} (member : deed ∈ e.deeds) : DoneAt g t work work' deed := by
  cases Graph.id_of_node? known
  cases step with
  | late driven | queue driven =>
      cases List.mem_singleton.1 member
      exact .fired known driven
  | _ => simp at member

theorem Transition.doneAt (rule : Transition g m t r work work' e) {deed : Deed}
    (member : deed ∈ e.deeds) : DoneAt g t work work' deed := by
  cases rule with
  | call known step =>
      cases Graph.id_of_node? known
      cases step with
      | work step => exact step.doneAt known member
      | invoke | finish | store | branch =>
          cases List.mem_singleton.1 member
          constructor
      | _ => simp at member
  | aside known step => exact step.doneAt known member
  | _ => simp at member

theorem Transition.of_invoked (rule : Transition g m t r work work' e) {i : Invocation}
    (deed : .invoked id k i ∈ e.deeds) :
    k = t ∧ ∃ began began' received scope x, work = .call id began (.record received scope) ∧
      work' = .call id began' (.run received x) := by
  cases rule.doneAt deed with
  | invoked => exact ⟨rfl, _, _, _, _, _, rfl, rfl⟩

theorem Transition.of_stored (rule : Transition g m t r work work' e)
    (deed : .stored id k d ∈ e.deeds) :
    k = t ∧ ∃ began began', work = .call id began (.store d) ∧
      work' = .call id began' (.publish d) := by
  cases rule.doneAt deed with
  | stored => exact ⟨rfl, _, _, rfl, rfl⟩

theorem Transition.of_branched (rule : Transition g m t r work work' e)
    (deed : .branched id k f ∈ e.deeds) :
    k = t ∧ ∃ began began' d pending, work = .call id began (.branch d pending) ∧
      work' = .call id began' (.done d) := by
  cases rule.doneAt deed with
  | branched => exact ⟨rfl, _, _, _, _, rfl, rfl⟩

/-- Only a node with ports has fires accepted. -/
theorem Transition.of_fired (rule : Transition g m t r work work' e) {port : String} {queued : Bool}
    (deed : .fired id port queued ∈ e.deeds) :
    ∃ n, g.node? id = some n ∧ n.isPortDriven = true := by
  cases rule.doneAt deed with
  | fired known driven => exact ⟨_, known, driven⟩

/-- A result changes only by being written. -/
theorem Transition.result (rule : Transition g m t r work work' e) (id : NodeId) :
    (e.cell id (m.cell id)).result = (m.cell id).result ∨
      ∃ d, .stored id t d ∈ e.deeds ∧ (e.cell id (m.cell id)).result = some d := by
  obtain ⟨n, _, _, _, _, -, rfl, -, -, step⟩ | ⟨-, -, same | ⟨n, x, x', -, rfl, -, -, step⟩⟩ :=
    rule.node_cases id
  · cases step with
    | store => exact .inr ⟨_, List.mem_singleton_self _, by simp⟩
    | work step => exact .inl (step.cell_kept _).2
    | enter | mark | unbound | invoke | blame | unmark | release | close | yield =>
        left
        simp
    | _ => exact .inl rfl
  · exact .inl (congrArg Cell.result (same _))
  · exact .inl (step.cell_kept _).2

/-- The error of a node is set just before its failure is stored, and at no other time. -/
theorem Transition.error (rule : Transition g m t r work work' e) (id : NodeId) :
    (e.cell id (m.cell id)).error = (m.cell id).error ∨
      ∃ n began began' cause, g.node? id = some n ∧ work = .call id began (.blame cause) ∧
        work' = .call id began' (.store (n.failure cause m.now)) ∧
        (e.cell id (m.cell id)).error = some cause := by
  obtain ⟨n, _, _, _, _, known, rfl, rfl, rfl, step⟩ |
    ⟨-, -, same | ⟨n, x, x', -, rfl, -, -, step⟩⟩ := rule.node_cases id
  · cases step with
    | blame => exact .inr ⟨n, _, _, _, known, rfl, rfl, by simp⟩
    | work step => exact .inl (step.error_kept _)
    | enter | mark | unbound | invoke | store | unmark | release | close | yield =>
        left
        simp
    | _ => exact .inl rfl
  · exact .inl (congrArg Cell.error (same _))
  · exact .inl (step.error_kept _)

/-- A program puts what it fires into the queue of its node while that is open, and changes no
queue otherwise. -/
theorem ExecutionStep.queue_grows (step : ExecutionStep m r n x x' e) (id : NodeId) :
    (e.cell id (m.cell id)).queue =
        ⟨(m.cell id).queue.closed, (m.cell id).queue.pending ++ queuedFires id e.deeds⟩ ∧
      ((m.cell id).queue.closed = true → queuedFires id e.deeds = []) := by
  cases step with
  | queue driven declared isOpen =>
      by_cases mine : id = n.id
      · subst mine
        simp [isOpen, queuedFires, Deed.queued?]
      · simp [onCell_ne _ _ mine, queuedFires, Deed.queued?, Ne.symm mine]
  | _ => simp [queuedFires, Deed.queued?, List.filterMap_cons]

/-- **The queue of a node.**  It takes what is fired while it is open; the call that closes it takes
along what waits there. -/
theorem Transition.queue (rule : Transition g m t r work work' e) (id : NodeId) :
    ((e.cell id (m.cell id)).queue =
        ⟨(m.cell id).queue.closed, (m.cell id).queue.pending ++ queuedFires id e.deeds⟩ ∧
      ((m.cell id).queue.closed = true → queuedFires id e.deeds = [])) ∨
    ((e.cell id (m.cell id)).queue = ⟨true, []⟩ ∧ queuedFires id e.deeds = [] ∧
      ∃ began began' d, work = .call id began (.close d) ∧
        work' = .call id began' (.branch d (m.cell id).queue.pending)) := by
  have still {c : Cell} (same : c.queue = (m.cell id).queue) (none : queuedFires id e.deeds = []) :
      c.queue = ⟨(m.cell id).queue.closed, (m.cell id).queue.pending ++ queuedFires id e.deeds⟩ ∧
        ((m.cell id).queue.closed = true → queuedFires id e.deeds = []) := by
    simp [same, none]
  cases rule with
  | @call _ n began stage stage' e known step =>
      cases step with
      | work step => exact .inl (step.queue_grows id)
      | close =>
          by_cases mine : id = n.id
          · cases Graph.id_of_node? known
            subst mine
            exact .inr ⟨by simp, rfl, _, _, _, rfl, rfl⟩
          · exact .inl (still (by simp [onCell, mine]) rfl)
      | enter | mark | unbound | invoke | blame | store | unmark | release | yield =>
          refine .inl (still ?_ rfl)
          simp only [onCell]
          split <;> rfl
      | _ => exact .inl (still rfl rfl)
  | aside known step => exact .inl (step.queue_grows id)
  | _ => exact .inl (still rfl rfl)

/-- A queue holds what was fired. -/
theorem Transition.pending (rule : Transition g m t r work work' e) {port : String}
    (waits : port ∈ (e.cell id (m.cell id)).queue.pending) :
    port ∈ (m.cell id).queue.pending ∨ .fired id port true ∈ e.deeds := by
  obtain ⟨grown, -⟩ | ⟨taken, -⟩ := rule.queue id
  · rw [grown] at waits
    exact (List.mem_append.1 waits).imp_right mem_queuedFires.1
  · rw [taken] at waits
    cases waits

theorem Transition.closed (rule : Transition g m t r work work' e)
    (closed : (m.cell id).queue.closed = true) : (e.cell id (m.cell id)).queue.closed = true := by
  obtain ⟨same, -⟩ | ⟨now, -⟩ := rule.queue id
  · rw [same, closed]
  · rw [now]

/-- Nothing is put into a queue that is closed. -/
theorem Transition.queue_closed (rule : Transition g m t r work work' e)
    (closed : (m.cell id).queue.closed = true) : queuedFires id e.deeds = [] := by
  obtain ⟨-, none⟩ | ⟨-, none, -⟩ := rule.queue id
  · exact none closed
  · exact none

/-- What can be read as a result was stored. -/
theorem After.stored_of_result (after : After m t r work' e m')
    (rule : Transition g m t r work work' e) {h : List Deed}
    (stored : ∀ {d}, (m.cell id).result = some d → ∃ k, .stored id k d ∈ h)
    (has : (m'.cell id).result = some d) : ∃ k, .stored id k d ∈ h ++ e.deeds := by
  rw [after.cell] at has
  obtain same | ⟨d', new, now⟩ := rule.result id
  · obtain ⟨k, old⟩ := stored (same ▸ has)
    exact ⟨k, List.mem_append_left _ old⟩
  · cases now.symm.trans has
    exact ⟨t, List.mem_append_right _ new⟩

/-! ## Tasks that are spawned -/

/-- The fan-out of a node is started by the call that goes on from it. -/
theorem Transition.of_fanOut (rule : Transition g m t r work work' e) {index : Nat}
    {rounds : List (List NodeId)} {waiting : List TaskId}
    (new : e.spawned[index]? = some ⟨j, .fanOut id rounds waiting⟩) :
    .branched id t (m.tasks.size + index) ∈ e.deeds := by
  cases rule.spawnedAt new with
  | fanOut branched => exact branched

/-- Entries are started by a launch, in order. -/
theorem Transition.of_entry (rule : Transition g m t r work work' e) {index : Nat} {launch : TaskId}
    {stage : EntryStage} (new : e.spawned[index]? = some ⟨j, .entry launch id stage⟩) :
    launch = t ∧ ∃ permits, work = .launch permits .spawn ∧
      work' = .launch permits (.join (List.range' m.tasks.size g.entries.length)) ∧
      g.entries[index]? = some id := by
  cases rule.spawnedAt new with
  | entry named => exact ⟨rfl, _, rfl, rfl, named⟩

/-- A task that waits for everything is started by a launch whose entries are done. -/
theorem Transition.of_settle (rule : Transition g m t r work work' e) {index : Nat}
    {stage : SettleStage} (new : e.spawned[index]? = some ⟨j, .settle stage⟩) :
    index = 0 ∧ ∃ permits ts, work = .launch permits (.join ts) ∧
      work' = .launch permits (.settle m.tasks.size) := by
  cases rule.spawnedAt new with
  | settle first => exact ⟨first, _, _, rfl, rfl⟩

end Machine
end Flowgraph
