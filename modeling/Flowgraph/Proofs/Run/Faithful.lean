/- # Flowgraph.Proofs.Run.Faithful -- a data-flow run keeps to the evaluation

In a graph without ports every node waits for all of its sources.  So what a node
is given, at whatever moment its call is scheduled, is the merge of results that
will not change any more, and from there on its call carries what the evaluation
has at that place: the same received document, the same arguments, the same
outcome.  `Faithful` is that invariant.  It needs nothing of the order of steps.

The shared document does differ between schedules, but only where nodes have
published, and expressions that are blind to that bind the same arguments.
-/
import Flowgraph.Proofs.Run.Evaluation
import Flowgraph.Proofs.Run.Feeding
import Flowgraph.Proofs.Run.Spread

set_option autoImplicit false

namespace Flowgraph

/-- A graph of which no node has ports and no expression reads what is published. -/
structure Graph.DataFlow (g : Graph) : Prop where
  plain : ∀ n ∈ g.nodes, n.isPortDriven = false
  blind : ∀ n ∈ g.nodes, ∀ e ∈ n.expressions, Binding.Blind g.evaluator e

namespace Machine

variable {g : Graph} {m m' : Machine} {t k first : TaskId} {r j : RunId} {n : Node} {id : NodeId}
  {began : Instant} {stage stage' : Stage} {x x' : Execution} {work work' : Work} {e : Effect}
  {h : List Deed} {on : Conditions} {cs : List Connection}

/-! ## What has been given -/

/-- What a node has given so far. -/
def given? (m : Machine) (id : NodeId) : Option Given :=
  (m.cell id).result.map fun d => ⟨d, (m.cell id).error⟩

theorem given?_result (m : Machine) (id : NodeId) :
    (m.given? id).map Given.result = (m.cell id).result := by
  cases has : (m.cell id).result <;> simp [given?, has]

/-- When a node has all that it waits for, every source of it has a result. -/
theorem Fed.source (wired : Wired cs g.nodes) (dataFlow : g.DataFlow) (there : n ∈ g.nodes)
    (fed : Fed g m n) {c : Connection} (member : c ∈ cs) (target : c.target = n.id) :
    ∃ d, (m.cell c.source).result = some d := by
  have source : c.source ∈ n.upstream.map Upstream.node := by
    rw [wired.upstream n there, mem_sourcesOf]
    exact ⟨c, member, rfl, target⟩
  obtain ⟨u, linked, named⟩ := List.mem_map.1 source
  obtain ⟨s, found, port⟩ := wired.upstream_known there linked
  have waits : u.viaPort = false := by rw [port, dataFlow.plain s (Graph.mem_of_node? found)]
  rw [← named]
  exact fed u linked waits (by rw [found]; rfl)

section Kept

variable (memo : m.Memo first) (here : m.tasks[t]? = some ⟨r, work⟩)
  (rule : Transition g m t r work work' e) (after : After m t r work' e m')
include memo here rule after

/-- What has been given stays. -/
theorem Memo.given_kept {d : Document} (has : (m.cell id).result = some d) :
    m'.given? id = m.given? id := by
  have result : (m'.cell id).result = some d := memo.result_kept here rule after has
  have error : (m'.cell id).error = (m.cell id).error := by
    rw [after.cell]
    obtain same | ⟨n, began, began', cause, -, rfl, -⟩ := rule.error id
    · exact same
    · cases (memo.unset ⟨began, here⟩ rfl).symm.trans has
  rw [given?, given?, result, has, error]

/-- What a node receives stays when everything it waits for is there. -/
theorem Fed.received_kept (wired : Wired cs g.nodes) (dataFlow : g.DataFlow) (there : n ∈ g.nodes)
    (fed : Fed g m n) :
    Conditions.received cs m'.given? n = Conditions.received cs m.given? n := by
  refine Conditions.received_congr fun c member target => ?_
  obtain ⟨d, has⟩ := fed.source wired dataFlow there member target
  exact memo.given_kept here rule after has

end Kept

/-- When everything that was fetched is done, its merge is what the node receives. -/
theorem Memo.fetchedResults (memo : m.Memo first) {asked : List Upstream} {fetched : List Fetch}
    (got : List.Forall₂ (Fetched g first m) asked fetched)
    (waits : ∀ u ∈ asked, u.viaPort = false ∧ (g.node? u.node).isSome = true)
    (all : m.fetchedAll fetched = true) : m.fetchedResults fetched =
      (asked.map Upstream.node).filterMap fun s => (m.given? s).map Given.result := by
  induction got with
  | nil => rfl
  | @cons u f asked fetched one _ ih =>
      obtain ⟨noPort, known⟩ := waits u List.mem_cons_self
      simp only [Machine.fetchedAll, List.all_cons, Bool.and_eq_true] at all
      have later := ih (fun v member => waits v (List.mem_cons_of_mem _ member)) all.2
      cases one with
      | unknown unknown =>
          rw [unknown] at known
          cases known
      | missed port | present port =>
          rw [port] at noPort
          cases noPort
      | @awaited r k stage _ recent calling =>
          obtain ⟨d, rfl, has⟩ := memo.done_of_isDone recent calling all.1
          obtain ⟨began, here⟩ := calling
          have result : m.resultOf? k = some d := by
            rw [resultOf?, here]
            rfl
          simp only [Machine.fetchedResults, given?_result] at later ⊢
          simp only [List.filterMap_cons, List.map_cons, result, has]
          rw [later]

/-! ## The shared document -/

theorem ExecutionStep.seeded (step : ExecutionStep m r n x x' e) {run : RunRecord}
    {inputs : RunInputs} (seeded : run.shared.Seeded inputs) : (e.run run).shared.Seeded inputs := by
  cases step with
  | @publish key value =>
      dsimp only
      exact seeded.publishNode n.id key value
  | @publishOutput name value =>
      dsimp only
      exact seeded.publishOutput name value
  | _ => exact seeded

/-- Whatever is done to the shared document is publishing. -/
theorem Transition.seeded (rule : Transition g m t r work work' e) {run : RunRecord}
    {inputs : RunInputs} (seeded : run.shared.Seeded inputs) : (e.run run).shared.Seeded inputs := by
  cases rule with
  | @call _ n _ _ _ _ known step =>
      cases step with
      | work step => exact step.seeded seeded
      | @publish d =>
          dsimp only
          exact seeded.publishResult n.id d
      | _ => exact seeded
  | aside known step => exact step.seeded seeded
  | _ => exact seeded

/-- A program goes on so that it ends as it would have. -/
theorem ExecutionStep.ends {program : Program} {outcome : Except NodeError Returned}
    (step : ExecutionStep m r n (.active program) x' e)
    (shared : ∃ run, m.run? r = some run ∧ run.shared.Seeded on.inputs) (clock : m.now = on.now)
    (plain : n.isPortDriven = false) (ends : program.Ends on n.id outcome) :
    ∃ program', x' = .active program' ∧ program'.Ends on n.id outcome := by
  obtain ⟨run, running, seeded⟩ := shared
  cases step with
  | publish running' =>
      cases running.symm.trans running'
      cases ends with
      | publish goes => exact ⟨_, rfl, goes _ seeded⟩
  | publishOutput running' =>
      cases running.symm.trans running'
      cases ends with
      | publishOutput goes => exact ⟨_, rfl, goes _ seeded⟩
  | readShared running' =>
      cases running.symm.trans running'
      cases ends with
      | readShared goes => exact ⟨_, rfl, goes _ seeded⟩
  | notify =>
      cases ends with
      | notify goes => exact ⟨_, rfl, goes⟩
  | portless =>
      cases ends with
      | fire goes => exact ⟨_, rfl, goes⟩
  | undeclared driven | late driven | queue driven => cases plain.symm.trans driven
  | readClock =>
      cases ends with
      | readClock goes => exact ⟨_, rfl, clock ▸ goes⟩
  | pause =>
      cases ends with
      | pause goes => exact ⟨_, rfl, goes⟩
  | leave =>
      cases ends with
      | leave goes => exact ⟨_, rfl, goes⟩

/-! ## Errors -/

/-- The node has its result, or a call is about to store one. -/
def Concluded (m : Machine) (id : NodeId) : Prop :=
  (∃ d, (m.cell id).result = some d) ∨ ∃ j k d, m.Calling j k id (.store d)

section Errors

variable (here : m.tasks[t]? = some ⟨j, work⟩) (rule : Transition g m t j work work' e)
  (after : After m t j work' e m')
include here rule after

theorem Concluded.step (concluded : m.Concluded id) : m'.Concluded id := by
  obtain ⟨d, has⟩ | ⟨i, k, d, storing⟩ := concluded
  · left
    rw [after.cell]
    obtain same | ⟨d', -, now⟩ := rule.result id
    · exact ⟨d, same.trans has⟩
    · exact ⟨d', now⟩
  · obtain ⟨-, stays⟩ | ⟨rfl, rfl, n, _, stage', -, rfl, step, -⟩ := storing.moved here rule after
    · exact .inr ⟨i, k, d, stays⟩
    · cases step with
      | store => exact .inl ⟨d, by rw [after.cell]; simp⟩

/-- An error is set only for a failure that is stored at once. -/
theorem After.concluded (blamed : ∀ cause, (m.cell id).error = some cause → m.Concluded id)
    {cause : NodeError} (error : (m'.cell id).error = some cause) : m'.Concluded id := by
  rw [after.cell] at error
  obtain same | ⟨_, _, _, _, -, -, rfl, -⟩ := rule.error id
  · exact (blamed cause (same ▸ error)).step here rule after
  · exact .inr ⟨j, t, _, _, after.here⟩

/-- A step of another task leaves the error of a node with a call inside the gate. -/
theorem Gated.error_kept {i : RunId} (gated : m.Gated) (calling : m.Calling i k id stage)
    (inside : stage.phase.inside = true) (other : k ≠ t) :
    (m'.cell id).error = (m.cell id).error := by
  rw [after.cell]
  obtain same | ⟨_, _, _, _, -, rfl, -⟩ := rule.error id
  · exact same
  · exact absurd (gated.alone ⟨_, here⟩ calling rfl inside) other

end Errors

/-- Nothing is concluded while a call is on its way to a result. -/
theorem Gated.not_concluded (gated : m.Gated) (calling : m.Calling j k id stage)
    (computing : stage.phase = .computing) (early : ∀ d, stage ≠ .store d) : ¬ m.Concluded id := by
  rintro (⟨d, has⟩ | ⟨i, k', d, storing⟩)
  · cases (gated.unset calling computing).symm.trans has
  · cases gated.alone calling storing (by rw [computing]; rfl) rfl
    exact early d (calling.unique storing).2.2

/-! ## The invariant -/

/-- What the call of a node carries at a stage is what the evaluation has there. -/
def Carries (on : Conditions) (g : Graph) (cs : List Connection) (m : Machine) (n : Node) :
    Stage → Prop
  | .scope received => received = Conditions.received cs m.given? n
  | .record received scope => received = Conditions.received cs m.given? n ∧
    inputScope (Shared.seed on.inputs) received = .ok scope.unpublished
  | .run received x => received = Conditions.received cs m.given? n ∧ ∃ scope arguments program,
    inputScope (Shared.seed on.inputs) received = .ok scope ∧
      n.arguments g.evaluator scope = .ok arguments ∧
      x = .active program ∧ program.Ends on n.id (on.answer n.id arguments)
  | .report outcome => outcome = on.outcome g n (Conditions.received cs m.given? n)
  | .blame cause => on.outcome g n (Conditions.received cs m.given? n) = .error cause
  | .store d => on.give g cs m.given? n = ⟨d, (m.cell n.id).error⟩
  | _ => True

/-- The run `r` has kept to the evaluation.  Tasks below `first` are of earlier runs. -/
structure Faithful (on : Conditions) (g : Graph) (cs : List Connection) (first : TaskId) (r : RunId)
    (m : Machine) : Prop where
  clock : m.now = on.now
  shared : ∃ run, m.run? r = some run ∧ run.shared.Seeded on.inputs
  calls : ∀ {j k id n stage}, first ≤ k → m.Calling j k id stage → g.node? id = some n →
    Carries on g cs m n stage
  /-- An error is set only for a failure that is stored at once. -/
  blamed : ∀ {id cause}, (m.cell id).error = some cause →
    (∃ d, (m.cell id).result = some d) ∨ ∃ j k d, m.Calling j k id (.store d)
  results : ∀ {id n d}, (m.cell id).result = some d → g.node? id = some n →
    m.given? id = some (on.give g cs m.given? n)

namespace Faithful

variable (wired : Wired cs g.nodes) (dataFlow : g.DataFlow) (memo : m.Memo first)
  (feeding : m.Feeding g first) (here : m.tasks[t]? = some ⟨j, work⟩)
  (rule : Transition g m t j work work' e) (after : After m t j work' e m')

/-- The document of the run holds what the run was given. -/
theorem seeded (faithful : m.Faithful on g cs first r) {run : RunRecord}
    (running : m.run? r = some run) : run.shared.Seeded on.inputs := by
  obtain ⟨run', running', seeded⟩ := faithful.shared
  cases running.symm.trans running'
  exact seeded

section Kept

include wired dataFlow memo here rule after

/-- A call that waits carries the same after a step of another task. -/
theorem carries_kept {i : RunId} (there : n ∈ g.nodes) (other : k ≠ t)
    (calling : m.Calling i k n.id stage) (intake : Intake g first m n stage)
    (carries : Carries on g cs m n stage) : Carries on g cs m' n stage := by
  have received : Fed g m n → Conditions.received cs m'.given? n =
      Conditions.received cs m.given? n :=
    fun fed => fed.received_kept memo here rule after wired dataFlow there
  cases stage with
  | scope d => exact carries.trans (received intake).symm
  | record d scope => exact ⟨carries.1.trans (received intake).symm, carries.2⟩
  | run d x => exact ⟨carries.1.trans (received intake).symm, carries.2⟩
  | report outcome =>
      show outcome = on.outcome g n _
      rw [received intake]
      exact carries
  | blame cause =>
      show on.outcome g n _ = .error cause
      rw [received intake]
      exact carries
  | store d =>
      have error := memo.gated.error_kept here rule after calling rfl other
      show on.given n (on.outcome g n _) = _
      rw [received intake, error]
      exact carries
  | _ => trivial

/-- What has been given to the run before a step is given after it, on what the nodes receive then. -/
theorem give_kept (there : n ∈ g.nodes) (fed : Fed g m n) :
    on.give g cs m'.given? n = on.give g cs m.given? n := by
  rw [Conditions.give, Conditions.give, fed.received_kept memo here rule after wired dataFlow there]

end Kept

/-- A node is bound against a scope that differs from that of the evaluation by what has
been published, and so it gets the same arguments. -/
theorem arguments_eq (dataFlow : g.DataFlow) (there : n ∈ g.nodes) (run : RunRecord)
    (scope : Document) : n.arguments g.evaluator scope.unpublished =
      (n.bind g.evaluator (contextOf run n) scope).map Invocation.arguments := by
  rw [Node.bind_arguments, ← Node.arguments_unpublished (dataFlow.blind n there)]

include wired dataFlow memo feeding here rule after

/-- The call that takes the step goes on to carry what the evaluation has at its next stage. -/
theorem carries_next (faithful : m.Faithful on g cs first r) (current : j = r)
    (answers : on.Answers g) (known : g.node? n.id = some n)
    (stands : work = .call n.id began stage) (step : CallStep g m t j n began stage stage' e) :
    Carries on g cs m' n stage' := by
  subst stands
  have there : n ∈ g.nodes := Graph.mem_of_node? known
  have calling : m.Calling j t n.id stage := ⟨began, here⟩
  have recent : first ≤ t := memo.recent here rule
  have carries := faithful.calls recent calling known
  have received : Fed g m n → Conditions.received cs m'.given? n =
      Conditions.received cs m.given? n :=
    fun fed => fed.received_kept memo here rule after wired dataFlow there
  have intake := feeding.calls calling known
  cases step with
  | @join fetched all =>
      have waits : ∀ u ∈ n.upstream, u.viaPort = false ∧ (g.node? u.node).isSome = true := by
        intro u linked
        obtain ⟨s, found, port⟩ := wired.upstream_known there linked
        rw [port, dataFlow.plain s (Graph.mem_of_node? found), found]
        exact ⟨rfl, rfl⟩
      show mergeResults _ = _
      rw [received (memo.fed_of_all intake all), memo.fetchedResults intake waits all,
        wired.upstream n there]
      rfl
  | @noScope d run cause running refused =>
      obtain ⟨scope, taken, -⟩ := (faithful.seeded (current ▸ running)).inputScope d
      cases refused.symm.trans taken
  | @scope d run scope running taken =>
      obtain ⟨scope', taken', alone⟩ := (faithful.seeded (current ▸ running)).inputScope d
      cases taken.symm.trans taken'
      exact ⟨carries.trans (received intake).symm, alone⟩
  | @unbound d scope run cause running refused =>
      obtain ⟨rfl, taken⟩ := carries
      have arguments := arguments_eq dataFlow there run scope
      rw [refused] at arguments
      show _ = on.outcome g n _
      rw [received intake, Conditions.outcome, taken]
      simp only [arguments, Except.map]
  | @invoke d scope run i running bound =>
      obtain ⟨same, taken⟩ := carries
      have seeded := faithful.seeded (current ▸ running)
      have arguments := arguments_eq dataFlow there run scope
      rw [bound] at arguments
      exact ⟨same.trans (received intake).symm, _, _, _, taken, arguments, rfl,
        answers n there (contextOf run n) rfl rfl seeded.given scope i bound⟩
  | @finish d outcome =>
      obtain ⟨rfl, scope, arguments, program, taken, bound, same, ends⟩ := carries
      cases same
      cases ends
      show _ = on.outcome g n _
      rw [received intake, Conditions.outcome, taken]
      simp only [bound]
  | work step =>
      obtain ⟨same, scope, arguments, program, taken, bound, rfl, ends⟩ := carries
      obtain ⟨program', rfl, ends'⟩ :=
        step.ends (current ▸ faithful.shared) faithful.clock (dataFlow.plain n there) ends
      exact ⟨same.trans (received intake).symm, scope, arguments, program', taken, bound, rfl, ends'⟩
  | @completed d =>
      have noError : (m.cell n.id).error = none := by
        cases error : (m.cell n.id).error with
        | none => rfl
        | some cause =>
            exact absurd (faithful.blamed error) (memo.gated.not_concluded calling rfl nofun)
      have outcome : on.outcome g n (Conditions.received cs m.given? n) = .ok d := carries.symm
      show on.given n (on.outcome g n _) = _
      rw [received intake, outcome, after.cell, noError]
      rfl
  | failed =>
      show on.outcome g n _ = _
      rw [received intake]
      exact carries.symm
  | @blame cause =>
      have outcome : on.outcome g n (Conditions.received cs m.given? n) = .error cause := carries
      show on.given n (on.outcome g n _) = _
      rw [received intake, outcome, after.cell, faithful.clock]
      simp [Conditions.given]
  | _ => trivial

theorem step_results (faithful : m.Faithful on g cs first r) {d : Document}
    (has : (m'.cell id).result = some d) (known : g.node? id = some n) :
    m'.given? id = some (on.give g cs m'.given? n) := by
  have there : n ∈ g.nodes := Graph.mem_of_node? known
  have before := has
  rw [after.cell] at before
  obtain same | ⟨d', stored, now⟩ := rule.result id
  · have old : (m.cell id).result = some d := same.symm.trans before
    rw [memo.given_kept here rule after old, faithful.results old known,
      give_kept wired dataFlow memo here rule after there (feeding.results old known)]
  · cases now.symm.trans before
    obtain ⟨-, began, began', rfl, rfl⟩ := rule.of_stored stored
    have calling : m.Calling j t id (.store d) := ⟨began, here⟩
    have carries := faithful.calls (memo.recent here rule) calling known
    have error : (m'.cell id).error = (m.cell id).error := by
      rw [after.cell]
      obtain same | ⟨_, _, _, _, -, stands, -⟩ := rule.error id
      · exact same
      · cases stands
    have give : on.give g cs m'.given? n = ⟨d, (m.cell id).error⟩ := by
      rw [give_kept wired dataFlow memo here rule after there (feeding.calls calling known)]
      cases Graph.id_of_node? known
      exact carries
    rw [given?, has, error, give]
    rfl

/-- Every step of every task keeps to the evaluation. -/
theorem step (faithful : m.Faithful on g cs first r) (confined : m.Confined g first r h)
    (answers : on.Answers g) :
    m'.Faithful on g cs first r where
  clock := after.now.trans faithful.clock
  shared := by
    obtain ⟨run, running, seeded⟩ := faithful.shared
    rw [after.run]
    by_cases mine : r = j
    · rw [if_pos mine, running]
      exact ⟨_, rfl, rule.seeded seeded⟩
    · rw [if_neg mine]
      exact ⟨run, running, seeded⟩
  calls := by
    intro i k id n stage recent calling known
    cases Graph.id_of_node? known
    obtain ⟨rfl, rfl, began, rfl⟩ | ⟨other, old⟩ | ⟨-, rfl, -⟩ := after.calling_cases rule calling
    · have current : i = r := by
        obtain harmless | ⟨-, same⟩ := confined.current here rule
        · cases rule with
          | call => exact harmless.elim
        · exact same
      have full := rule
      cases rule with
      | call known' step =>
          cases known.symm.trans known'
          exact carries_next wired dataFlow memo feeding here full after faithful current answers
            known rfl step
    · exact carries_kept wired dataFlow memo here rule after (Graph.mem_of_node? known) other old
        (feeding.calls old known) (faithful.calls recent old known)
    · trivial
  blamed := After.concluded here rule after fun _ => faithful.blamed
  results := step_results wired dataFlow memo feeding here rule after faithful

end Faithful

end Machine
end Flowgraph
