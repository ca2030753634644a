/- # Flowgraph.Proofs.Catalog -- registered workflows run like fresh ones

Calls come to a catalog one after the other, each when the work of the earlier ones is finished
(`Catalog.History`).  Whatever has happened, a catalog holds under an identifier the graph of the
workflow that was registered last under it, with a machine on which nothing is at work
(`Catalog.Kept`); and a whole run on such a machine is one on a new machine.
-/
import Flowgraph.Catalog
import Flowgraph.Proofs.Run.Yields

set_option autoImplicit false

namespace Flowgraph

namespace Catalog

/-! ## Calls and replies -/

inductive Call where
  | register (now : Instant) (w : Workflow)
  | execute (now : Instant) (id : WorkflowId) (execution : ExecutionId) (inputs : RunInputs)

inductive Reply where
  | registered (id : WorkflowId)
  | refused (cause : GraphError)
  /-- What a run came to, and the events up to some time after that. -/
  | ran (outcome : Except FlowError RunOutcome) (events : List Event)

/-- What can become of a call.  The tasks of a run, and those that it leaves behind, take their
steps in any order and at any time. -/
inductive Step (c : Catalog) : Call → Reply → Catalog → Prop
  | registered {now w c'} (built : c.register now w = .ok c') :
      Step c (.register now w) (.registered w.id) c'
  | refused {now w e} (broken : c.register now w = .error e) :
      Step c (.register now w) (.refused e) c
  | unknown {now id execution inputs} (missing : c.workflows.lookup id = none) :
      Step c (.execute now id execution inputs)
        (.ran (.error (.graph (.notFound id.toText))) []) c
  | ran {now id execution inputs g m outcome after} (known : c.workflows.lookup id = some ⟨g, m⟩)
      (yields : { m with now := now }.Yields g execution inputs outcome after) :
      Step c (.execute now id execution inputs)
        (.ran outcome (after.events.drop m.events.length))
        { c with workflows := put id ⟨g, after⟩ c.workflows }

/-- All work of earlier calls is finished. -/
def Idle (c : Catalog) : Prop :=
  ∀ id g m, c.workflows.lookup id = some ⟨g, m⟩ →
    ∀ (t : TaskId) (task : Task), m.tasks[t]? = some task → task.isDone = true

/-- Whether there are only tasks that are done can be computed. -/
theorem idle_of_all {c : Catalog}
    (done : (c.workflows.all fun e => e.2.machine.tasks.toList.all Task.isDone) = true) : c.Idle := by
  intro id g m known t task here
  obtain ⟨before, after, split, -⟩ := List.lookup_eq_some_iff.1 known
  have listed : (id, (⟨g, m⟩ : Installation)) ∈ c.workflows := by rw [split]; simp
  have all := List.all_eq_true.1 done _ listed
  exact List.all_eq_true.1 all task (Array.mem_toList_iff.2 (Array.mem_of_getElem? here))

/-- The catalogs that calls with these replies can lead to. -/
inductive History (c₀ : Catalog) : List (Call × Reply) → Catalog → Prop
  | nil : History c₀ [] c₀
  | step {h c call reply c'} (history : History c₀ h c) (idle : c.Idle)
      (step : Step c call reply c') : History c₀ (h ++ [(call, reply)]) c'

/-- What an execution without registration may come to. -/
def Once (c : Catalog) (now : Instant) (execution : ExecutionId) (w : Workflow)
    (inputs : RunInputs) (outcome : Except FlowError RunOutcome) (events : List Event) : Prop :=
  match c.build w with
  | .error e => outcome = .error (.graph e) ∧ events = []
  | .ok g => ∃ after, (Machine.new now).Yields g execution inputs outcome after ∧
      events = after.events

/-- The workflow that a call has registered under an identifier. -/
def accepted? (id : WorkflowId) : Call × Reply → Option Workflow
  | (.register _ w, .registered _) => if w.id = id then some w else none
  | _ => none

/-- The workflow that was registered last under an identifier. -/
def registered? (id : WorkflowId) (h : List (Call × Reply)) : Option Workflow :=
  (h.filterMap (accepted? id)).getLast?

/-! ## What is kept -/

theorem lookup_put (id k : WorkflowId) (i : Installation)
    (entries : List (WorkflowId × Installation)) :
    (put id i entries).lookup k = if k = id then some i else entries.lookup k :=
  lookup_written (put id i) rfl (fun _ _ _ => rfl) entries k

theorem registered?_concat (id : WorkflowId) (h : List (Call × Reply)) (last : Call × Reply) :
    registered? id (h ++ [last]) = (accepted? id last).or (registered? id h) := by
  rw [registered?, registered?, List.filterMap_append]
  cases accepted : accepted? id last with
  | none => simp [accepted]
  | some w => simp [accepted]

/-- What is installed where a workflow was registered last: its graph, and a machine on which
gates are held by calls only. -/
inductive Installed (c : Catalog) : Option Workflow → Option Installation → Prop
  | none : Installed c none none
  | some {w g m} (built : c.build w = .ok g) (held : m.Held) : Installed c (some w) (some ⟨g, m⟩)

/-- What a catalog holds after some calls. -/
structure Kept (c₀ : Catalog) (h : List (Call × Reply)) (c : Catalog) : Prop where
  build : c.build = c₀.build
  installed : ∀ id, Installed c₀ (registered? id h) (c.workflows.lookup id)

namespace Kept

variable {c₀ c c' : Catalog} {h : List (Call × Reply)} {call : Call} {reply : Reply}

/-- What a call leaves that registers nothing. -/
theorem unchanged (kept : Kept c₀ h c) (nothing : ∀ id, accepted? id (call, reply) = none) :
    Kept c₀ (h ++ [(call, reply)]) c where
  build := kept.build
  installed id := by
    rw [registered?_concat, nothing]
    exact kept.installed id

theorem register {now : Instant} {w : Workflow} (kept : Kept c₀ h c)
    (built : c.register now w = .ok c') :
    Kept c₀ (h ++ [(.register now w, .registered w.id)]) c' := by
  rw [Catalog.register] at built
  cases graph : c.build w with
  | error e => simp [graph, Except.map] at built
  | ok g =>
      obtain rfl : { c with workflows := put w.id ⟨g, .new now⟩ c.workflows } = c' := by
        simpa [graph, Except.map] using built
      refine ⟨kept.build, fun id => ?_⟩
      rw [registered?_concat, accepted?, lookup_put]
      by_cases same : id = w.id
      · rw [if_pos same.symm, if_pos same]
        exact .some (kept.build ▸ graph) fun _ _ holds => by cases holds
      · rw [if_neg (Ne.symm same), if_neg same]
        exact kept.installed id

theorem execute {now : Instant} {id : WorkflowId} {execution : ExecutionId} {inputs : RunInputs}
    {g : Graph} {m after : Machine} {outcome : Except FlowError RunOutcome} (kept : Kept c₀ h c)
    (known : c.workflows.lookup id = some ⟨g, m⟩)
    (yields : { m with now := now }.Yields g execution inputs outcome after) :
    Kept c₀ (h ++ [(.execute now id execution inputs, reply)])
      { c with workflows := put id ⟨g, after⟩ c.workflows } where
  build := kept.build
  installed k := by
    have before := kept.installed k
    have nothing : accepted? k (.execute now id execution inputs, reply) = none := rfl
    rw [registered?_concat, nothing, Option.none_or, lookup_put]
    by_cases same : k = id
    · subst same
      rw [known] at before
      rw [if_pos rfl]
      cases last : registered? k h with
      | none => rw [last] at before; cases before
      | some w =>
          rw [last] at before
          cases before with
          | some built held =>
              have ready : Machine.Held { m with now := now } := held
              exact .some built (ready.yields yields)
    · rw [if_neg same]
      exact before

theorem step (kept : Kept c₀ h c) (step : Step c call reply c') :
    Kept c₀ (h ++ [(call, reply)]) c' := by
  cases step with
  | registered built => exact kept.register built
  | refused broken => exact kept.unchanged fun _ => rfl
  | unknown missing => exact kept.unchanged fun _ => rfl
  | ran known yields => exact kept.execute known yields

end Kept

/-- What is registered stays, whatever calls are made. -/
theorem History.kept {c₀ c : Catalog} {h : List (Call × Reply)} (empty : c₀.workflows = [])
    (history : History c₀ h c) : Kept c₀ h c := by
  induction history with
  | nil => exact ⟨rfl, fun id => by rw [empty]; exact .none⟩
  | step _ _ step kept => exact kept.step step

/-! ## Executing -/

variable {c₀ c : Catalog} {h : List (Call × Reply)} {id : WorkflowId}

theorem Kept.missing (kept : Kept c₀ h c) (never : registered? id h = none) :
    c.workflows.lookup id = none := by
  have here := kept.installed id
  rw [never] at here
  generalize c.workflows.lookup id = found at here
  cases here
  rfl

theorem Kept.found {w : Workflow} (kept : Kept c₀ h c) (last : registered? id h = some w) :
    ∃ g m, c.workflows.lookup id = some ⟨g, m⟩ ∧ c₀.build w = .ok g ∧ m.Held := by
  have here := kept.installed id
  rw [last] at here
  generalize c.workflows.lookup id = found at here
  cases here with
  | some built held => exact ⟨_, _, rfl, built, held⟩

/-- An execution of what is installed is one without registration. -/
theorem Kept.executes {w : Workflow} (kept : Kept c₀ h c) (idle : c.Idle)
    (last : registered? id h = some w) (now : Instant) (execution : ExecutionId)
    (inputs : RunInputs) (outcome : Except FlowError RunOutcome) (events : List Event) :
    (∃ c', Step c (.execute now id execution inputs) (.ran outcome events) c') ↔
      c₀.Once now execution w inputs outcome events := by
  obtain ⟨g, m, known, built, held⟩ := kept.found last
  have ready : Machine.Held { m with now := now } := held
  have still : Machine.Still { m with now := now } := ready.still (idle id g m known)
  have same := still.yields_iff (g := g) execution inputs outcome events
  rw [Once, built]
  refine Iff.trans ⟨?_, ?_⟩ same
  · rintro ⟨c', step⟩
    cases step with
    | unknown missing => rw [known] at missing; cases missing
    | ran known' yields =>
        rw [known] at known'
        cases known'
        exact ⟨_, yields, rfl⟩
  · rintro ⟨after, yields, rfl⟩
    exact ⟨_, .ran (m := m) known yields⟩

theorem Kept.execute_eq {w : Workflow} (kept : Kept c₀ h c) (idle : c.Idle)
    (last : registered? id h = some w) : ∃ now, ∀ execution inputs,
      let reply := c.execute execution id inputs
      (reply.1, reply.2.1) = c₀.executeOnce now execution w inputs := by
  obtain ⟨g, m, known, built, held⟩ := kept.found last
  have still : m.Still := held.still (idle id g m known)
  refine ⟨m.now, fun execution inputs => ?_⟩
  obtain ⟨same, events⟩ := still.runAll (g := g) execution inputs
  simp only [Catalog.execute, known, executeOnce, built, same, events, List.drop_left]

/-- What executing by identifier does when it brings a run to its end is one of its possibilities. -/
theorem step_execute {execution : ExecutionId} {inputs : RunInputs} {outcome : RunOutcome}
    {events : List Event} {c' : Catalog}
    (ran : c.execute execution id inputs = (.ok outcome, events, c')) :
    ∃ now, Step c (.execute now id execution inputs) (.ran (.ok outcome) events) c' := by
  rw [Catalog.execute] at ran
  cases known : c.workflows.lookup id with
  | none => simp [known] at ran
  | some i =>
      obtain ⟨g, m⟩ := i
      simp only [known, Prod.mk.injEq] at ran
      obtain ⟨ended, rfl, rfl⟩ := ran
      exact ⟨m.now, .ran (m := m) known (Machine.yields_of_runAll (Prod.ext ended rfl))⟩

/-- **Registered workflows run like fresh ones.**  Take any calls on a new catalog, with several
identifiers, workflows registered anew, definitions that cannot be built and runs with failing
nodes, each call when the work of the earlier ones is finished.  After them, executing an identifier
has the outcomes and events that building and running the workflow has that was registered last
under it, for the same execution and clock, and the driver gives the same for both.  It is refused
as not found exactly when there is no such workflow; and a registration that is refused leaves the
catalog, and what was registered last, as they were. -/
theorem registered_workflows_run_like_fresh_ones {registry : Registry} {settings : Settings}
    {evaluator : Option Evaluator} {h : List (Call × Reply)} {c : Catalog}
    (history : History (new registry settings evaluator) h c) (idle : c.Idle) (id : WorkflowId) :
    let fresh := new registry settings evaluator
    let notFound : Except FlowError RunOutcome := .error (.graph (.notFound id.toText))
    (∀ w, registered? id h = some w →
      (∀ now execution inputs outcome events,
        (∃ c', Step c (.execute now id execution inputs) (.ran outcome events) c') ↔
          fresh.Once now execution w inputs outcome events) ∧
      ∃ now, ∀ execution inputs,
        let reply := c.execute execution id inputs
        (reply.1, reply.2.1) = fresh.executeOnce now execution w inputs) ∧
    (∀ now execution inputs outcome events c',
      Step c (.execute now id execution inputs) (.ran outcome events) c' →
      (outcome = notFound ↔ registered? id h = none)) ∧
    (registered? id h = none → ∀ now execution inputs,
      Step c (.execute now id execution inputs) (.ran notFound []) c ∧
        c.execute execution id inputs = (notFound, [], c)) ∧
    ∀ now w e c', Step c (.register now w) (.refused e) c' →
      c' = c ∧ ∀ k, registered? k (h ++ [(.register now w, .refused e)]) = registered? k h := by
  intro fresh notFound
  have kept : Kept fresh h c := history.kept rfl
  refine ⟨fun w last => ⟨kept.executes idle last, kept.execute_eq idle last⟩, ?_, ?_, ?_⟩
  · intro now execution inputs outcome events c' step
    cases step with
    | unknown missing =>
        refine ⟨fun _ => ?_, fun _ => rfl⟩
        cases last : registered? id h with
        | none => rfl
        | some w =>
            obtain ⟨g, m, known, -⟩ := kept.found last
            rw [known] at missing
            cases missing
    | ran known yields =>
        refine ⟨fun same => absurd same (yields.ne_graph _), fun never => ?_⟩
        rw [kept.missing never] at known
        cases known
  · intro never now execution inputs
    have missing := kept.missing never
    exact ⟨.unknown missing, by rw [Catalog.execute, missing]⟩
  · intro now w e c' step
    cases step with
    | refused broken => exact ⟨rfl, fun k => by rw [registered?_concat]; rfl⟩

end Catalog

namespace Sample

open Catalog

def shelf : Catalog := .new registry .standard none

/-- The choice with its connections, but without the nodes between which they are. -/
def torn : Workflow := { choice with nodes := [] }

/-- The catalog in which the choice is registered. -/
def stocked : Catalog := { shelf with workflows := [(choice.id, ⟨choiceGraph, .new epoch⟩)] }

theorem stocked_registered : shelf.register epoch choice = .ok stocked := by
  have built : Graph.build choice registry .standard = .ok choiceGraph :=
    build_built (by decide +kernel)
  rw [Catalog.register, Catalog.build, shelf, Catalog.new, built]
  rfl

set_option maxRecDepth 100000 in
/-- The choice is registered, once more without success, and run; then it runs like a fresh one. -/
theorem stocked_serves :
    ∃ h c, shelf.History h c ∧ c.Idle ∧ h.length = 3 ∧ registered? choice.id h = some choice ∧
      ∀ now execution inputs outcome events,
        (∃ c', Step c (.execute now choice.id execution inputs) (.ran outcome events) c') ↔
          shelf.Once now execution choice inputs outcome events := by
  obtain ⟨e, refused⟩ : ∃ e, stocked.register epoch torn = .error e := ⟨_, rfl⟩
  have computed : (stocked.execute ⟨7⟩ choice.id .empty).1.toOption.isSome = true ∧
      ((stocked.execute ⟨7⟩ choice.id .empty).2.2.workflows.all
        fun e => e.2.machine.tasks.toList.all Task.isDone) = true := by decide +kernel
  generalize served : stocked.execute ⟨7⟩ choice.id .empty = reply at computed
  obtain ⟨outcome, events, c⟩ := reply
  obtain ⟨ended, done⟩ := computed
  cases outcome with
  | error e => cases ended
  | ok outcome =>
      obtain ⟨now, ran⟩ := step_execute served
      have history := ((History.nil.step (idle_of_all rfl) (.registered stocked_registered)).step
        (idle_of_all rfl) (.refused refused)).step (idle_of_all rfl) ran
      have idle : c.Idle := idle_of_all done
      refine ⟨_, c, history, idle, rfl, rfl, ?_⟩
      exact ((registered_workflows_run_like_fresh_ones history idle choice.id).1 choice rfl).1

end Sample
end Flowgraph
