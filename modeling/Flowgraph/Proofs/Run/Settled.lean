/- # Flowgraph.Proofs.Run.Settled -- a launch that is over leaves nothing behind

A launch waits for its entries, and then for a task that takes, again and again,
the fan-out tasks that nobody waits for, until there are none.  `Underway` says
that no entry and no fan-out task escapes it: each is done, or waited for by the
launch, or kept track of.  With every call attended, there is then nothing that
the run has triggered and that is not done (`Underway.quiet`), and nothing starts
again.
-/
import Mathlib.Tactic.ByContra
import Flowgraph.Proofs.Run.Attended

set_option autoImplicit false

namespace Flowgraph

namespace Machine

variable {g : Graph} {m m' : Machine} {t k first s : TaskId} {r j : RunId} {id : NodeId}
  {stage stage' : LaunchStage} {work work' : Work} {e : Effect} {h : List Deed}

/-! ## The launch -/

/-- The task `k` is a launch of a run, and stands at a stage. -/
def LaunchAt (m : Machine) (r : RunId) (k : TaskId) (stage : LaunchStage) : Prop :=
  ∃ permits, m.tasks[k]? = some ⟨r, .launch permits stage⟩

theorem LaunchAt.unique (one : m.LaunchAt r k stage) (two : m.LaunchAt j k stage') :
    stage = stage' := by
  obtain ⟨_, one⟩ := one
  obtain ⟨_, two⟩ := two
  cases one.symm.trans two
  rfl

theorem LaunchAt.kept (stands : m.LaunchAt j k stage) (after : After m t r work' e m')
    (other : k ≠ t) : m'.LaunchAt j k stage := by
  obtain ⟨_, here⟩ := stands
  exact after.launch_kept other here

/-- Everything that was triggered since `first` is done. -/
def Quiet (first : TaskId) (m : Machine) : Prop :=
  ∀ {k : TaskId} {task : Task}, first ≤ k → m.tasks[k]? = some task →
    task.work.isTriggered = true → task.isDone = true

/-- The launch `first` of the run `r` has an eye on everything that it must wait for. -/
structure Underway (first : TaskId) (r : RunId) (m : Machine) : Prop where
  running : ∃ run, m.run? r = some run
  launch : ∃ stage, m.LaunchAt r first stage
  sole : ∀ {j k stage}, first ≤ k → m.LaunchAt j k stage → k = first
  entries : ∀ {j k launch id stage}, first ≤ k → m.tasks[k]? = some ⟨j, .entry launch id stage⟩ →
    stage = .done ∨ ∃ ts, m.LaunchAt r first (.join ts) ∧ k ∈ ts
  fanOuts : ∀ {j k id rounds waiting}, first ≤ k →
    m.tasks[k]? = some ⟨j, .fanOut id rounds waiting⟩ → m.isDone k = false →
    (∃ run, m.run? r = some run ∧ k ∈ run.fanOut) ∨
      ∃ s i batch, first ≤ s ∧ m.tasks[s]? = some ⟨i, .settle (.join batch)⟩ ∧ k ∈ batch
  settles : ∀ {j k stage}, first ≤ k → m.tasks[k]? = some ⟨j, .settle stage⟩ →
    m.LaunchAt r first (.settle k) ∨ m.LaunchAt r first .done
  settling : ∀ {s}, m.LaunchAt r first (.settle s) →
    ∃ j stage, m.tasks[s]? = some ⟨j, .settle stage⟩
  calm : (m.LaunchAt r first .done ∨ ∃ s, m.LaunchAt r first (.settle s) ∧ m.isDone s = true) →
    m.Quiet first

/-! ## When nothing is left -/

/-- When the entries are done and no fan-out task is kept track of, everything is done. -/
theorem Underway.quiet (underway : m.Underway first r) (attended : m.Attended first)
    (noJoin : ∀ ts, ¬ m.LaunchAt r first (.join ts))
    (noTrack : ∀ run, m.run? r = some run → run.fanOut = [])
    (noBatch : ∀ {s j batch}, first ≤ s → m.tasks[s]? ≠ some ⟨j, .settle (.join batch)⟩) :
    m.Quiet first := by
  have entries : ∀ {k j launch id stage}, first ≤ k →
      m.tasks[k]? = some ⟨j, .entry launch id stage⟩ → stage = .done := by
    intro k j launch id stage recent here
    obtain done | ⟨ts, joining, -⟩ := underway.entries recent here
    · exact done
    · exact absurd joining (noJoin ts)
  have fanOuts : ∀ {k j id rounds waiting}, first ≤ k →
      m.tasks[k]? = some ⟨j, .fanOut id rounds waiting⟩ → m.isDone k = true := by
    intro k j id rounds waiting recent here
    by_contra undone
    obtain ⟨run, running, tracked⟩ | ⟨s, i, batch, later, joining, -⟩ :=
      underway.fanOuts recent here (by simpa using undone)
    · rw [noTrack run running] at tracked
      cases tracked
    · exact noBatch later joining
  -- a call that is not done would have an earlier one before it that is not done either
  have calls : ∀ k {j id stage}, first ≤ k → m.Calling j k id stage → m.isDone k = true := by
    intro k
    induction k using Nat.strongRecOn with
    | _ k ih =>
        intro j id stage recent calling
        by_contra undone
        obtain ⟨w, ⟨i, work⟩, smaller, later, there, awaits⟩ :=
          attended.waiter recent calling (by simpa using undone)
        have isDone : m.isDone w = true := by
          cases work with
          | call id began stage => exact ih w smaller later ⟨began, there⟩
          | fanOut id rounds waiting => exact fanOuts later there
          | entry launch id stage =>
              cases entries later there
              exact awaits.elim
          | _ => exact awaits.elim
        simp only [Machine.isDone, there, awaits.not_done] at isDone
        cases isDone
  rintro k ⟨j, work⟩ recent here triggered
  have isDone : m.isDone k = true → Task.isDone ⟨j, work⟩ = true := by
    intro done
    simpa [Machine.isDone, here] using done
  cases work with
  | call id began stage => exact isDone (calls k recent ⟨began, here⟩)
  | fanOut id rounds waiting => exact isDone (fanOuts recent here)
  | entry launch id stage =>
      cases entries recent here
      rfl
  | _ => cases triggered

/-! ## Steps -/

theorem Transition.isTriggered (rule : Transition g m t r work work' e) :
    work'.isTriggered = work.isTriggered := by
  cases rule <;> rfl

/-- What is quiet stays quiet. -/
theorem Quiet.step (quiet : m.Quiet first) (confined : m.Confined g first r h)
    (attended : m.Attended first) (onTime : OnTime e.deeds) (here : m.tasks[t]? = some ⟨j, work⟩)
    (rule : Transition g m t j work work' e) (after : After m t j work' e m')
    (begun : ∀ permits, work ≠ .launch permits .spawn) : m'.Quiet first := by
  have untriggered : work.isTriggered = false := by
    by_contra triggered
    obtain harmless | ⟨recent, -⟩ := confined.current here rule
    · cases work <;> first | exact triggered rfl | exact harmless.elim
    · cases rule.not_done.symm.trans (quiet recent here (by simpa using triggered))
  have spawned : ∀ task ∈ e.spawned, task.work.isTriggered = false := by
    intro task new
    cases rule with
    | aside known step =>
        obtain ⟨id, p, same⟩ := (step.prompt onTime (attended.prompt here)).2 task new
        rw [same]
        rfl
    | entries => exact absurd rfl (begun _)
    | joined =>
        cases List.mem_singleton.1 new
        rfl
    | opened | finished | settled | take | batch => simp at new
    | _ => cases untriggered
  intro k task recent there triggered
  obtain ⟨rfl, rfl⟩ | ⟨-, old, before, rfl⟩ | ⟨-, new⟩ := after.cases there
  · cases (rule.isTriggered.trans untriggered).symm.trans triggered
  · rw [Task.isDone_granted]
    rw [Work.isTriggered_granted] at triggered
    exact quiet recent before triggered
  · cases (spawned task (List.mem_of_getElem? new)).symm.trans triggered

/-- What a step does to the fan-out tasks that its run keeps track of. -/
theorem Transition.tracked (rule : Transition g m t j work work' e) (run : RunRecord) :
    (e.run run).fanOut = run.fanOut ∨
    ((e.run run).fanOut = run.fanOut ++ [m.tasks.size] ∧
      ∃ i id rounds, e.spawned[0]? = some ⟨i, .fanOut id rounds []⟩) ∨
    ((e.run run).fanOut = [] ∧ ∃ old, m.run? j = some old ∧ work' = .settle (.join old.fanOut)) := by
  cases rule with
  | call known step =>
      cases step with
      | branch => exact .inr (.inl ⟨rfl, _, _, _, rfl⟩)
      | work step => cases step <;> exact .inl rfl
      | _ => exact .inl rfl
  | aside known step => cases step <;> exact .inl rfl
  | take running => exact .inr (.inr ⟨rfl, _, running, rfl⟩)
  | _ => exact .inl rfl

/-- A fan-out task is kept track of from its start on. -/
theorem Transition.tracked_new (rule : Transition g m t j work work' e) {i : Nat} {q : RunId}
    {rounds : List (List NodeId)} {waiting : List TaskId}
    (new : e.spawned[i]? = some ⟨q, .fanOut id rounds waiting⟩) (run : RunRecord) :
    m.tasks.size + i ∈ (e.run run).fanOut := by
  have branched := rule.of_fanOut new
  cases rule with
  | call known step =>
      cases step with
      | branch =>
          cases i with
          | zero => exact List.mem_append_right _ (List.mem_singleton_self _)
          | succ i => cases new
      | work step => obtain none | ⟨_, _, one⟩ := step.deeds <;> simp [*] at branched
      | pull => cases List.mem_singleton.1 (List.mem_of_getElem? new)
      | _ => simp at new
  | aside known step => obtain none | ⟨_, _, one⟩ := step.deeds <;> simp [*] at branched
  | _ => simp at branched

namespace After

variable (here : m.tasks[t]? = some ⟨j, work⟩) (rule : Transition g m t j work work' e)
  (after : After m t j work' e m')
include rule after

/-- What a run keeps track of it still does, or the step has taken it to wait for it. -/
theorem tracked {i : RunId} {run : RunRecord} (running : m.run? i = some run)
    (tracked : k ∈ run.fanOut) :
    (∃ run', m'.run? i = some run' ∧ k ∈ run'.fanOut) ∨
      (i = j ∧ work = .settle .take ∧ ∃ batch, work' = .settle (.join batch) ∧ k ∈ batch) := by
  have running' := after.run i
  rw [running, Option.map_some] at running'
  by_cases ours : i = j
  · subst ours
    rw [if_pos rfl] at running'
    obtain same | ⟨grown, -⟩ | ⟨-, old, there, taken⟩ := rule.tracked run
    · exact .inl ⟨_, running', same ▸ tracked⟩
    · exact .inl ⟨_, running', grown ▸ List.mem_append_left _ tracked⟩
    · cases running.symm.trans there
      refine .inr ⟨rfl, ?_, _, taken, tracked⟩
      cases rule with
      | take => rfl
      | _ => cases taken
  · rw [if_neg ours] at running'
    exact .inl ⟨run, running', tracked⟩

/-- A fan-out task that the step starts is kept track of. -/
theorem tracked_new {i : RunId} {rounds : List (List NodeId)} {waiting : List TaskId}
    {run : RunRecord} (late : m.tasks.size ≤ k)
    (new : e.spawned[k - m.tasks.size]? = some ⟨i, .fanOut id rounds waiting⟩)
    (running : m.run? j = some run) : ∃ run', m'.run? j = some run' ∧ k ∈ run'.fanOut := by
  have running' := after.run j
  rw [running, if_pos rfl, Option.map_some] at running'
  have tracked := rule.tracked_new new run
  rw [Nat.add_sub_cancel' late] at tracked
  exact ⟨_, running', tracked⟩

include here

/-- A batch is waited for as long as one of its tasks is not done. -/
theorem joining {s : TaskId} {i : RunId} {batch : List TaskId}
    (joining : m.tasks[s]? = some ⟨i, .settle (.join batch)⟩) (member : k ∈ batch)
    (undone : m.isDone k = false) : m'.tasks[s]? = some ⟨i, .settle (.join batch)⟩ := by
  by_cases mine : s = t
  · subst mine
    cases here.symm.trans joining
    cases rule with
    | batch all => cases undone.symm.trans (List.all_eq_true.1 all k member)
  · exact after.kept mine rfl joining

/-- What a run keeps track of it did before, or the step has started it. -/
theorem tracked_cases {i : RunId} {run : RunRecord} (running : m'.run? i = some run)
    (tracked : k ∈ run.fanOut) :
    (∃ old, m.run? i = some old ∧ k ∈ old.fanOut) ∨
      (k = m.tasks.size ∧ ∃ q id rounds, m'.tasks[k]? = some ⟨q, .fanOut id rounds []⟩) := by
  rw [after.run] at running
  by_cases ours : i = j
  · subst ours
    rw [if_pos rfl, Option.map_eq_some_iff] at running
    obtain ⟨old, running, rfl⟩ := running
    obtain same | ⟨grown, q, id, rounds, new⟩ | ⟨none, -⟩ := rule.tracked old
    · exact .inl ⟨old, running, same ▸ tracked⟩
    · obtain tracked | fresh := List.mem_append.1 (grown ▸ tracked)
      · exact .inl ⟨old, running, tracked⟩
      · cases List.mem_singleton.1 fresh
        exact .inr ⟨rfl, q, id, rounds, after.started here new⟩
    · rw [none] at tracked
      cases tracked
  · rw [if_neg ours] at running
    exact .inl ⟨run, running, tracked⟩

/-- A fan-out task was one before, or the step has started it. -/
theorem fanOut_cases {i : RunId} {rounds : List (List NodeId)} {waiting : List TaskId}
    (there : m'.tasks[k]? = some ⟨i, .fanOut id rounds waiting⟩) :
    (∃ rounds waiting, m.tasks[k]? = some ⟨i, .fanOut id rounds waiting⟩) ∨
      (m.tasks.size ≤ k ∧
        e.spawned[k - m.tasks.size]? = some ⟨i, .fanOut id rounds waiting⟩) := by
  obtain ⟨rfl, same⟩ | ⟨-, old⟩ | new := after.plain_cases rfl there
  · cases same
    cases rule with
    | round | rested => exact .inl ⟨_, _, here⟩
  · exact .inl ⟨_, _, old⟩
  · exact .inr new

end After

namespace Underway

variable (underway : m.Underway first r) (attended : m.Attended first)
  (confined : m.Confined g first r h) (onTime : OnTime e.deeds)
  (here : m.tasks[t]? = some ⟨j, work⟩) (rule : Transition g m t j work work' e)
  (after : After m t j work' e m')
include underway here rule after

/-- The launch stands where it stood, or it took the step. -/
theorem launch_cases (stands : m'.LaunchAt r first stage') :
    (first ≠ t ∧ m.LaunchAt r first stage') ∨
      (first = t ∧ ∃ stage permits, work = .launch permits stage ∧
        work' = .launch permits stage') := by
  obtain ⟨stage, before⟩ := underway.launch
  by_cases mine : first = t
  · refine .inr ⟨mine, ?_⟩
    subst mine
    obtain ⟨permits, there⟩ := before
    cases here.symm.trans there
    obtain ⟨permits', now⟩ := stands
    rw [after.here] at now
    cases rule <;> cases now <;> exact ⟨_, _, rfl, rfl⟩
  · have kept := before.kept after mine
    cases kept.unique stands
    exact .inl ⟨mine, before⟩

theorem step_launch : ∃ stage, m'.LaunchAt r first stage := by
  obtain ⟨stage, stands⟩ := underway.launch
  by_cases mine : first = t
  · subst mine
    obtain ⟨permits, there⟩ := stands
    cases here.symm.trans there
    cases rule <;> exact ⟨_, _, after.here⟩
  · exact ⟨stage, stands.kept after mine⟩

theorem step_sole {i : RunId} (recent : first ≤ k) (stands : m'.LaunchAt i k stage') :
    k = first := by
  obtain ⟨permits, there⟩ := stands
  obtain ⟨rfl, rfl, rfl⟩ | ⟨-, permits', before⟩ | ⟨-, new⟩ := after.launch_cases there
  · cases rule <;> exact underway.sole recent ⟨_, here⟩
  · exact underway.sole recent ⟨permits', before⟩
  · cases rule.spawnedAt new

include confined

omit after in
/-- A launch that goes on is the one of the run. -/
theorem is_first {permits : Nat} (launch : work = .launch permits stage) : t = first ∧ j = r := by
  subst launch
  obtain harmless | ⟨recent, rfl⟩ := confined.current here rule
  · exact harmless.elim
  · exact ⟨underway.sole recent ⟨_, here⟩, rfl⟩

theorem step_entries {i : RunId} {launch : TaskId} {stage : EntryStage} (recent : first ≤ k)
    (there : m'.tasks[k]? = some ⟨i, .entry launch id stage⟩) :
    stage = .done ∨ ∃ ts, m'.LaunchAt r first (.join ts) ∧ k ∈ ts := by
  have before : ∀ {launch stage}, m.tasks[k]? = some ⟨i, .entry launch id stage⟩ →
      stage = .done ∨ ∃ ts, m'.LaunchAt r first (.join ts) ∧ k ∈ ts := by
    intro launch stage old
    obtain done | ⟨ts, joining, member⟩ := underway.entries recent old
    · exact .inl done
    · by_cases mine : first = t
      · subst mine
        obtain ⟨permits, there⟩ := joining
        cases here.symm.trans there
        cases rule with
        | joined all =>
            have done := List.all_eq_true.1 all k member
            simp only [isDone, old] at done
            cases stage with
            | done => exact .inl rfl
            | _ => cases done
      · exact .inr ⟨ts, joining.kept after mine, member⟩
  obtain ⟨rfl, same⟩ | ⟨-, old⟩ | ⟨late, new⟩ := after.plain_cases rfl there
  · cases same
    cases rule with
    | permit =>
        obtain done | joining := before here
        · cases done
        · exact .inr joining
    | leave => exact .inl rfl
  · exact before old
  · obtain ⟨-, permits, launch, launch', named⟩ := rule.of_entry new
    obtain ⟨rfl, rfl⟩ := underway.is_first confined here rule launch
    obtain ⟨small, -⟩ := List.getElem?_eq_some_iff.1 named
    refine .inr ⟨_, ⟨permits, launch' ▸ after.here⟩, List.mem_range'.2 ⟨_, small, ?_⟩⟩
    rw [Nat.one_mul, Nat.add_sub_cancel' late]

theorem step_fanOuts {i : RunId} {rounds : List (List NodeId)} {waiting : List TaskId}
    (recent : first ≤ k) (there : m'.tasks[k]? = some ⟨i, .fanOut id rounds waiting⟩)
    (undone : m'.isDone k = false) :
    (∃ run, m'.run? r = some run ∧ k ∈ run.fanOut) ∨
      ∃ s i batch, first ≤ s ∧ m'.tasks[s]? = some ⟨i, .settle (.join batch)⟩ ∧ k ∈ batch := by
  obtain ⟨_, _, old⟩ | ⟨late, new⟩ := after.fanOut_cases here rule there
  · have undoneBefore : m.isDone k = false := after.undone here rule undone
    obtain ⟨run, running, tracked⟩ | ⟨s, q, batch, later, joining, member⟩ :=
      underway.fanOuts recent old undoneBefore
    · obtain still | ⟨rfl, rfl, batch, rfl, member⟩ := after.tracked rule running tracked
      · exact .inl still
      · obtain harmless | ⟨later, -⟩ := confined.current here rule
        · exact harmless.elim
        · exact .inr ⟨t, _, batch, later, after.here, member⟩
    · have still := after.joining here rule joining member undoneBefore
      exact .inr ⟨s, q, batch, later, still, member⟩
  · obtain harmless | ⟨-, rfl⟩ := confined.current here rule
    · exact ((rule.harmless harmless).2.1 _ (List.mem_of_getElem? new)).elim
    · obtain ⟨run, running⟩ := underway.running
      exact .inl (after.tracked_new rule late new running)

theorem step_settles {i : RunId} {stage : SettleStage} (recent : first ≤ k)
    (there : m'.tasks[k]? = some ⟨i, .settle stage⟩) :
    m'.LaunchAt r first (.settle k) ∨ m'.LaunchAt r first .done := by
  have before : ∀ {stage}, m.tasks[k]? = some ⟨i, .settle stage⟩ →
      m'.LaunchAt r first (.settle k) ∨ m'.LaunchAt r first .done := by
    intro stage old
    by_cases mine : first = t
    · subst mine
      obtain ⟨_, stands⟩ | ⟨_, stands⟩ := underway.settles recent old
      · cases here.symm.trans stands
        cases rule with
        | finished => exact .inr ⟨_, after.here⟩
      · cases here.symm.trans stands
        cases rule.not_done
    · exact (underway.settles recent old).imp (·.kept after mine) (·.kept after mine)
  obtain ⟨rfl, same⟩ | ⟨-, old⟩ | ⟨late, new⟩ := after.plain_cases rfl there
  · cases same
    cases rule <;> exact before here
  · exact before old
  · obtain ⟨first', permits, ts, launch, launch'⟩ := rule.of_settle new
    obtain ⟨rfl, rfl⟩ := underway.is_first confined here rule launch
    cases Nat.le_antisymm (Nat.sub_eq_zero_iff_le.1 first') late
    exact .inl ⟨permits, launch' ▸ after.here⟩

omit confined in
theorem step_settling (waits : m'.LaunchAt r first (.settle s)) :
    ∃ i stage, m'.tasks[s]? = some ⟨i, .settle stage⟩ := by
  obtain ⟨mine, before⟩ | ⟨rfl, stage, permits, launch, launch'⟩ :=
    underway.launch_cases here rule after waits
  · obtain ⟨i, stage, there⟩ := underway.settling before
    by_cases moved : s = t
    · subst moved
      cases here.symm.trans there
      cases rule <;> exact ⟨_, _, after.here⟩
    · exact ⟨i, stage, after.kept moved rfl there⟩
  · subst launch
    cases rule <;> cases launch'
    exact ⟨_, _, after.started here (i := 0) rfl⟩

omit after in
include attended in
/-- When the task that waits for everything finds nothing left, all is quiet. -/
theorem quiet_of_settled (waits : m.LaunchAt r first (.settle t)) (before : work = .settle .take)
    (now : work' = .settle .done) : m.Quiet first := by
  subst before
  have current := confined.current here rule
  cases rule with
  | settled running empty =>
      obtain harmless | ⟨recent, rfl⟩ := current
      · exact harmless.elim
      · apply underway.quiet attended
        · intro ts joining
          cases joining.unique waits
        · intro run running'
          cases running.symm.trans running'
          exact empty
        · intro s i batch later joining
          obtain stands | stands := underway.settles later joining
          · cases stands.unique waits
            cases here.symm.trans joining
          · cases stands.unique waits
  | _ => cases now

include attended onTime

/-- All is quiet after the launch's own step to its end. -/
theorem step_calm_launch (mine : first = t) (ended : m'.LaunchAt r first .done ∨
    ∃ s, m'.LaunchAt r first (.settle s) ∧ m'.isDone s = true) : m'.Quiet first := by
  have stays : ∀ {stage'}, m'.LaunchAt r first stage' → ∃ stage permits,
      work = .launch permits stage ∧ work' = .launch permits stage' := by
    intro stage' stands
    obtain ⟨other, -⟩ | ⟨-, found⟩ := underway.launch_cases here rule after stands
    · exact absurd mine other
    · exact found
  obtain stands | ⟨s, stands, done⟩ := ended
  · obtain ⟨stage, permits, rfl, rfl⟩ := stays stands
    obtain ⟨-, rfl⟩ := underway.is_first confined here rule rfl
    cases rule with
    | @finished permits s isDone =>
        have quiet : m.Quiet first := underway.calm (.inr ⟨s, ⟨permits, mine ▸ here⟩, isDone⟩)
        apply quiet.step confined attended onTime here (.finished isDone) after
        rintro _ ⟨⟩
  · obtain ⟨stage, permits, rfl, rfl⟩ := stays stands
    cases rule with
    | joined all =>
        have new := after.started here (i := 0) rfl
        rw [Nat.add_zero] at new
        simp only [Machine.isDone, new] at done
        cases done

theorem step_calm (ended : m'.LaunchAt r first .done ∨
    ∃ s, m'.LaunchAt r first (.settle s) ∧ m'.isDone s = true) : m'.Quiet first := by
  by_cases mine : first = t
  · exact underway.step_calm_launch attended confined onTime here rule after mine ended
  · have before : ∀ {stage'}, m'.LaunchAt r first stage' → m.LaunchAt r first stage' := by
      intro stage' stands
      obtain ⟨-, found⟩ | ⟨same, -⟩ := underway.launch_cases here rule after stands
      · exact found
      · exact absurd same mine
    have still : m.Quiet first → m'.Quiet first := by
      intro quiet
      refine quiet.step confined attended onTime here rule after fun permits launch => ?_
      exact mine (underway.is_first confined here rule launch).1.symm
    obtain stands | ⟨s, stands, done⟩ := ended
    · exact still (underway.calm (.inl (before stands)))
    · cases doneBefore : m.isDone s with
      | true => exact still (underway.calm (.inr ⟨s, before stands, doneBefore⟩))
      | false =>
          obtain ⟨i, stage, there⟩ := underway.settling (before stands)
          -- the task that waits for everything has just found nothing left
          have moved : s = t := by
            by_contra other
            simp only [Machine.isDone, there] at doneBefore
            simp only [Machine.isDone, after.kept other rfl there, doneBefore] at done
            cases done
          subst moved
          cases here.symm.trans there
          simp only [Machine.isDone, after.here] at done
          have full := rule
          cases rule with
          | settled =>
              exact still
                (underway.quiet_of_settled attended confined here full (before stands) rfl rfl)
          | take | batch => cases done

/-- A step lets nothing escape. -/
theorem step : m'.Underway first r where
  running := by
    obtain ⟨run, running⟩ := underway.running
    have running' := after.run r
    rw [running, Option.map_some] at running'
    by_cases ours : r = j
    · rw [if_pos ours] at running'
      exact ⟨_, running'⟩
    · rw [if_neg ours] at running'
      exact ⟨_, running'⟩
  launch := underway.step_launch here rule after
  sole := underway.step_sole here rule after
  entries := underway.step_entries confined here rule after
  fanOuts := underway.step_fanOuts confined here rule after
  settles := underway.step_settles confined here rule after
  settling := underway.step_settling here rule after
  calm := underway.step_calm attended confined onTime here rule after

end Underway

/-! ## Runs -/

variable {execution : ExecutionId} {inputs : RunInputs}

theorem launched_launchAt :
    (m.launched g execution inputs).LaunchAt m.nextRun m.nextTask .announce := by
  refine ⟨g.maxEntries, ?_⟩
  rw [launched, tasks_begin, if_neg (Nat.lt_irrefl _), Nat.sub_self]
  rfl

theorem AtRest.attended (rest : m.AtRest g) :
    (m.launched g execution inputs).Attended m.nextTask where
  prompt := by
    intro k task here
    obtain ⟨old, there⟩ | ⟨rfl, rfl⟩ := launched_task here
    · obtain done | harmless := rest.done k task there
      · exact Task.prompt_of_isDone done
      · exact harmless.prompt
    · trivial
  waiter := by
    intro r k id stage recent calling
    obtain ⟨began, here⟩ := calling
    obtain ⟨old, -⟩ | ⟨-, launch⟩ := launched_task here
    · exact absurd old (Nat.not_lt_of_le recent)
    · cases launch

theorem underway_launched : (m.launched g execution inputs).Underway m.nextTask m.nextRun := by
  refine ⟨⟨_, run?_begin ..⟩, ⟨_, launched_launchAt⟩, ?_, ?_, ?_, ?_, ?_, ?_⟩
  · intro j k stage recent stands
    obtain ⟨permits, here⟩ := stands
    exact (launched_only recent here).1
  · intro j k launch id stage recent here
    cases (launched_only recent here).2
  · intro j k id rounds waiting recent here
    cases (launched_only recent here).2
  · intro j k stage recent here
    cases (launched_only recent here).2
  · intro s waits
    cases waits.unique launched_launchAt
  · rintro (stands | ⟨s, stands, -⟩)
    · cases stands.unique launched_launchAt
    · cases stands.unique launched_launchAt

end Machine
end Flowgraph
