/- # Flowgraph.Proofs.Run.Session -- one graph, run again and again

In a session runs are started on one graph, one after the other, and the tasks of all of them
take their steps in whatever order; a run may be started while tasks of earlier ones are still at
work.  Starting a run resets every node but for its gate, which is left to the call that holds it.
So a gate is always held by a call inside it (`held_session`), and when all tasks are done, every
gate is free (`still_session`).
-/
import Mathlib.Data.List.Induction
import Flowgraph.Proofs.Run.Tidy

set_option autoImplicit false

namespace Flowgraph

namespace Machine

/-- What happens in a session. -/
inductive Act where
  /-- A run is started, with some requests. -/
  | start (execution : ExecutionId) (inputs : RunInputs) (requests : List Request)
  /-- A task of any run takes a step, if it can, or the clock is set. -/
  | move (v : Move)

variable (g : Graph)

def act (m : Machine) : Act → Machine
  | .start execution inputs requests => m.begin g execution inputs requests
  | .move v => m.move g v

/-- The machine after a session on a new graph. -/
def session (now : Instant) (acts : List Act) : Machine := acts.foldl (act g) (new now)

variable {g} {m : Machine} {now : Instant}

theorem session_append (first rest : List Act) :
    session g now (first ++ rest) = rest.foldl (act g) (session g now first) := by
  simp [session, List.foldl_append]

theorem session_step (first : List Act) (t : TaskId) :
    session g now (first ++ [.move (.step t)]) =
      ((session g now first).step g t).getD (session g now first) := by
  rw [session_append]
  rfl

theorem session_start (first : List Act) (execution : ExecutionId) (inputs : RunInputs)
    (requests : List Request) :
    session g now (first ++ [.start execution inputs requests]) =
      (session g now first).begin g execution inputs requests := by
  rw [session_append]
  rfl

/-- What the start of a run, each rule and every setting of the clock keep, any acts keep. -/
theorem acts_induction {P : Machine → Prop}
    (starts : ∀ m execution inputs requests, P m → P (m.begin g execution inputs requests))
    (steps : ∀ m t r work work' e m', P m → m.tasks[t]? = some ⟨r, work⟩ →
      Transition g m t r work work' e → After m t r work' e m' → P m')
    (ticks : ∀ m now, P m → P { m with now := now }) (first : P m) (acts : List Act) :
    P (acts.foldl (act g) m) := by
  induction acts using List.reverseRecOn with
  | nil => exact first
  | append_singleton acts last ih =>
      rw [List.foldl_append]
      cases last with
      | start execution inputs requests => exact starts _ _ _ _ ih
      | move v =>
          cases v with
          | tick now => exact ticks _ _ ih
          | step t =>
              show P (((acts.foldl (act g) m).step g t).getD (acts.foldl (act g) m))
              cases stepped : (acts.foldl (act g) m).step g t with
              | none => exact ih
              | some m' =>
                  obtain ⟨r, work, work', e, here, rule, after, -⟩ := step_cases stepped
                  exact steps _ _ _ _ _ _ _ ih here rule after

/-- **Sessions by their acts.**  What the start of a run, each rule and every setting of the clock
keep holds after every session. -/
theorem session_induction {P : Machine → Prop}
    (starts : ∀ m execution inputs requests, P m → P (m.begin g execution inputs requests))
    (steps : ∀ m t r work work' e m', P m → m.tasks[t]? = some ⟨r, work⟩ →
      Transition g m t r work work' e → After m t r work' e m' → P m')
    (ticks : ∀ m now, P m → P { m with now := now }) (first : P (new now)) (acts : List Act) :
    P (session g now acts) :=
  acts_induction starts steps ticks first acts

/-- **Sessions with their acts.**  What starts of runs, rules and moves that change no more than the
clock keep, when it may speak of all that has been done. -/
theorem history_induction (g : Graph) (now : Instant) {P : List Act → Prop} (first : P [])
    (starts : ∀ acts execution inputs requests, P acts →
      P (acts ++ [.start execution inputs requests]))
    (steps : ∀ acts t r work work' e, P acts → (session g now acts).tasks[t]? = some ⟨r, work⟩ →
      Transition g (session g now acts) t r work work' e →
      After (session g now acts) t r work' e (session g now (acts ++ [.move (.step t)])) →
      P (acts ++ [.move (.step t)]))
    (idle : ∀ acts v now', P acts →
      session g now (acts ++ [.move v]) = { session g now acts with now := now' } →
      P (acts ++ [.move v])) (acts : List Act) : P acts := by
  induction acts using List.reverseRecOn with
  | nil => exact first
  | append_singleton acts last ih =>
      cases last with
      | start execution inputs requests => exact starts acts execution inputs requests ih
      | move v =>
          cases v with
          | tick now' =>
              apply idle acts _ now' ih
              rw [session_append]
              rfl
          | step t =>
              cases stepped : (session g now acts).step g t with
              | none =>
                  apply idle acts _ (session g now acts).now ih
                  rw [session_step, stepped, Option.getD_none]
              | some m' =>
                  obtain ⟨r, work, work', e, here, rule, after, -⟩ := step_cases stepped
                  apply steps acts t r work work' e ih here rule
                  rw [session_step, stepped, Option.getD_some]
                  exact after

theorem Held.begin (held : m.Held) (execution : ExecutionId) (inputs : RunInputs)
    (requests : List Request) : (m.begin g execution inputs requests).Held := by
  intro id k holds
  rw [cell_begin] at holds
  obtain ⟨r, stage, ⟨began, there⟩, inside⟩ := held id k holds
  refine ⟨r, stage, ⟨began, ?_⟩, inside⟩
  have early : k < m.nextTask := lt_size_of_tasks there
  rw [tasks_begin, if_pos early]
  exact there

theorem held_session (acts : List Act) : (session g now acts).Held :=
  session_induction (fun _ execution inputs requests held => held.begin execution inputs requests)
    (fun _ _ _ _ _ _ _ held here rule after => held.step here rule after)
    (fun _ _ held => held) (fun _ _ holds => by cases holds) acts

/-- A gate goes from one run to the next with the call that holds it, and every result is forgotten. -/
theorem Gated.begin (gated : m.Gated) (execution : ExecutionId) (inputs : RunInputs)
    (requests : List Request) : (m.begin g execution inputs requests).Gated where
  held := by
    intro r k id stage calling inside
    rw [cell_begin]
    rcases calling_begin calling with ⟨-, there⟩ | ⟨-, rfl⟩
    · exact gated.held there inside
    · cases inside
  unset := by
    intro r k id stage calling computing
    rw [cell_begin]
    rfl

theorem gated_session (acts : List Act) : (session g now acts).Gated :=
  session_induction (fun _ execution inputs requests gated => gated.begin execution inputs requests)
    (fun _ _ _ _ _ _ _ gated here rule after => gated.step here rule after)
    (fun _ _ gated => ⟨gated.held, gated.unset⟩)
    ⟨by rintro _ _ _ _ ⟨_, here⟩; simp [new] at here,
      by rintro _ _ _ _ ⟨_, here⟩; simp [new] at here⟩ acts

/-- **When all tasks of a session are done, nothing is at work**: no gate is held either. -/
theorem still_session {acts : List Act}
    (done : ∀ (t : TaskId) (task : Task), (session g now acts).tasks[t]? = some task →
      task.isDone = true) : (session g now acts).Still :=
  (held_session acts).still done

end Machine
end Flowgraph
