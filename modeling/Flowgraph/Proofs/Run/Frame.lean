/- # Flowgraph.Proofs.Run.Frame -- what the operations of a machine change

Each operation of a machine is described by what can be read afterwards: the
cell of a node, the task of a number, the record of a run, the log.  After this
module no proof opens an operation again.
-/
import Flowgraph.Run.Step

set_option autoImplicit false

namespace Flowgraph

theorem Graph.id_of_node? {g : Graph} {id : NodeId} {n : Node} (known : g.node? id = some n) :
    n.id = id := by
  have := List.find?_some known
  simpa using this

theorem Graph.mem_of_node? {g : Graph} {id : NodeId} {n : Node} (known : g.node? id = some n) :
    n ∈ g.nodes :=
  List.mem_of_find?_eq_some known

/-- What is found in a list of entries after a key has been written, in its place when it was
there and at the end when it was not. -/
theorem lookup_written {κ α : Type} [DecidableEq κ] {key : κ} {value : α}
    (write : List (κ × α) → List (κ × α)) (nil : write [] = [(key, value)])
    (cons : ∀ k old rest, write ((k, old) :: rest) =
      if k = key then (key, value) :: rest else (k, old) :: write rest)
    (entries : List (κ × α)) (k : κ) :
    (write entries).lookup k = if k = key then some value else entries.lookup k := by
  have other {a b : κ} (ne : ¬ a = b) : (a == b) = false := beq_eq_false_iff_ne.2 ne
  induction entries with
  | nil => by_cases same : k = key <;> simp [nil, List.lookup_cons, same, other]
  | cons entry rest ih =>
      obtain ⟨j, old⟩ := entry
      by_cases here : j = key
      · subst here
        by_cases same : k = j <;> simp [cons, List.lookup_cons, same, other]
      · by_cases there : k = j
        · subst there
          simp [cons, here]
        · simp [cons, here, List.lookup_cons, other there, ih]

namespace Machine

variable (m : Machine)

/-! ## Cells -/

theorem lookup_putCell (id k : NodeId) (c : Cell) (cells : List (NodeId × Cell)) :
    (putCell id c cells).lookup k = if k = id then some c else cells.lookup k :=
  lookup_written (putCell id c) rfl (fun _ _ _ => rfl) cells k

theorem cell_updateCell (id : NodeId) (change : Cell → Cell) (k : NodeId) :
    (m.updateCell id change).cell k = if k = id then change (m.cell k) else m.cell k := by
  by_cases h : k = id <;> simp [cell, updateCell, lookup_putCell, h]

theorem lookup_map_reset (cells : List (NodeId × Cell)) (k : NodeId) :
    (cells.map fun c => (c.1, c.2.reset)).lookup k = (cells.lookup k).map Cell.reset := by
  induction cells with
  | nil => rfl
  | cons entry rest ih =>
      obtain ⟨j, d⟩ := entry
      by_cases h : k == j <;> simp [List.lookup_cons, h, ih]

/-- Starting a run leaves a node nothing but its gate. -/
theorem cell_startRun (execution : ExecutionId) (inputs : RunInputs) (k : NodeId) :
    (m.startRun execution inputs).2.cell k = (m.cell k).reset := by
  simp only [startRun, cell, lookup_map_reset]
  cases m.cells.lookup k <;> rfl

/-! ## Tasks -/

theorem tasks_setWork (t k : TaskId) (work : Work) :
    (m.setWork t work).tasks[k]? =
      if k = t then m.tasks[k]?.map fun task => { task with work := work } else m.tasks[k]? := by
  by_cases h : k = t
  · subst h
    simp [setWork, Array.getElem?_modify]
  · simp [setWork, Array.getElem?_modify, h, Ne.symm h]

/-- The call that is started for a node. -/
def freshCall (r : RunId) (id : NodeId) : Task := ⟨r, .call id m.now .probe⟩

theorem spawnCalls_eq (r : RunId) (ids : List NodeId) :
    m.spawnCalls r ids = (List.range' m.tasks.size ids.length,
      { m with tasks := m.tasks ++ (ids.map (m.freshCall r)).toArray }) := by
  induction ids generalizing m with
  | nil => simp [spawnCalls]
  | cons id rest ih =>
      rw [spawnCalls, spawn]
      simp only [ih]
      simp [List.range'_succ, freshCall]
      rfl

theorem spawnEntries_eq (r : RunId) (launch : TaskId) (ids : List NodeId) :
    m.spawnEntries r launch ids = (List.range' m.tasks.size ids.length,
      { m with tasks := m.tasks ++ (ids.map fun id => ⟨r, .entry launch id .waiting⟩).toArray }) := by
  induction ids generalizing m with
  | nil => simp [spawnEntries]
  | cons id rest ih =>
      rw [spawnEntries, spawn]
      simp only [ih]
      simp [List.range'_succ]

theorem lt_size_of_tasks {t : TaskId} {task : Task} {m : Machine} (here : m.tasks[t]? = some task) :
    t < m.tasks.size :=
  (Array.getElem?_eq_some_iff.1 here).1

/-! ## Runs -/

theorem run?_updateRun (r k : RunId) (change : RunRecord → RunRecord) :
    (m.updateRun r change).run? k = if k = r then (m.run? k).map change else m.run? k := by
  by_cases h : k = r
  · subst h
    simp [updateRun, run?]
  · simp [updateRun, run?, Ne.symm h, h]

theorem run?_startRun (execution : ExecutionId) (inputs : RunInputs) :
    (m.startRun execution inputs).2.run? (m.startRun execution inputs).1 =
      some ⟨execution, m.now, .start inputs, []⟩ := by
  simp [startRun, run?]

end Machine
end Flowgraph
