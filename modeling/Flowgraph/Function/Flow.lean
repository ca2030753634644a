/- # Flowgraph.Function.Flow -- entry, branch, loop and workflow output

The start marker is what makes a node an entry of its workflow; it gives the
run's parameters as members.  The branch and the loop declare ports, so only what
they fire leads anywhere.
-/
import Flowgraph.Document.View
import Flowgraph.Function.Basic

set_option autoImplicit false

namespace Flowgraph

/-- The key of the start marker. -/
def startKey : String := "flow.start"

namespace Function

def start : Function where
  signature :=
    { key := startKey
      description := "Entry point of a run; outputs the workflow parameters"
      category := "flow"
      parameters := [⟨"context", .context⟩]
      ports := [] }
  body i := Program.require i.needContext fun c => .return_ (.record c.inputs.parameters)

/-- A text counts as false when it is blank, zero or the word false. -/
def holds : Value → Bool
  | .str s =>
    let text := Text.trim s.toList
    !(text.isEmpty || text.map Char.toLower == ['f', 'a', 'l', 's', 'e'] || text == ['0'])
  | v => v.isTruthy

def branch : Function where
  signature :=
    { key := "logic.if"
      description := "Fires `true` or `false` depending on the condition"
      category := "logic"
      parameters := [⟨"condition", .any⟩, ⟨"flow", .flow⟩]
      ports := ["true", "false"] }
  body i :=
    let condition := ((Members.get? "condition" i.arguments).map holds).getD false
    Program.require i.needFlow fun _ =>
      .fire (if condition then "true" else "false") fun fired =>
        Program.require (fired.mapError .controlFlow) fun _ =>
          .return_ (.value (.bool condition))

/-- The share of iterations that are done, in percent. -/
def loopPercent (done count : Nat) : Float := Float.ofNat done * 100 / Float.ofNat count

/-- The last `left` of `count` iterations, and what comes after them. -/
def iterate (count : Nat) (after : Program) : (left : Nat) → Program
  | 0 => after
  | left + 1 =>
    let iteration := count - (left + 1)
    .publish "iteration" (.ofInt iteration) fun published =>
      Program.require (published.mapError .path) fun _ =>
        .notify (.progress (loopPercent (iteration + 1) count) (some s!"iteration {iteration}"))
          (.fire "loop" fun fired =>
            Program.require (fired.mapError .controlFlow) fun _ => iterate count after left)

def loop : Function where
  signature :=
    { key := "flow.loop"
      description := "Fires `loop` count times, then `done`"
      category := "flow"
      parameters := [⟨"count", .integer⟩, ⟨"context", .context⟩, ⟨"flow", .flow⟩]
      ports := ["loop", "done"] }
  body i :=
    Program.require (Arguments.needInteger i.arguments "count") fun count =>
      if count < 0 then
        .fail (.invalidArgument "count" "non-negative integer" (String.ofList (Number.intText count)))
      else
        Program.require i.needContext fun _ =>
          Program.require i.needFlow fun _ =>
            let after := Program.fire "done" fun fired =>
              Program.require (fired.mapError .controlFlow) fun _ =>
                .return_ (.record [("iterations", .ofInt count)])
            iterate count.toNat after count.toNat

def output : Function where
  signature :=
    { key := "workflow.output"
      description := "Publishes a value under workflow.output.<name>"
      category := "flow"
      parameters := [⟨"name", .string⟩, ⟨"value", .any⟩, ⟨"context", .context⟩]
      ports := [] }
  body i :=
    Program.require (Arguments.needText i.arguments "name") fun name =>
      if Text.isBlankText name then .fail (.missingArgument "name")
      else
        let value := (Members.get? "value" i.arguments).getD .null
        Program.require i.needContext fun _ =>
          .publishOutput name value fun published =>
            Program.require (published.mapError .path) fun _ => .return_ (.value value)

end Function
end Flowgraph
