/- # Flowgraph.Proofs.Template.Offsets -- a tag further on in its template

The offset at which a tag begins is only ever added to: it is where the tokens and the errors of
the tag are, and it decides nothing else.  Moving the tag by a number of bytes moves the offsets in
what the lexer, the reader and the evaluation say of it, and leaves the rest (`lex_shift`,
`Pipeline.readFrom_shift`, `evaluateAt_shift`).
-/
import Mathlib.Tactic.SplitIfs
import Flowgraph.Template.Render

set_option autoImplicit false

namespace Flowgraph.Template

/-- The error that is found a number of bytes further on. -/
def Error.shift (k : Nat) : Error → Error
  | .form offset fault => .form (offset + k) fault
  | .unknownFilter name => .unknownFilter name
  | .filter name fault => .filter name fault

/-- The token that stands a number of bytes further on. -/
def Placed.shift (k : Nat) (t : Placed) : Placed := ⟨t.token, t.offset + k⟩

/-- The state of the lexer that began a number of bytes further on. -/
def LexState.shift (k : Nat) : LexState → LexState
  | .between => .between
  | .minus start => .minus (start + k)
  | .string start quote text escaped => .string (start + k) quote text escaped
  | .number start text => .number (start + k) text
  | .path start text depth => .path (start + k) text depth

/-- An outcome that moves with its error is the same one when it is a value. -/
theorem mapError_eq_ok_iff {ε ε' α : Type} {f : ε → ε'} {x : Except ε α} {a : α} :
    x.mapError f = .ok a ↔ x = .ok a := by
  cases x with
  | error e => simp [Except.mapError]
  | ok b => simp [Except.mapError]

/-! ## Tokens -/

namespace LexState

theorem openToken_shift (k offset : Nat) (c : Char) :
    openToken (offset + k) c =
      ((openToken offset c).map fun r => (r.1.shift k, r.2.map (Placed.shift k))).mapError
        (Error.shift k) := by
  simp only [openToken]
  split_ifs <;> rfl

theorem numberToken_shift (k start : Nat) (text : List Char) :
    numberToken (start + k) text =
      ((numberToken start text).map (Placed.shift k)).mapError (Error.shift k) := by
  rw [numberToken, numberToken]
  cases Json.parseChars text.reverse <;> rfl

theorem step_shift (k : Nat) (s : LexState) (offset : Nat) (c : Char) :
    (s.shift k).step (offset + k) c =
      ((s.step offset c).map fun r => (r.1.shift k, r.2.map (Placed.shift k))).mapError
        (Error.shift k) := by
  cases s with
  | between =>
      simp only [shift, step, openToken_shift]
      cases openToken offset c with
      | error e => rfl
      | ok r => obtain ⟨s, - | t⟩ := r <;> rfl
  | minus start =>
      simp only [shift, step]
      split_ifs <;> rfl
  | string start quote text escaped =>
      simp only [shift, step]
      split_ifs <;> rfl
  | number start text =>
      simp only [shift, step, numberToken_shift, openToken_shift]
      split_ifs
      · rfl
      · cases numberToken start text with
        | error e => rfl
        | ok t =>
            cases openToken offset c with
            | error e => rfl
            | ok r => obtain ⟨s, - | u⟩ := r <;> rfl
  | path start text depth =>
      simp only [shift, step, openToken_shift]
      cases pathDepth? depth c with
      | some depth' => rfl
      | none =>
          cases openToken offset c with
          | error e => rfl
          | ok r => obtain ⟨s, - | u⟩ := r <;> rfl

theorem finish_shift (k : Nat) (s : LexState) :
    (s.shift k).finish = (s.finish.map (List.map (Placed.shift k))).mapError (Error.shift k) := by
  cases s with
  | number start text =>
      simp only [shift, finish, numberToken_shift]
      cases numberToken start text <;> rfl
  | _ => rfl

end LexState

theorem lex_shift (k : Nat) (s : LexState) (offset : Nat) (cs : List Char) :
    lex (s.shift k) (offset + k) cs =
      ((lex s offset cs).map (List.map (Placed.shift k))).mapError (Error.shift k) := by
  induction cs generalizing s offset with
  | nil => exact s.finish_shift k
  | cons c cs ih =>
      rw [lex, lex, LexState.step_shift]
      cases s.step offset c with
      | error e => rfl
      | ok r =>
          have later := ih r.1 (offset + c.utf8Size)
          rw [Nat.add_right_comm] at later
          simp only [Except.map, Except.mapError] at later ⊢
          rw [later]
          cases lex r.1 (offset + c.utf8Size) cs <;> simp

theorem tokens_shift (k offset : Nat) (body : List Char) :
    tokens (offset + k) body =
      ((tokens offset body).map (List.map (Placed.shift k))).mapError (Error.shift k) :=
  lex_shift k .between offset body

/-! ## Pipelines -/

namespace Pipeline

/-- The pipeline whose fault is a number of bytes further on. -/
def shift (k : Nat) (p : Pipeline) : Pipeline :=
  { p with fault := p.fault.map fun f => (f.1 + k, f.2) }

theorem readFrom_shift (k stop : Nat) (e : Expect) (ts : List Placed) :
    readFrom (stop + k) e (ts.map (Placed.shift k)) =
      ((readFrom stop e ts).1, (readFrom stop e ts).2.map fun f => (f.1 + k, f.2)) := by
  induction ts generalizing e with
  | nil =>
      simp only [List.map_nil, readFrom]
      split_ifs <;> rfl
  | cons t ts ih =>
      have token : (t.shift k).token = t.token := rfl
      simp only [List.map_cons, readFrom, token]
      cases e.next t.token with
      | none => rfl
      | some e' => simp only [ih e']

theorem read_shift (k stop : Nat) (ts : List Placed) :
    read (stop + k) (ts.map (Placed.shift k)) = (read stop ts).shift k := by
  have source : ((ts.map (Placed.shift k)).head?.bind fun t => t.token.operand?) =
      ts.head?.bind fun t => t.token.operand? := by
    cases ts <;> rfl
  simp only [read, shift, readFrom_shift, source]

/-- A filter that cannot be applied is no fault of form, so its error stays as it is. -/
theorem applyFilter_stays (k : Nat) (name : String) (input : Value) (arguments : List Value) :
    (applyFilter name input arguments).mapError (Error.shift k) =
      applyFilter name input arguments := by
  rw [applyFilter]
  cases Filter.ofName? name with
  | none => rfl
  | some f =>
      cases applied : f.apply input arguments <;> simp [applied, Except.mapError, Error.shift]

theorem fold_stays (k : Nat) (m v : Value) (as : List Application) :
    (fold m v as).mapError (Error.shift k) = fold m v as := by
  induction as generalizing v with
  | nil => rfl
  | cons a as ih =>
      have first := applyFilter_stays k a.name v (a.arguments.map (Operand.value m))
      rw [fold]
      cases applied : applyFilter a.name v (a.arguments.map (Operand.value m)) with
      | error e => rwa [applied] at first
      | ok w => exact ih w

theorem evaluate_shift (k : Nat) (m : Value) (p : Pipeline) :
    (p.shift k).evaluate m = (p.evaluate m).mapError (Error.shift k) := by
  have folded := fold_stays k m ((p.source.map (Operand.value m)).getD .null) p.applications
  simp only [evaluate, shift]
  cases applied : fold m ((p.source.map (Operand.value m)).getD .null) p.applications with
  | error e => rw [applied] at folded; simpa using folded.symm
  | ok v => cases p.fault <;> rfl

end Pipeline

/-- **A tag that stands further on** has the same value, and the same error further on. -/
theorem evaluateAt_shift (k offset : Nat) (body : List Char) (m : Value) :
    evaluateAt (offset + k) body m = (evaluateAt offset body m).mapError (Error.shift k) := by
  rw [evaluateAt, evaluateAt, tokens_shift]
  cases tokens offset body with
  | error e => rfl
  | ok ts =>
      simp only [Except.map, Except.mapError, Nat.add_right_comm offset k, Pipeline.read_shift,
        Pipeline.evaluate_shift]

/-- What a tag is worth, it is worth wherever it stands. -/
theorem evaluateAt_eq_ok_iff {offset : Nat} {body : List Char} {m v : Value} :
    evaluateAt offset body m = .ok v ↔ evaluate (String.ofList body) m = .ok v := by
  have moved := evaluateAt_shift offset 0 body m
  rw [Nat.zero_add] at moved
  rw [moved, mapError_eq_ok_iff, evaluate, String.toList_ofList]

end Flowgraph.Template
