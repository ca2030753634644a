/- # Flowgraph.Text.Cut -- splitting a text at the separators a scanner marks

A scanner walks the text with a state; `cuts s c` says that the character `c`,
met in state `s`, separates two pieces, and `next s c` is the state after it.
`cut` returns the pieces without the separators, always at least one.  Dotted
paths and comma lists are both read this way, with different states.
-/

set_option autoImplicit false

namespace Flowgraph.Text

variable {σ : Type}

/-- Put a character in front of the first piece. -/
def extendFirst (c : Char) : List (List Char) → List (List Char)
  | [] => [[c]]
  | p :: ps => (c :: p) :: ps

/-- The pieces between the marked separators, in order. -/
def cut (next : σ → Char → σ) (cuts : σ → Char → Bool) : σ → List Char → List (List Char)
  | _, [] => [[]]
  | s, c :: cs =>
    if cuts s c then [] :: cut next cuts (next s c) cs
    else extendFirst c (cut next cuts (next s c) cs)

theorem cut_ne_nil (next : σ → Char → σ) (cuts : σ → Char → Bool) (s : σ) (cs : List Char) :
    cut next cuts s cs ≠ [] := by
  cases cs with
  | nil => simp [cut]
  | cons c cs =>
    simp only [cut]
    split
    · simp
    · cases cut next cuts (next s c) cs <;> simp [extendFirst]

end Flowgraph.Text
