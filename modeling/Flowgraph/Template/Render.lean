/- # Flowgraph.Template.Render -- templates with tags

A template is text with tags in double braces.  `pieces` finds them: a tag opens
at the first two opening braces and closes at the first two closing ones outside
quotes, where a backslash inside quotes hides the next character.  Where tags
open and close depends on the template alone, never on a value.

`render` writes text as it is and each tag as the display text of its value; the
first piece that fails, from the left, is the error.
-/
import Flowgraph.Template.Pipeline

set_option autoImplicit false

namespace Flowgraph.Template

inductive Piece where
  | text (chars : List Char)
  | tag (body : List Char)
  /-- A tag that is never closed. -/
  | unclosed
  deriving DecidableEq

/-- Where the scan of a template stands; texts have the latest character first. -/
inductive Scan where
  | text (seen : List Char)
  | tag (seen : List Char)
  | quoted (seen : List Char) (quote : Char) (escaped : Bool)

/-- The pieces of the rest of a template. -/
def piecesFrom : Scan → List Char → List Piece
  | .text seen, [] => [.text seen.reverse]
  | .text seen, '{' :: '{' :: cs => .text seen.reverse :: piecesFrom (.tag []) cs
  | .text seen, c :: cs => piecesFrom (.text (c :: seen)) cs
  | .tag _, [] => [.unclosed]
  | .tag seen, '}' :: '}' :: cs => .tag seen.reverse :: piecesFrom (.text []) cs
  | .tag seen, c :: cs =>
    if c = '\x22' ∨ c = '\x27' then piecesFrom (.quoted (c :: seen) c false) cs
    else piecesFrom (.tag (c :: seen)) cs
  | .quoted _ _ _, [] => [.unclosed]
  | .quoted seen quote escaped, c :: cs =>
    if escaped then piecesFrom (.quoted (c :: seen) quote false) cs
    else if c = '\\' then piecesFrom (.quoted (c :: seen) quote true) cs
    else if c = quote then piecesFrom (.tag (c :: seen)) cs
    else piecesFrom (.quoted (c :: seen) quote false) cs

def pieces (template : List Char) : List Piece := piecesFrom (.text []) template

/-- The text of pieces, the first of which has the given offset. -/
def renderFrom (model : Value) : Nat → List Piece → Except Error (List Char)
  | _, [] => .ok []
  | offset, .text cs :: rest =>
    (renderFrom model (offset + Text.byteSize cs) rest).map (cs ++ ·)
  | offset, .tag body :: rest =>
    match evaluateAt (offset + 2) body model with
    | .error e => .error e
    | .ok v => (renderFrom model (offset + Text.byteSize body + 4) rest).map (v.displayChars ++ ·)
  | offset, .unclosed :: _ => .error (.form offset .unterminatedTag)

def renderChars (template : List Char) (model : Value) : Except Error (List Char) :=
  renderFrom model 0 (pieces template)

def render (template : String) (model : Value) : Except Error String :=
  (renderChars template.toList model).map String.ofList

/-- Whether a text holds two opening braces in a row. -/
def hasTag : List Char → Bool
  | '{' :: '{' :: _ => true
  | _ :: cs => hasTag cs
  | [] => false

end Flowgraph.Template
