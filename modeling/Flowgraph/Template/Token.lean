/- # Flowgraph.Template.Token -- the words of a tag

The body of a tag is read one character at a time.  Between tokens, blanks are
skipped; a pipe, a colon and a comma stand for themselves; a quote opens a string
literal; a digit, or a minus before one, opens a number; a letter, underscore or
dollar sign opens a path.

* A string ends at its own quote.  A backslash takes the next character as it is,
  except that `n`, `t` and `r` are the line feed, the tab and the carriage return.
* A number goes on with digits, points, `e` and `E`, and a sign right after one
  of the letters; what it amounts to is decided as for JSON.
* A path goes on with letters, digits and `_$.-[`, and with anything at all
  inside brackets.  The words `true`, `false`, `null` and `nil` are literals.

Each token carries the offset of its first byte.
-/
import Flowgraph.Template.Basic
import Flowgraph.Json.Reader
import Flowgraph.Text.Blank
import Flowgraph.Text.Letter

set_option autoImplicit false

namespace Flowgraph.Template

inductive Token where
  | path (text : String)
  | literal (value : Value)
  | pipe
  | colon
  | comma
  deriving DecidableEq

/-- A token and the offset of its first byte. -/
structure Placed where
  token : Token
  offset : Nat
  deriving DecidableEq

def isPathStart (c : Char) : Bool := Text.isLetter c || c == '_' || c == '$'

def isPathChar (c : Char) : Bool :=
  Text.isLetterOrDigit c || c == '_' || c == '$' || c == '.' || c == '-' || c == '['

/-- The token of a complete path. -/
def wordToken (text : List Char) : Token :=
  let s := String.ofList text
  if s = "true" then .literal (.bool true)
  else if s = "false" then .literal (.bool false)
  else if s = "null" ∨ s = "nil" then .literal .null
  else .path s

/-- The character that an escaped one stands for. -/
def escapedChar (c : Char) : Char :=
  if c = 'n' then '\n' else if c = 't' then '\t' else if c = 'r' then '\r' else c

/-- What the lexer is in the middle of.  `at` is where it began; texts have the
latest character first. -/
inductive LexState where
  | between
  | minus (start : Nat)
  | string (start : Nat) (quote : Char) (text : List Char) (escaped : Bool)
  | number (start : Nat) (text : List Char)
  | path (start : Nat) (text : List Char) (depth : Nat)

namespace LexState

/-- A character between tokens: the state it opens and the token it is. -/
def openToken (offset : Nat) (c : Char) : Except Error (LexState × Option Placed) :=
  if Text.isBlank c then .ok (.between, none)
  else if c = '|' then .ok (.between, some ⟨.pipe, offset⟩)
  else if c = ':' then .ok (.between, some ⟨.colon, offset⟩)
  else if c = ',' then .ok (.between, some ⟨.comma, offset⟩)
  else if c = '\x22' ∨ c = '\x27' then .ok (.string offset c [] false, none)
  else if isDigit c then .ok (.number offset [c], none)
  else if c = '-' then .ok (.minus offset, none)
  else if isPathStart c then .ok (.path offset [c] 0, none)
  else .error (.form offset (.unexpectedCharacter c))

/-- The token of a complete number. -/
def numberToken (start : Nat) (text : List Char) : Except Error Placed :=
  match Json.parseChars text.reverse with
  | some v => .ok ⟨.literal v, start⟩
  | none => .error (.form start (.invalidNumber (String.ofList text.reverse)))

/-- Whether a number goes on with a character. -/
def continuesNumber (text : List Char) (c : Char) : Bool :=
  isDigit c || c == '.' || c == 'e' || c == 'E' ||
    ((c == '+' || c == '-') && (text.head? == some 'e' || text.head? == some 'E'))

/-- The bracket depth with which a path goes on after a character, if it does. -/
def pathDepth? (depth : Nat) (c : Char) : Option Nat :=
  if c = ']' then if depth = 0 then none else some (depth - 1)
  else if c = '[' then some (depth + 1)
  else if depth = 0 ∧ ¬isPathChar c then none
  else some depth

/-- The tokens that one more character completes, and the state after it. -/
def step (state : LexState) (offset : Nat) (c : Char) : Except Error (LexState × List Placed) :=
  match state with
  | .between => (openToken offset c).map fun r => (r.1, r.2.toList)
  | .minus start =>
    if isDigit c then .ok (.number start [c, '-'], [])
    else .error (.form start (.unexpectedCharacter '-'))
  | .string start quote text escaped =>
    if escaped then .ok (.string start quote (escapedChar c :: text) false, [])
    else if c = '\\' then .ok (.string start quote text true, [])
    else if c = quote then
      .ok (.between, [⟨.literal (.str (String.ofList text.reverse)), start⟩])
    else .ok (.string start quote (c :: text) false, [])
  | .number start text =>
    if continuesNumber text c then .ok (.number start (c :: text), [])
    else
      match numberToken start text with
      | .error e => .error e
      | .ok t => (openToken offset c).map fun r => (r.1, t :: r.2.toList)
  | .path start text depth =>
    match pathDepth? depth c with
    | some depth' => .ok (.path start (c :: text) depth', [])
    | none =>
      (openToken offset c).map fun r => (r.1, ⟨wordToken text.reverse, start⟩ :: r.2.toList)

/-- The token that the end of the body completes. -/
def finish : LexState → Except Error (List Placed)
  | .between => .ok []
  | .minus start => .error (.form start (.unexpectedCharacter '-'))
  | .string start _ _ _ => .error (.form start .unterminatedString)
  | .number start text => (numberToken start text).map fun t => [t]
  | .path start text _ => .ok [⟨wordToken text.reverse, start⟩]

end LexState

/-- The tokens of the rest of a body, from a state and an offset on. -/
def lex : LexState → Nat → List Char → Except Error (List Placed)
  | state, _, [] => state.finish
  | state, offset, c :: cs =>
    match state.step offset c with
    | .error e => .error e
    | .ok (state', tokens) => (lex state' (offset + c.utf8Size) cs).map (tokens ++ ·)

/-- The tokens of a body whose first byte has the given offset. -/
def tokens (offset : Nat) (body : List Char) : Except Error (List Placed) :=
  lex .between offset body

end Flowgraph.Template
