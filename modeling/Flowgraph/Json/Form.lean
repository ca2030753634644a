/- # Flowgraph.Json.Form -- the layout of a JSON text

A form is a JSON text whose scalars are written already and whose containers are
not laid out yet.  `compact` has no blanks.  `pretty` indents by two spaces, one
item or member to a line; an empty container stays on its line.

A string escapes the quote, the backslash and the control characters below
U+0020, five of which have a letter of their own; everything else is written as
it is.
-/

set_option autoImplicit false

namespace Flowgraph.Json

/-- One lower-case hexadecimal digit. -/
def hexDigit (n : Nat) : Char := Nat.digitChar (n % 16)

/-- A character inside a quoted string. -/
def escape (c : Char) : List Char :=
  if c = '\x22' then ['\\', '\x22']
  else if c = '\\' then ['\\', '\\']
  else if c = '\x08' then ['\\', 'b']
  else if c = '\x0c' then ['\\', 'f']
  else if c = '\n' then ['\\', 'n']
  else if c = '\r' then ['\\', 'r']
  else if c = '\t' then ['\\', 't']
  else if c.toNat < 0x20 then
    ['\\', 'u', '0', '0', hexDigit (c.toNat / 16), hexDigit c.toNat]
  else [c]

def quoted (s : String) : List Char := '\x22' :: s.toList.flatMap escape ++ ['\x22']

inductive Form where
  | scalar (text : List Char)
  | arr (items : List Form)
  | obj (members : List (String × Form))

namespace Form

def null : Form := .scalar ['n', 'u', 'l', 'l']

def bool : Bool → Form
  | true => .scalar ['t', 'r', 'u', 'e']
  | false => .scalar ['f', 'a', 'l', 's', 'e']

def str (s : String) : Form := .scalar (quoted s)

/-- The form of something that may be missing: null when it is. -/
def option {α : Type} (form : α → Form) : Option α → Form
  | some x => form x
  | none => null

mutual

def compact : Form → List Char
  | .scalar text => text
  | .arr items => '[' :: compactItems items ++ [']']
  | .obj members => '{' :: compactMembers members ++ ['}']

def compactItems : List Form → List Char
  | [] => []
  | [v] => compact v
  | v :: w :: rest => compact v ++ ',' :: compactItems (w :: rest)

def compactMembers : List (String × Form) → List Char
  | [] => []
  | [(k, v)] => quoted k ++ ':' :: compact v
  | (k, v) :: m :: rest => quoted k ++ ':' :: compact v ++ ',' :: compactMembers (m :: rest)

end

/-- A new line at a depth of nesting. -/
def newLine (depth : Nat) : List Char := '\n' :: List.replicate (2 * depth) ' '

mutual

/-- The indented text of a form that stands at `depth`. -/
def pretty (depth : Nat) : Form → List Char
  | .scalar text => text
  | .arr [] => ['[', ']']
  | .arr (v :: rest) => '[' :: prettyItems (depth + 1) (v :: rest) ++ newLine depth ++ [']']
  | .obj [] => ['{', '}']
  | .obj (m :: rest) => '{' :: prettyMembers (depth + 1) (m :: rest) ++ newLine depth ++ ['}']

def prettyItems (depth : Nat) : List Form → List Char
  | [] => []
  | [v] => newLine depth ++ pretty depth v
  | v :: w :: rest => newLine depth ++ pretty depth v ++ ',' :: prettyItems depth (w :: rest)

def prettyMembers (depth : Nat) : List (String × Form) → List Char
  | [] => []
  | [(k, v)] => newLine depth ++ quoted k ++ ':' :: ' ' :: pretty depth v
  | (k, v) :: m :: rest =>
    newLine depth ++ quoted k ++ ':' :: ' ' :: pretty depth v ++
      ',' :: prettyMembers depth (m :: rest)

end

/-- The text without blanks. -/
def toText (f : Form) : String := String.ofList f.compact

/-- The indented text. -/
def toPretty (f : Form) : String := String.ofList (f.pretty 0)

end Form
end Flowgraph.Json
