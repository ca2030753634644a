/- # Flowgraph.Path -- addresses inside a document

A path is a list of segments, each a key or an index.  Written, its parts are
separated by dots outside brackets; a part is a bare segment, any number of
bracketed ones, or both: `output.items[0]["a.b"]`.  Blanks around the path,
around each part and directly inside the brackets do not count.

A segment in matching quotes is the key between them.  Any other segment is an
index when it is the shortest decimal form of a 64-bit number, so `007` is a key,
and a key otherwise.
-/
import Flowgraph.Text.Blank
import Flowgraph.Text.Cut
import Flowgraph.Number.Reading

set_option autoImplicit false

namespace Flowgraph

inductive Segment where
  | key (name : String)
  | index (n : Nat)
  deriving DecidableEq

abbrev Path := List Segment

/-- Why a path cannot be read or written through.  `path` is the text as given. -/
inductive PathError where
  | empty
  | emptySegment (path : String)
  | unterminatedIndex (path : String)
  | indexOutOfRange (path : String) (index : Nat)
  deriving DecidableEq

namespace PathError

def message : PathError → String
  | .empty => "Empty path"
  | .emptySegment path => s!"Empty segment in path '{path}'"
  | .unterminatedIndex path => s!"Unterminated index in path '{path}'"
  | .indexOutOfRange path index =>
    s!"Index {index} in path '{path}' is too far past the end of its array"

end PathError

namespace Segment

/-- Decimal text of an index. -/
def indexText (n : Nat) : String := String.ofList (Nat.toDigits 10 n)

/-- The key by which a segment addresses a member of an object. -/
def keyText : Segment → String
  | .key name => name
  | .index n => indexText n

/-- What stands between matching quotes, when the text is quoted. -/
def unquoted? (raw : List Char) : Option (List Char) :=
  match raw with
  | q :: r :: rest =>
    if (q = '\x22' ∨ q = '\x27') ∧ (r :: rest).getLast? = some q then some (r :: rest).dropLast
    else none
  | _ => none

/-- The number whose shortest decimal form the text is, if it fits 64 bits. -/
def index? (raw : List Char) : Option Nat :=
  let n := digitsValue raw
  if raw.all isDigit ∧ Nat.toDigits 10 n = raw ∧ n < 0x10000000000000000 then some n else none

/-- The segment that a bare or bracketed text names. -/
def ofChars (raw : List Char) : Segment :=
  match unquoted? raw with
  | some inner => .key (String.ofList inner)
  | none =>
    match index? raw with
    | some n => .index n
    | none => .key (String.ofList raw)

end Segment

namespace Path

/-- What can be wrong with the text of a path. -/
inductive Fault where
  | emptySegment
  | unterminatedIndex
  deriving DecidableEq

/-- Bracket depth after a character; a stray closing bracket does not count. -/
def depthAfter (depth : Nat) (c : Char) : Nat :=
  if c = '[' then depth + 1 else if c = ']' then depth - 1 else depth

/-- The parts between the dots that stand outside brackets. -/
def parts (cs : List Char) : List (List Char) :=
  Text.cut depthAfter (fun depth c => c == '.' && depth == 0) 0 cs

/-- The bracketed segments of a part.  `inside` holds the characters since the
opening bracket, latest first, while one is open. -/
def brackets : (inside : Option (List Char)) → List Char → Except Fault Path
  | none, [] => .ok []
  | none, c :: cs => if c = '[' then brackets (some []) cs else .error .unterminatedIndex
  | some _, [] => .error .unterminatedIndex
  | some seen, c :: cs =>
    if c = ']' then
      let inner := Text.trim seen.reverse
      if inner.isEmpty then .error .emptySegment
      else (brackets none cs).map (Segment.ofChars inner :: ·)
    else brackets (some (c :: seen)) cs

/-- The segments of one part. -/
def partSegments (raw : List Char) : Except Fault Path :=
  let part := Text.trim raw
  let head := part.takeWhile (· ≠ '[')
  let rest := part.dropWhile (· ≠ '[')
  if head.isEmpty then
    if rest.isEmpty then .error .emptySegment else brackets none rest
  else (brackets none rest).map (Segment.ofChars head :: ·)

/-- The segments of several parts; the first fault counts. -/
def joinParts : List (List Char) → Except Fault Path
  | [] => .ok []
  | p :: ps =>
    match partSegments p with
    | .error f => .error f
    | .ok segments => (joinParts ps).map (segments ++ ·)

/-- Read a path. -/
def parse (text : String) : Except PathError Path :=
  let cs := Text.trim text.toList
  if cs.isEmpty then .error .empty
  else
    match joinParts (parts cs) with
    | .ok path => .ok path
    | .error .emptySegment => .error (.emptySegment text)
    | .error .unterminatedIndex => .error (.unterminatedIndex text)

end Path
end Flowgraph
