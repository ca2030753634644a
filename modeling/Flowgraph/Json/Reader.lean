/- # Flowgraph.Json.Reader -- reading a JSON text

The reader is a machine that takes one character at a time.  Its state is the
stack of open containers and a mode: what is expected next, or which string,
number or word is in progress.  There is no limit on nesting here and no range
check; both belong to `Tree.value?`.

* Blanks are space, tab, line feed and carriage return.
* A number is an optional minus, `0` or digits that do not start with `0`, an
  optional point with digits, and an optional exponent with digits.
* A string holds no control character below U+0020; `\u` takes four hexadecimal
  digits, and two of them in a row may form a surrogate pair.

`parse` is the value of a text: what the machine reads, nested no deeper than
127 containers.
-/
import Flowgraph.Json.Numeral
import Flowgraph.Json.Tree

set_option autoImplicit false

namespace Flowgraph.Json

/-- White space between the parts of a JSON text. -/
def isJsonBlank (c : Char) : Bool := c == ' ' || c == '\n' || c == '\t' || c == '\r'

/-- The value of a hexadecimal digit. -/
def hexValue? (c : Char) : Option Nat :=
  if '0' ≤ c ∧ c ≤ '9' then some (c.toNat - '0'.toNat)
  else if 'a' ≤ c ∧ c ≤ 'f' then some (c.toNat - 'a'.toNat + 10)
  else if 'A' ≤ c ∧ c ≤ 'F' then some (c.toNat - 'A'.toNat + 10)
  else none

/-- The character that a letter after a backslash stands for. -/
def unescape? (c : Char) : Option Char :=
  if c = '\x22' ∨ c = '\\' ∨ c = '/' then some c
  else if c = 'b' then some '\x08'
  else if c = 'f' then some '\x0c'
  else if c = 'n' then some '\n'
  else if c = 'r' then some '\r'
  else if c = 't' then some '\t'
  else none

/-- Code points with surrogate pairs joined; `none` when half of a pair stands alone. -/
def joinSurrogates : List Nat → Option (List Char)
  | [] => some []
  | n :: rest =>
    if 0xD800 ≤ n ∧ n ≤ 0xDBFF then
      match rest with
      | m :: rest' =>
        if 0xDC00 ≤ m ∧ m ≤ 0xDFFF then
          (joinSurrogates rest').map
            (Char.ofNat (0x10000 + (n - 0xD800) * 0x400 + (m - 0xDC00)) :: ·)
        else none
      | [] => none
    else if 0xDC00 ≤ n ∧ n ≤ 0xDFFF then none
    else (joinSurrogates rest).map (Char.ofNat n :: ·)

/-- Where a string stands with respect to an escape. -/
inductive Escape where
  | plain
  | slash
  | hex (left : Nat) (value : Nat)
  deriving DecidableEq

/-- The part of a number that was read last. -/
inductive NumeralPart where
  | sign
  | zero
  | whole
  | point
  | fraction
  | letter
  | powerSign
  | power
  deriving DecidableEq

/-- An open container with what it holds so far, latest first; `key` is the
latest key of an object. -/
inductive Frame where
  | arr (done : List Tree)
  | obj (done : List (Text × Tree)) (key : Text)

inductive Mode where
  /-- A value must follow. -/
  | value
  /-- After an opening bracket. -/
  | first
  /-- After an opening brace. -/
  | firstKey
  /-- After a comma in an object. -/
  | key
  | colon
  /-- After a value inside a container. -/
  | after
  /-- After the value of the whole text. -/
  | done (t : Tree)
  /-- Inside a string; its code points so far, latest first. -/
  | string (isKey : Bool) (codes : List Nat) (escape : Escape)
  /-- Inside a number whose digit lists have the latest digit first. -/
  | number (n : Numeral) (part : NumeralPart)
  /-- Inside one of the three words. -/
  | word (rest : List Char) (t : Tree)

structure Reading where
  stack : List Frame
  mode : Mode

namespace Reading

def start : Reading := ⟨[], .value⟩

/-- A value is complete: it joins the innermost container, or is the whole text. -/
def deliver (t : Tree) : List Frame → Reading
  | [] => ⟨[], .done t⟩
  | .arr done :: stack => ⟨.arr (t :: done) :: stack, .after⟩
  | .obj done key :: stack => ⟨.obj ((key, t) :: done) key :: stack, .after⟩

/-- The first character of a value. -/
def openValue (stack : List Frame) (c : Char) : Option Reading :=
  if c = '{' then some ⟨.obj [] none :: stack, .firstKey⟩
  else if c = '[' then some ⟨.arr [] :: stack, .first⟩
  else if c = '\x22' then some ⟨stack, .string false [] .plain⟩
  else if c = '-' then some ⟨stack, .number ⟨true, [], [], none⟩ .sign⟩
  else if c = '0' then some ⟨stack, .number ⟨false, [c], [], none⟩ .zero⟩
  else if isDigit c then some ⟨stack, .number ⟨false, [c], [], none⟩ .whole⟩
  else if c = 't' then some ⟨stack, .word ['r', 'u', 'e'] (.bool true)⟩
  else if c = 'f' then some ⟨stack, .word ['a', 'l', 's', 'e'] (.bool false)⟩
  else if c = 'n' then some ⟨stack, .word ['u', 'l', 'l'] .null⟩
  else none

/-- What may follow a value inside a container: a comma or the container's end. -/
def closeValue (stack : List Frame) (c : Char) : Option Reading :=
  if isJsonBlank c then some ⟨stack, .after⟩
  else
    match stack with
    | .arr done :: below =>
      if c = ',' then some ⟨stack, .value⟩
      else if c = ']' then some (deliver (.arr done.reverse) below)
      else none
    | .obj done _ :: below =>
      if c = ',' then some ⟨stack, .key⟩
      else if c = '}' then some (deliver (.obj done.reverse) below)
      else none
    | [] => none

/-- The next character after a complete value. -/
def follow (r : Reading) (c : Char) : Option Reading :=
  match r.mode with
  | .after => closeValue r.stack c
  | .done _ => if isJsonBlank c then some r else none
  | _ => none

/-- A string is complete: it is a key or a value. -/
def endString (stack : List Frame) (isKey : Bool) (codes : List Nat) : Option Reading :=
  let text := (joinSurrogates codes.reverse).map String.ofList
  if isKey then
    match stack with
    | .obj done _ :: below => some ⟨.obj done text :: below, .colon⟩
    | _ => none
  else some (deliver (.str text) stack)

def stepString (stack : List Frame) (isKey : Bool) (codes : List Nat) (e : Escape) (c : Char) :
    Option Reading :=
  match e with
  | .plain =>
    if c = '\x22' then endString stack isKey codes
    else if c = '\\' then some ⟨stack, .string isKey codes .slash⟩
    else if c.toNat < 0x20 then none
    else some ⟨stack, .string isKey (c.toNat :: codes) .plain⟩
  | .slash =>
    if c = 'u' then some ⟨stack, .string isKey codes (.hex 4 0)⟩
    else (unescape? c).map fun d => ⟨stack, .string isKey (d.toNat :: codes) .plain⟩
  | .hex left value =>
    (hexValue? c).map fun d =>
      let value := 16 * value + d
      if left ≤ 1 then ⟨stack, .string isKey (value :: codes) .plain⟩
      else ⟨stack, .string isKey codes (.hex (left - 1) value)⟩

/-- A number with its digit lists in reading order. -/
def numeral (n : Numeral) : Numeral :=
  ⟨n.negative, n.whole.reverse, n.fraction.reverse, n.power.map fun p => (p.1, p.2.reverse)⟩

/-- The reading once a number ends here; `none` where it may not end. -/
def endNumber (stack : List Frame) (n : Numeral) (part : NumeralPart) : Option Reading :=
  match part with
  | .zero | .whole | .fraction | .power => some (deliver (.num (numeral n).value?) stack)
  | .sign | .point | .letter | .powerSign => none

/-- The number continued by a character, if it can be. -/
def extendNumber (n : Numeral) (part : NumeralPart) (c : Char) : Option (Numeral × NumeralPart) :=
  let digit := isDigit c
  let letter := c == 'e' || c == 'E'
  match part with
  | .sign =>
    if c = '0' then some ({ n with whole := [c] }, .zero)
    else if digit then some ({ n with whole := [c] }, .whole)
    else none
  | .zero =>
    if c = '.' then some (n, .point)
    else if letter then some ({ n with power := some (false, []) }, .letter)
    else none
  | .whole =>
    if digit then some ({ n with whole := c :: n.whole }, .whole)
    else if c = '.' then some (n, .point)
    else if letter then some ({ n with power := some (false, []) }, .letter)
    else none
  | .point =>
    if digit then some ({ n with fraction := [c] }, .fraction) else none
  | .fraction =>
    if digit then some ({ n with fraction := c :: n.fraction }, .fraction)
    else if letter then some ({ n with power := some (false, []) }, .letter)
    else none
  | .letter =>
    if c = '+' then some ({ n with power := some (false, []) }, .powerSign)
    else if c = '-' then some ({ n with power := some (true, []) }, .powerSign)
    else if digit then some ({ n with power := some (false, [c]) }, .power)
    else none
  | .powerSign | .power =>
    if digit then
      let (down, digits) := n.power.getD (false, [])
      some ({ n with power := some (down, c :: digits) }, .power)
    else none

def step (r : Reading) (c : Char) : Option Reading :=
  match r.mode with
  | .value => if isJsonBlank c then some r else openValue r.stack c
  | .first =>
    if isJsonBlank c then some r
    else if c = ']' then closeValue r.stack c
    else openValue r.stack c
  | .firstKey =>
    if isJsonBlank c then some r
    else if c = '\x22' then some ⟨r.stack, .string true [] .plain⟩
    else if c = '}' then closeValue r.stack c
    else none
  | .key =>
    if isJsonBlank c then some r
    else if c = '\x22' then some ⟨r.stack, .string true [] .plain⟩
    else none
  | .colon =>
    if isJsonBlank c then some r
    else if c = ':' then some ⟨r.stack, .value⟩
    else none
  | .after | .done _ => follow r c
  | .string isKey codes escape => stepString r.stack isKey codes escape c
  | .number n part =>
    match extendNumber n part c with
    | some (n', part') => some ⟨r.stack, .number n' part'⟩
    | none => (endNumber r.stack n part).bind fun r' => follow r' c
  | .word rest t =>
    match rest with
    | [] => none
    | [d] => if c = d then some (deliver t r.stack) else none
    | d :: more => if c = d then some ⟨r.stack, .word more t⟩ else none

/-- The reading after a run of characters. -/
def feed (r : Reading) (cs : List Char) : Option Reading := cs.foldlM step r

/-- The tree, when the text may end here. -/
def finish (r : Reading) : Option Tree :=
  match r.mode with
  | .done t => some t
  | .number n part =>
    match endNumber r.stack n part with
    | some ⟨_, .done t⟩ => some t
    | _ => none
  | _ => none

end Reading

/-- What a text says, without limits on depth and range. -/
def readTree (cs : List Char) : Option Tree := (Reading.start.feed cs).bind Reading.finish

/-- How many containers may stand inside each other in a value. -/
def maxDepth : Nat := 127

/-- The value that a text is. -/
def parseChars (cs : List Char) : Option Value := (readTree cs).bind (·.value? maxDepth)

def parse (text : String) : Option Value := parseChars text.toList

end Flowgraph.Json
