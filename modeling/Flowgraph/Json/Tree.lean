/- # Flowgraph.Json.Tree -- what a JSON text says, before it is a value

A tree keeps what a value cannot hold: repeated keys, numbers out of range and
strings with half of a surrogate pair (`none` in both cases).  Such a text is
well formed, and a reader of records that skips unknown members accepts it, but
it has no value.  `value?` is the value of a tree, if every part has one and
containers are nested no deeper than the given room.
-/
import Flowgraph.Json.Value

set_option autoImplicit false

namespace Flowgraph.Json

/-- The characters of a quoted string; `none` when half of a surrogate pair stands alone. -/
abbrev Text := Option String

inductive Tree where
  | null
  | bool (b : Bool)
  | num (n : Option Number)
  | str (s : Text)
  | arr (items : List Tree)
  | obj (members : List (Text × Tree))

namespace Tree

mutual

/-- The value of a tree with at most `room` containers inside each other. -/
def value? (room : Nat) : Tree → Option Value
  | .null => some .null
  | .bool b => some (.bool b)
  | .num n => n.map .num
  | .str s => s.map .str
  | .arr items => if room = 0 then none else (values? (room - 1) items).map .arr
  | .obj members =>
    if room = 0 then none
    else (members? (room - 1) members).map fun ms => .obj (Members.ofList ms)

def values? (room : Nat) : List Tree → Option (List Value)
  | [] => some []
  | t :: ts =>
    match value? room t, values? room ts with
    | some v, some vs => some (v :: vs)
    | _, _ => none

def members? (room : Nat) : List (Text × Tree) → Option (List (String × Value))
  | [] => some []
  | (k, t) :: ts =>
    match k, value? room t, members? room ts with
    | some k, some v, some vs => some ((k, v) :: vs)
    | _, _, _ => none

end

mutual

/-- The tree that a value is written as. -/
def ofValue : Value → Tree
  | .null => .null
  | .bool b => .bool b
  | .num n => .num (some n)
  | .str s => .str (some s)
  | .arr items => .arr (ofValues items)
  | .obj members => .obj (ofMembers members)

def ofValues : List Value → List Tree
  | [] => []
  | v :: vs => ofValue v :: ofValues vs

def ofMembers : List (String × Value) → List (Text × Tree)
  | [] => []
  | (k, v) :: ms => (some k, ofValue v) :: ofMembers ms

end

end Tree
end Flowgraph.Json
