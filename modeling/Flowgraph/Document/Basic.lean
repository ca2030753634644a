/- # Flowgraph.Document.Basic -- values addressed by paths

Reading never fails: a path that leads nowhere, or cannot be read, has no value.
Writing makes the containers that are missing on the way: a key makes an object
and an index an array, in place of null or of any value that is not a container
of that kind, except that an object takes an index as a key.  An array grows with
nulls up to the index.

Before anything is written, every index on the way is checked against the length
of the array it will meet: it may lie at most `maxIndexGap` past the end.  A
write that is refused leaves the document as it was.
-/
import Flowgraph.Path
import Flowgraph.Json.Value

set_option autoImplicit false

namespace Flowgraph

/-- How far past the end of an array a write may reach. -/
def maxIndexGap : Nat := 1024

namespace Value

/-- One step down. -/
def child? : Value → Segment → Option Value
  | .obj members, segment => Members.get? segment.keyText members
  | .arr items, .index n => items[n]?
  | _, _ => none

/-- The value at a path. -/
def at? (v : Value) : Path → Option Value
  | [] => some v
  | s :: rest =>
    match v.child? s with
    | some w => w.at? rest
    | none => none

/-- The first index on the way that lies too far past the end of the array it
would be applied to; a value that is not there has no items. -/
def gap? : Option Value → Path → Option Nat
  | _, [] => none
  | some (.obj members), s :: rest => gap? (Members.get? s.keyText members) rest
  | some (.arr items), .index n :: rest =>
    if n > items.length + maxIndexGap then some n else gap? items[n]? rest
  | _, .index n :: rest => if n > maxIndexGap then some n else gap? none rest
  | _, .key _ :: rest => gap? none rest

/-- The items with nulls appended up to a length. -/
def padded (items : List Value) (length : Nat) : List Value :=
  items ++ List.replicate (length - items.length) .null

/-- Write a value at a path, making containers on the way. -/
def assign : Value → Path → Value → Value
  | _, [], new => new
  | .obj members, .key k :: rest, new =>
    .obj (Members.put k (assign ((Members.get? k members).getD .null) rest new) members)
  | .obj members, .index n :: rest, new =>
    let k := Segment.indexText n
    .obj (Members.put k (assign ((Members.get? k members).getD .null) rest new) members)
  | .arr items, .index n :: rest, new =>
    .arr ((padded items (n + 1)).set n (assign (items[n]?.getD .null) rest new))
  | _, .key k :: rest, new => .obj [(k, assign .null rest new)]
  | _, .index n :: rest, new => .arr (List.replicate n .null ++ [assign .null rest new])

/-- Take away what a path leads to: the value that was there, and what is left. -/
def remove : Path → Value → Option (Value × Value)
  | [], _ => none
  | [s], .obj members =>
    (Members.get? s.keyText members).map fun v => (v, .obj (Members.erase s.keyText members))
  | [.index n], .arr items => items[n]?.map fun v => (v, .arr (items.eraseIdx n))
  | s :: t :: rest, .obj members =>
    match Members.get? s.keyText members with
    | some w => (remove (t :: rest) w).map fun r => (r.1, .obj (Members.put s.keyText r.2 members))
    | none => none
  | .index n :: t :: rest, .arr items =>
    match items[n]? with
    | some w => (remove (t :: rest) w).map fun r => (r.1, .arr (items.set n r.2))
    | none => none
  | _, _ => none

mutual

/-- Deep merge: objects member by member, arrays item by item, everything else
replaced by the second value. -/
def merge : Value → Value → Value
  | .obj old, .obj members => .obj (mergeMembers old members)
  | .arr old, .arr items => .arr (mergeItems old items)
  | _, v => v

/-- Merge members into those of an object, one after the other. -/
def mergeMembers (old : Members) : List (String × Value) → Members
  | [] => old
  | (k, v) :: rest =>
    match Members.get? k old with
    | some w => mergeMembers (Members.put k (merge w v) old) rest
    | none => mergeMembers (Members.put k v old) rest

/-- Merge items into those of an array, position by position. -/
def mergeItems : List Value → List Value → List Value
  | old, [] => old
  | w :: more, v :: rest => merge w v :: mergeItems more rest
  | [], v :: rest => v :: mergeItems [] rest

end

end Value

/-- A value that is read and written through paths. -/
structure Document where
  root : Value
  deriving DecidableEq

namespace Document

def empty : Document := ⟨.obj []⟩

/-- The value at a written path. -/
def get? (d : Document) (path : String) : Option Value :=
  match Path.parse path with
  | .ok p => d.root.at? p
  | .error _ => none

def contains (d : Document) (path : String) : Bool := (d.get? path).isSome

/-- Write a value at a written path. -/
def set (d : Document) (path : String) (value : Value) : Except PathError Document :=
  match Path.parse path with
  | .error e => .error e
  | .ok p =>
    match Value.gap? (some d.root) p with
    | some n => .error (.indexOutOfRange path n)
    | none => .ok ⟨d.root.assign p value⟩

/-- Take away the value at a written path: the value, if there was one, and the rest. -/
def remove (d : Document) (path : String) : Option Value × Document :=
  match Path.parse path with
  | .error _ => (none, d)
  | .ok p =>
    match Value.remove p d.root with
    | some (v, rest) => (some v, ⟨rest⟩)
    | none => (none, d)

/-- Deep merge of another document into this one. -/
def merge (d other : Document) : Document := ⟨d.root.merge other.root⟩

/-- Whether there is nothing in the document; a scalar is something. -/
def isEmpty (d : Document) : Bool :=
  match d.root with
  | .null => true
  | .obj members => members.isEmpty
  | .arr items => items.isEmpty
  | _ => false

end Document
end Flowgraph
