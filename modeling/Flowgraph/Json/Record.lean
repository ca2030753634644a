/- # Flowgraph.Json.Record -- reading records with known fields

A record is written as an object, in which unknown members are skipped and no
known one stands twice, or as an array of its fields in order, which may end
early.  A field is required, or has a default for when it is left out, or is
optional: null is nothing, and an object may leave it out.

A tagged record names its variant in one more member, or in one more item in
front.  Decoders go from trees to what they hold, or to none.
-/
import Flowgraph.Json.Tree

set_option autoImplicit false

namespace Flowgraph.Json

abbrev Decoder (α : Type) := Tree → Option α

namespace Decoder

def text : Decoder String
  | .str s => s
  | _ => none

def bool : Decoder Bool
  | .bool b => some b
  | _ => none

def number : Decoder Number
  | .num n => n
  | _ => none

/-- An integer of an unsigned word. -/
def unsigned : Decoder Nat := fun t => (number t).bind Number.toUnsigned?

def float : Decoder Float := fun t => (number t).map Number.toFloat

/-- A number rounded to single precision. -/
def single : Decoder Float32 := fun t =>
  (number t).map fun
    | .int n _ => if n < 0 then -(Float32.ofNat n.natAbs) else Float32.ofNat n.natAbs
    | .float x _ => toSingle x

/-- All items, or none if one of them cannot be decoded. -/
def items {α : Type} (item : Decoder α) : List Tree → Option (List α)
  | [] => some []
  | t :: ts =>
    match item t, items item ts with
    | some x, some xs => some (x :: xs)
    | _, _ => none

def list {α : Type} (item : Decoder α) : Decoder (List α)
  | .arr ts => items item ts
  | _ => none

/-- Null is nothing. -/
def nullable {α : Type} (item : Decoder α) : Decoder (Option α)
  | .null => some none
  | t => (item t).map some

end Decoder

/-- The fields of a record that are present. -/
structure Record where
  /-- Written as an array. -/
  positional : Bool
  fields : List (String × Tree)

namespace Record

/-- The members with known keys; none if a key is no text or a known one stands twice. -/
def known? (names : List String) : List (Text × Tree) → Option (List (String × Tree))
  | [] => some []
  | (none, _) :: _ => none
  | (some k, t) :: rest =>
    match known? names rest with
    | none => none
    | some fields =>
      if k ∈ names then
        if (fields.lookup k).isSome then none else some ((k, t) :: fields)
      else some fields

/-- Open a record with the given fields. -/
def open? (names : List String) : Tree → Option Record
  | .obj members => (known? names members).map fun fields => ⟨false, fields⟩
  | .arr items => if items.length ≤ names.length then some ⟨true, names.zip items⟩ else none
  | _ => none

def required? {α : Type} (r : Record) (name : String) (item : Decoder α) : Option α :=
  (r.fields.lookup name).bind item

def defaulted? {α : Type} (r : Record) (name : String) (default : α) (item : Decoder α) : Option α :=
  match r.fields.lookup name with
  | some t => item t
  | none => some default

/-- A field that an object may leave out but an array may not. -/
def optional? {α : Type} (r : Record) (name : String) (item : Decoder α) : Option (Option α) :=
  match r.fields.lookup name with
  | some t => Decoder.nullable item t
  | none => if r.positional then none else some none

end Record

/-- The members apart from those with a key. -/
def without (key : String) (members : List (Text × Tree)) : List (Text × Tree) :=
  members.filter fun m => m.1 != some key

/-- The tag of a record and the record without it; the tag must stand exactly once. -/
def untagged? (tag : String) : Tree → Option (Tree × Tree)
  | .obj members =>
    match members.filter fun m => m.1 == some tag with
    | [(_, t)] => some (t, .obj (without tag members))
    | _ => none
  | .arr (t :: items) => some (t, .arr items)
  | _ => none

/-- The name in a tag, among the names of all variants. -/
def variant? (names : List String) : Tree → Option String
  | .str (some s) => if s ∈ names then some s else none
  | _ => none

/-- The name in the tag of a record inside another tagged one: it may also be
given by its place among the variants. -/
def nestedVariant? (names : List String) : Tree → Option String
  | .num (some n) => n.toUnsigned?.bind fun i => names[i]?
  | t => variant? names t

end Flowgraph.Json
