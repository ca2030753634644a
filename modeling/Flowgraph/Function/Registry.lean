/- # Flowgraph.Function.Registry -- functions by key

A registry holds at most one function under a key; registering another one under
the same key replaces it.
-/
import Flowgraph.Function.Basic

set_option autoImplicit false

namespace Flowgraph

structure Registry where
  functions : List Function

namespace Registry

def empty : Registry := ⟨[]⟩

def find? (r : Registry) (key : String) : Option Function :=
  r.functions.find? fun f => f.signature.key == key

def register (r : Registry) (f : Function) : Registry :=
  ⟨f :: r.functions.filter fun g => g.signature.key != f.signature.key⟩

def ofList (functions : List Function) : Registry := functions.foldl register empty

def get (r : Registry) (key : String) : Except GraphError Function :=
  match r.find? key with
  | some f => .ok f
  | none => .error (.unknownFunction key)

def contains (r : Registry) (key : String) : Bool := (r.find? key).isSome

def size (r : Registry) : Nat := r.functions.length

def signature? (r : Registry) (key : String) : Option Signature := (r.find? key).map Function.signature

/-- All keys in order. -/
def keys (r : Registry) : List String :=
  (r.functions.map fun f => f.signature.key).mergeSort fun a b => decide (a ≤ b)

/-- All signatures, ordered by category and then by key. -/
def signatures (r : Registry) : List Signature :=
  (r.functions.map Function.signature).mergeSort fun a b =>
    decide (a.category < b.category) || (a.category == b.category && decide (a.key ≤ b.key))

end Registry
end Flowgraph
