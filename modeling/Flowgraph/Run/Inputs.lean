/- # Flowgraph.Run.Inputs -- what a run is given

The inputs of a run do not change while it lasts: parameters and environment,
both ordered by name, and services, of which there is at most one of each type.
-/
import Flowgraph.Json.Value

set_option autoImplicit false

namespace Flowgraph

/-- Entries ordered by name, each name at most once. -/
abbrev Dictionary (α : Type) := List (String × α)

namespace Dictionary

variable {α : Type}

/-- Write an entry at its place in the order. -/
def put (name : String) (x : α) : Dictionary α → Dictionary α
  | [] => [(name, x)]
  | (k, y) :: rest =>
    if name = k then (name, x) :: rest
    else if name < k then (name, x) :: (k, y) :: rest
    else (k, y) :: put name x rest

def get? (name : String) (d : Dictionary α) : Option α := d.lookup name

/-- Entries written one after the other. -/
def ofList (entries : List (String × α)) : Dictionary α :=
  entries.foldl (fun d e => put e.1 e.2 d) []

def names (d : Dictionary α) : List String := d.map Prod.fst

end Dictionary

/-- Something that functions may ask the run for. -/
inductive Service where
  | text (s : String)
  | integer (n : Int)
  | flag (b : Bool)
  deriving DecidableEq

/-- The type by which a service is asked for. -/
inductive ServiceType where
  | text
  | integer
  | flag
  deriving DecidableEq

def Service.type : Service → ServiceType
  | .text _ => .text
  | .integer _ => .integer
  | .flag _ => .flag

structure Services where
  entries : List Service
  deriving DecidableEq

namespace Services

def empty : Services := ⟨[]⟩

/-- Add a service, in place of the one of its type. -/
def put (s : Services) (new : Service) : Services :=
  ⟨new :: s.entries.filter fun e => e.type != new.type⟩

def get? (s : Services) (type : ServiceType) : Option Service :=
  s.entries.find? fun e => e.type == type

def size (s : Services) : Nat := s.entries.length

def description (s : Services) : String := s!"Services \x7b len: {s.size} \x7d"

end Services

structure RunInputs where
  parameters : Dictionary Value
  environment : Dictionary String
  services : Services
  deriving DecidableEq

namespace RunInputs

def empty : RunInputs := ⟨[], [], .empty⟩

end RunInputs
end Flowgraph
