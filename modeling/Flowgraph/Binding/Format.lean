/- # Flowgraph.Binding.Format -- parameters as JSON

A kind is written as its name.  It is also read from an object whose only member
has that name and is null.
-/
import Flowgraph.Binding.Kind
import Flowgraph.Json.Form
import Flowgraph.Json.Record

set_option autoImplicit false

namespace Flowgraph

open Json

namespace ParamKind

def form (k : ParamKind) : Form := .str k.name

def decode : Decoder ParamKind
  | .str (some s) => ofName? s
  | .obj [(some s, .null)] => ofName? s
  | _ => none

end ParamKind

namespace Parameter

def form (p : Parameter) : Form := .obj [("name", .str p.name), ("type", p.kind.form)]

def decode : Decoder Parameter := fun t => do
  let r ← Record.open? ["name", "type"] t
  let name ← r.required? "name" Decoder.text
  let kind ← r.required? "type" ParamKind.decode
  return ⟨name, kind⟩

end Parameter
end Flowgraph
