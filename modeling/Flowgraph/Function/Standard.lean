/- # Flowgraph.Function.Standard -- the standard library of functions

Arithmetic, logging, the clock and JSON, beside the flow functions.
-/
import Flowgraph.Function.Flow
import Flowgraph.Function.Registry
import Flowgraph.Json.Reader

set_option autoImplicit false

namespace Flowgraph.Function

/-! ## Arithmetic -/

/-- The result of a computation, which fails when it is not finite. -/
def quantity (key : String) (x : Float) : Program :=
  match Number.ofQuantity? x with
  | some n => .return_ (.value (.num n))
  | none => .fail (.executionFailed s!"{key} produced a non-finite result")

def arithmeticSignature (key description : String) : Signature :=
  { key := key
    description := description
    category := "math"
    parameters := [⟨"a", .float⟩, ⟨"b", .float⟩]
    ports := [] }

def arithmetic (key description : String) (op : Float → Float → Float) : Function where
  signature := arithmeticSignature key description
  body i :=
    Program.require (Arguments.needFloat i.arguments "a") fun a =>
      Program.require (Arguments.needFloat i.arguments "b") fun b => quantity key (op a b)

def add : Function := arithmetic "math.add" "Sum of a and b" (· + ·)

def subtract : Function := arithmetic "math.subtract" "Difference a - b" (· - ·)

def multiply : Function := arithmetic "math.multiply" "Product of a and b" (· * ·)

def divide : Function where
  signature := arithmeticSignature "math.divide" "Quotient a / b"
  body i :=
    Program.require (Arguments.needFloat i.arguments "b") fun b =>
      if b == 0 then .fail (.executionFailed "division by zero")
      else
        Program.require (Arguments.needFloat i.arguments "a") fun a =>
          quantity "math.divide" (a / b)

/-! ## Logging and time -/

/-- The text that is logged for a message. -/
def logText : Option Value → String
  | none => "(no message)"
  | some .null => "(no message)"
  | some v => v.displayText

def log : Function where
  signature :=
    { key := "debug.log"
      description := "Logs a message for debugging and passes it on"
      category := "debug"
      parameters := [⟨"message", .any⟩, ⟨"context", .context⟩]
      ports := [] }
  body i :=
    let message := logText (Members.get? "message" i.arguments)
    Program.require i.needContext fun _ =>
      .notify (.info ("DEBUG: " ++ message)) (.return_ (.value (.str message)))

def now : Function where
  signature :=
    { key := "time.now"
      description := "Current UTC date and time"
      category := "time"
      parameters := []
      ports := [] }
  body _ := .readClock fun t => .return_ (.temporal t)

def delay : Function where
  signature :=
    { key := "time.delay"
      description := "Delay execution for specified milliseconds"
      category := "time"
      parameters := [⟨"delay_ms", .integer⟩, ⟨"context", .context⟩]
      ports := [] }
  body i :=
    Program.require (Arguments.needInteger i.arguments "delay_ms") fun ms =>
      let text := String.ofList (Number.intText ms)
      if ms < 0 then .fail (.invalidArgument "delay_ms" "non-negative integer" text)
      else
        Program.require i.needContext fun _ =>
          .notify (.info s!"Delaying for {text}ms")
            (.pause ms.toNat (.return_ (.value (.ofInt ms))))

/-! ## JSON -/

def parseJson : Function where
  signature :=
    { key := "transform.json_parse"
      description := "Parse JSON string"
      category := "transform"
      parameters := [⟨"json", .string⟩]
      ports := [] }
  body i :=
    Program.require (Arguments.needText i.arguments "json") fun text =>
      match Json.parse text with
      | some v => .return_ (Returned.ofStructured v)
      | none => .fail (.executionFailed "JSON parse error: the text is not one JSON value")

def writeJson : Function where
  signature :=
    { key := "transform.json_stringify"
      description := "Stringify value to JSON"
      category := "transform"
      parameters := [⟨"value", .any⟩]
      ports := [] }
  body i :=
    Program.require (Arguments.need i.arguments "value") fun v =>
      .return_ (.value (.str (Json.pretty v)))

end Function

namespace Registry

/-- Only the start marker. -/
def starting : Registry := ofList [.start]

/-- Every standard function. -/
def standard : Registry :=
  ofList [.start, .add, .subtract, .multiply, .divide, .branch, .loop, .output, .log, .now, .delay,
    .parseJson, .writeJson]

end Registry
end Flowgraph
