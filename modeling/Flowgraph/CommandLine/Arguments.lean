/- # Flowgraph.CommandLine.Arguments -- reading the arguments of the program

The first argument names a command; the others are its options and operands.  An
option has a long name after two hyphens and mostly a letter after one.  Its value
stands behind an equals sign, directly behind the letter, or in the next argument,
which must then not look like an option.  Letters of options without value may
share a hyphen.  After `--` there are only operands.

An option may stand once unless it collects values.  The path of a file must not
be empty.  The command `help` may name one other command; everything behind it is
taken as a name.
-/

set_option autoImplicit false

namespace Flowgraph.CommandLine

/-- What an option takes. -/
inductive Arity where
  | flag
  /-- One value, at most once. -/
  | one
  /-- One value each time. -/
  | many
  deriving DecidableEq

structure OptionSpec where
  name : String
  letter : Option Char
  arity : Arity
  /-- Whether the value is the path of a file. -/
  isPath : Bool
  deriving DecidableEq

/-- The options of a command and how many operands it has; operands are paths. -/
structure CommandSpec where
  options : List OptionSpec
  operands : Nat
  deriving DecidableEq

/-- What the arguments of a command say: options in order, with a value or none, and operands. -/
structure Parsed where
  options : List (String × String)
  operands : List String
  deriving DecidableEq

/-- Why arguments are refused, or help was asked for. -/
inductive Refusal where
  | help
  | missingCommand
  | unknownCommand (name : String)
  | unknownOption (text : String)
  | missingValue (option : String)
  | unwantedValue (option : String)
  | repeated (option : String)
  | emptyPath
  | missing (what : String)
  | unexpected (operand : String)
  deriving DecidableEq

def Refusal.message : Refusal → String
  | .help => ""
  | .missingCommand => "a command is required"
  | .unknownCommand name => s!"unrecognized command '{name}'"
  | .unknownOption text => s!"unexpected argument '{text}' found"
  | .missingValue option => s!"a value is required for '--{option}' but none was supplied"
  | .unwantedValue option => s!"unexpected value for '--{option}' found"
  | .repeated option => s!"the argument '--{option}' cannot be used multiple times"
  | .emptyPath => "a path must not be empty"
  | .missing what => s!"the required argument '{what}' was not provided"
  | .unexpected operand => s!"unexpected argument '{operand}' found"

namespace Parsed

def empty : Parsed := ⟨[], []⟩

def has (p : Parsed) (name : String) : Bool := (p.options.lookup name).isSome

def value? (p : Parsed) (name : String) : Option String := p.options.lookup name

/-- All values of an option, in order. -/
def values (p : Parsed) (name : String) : List String :=
  (p.options.filter fun o => o.1 == name).map Prod.snd

/-- Add an option with its value. -/
def addOption (p : Parsed) (spec : OptionSpec) (value : String) : Except Refusal Parsed :=
  if spec.arity ≠ .many ∧ p.has spec.name then .error (.repeated spec.name)
  else if spec.isPath ∧ value.isEmpty then .error .emptyPath
  else .ok { p with options := p.options ++ [(spec.name, value)] }

/-- Add an operand. -/
def addOperand (p : Parsed) (spec : CommandSpec) (value : String) : Except Refusal Parsed :=
  if spec.operands ≤ p.operands.length then .error (.unexpected value)
  else if value.isEmpty then .error .emptyPath
  else .ok { p with operands := p.operands ++ [value] }

end Parsed

/-- Whether an argument looks like an option; a single hyphen does not. -/
def looksLikeOption (argument : String) : Bool :=
  match argument.toList with
  | '-' :: _ :: _ => true
  | _ => false

/-- What letters behind one hyphen say. -/
inductive Letters where
  /-- Nothing is left open. -/
  | done (p : Parsed)
  /-- The last letter needs the next argument as its value. -/
  | open_ (p : Parsed) (spec : OptionSpec)

/-- Read letters behind one hyphen. -/
def readLetters (spec : CommandSpec) (p : Parsed) : List Char → Except Refusal Letters
  | [] => .ok (.done p)
  | c :: rest =>
    if c = 'h' then .error .help
    else
      match spec.options.find? fun o => o.letter == some c with
      | none => .error (.unknownOption (String.ofList ['-', c]))
      | some o =>
        if o.arity = .flag then
          if rest.head? = some '=' then .error (.unwantedValue o.name)
          else
            match p.addOption o "" with
            | .error e => .error e
            | .ok p => readLetters spec p rest
        else
          match rest with
          | [] => .ok (.open_ p o)
          | '=' :: value => (p.addOption o (String.ofList value)).map .done
          | value => (p.addOption o (String.ofList value)).map .done

/-- Split a long option into its name and the value behind an equals sign. -/
def splitValue (cs : List Char) : String × Option String :=
  (String.ofList (cs.takeWhile (· ≠ '=')),
    match cs.dropWhile (· ≠ '=') with
    | _ :: value => some (String.ofList value)
    | [] => none)

/-- Read a long option; it may be left open for a value in the next argument. -/
def readLong (spec : CommandSpec) (p : Parsed) (cs : List Char) : Except Refusal Letters :=
  let (name, value) := splitValue cs
  if name = "help" then
    match value with
    | none => .error .help
    | some _ => .error (.unwantedValue name)
  else
    match spec.options.find? fun o => o.name == name with
    | none => .error (.unknownOption ("--" ++ name))
    | some o =>
      match o.arity, value with
      | .flag, none => (p.addOption o "").map .done
      | .flag, some _ => .error (.unwantedValue name)
      | _, some v => (p.addOption o v).map .done
      | _, none => .ok (.open_ p o)

/-- Read operands only. -/
def readOperands (spec : CommandSpec) : Parsed → List String → Except Refusal Parsed
  | p, [] => .ok p
  | p, a :: rest =>
    match p.addOperand spec a with
    | .error e => .error e
    | .ok p => readOperands spec p rest

/-- Read the arguments of a command; `pending` is the option that waits for its value. -/
def readArguments (spec : CommandSpec) :
    Parsed → (pending : Option OptionSpec) → List String → Except Refusal Parsed
  | p, none, [] => .ok p
  | _, some o, [] => .error (.missingValue o.name)
  | p, some o, a :: rest =>
    if looksLikeOption a then .error (.missingValue o.name)
    else
      match p.addOption o a with
      | .error e => .error e
      | .ok p => readArguments spec p none rest
  | p, none, a :: rest =>
    let letters := match a.toList with
      | '-' :: '-' :: [] => none
      | '-' :: '-' :: cs => some (readLong spec p cs)
      | '-' :: c :: cs => some (readLetters spec p (c :: cs))
      | _ => some ((p.addOperand spec a).map .done)
    match letters with
    | none => readOperands spec p rest
    | some (.error e) => .error e
    | some (.ok (.done p)) => readArguments spec p none rest
    | some (.ok (.open_ p o)) => readArguments spec p (some o) rest

/-! ## Commands -/

inductive Command where
  | run (file : String) (input : Option String) (assignments : List String) (inherit : Bool)
  | validate (file : String)
  | functions
  | create (output : String)
  deriving DecidableEq

/-- What may stand before a command: nothing but a call for help. -/
def programSpec : CommandSpec := ⟨[], 0⟩

def runSpec : CommandSpec where
  options := [⟨"file", some 'f', .one, true⟩, ⟨"input", some 'i', .one, false⟩,
    ⟨"env", some 'e', .many, false⟩, ⟨"inherit-env", none, .flag, false⟩,
    ⟨"verbose", some 'v', .flag, false⟩]
  operands := 0

def validateSpec : CommandSpec := ⟨[], 1⟩

def functionsSpec : CommandSpec := ⟨[], 0⟩

def createSpec : CommandSpec := ⟨[⟨"output", some 'o', .one, true⟩], 0⟩

/-- The words that name commands. -/
def commandNames : List String := ["run", "validate", "functions", "init", "help"]

/-- What is said to a call for help, with the names behind it: help for no name or for
one command; no command has commands of its own. -/
def helpRefusal : List String → Refusal
  | [] => .help
  | name :: rest =>
    if name ∈ commandNames then
      match rest with
      | [] => .help
      | other :: _ => .unknownCommand other
    else .unknownCommand name

/-- The command that arguments ask for. -/
def Command.ofArguments : List String → Except Refusal Command
  | [] => .error .missingCommand
  | name :: arguments =>
    match name with
    | "run" =>
      match readArguments runSpec .empty none arguments with
      | .error e => .error e
      | .ok p =>
        match p.value? "file" with
        | none => .error (.missing "--file <FILE>")
        | some file => .ok (.run file (p.value? "input") (p.values "env") (p.has "inherit-env"))
    | "validate" =>
      match readArguments validateSpec .empty none arguments with
      | .error e => .error e
      | .ok p =>
        match p.operands with
        | [file] => .ok (.validate file)
        | _ => .error (.missing "<FILE>")
    | "functions" => (readArguments functionsSpec .empty none arguments).map fun _ => .functions
    | "init" =>
      (readArguments createSpec .empty none arguments).map fun p =>
        .create ((p.value? "output").getD "workflow.json")
    | "help" => .error (helpRefusal arguments)
    | _ =>
      if looksLikeOption name then
        match readArguments programSpec .empty none (name :: arguments) with
        | .error e => .error e
        | .ok _ => .error .missingCommand
      else .error (.unknownCommand name)

end Flowgraph.CommandLine
