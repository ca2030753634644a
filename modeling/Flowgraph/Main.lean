/- # Flowgraph.Main -- the program

The outer layer.  It reads arguments, files, the environment, the clock and random
bits, asks for the report of the command, prints it and exits with its code.
What is printed is decided in `Flowgraph.CommandLine.Report`.
-/
import Flowgraph.CommandLine.Report
import Std.Time.DateTime.Timestamp

set_option autoImplicit false

namespace Flowgraph.CommandLine

/-- The words of the system for a failure, with its number. -/
def systemText (details : String) (code : UInt32) : String := s!"{details} (os error {code})"

/-- Why a file could not be read or written. -/
def failureText : IO.Error → String
  | .noFileOrDirectory _ code details => systemText details code
  | .alreadyExists _ code details => systemText details code
  | .permissionDenied _ code details => systemText details code
  | .inappropriateType _ code details => systemText details code
  | .invalidArgument _ code details => systemText details code
  | .noSuchThing _ code details => systemText details code
  | .resourceExhausted _ code details => systemText details code
  | .resourceBusy code details => systemText details code
  | .otherError code details => systemText details code
  | e => toString e

/-- The text of a file, or why it cannot be read. -/
def readText (path : String) : IO (Except String String) := do
  try
    let handle ← IO.FS.Handle.mk path .read
    let bytes ← handle.readBinToEnd
    match String.fromUTF8? bytes with
    | some text => return .ok text
    | none => return .error "stream did not contain valid UTF-8"
  catch e => return .error (failureText e)

def writeText (path text : String) : IO (Except String Unit) := do
  try
    IO.FS.writeFile path text
    return .ok ()
  catch e => return .error (failureText e)

/-- The variables that the process was started with. -/
def processEnvironment : IO (Dictionary String) := do
  match ← readText "/proc/self/environ" with
  | .error _ => return []
  | .ok text =>
    let pairs := (text.splitOn "\x00").filterMap fun entry => splitPair? entry.toList
    return .ofList (pairs.map fun p => (String.ofList p.1, String.ofList p.2))

def randomUuid : IO Uuid := do
  let bytes ← IO.getRandomBytes 16
  return .ofRandom (BitVec.ofNat 128 (bytes.toList.foldl (fun n b => 256 * n + b.toNat) 0))

def readClock : IO Instant := do
  let t ← Std.Time.Timestamp.now
  let nanos := t.toNanosecondsSinceUnixEpoch.val
  return ⟨nanos / 1000000000, (nanos % 1000000000).toNat⟩

/-- The report of a command, with everything it needs from outside. -/
def report : Command → IO Report
  | .run file input assignments inherit => do
    let environment ← if inherit then processEnvironment else pure []
    return runReport (← readClock) (← randomUuid) file input assignments environment (← readText file)
  | .validate file => return validateReport file (← readText file)
  | .functions => return functionsReport
  | .create output => do
    let ids : ExampleIds :=
      ⟨← randomUuid, ← randomUuid, ← randomUuid, ← randomUuid, ← randomUuid, ← randomUuid,
        ← randomUuid⟩
    return createReport output (← writeText output (exampleText ids))

/-- Print a report; the exit code. -/
def Report.print (r : Report) : IO UInt32 := do
  for line in r.output do IO.println line
  for line in r.errors do IO.eprintln line
  return UInt32.ofNat r.code

end Flowgraph.CommandLine

def main (arguments : List String) : IO UInt32 := do
  match Flowgraph.CommandLine.Command.ofArguments arguments with
  | .error refusal => (Flowgraph.CommandLine.Report.refusal refusal).print
  | .ok command => (← Flowgraph.CommandLine.report command).print
