import Chiptune.Command.Snapshot

/-!
# The command

The program reads its arguments, settings and sources, and delivers what the run
decides.
-/

namespace Chiptune.Command

/-- Why the system refused a file. -/
def failureOf : IO.Error → ReadFailure
  | .permissionDenied .. => .denied
  | .inappropriateType _ code _ => if code = 21 then .isDirectory else .notDirectory
  | .resourceExhausted _ code _ => if code = 28 then .noSpace else .missing
  | .invalidArgument _ code _ => if code = 36 then .nameTooLong else .missing
  | _ => .missing

/-- Bytes as text. -/
def decodeText (bytes : ByteArray) : Except ReadFailure String :=
  match String.fromUTF8? bytes with
  | some text => .ok text
  | none => .error .notText

/-- Read a file. -/
def readText (path : String) : IO (Except ReadFailure String) := do
  if Path.holdsZero path then return .error .zeroInName
  match ← (IO.FS.readBinFile path).toBaseIO with
  | .ok bytes => return decodeText bytes
  | .error error => return .error (failureOf error)

/-- Read standard input if it is the source. -/
def readInput (arguments : Arguments) : IO (Except ReadFailure String) := do
  if arguments.source = some "-" then
    return decodeText (← (← IO.getStdin).readBinToEnd)
  else return .ok ""

/-- Look at files until the run asks for no other. -/
partial def gather (arguments : Arguments) (snapshot : Snapshot) : IO Snapshot := do
  match snapshot.wanted? arguments with
  | none => return snapshot
  | some path => gather arguments (snapshot.add path (← readText path))

/-- Look at all that a run needs. -/
def look (arguments : Arguments) : IO Snapshot := do
  let home ← IO.getEnv "HOME"
  let mut snapshot : Snapshot := ⟨[], home, ← readInput arguments⟩
  for path in Snapshot.settingsPaths arguments home do
    snapshot := snapshot.add path (← readText path)
  gather arguments snapshot

/-- Write a file. -/
def writeText (path text : String) : IO Unit :=
  IO.FS.withFile path .write fun file => do
    file.putStr text
    file.flush

/-- Deliver texts in order; the value is the message of the first that fails. -/
def hand : List Delivery → IO (Option String)
  | [] => return none
  | .output text :: rest => do
    (← IO.getStdout).putStr text
    hand rest
  | .file path text :: rest => do
    match ← (writeText path text).toBaseIO with
    | .ok _ => hand rest
    | .error error => return some (writeFailure path (failureOf error))

/-- Carry out a run; the value is the exit status. -/
def perform (arguments : Arguments) : IO UInt32 := do
  let snapshot ← look arguments
  let decided := plan snapshot.world arguments
  for notice in decided.notices do
    IO.eprintln notice
  let failure := (← hand decided.deliveries).or decided.failure
  match failure with
  | none => return 0
  | some message =>
    IO.eprintln (complaint message)
    return 1

end Chiptune.Command

/-- Run the command; arguments that are misused give the status 2. -/
def main (words : List String) : IO UInt32 := do
  match Chiptune.Command.Arguments.read? words with
  | some arguments => Chiptune.Command.perform arguments
  | none =>
    IO.eprintln "usage: pentlyas [OPTIONS] [INFILE]"
    return 2
