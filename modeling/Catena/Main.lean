import Catena.Main.Toolkit

/-!
# The program

Reads the arguments, the environment, the files and the standard input, runs the
command line, and writes what it reports. Everything that decides anything is in
`Catena.CommandLine` and `Catena.Main.Toolkit`; here is only the talking to the
outside, and the loop that asks for one line at a time.
-/

set_option autoImplicit false

namespace Catena.Main

/-- The variables that are read from the environment. -/
def variableNames : List String :=
  ["YAFT_RECURSION_LIMIT", "YAFT_PROMPT", "YAFT_LOG_LEVEL", "YAFT_SERVER_HOST", "YAFT_SERVER_PORT"]

/-- A number of steps that no evaluation gets to the end of. -/
def steps : Nat := Nat.pow 2 62

/-- The environment variables that are set. -/
def readEnvironment : IO Environment :=
  variableNames.filterMapM fun name => do
    return (← IO.getEnv name).map fun text => (name, text)

/-- Why a file could not be opened. -/
def reasonOf : IO.Error → String
  | .noFileOrDirectory _ _ details => details.capitalize
  | .inappropriateType _ _ details => details.capitalize
  | .permissionDenied _ _ details => details.capitalize
  | e => toString e

/-- The files named on the command line, read or refused. -/
def readNamed (names : List String) : IO (List (String × Except String String)) :=
  names.mapM fun (name : String) => do
    try
      return (name, .ok (← IO.FS.readFile name))
    catch e =>
      return (name, .error (reasonOf e))

/-- Reads a stream to its end. -/
partial def readAll (stream : IO.FS.Stream) (sofar : String) : IO String := do
  let line ← stream.getLine
  if line.isEmpty then return sofar else readAll stream (sofar ++ line)

/-- Writes what a run reports. -/
def writeReport (r : CommandLine.Report) : IO Unit := do
  (← IO.getStdout).putStr r.output
  (← IO.getStderr).putStr r.errors
  match r.fault with
  | none => return
  | some fault => (← IO.getStderr).putStrLn fault.message

/-- Asks for lines and evaluates them until none is left or a fault occurs. -/
partial def converse (c : CommandLine.Interaction) (s : Session) : IO UInt32 := do
  let stdout ← IO.getStdout
  stdout.putStr c.prompt
  stdout.flush
  let line ← (← IO.getStdin).getLine
  if line.isEmpty then return 0
  let text := String.join (Text.lines (Text.unifyLines line))
  match Console.replyTo c.bounds s text with
  | none => return 1
  | some reply =>
      for record in reply.log do
        (← IO.getStderr).putStrLn record.line
      match reply.shown with
      | .ok shown =>
          stdout.putStrLn shown
          converse c reply.session
      | .error fault =>
          (← IO.getStderr).putStrLn fault.message
          return 1

/-- The files that a list of arguments names. -/
def namedFiles (arguments : List String) : List String :=
  match Arguments.ofList arguments with
  | .ok said => said.files
  | .error _ => []

/-- Runs a command line against the outside. -/
def run (arguments : List String) : IO UInt32 := do
  let names := namedFiles arguments
  let files ← readNamed (names.filter (· != "-"))
  let takesInput := names.contains "-"
  let input ← if takesInput then readAll (← IO.getStdin) "" else pure ""
  let outputIsTerminal ← (← IO.getStdout).isTty
  let errorsIsTerminal ← (← IO.getStderr).isTty
  let outside : Outside :=
    { file := fun name => (files.lookup name).getD (.error "No such file or directory")
      input := input
      terminal := fun
        | .output => outputIsTerminal
        | .errors => errorsIsTerminal }
  let around : CommandLine.Surroundings :=
    { environment := ← readEnvironment
      limit := Settings.initialLimit
      fuel := steps }
  match CommandLine.begin (toolkit outside) around arguments with
  | none => return 1
  | some (r, none) =>
      writeReport r
      return UInt32.ofNat r.status
  | some (r, some c) =>
      writeReport r
      converse c c.session

end Catena.Main

/-- The entry point. -/
def main (arguments : List String) : IO UInt32 :=
  Catena.Main.run arguments
