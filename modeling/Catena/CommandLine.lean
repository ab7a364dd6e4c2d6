import Catena.Session
import Catena.Settings

/-!
# The console and the command line

The console evaluates one line after another in a session and shows the stack
after each. A line that ends in an error shows the error first, and the stack as
it was left; the loop goes on. A fault ends the loop.

The command line evaluates the programs given by options, then those in files, in
one session, and writes the stack. The first error is reported, the stack is
written as it was left, and the exit status is one. The console follows when it is
asked for, or when there is no program at all.

Two things are left to a toolkit that is not part of this library, and they are
parameters of a run (`Toolkit`). One is reading the arguments, which opens the
files they name and may end the run before anything is evaluated. The other is
writing a message to a stream. What is written need not be the message itself: a
toolkit may drop what only a terminal understands. The console and the log write
every character without its help.
-/

set_option autoImplicit false

namespace Catena.Console

/-! ## The console -/

/-- What evaluating one line leads to. -/
structure Reply where
  session : Session
  shown : Except Fault String
  log : List Record

/-- Evaluates one line and says what to show for it. -/
def replyTo (bounds : Bounds) (s : Session) (line : String) : Option Reply :=
  (s.eval bounds line).map fun evaluation =>
    let s := evaluation.session
    match evaluation.failure with
    | none => ⟨s, s.render bounds, evaluation.log⟩
    | some (.fault fault) => ⟨s, .error fault, evaluation.log⟩
    | some (.error e) =>
        { session := s
          shown := (s.render bounds).map fun stack => "error: " ++ e.message ++ "\n" ++ stack
          log := evaluation.log ++ bounds.keep [Record.lineFailed e] }

/-- What a run of the console has written so far. -/
structure Transcript where
  output : String
  session : Session
  log : List Record
  fault : Option Fault

/-- Evaluates lines in turn. The prompt is written before each line is asked for,
and once more when no line is left. -/
def runLines (bounds : Bounds) (prompt : String) : List String → Transcript → Option Transcript
  | [], t => some { t with output := t.output ++ prompt }
  | line :: lines, t =>
      match replyTo bounds t.session line with
      | none => none
      | some reply =>
          let output := t.output ++ prompt
          let log := t.log ++ reply.log
          match reply.shown with
          | .error fault => some ⟨output, reply.session, log, some fault⟩
          | .ok shown =>
              runLines bounds prompt lines ⟨output ++ shown ++ "\n", reply.session, log, none⟩

/-- Runs the console over an input text. -/
def run (bounds : Bounds) (prompt : String) (s : Session) (input : String) : Option Transcript :=
  runLines bounds prompt (Text.lines input) ⟨"", s, [], none⟩

end Catena.Console

namespace Catena.CommandLine

/-! ## Options and reports -/

/-- What the arguments ask for. -/
structure Options where
  commands : List String
  /-- The texts of the files. -/
  files : List String
  interactive : Bool
  verbosity : Nat
  deriving DecidableEq, Repr

/-- What surrounds a run of the program. -/
structure Surroundings where
  environment : Environment
  /-- The nesting limit in force. -/
  limit : Nat
  /-- How many steps one evaluation may take. -/
  fuel : Nat

/-- What a run of the program has done so far. -/
structure Report where
  status : Nat
  output : String
  errors : String
  fault : Option Fault
  deriving DecidableEq, Repr

namespace Report

/-- A run that has only just begun. -/
def start : Report :=
  ⟨0, "", "", none⟩

/-- Writes text to the output. -/
def write (r : Report) (text : String) : Report :=
  { r with output := r.output ++ text }

/-- Writes text to the error output. -/
def warn (r : Report) (text : String) : Report :=
  { r with errors := r.errors ++ text }

/-- Writes log records to the error output, one a line. -/
def log (r : Report) (records : List Record) : Report :=
  r.warn (String.join (records.map fun record => record.line ++ "\n"))

/-- Ends a run by a fault. -/
def stop (r : Report) (fault : Fault) : Report :=
  { r with status := 1, fault := some fault }

end Report

/-! ## What is left to a toolkit -/

/-- The streams that messages are written to. -/
inductive Stream where
  | output
  | errors
  deriving DecidableEq, Repr

/-- The character with which everything begins that a terminal takes for a command. -/
def escapeChar : Char := '\x1b'

/-- What reading the arguments leads to. -/
inductive Invocation where
  /-- The program is to run, with `input` left on the standard input. -/
  | call (o : Options) (input : String)
  /-- The run is over: the arguments make no sense, or they ask for help only. -/
  | closed (r : Report)
  deriving DecidableEq, Repr

/-- What reads the arguments and writes the messages of a run. -/
structure Toolkit where
  /-- Reads the arguments. -/
  invoke : List String → Invocation
  /-- What is written to a stream for a message. -/
  echo : Stream → String → String

/-- Writes a message to a stream. -/
def Report.say (t : Toolkit) (r : Report) : Stream → String → Report
  | .output, message => r.write (t.echo .output message)
  | .errors, message => r.warn (t.echo .errors message)

/-! ## Programs -/

/-- The rank from which log records are written. -/
def threshold (env : Environment) (verbosity : Nat) : Nat :=
  match verbosity with
  | 0 => Settings.threshold env
  | 1 => Level.rank .info
  | _ => Level.rank .debug

/-- Writes the stack of a session. -/
def writeStack (t : Toolkit) (bounds : Bounds) (s : Session) (r : Report) : Report :=
  match s.render bounds with
  | .ok text => r.say t .output text
  | .error fault => r.stop fault

/-- Evaluates programs in turn. A session comes back if all of them succeed. -/
def runPrograms (t : Toolkit) (bounds : Bounds) :
    List String → Session → Report → Option (Report × Option Session)
  | [], s, r => some (r, some s)
  | program :: programs, s, r =>
      match s.eval bounds program with
      | none => none
      | some evaluation =>
          let r := r.log evaluation.log
          match evaluation.failure with
          | none => runPrograms t bounds programs evaluation.session r
          | some (.fault fault) => some (r.stop fault, none)
          | some (.error e) =>
              let r := { r.say t .errors ("error: " ++ e.message) with status := 1 }
              some (writeStack t bounds evaluation.session r, none)

/-! ## Whole runs -/

/-- A run that still has the console ahead of it. -/
structure Interaction where
  bounds : Bounds
  prompt : String
  session : Session
  input : String

/-- Evaluates the programs of a command line. A console comes back if it is to
follow. -/
def runOptions (t : Toolkit) (around : Surroundings) (o : Options) (input : String) :
    Option (Report × Option Interaction) :=
  match Settings.raiseLimit around.limit around.environment with
  | .error fault => some (Report.start.stop fault, none)
  | .ok limit =>
      let bounds := ⟨limit, around.fuel, threshold around.environment o.verbosity⟩
      let programs := o.commands ++ o.files
      (runPrograms t bounds programs Session.fresh .start).map fun (r, session) =>
        match session with
        | none => (r, none)
        | some s =>
            let r := if programs.isEmpty then r else writeStack t bounds s r
            if r.fault.isNone && (o.interactive || programs.isEmpty) then
              (r, some ⟨bounds, Settings.prompt around.environment, s, input⟩)
            else (r, none)

/-- Runs a command line up to the console. -/
def begin (t : Toolkit) (around : Surroundings) (arguments : List String) :
    Option (Report × Option Interaction) :=
  match t.invoke arguments with
  | .closed r => some (r, none)
  | .call o input => runOptions t around o input

/-- Runs a command line to its end. -/
def run (t : Toolkit) (around : Surroundings) (arguments : List String) : Option Report :=
  match begin t around arguments with
  | none => none
  | some (r, none) => some r
  | some (r, some c) =>
      (Console.run c.bounds c.prompt c.session (Text.unifyLines c.input)).map fun transcript =>
        let r := (r.write transcript.output).log transcript.log
        match transcript.fault with
        | none => r
        | some fault => r.stop fault

end Catena.CommandLine
