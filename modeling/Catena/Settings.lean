import Catena.Fault
import Catena.Text

/-!
# Settings

The environment is a list of variables. Five of them are read: the nesting
limit, the prompt, the log level, and the host and port of the server. A variable
that is absent stands for its default; so does an integer variable whose text is
empty, no integer, or an integer of more than `digitLimit` digits.

An integer is written in decimal digits of any script, with an optional sign in
front, single underscores between digits, and blanks around it.

The nesting limit in force only rises: setting it to less than it is changes
nothing, and setting it to more than `greatestLimit` is a fault.
-/

set_option autoImplicit false

namespace Catena

/-- Environment variables and their texts. -/
abbrev Environment := List (String × String)

namespace Settings

/-! ## Texts and integers -/

/-- The text of a variable, or a default. -/
def textOr (env : Environment) (variableName default : String) : String :=
  (env.lookup variableName).getD default

/-- The values of a run of digits in which single underscores may stand between
two digits. `afterDigit` tells whether a digit stands just before. -/
def digitRun? : (afterDigit : Bool) → List Char → Option (List Nat)
  | true, [] => some []
  | false, [] => none
  | true, '_' :: rest => digitRun? false rest
  | _, c :: rest =>
      match Text.digitValue? c with
      | none => none
      | some digit => (digitRun? true rest).map (digit :: ·)

/-- The natural number of a run of digits, which must not be too long. -/
def natural? (text : List Char) : Option Nat :=
  match digitRun? false text with
  | none => none
  | some digits =>
      if digits.length ≤ digitLimit then some (digits.foldl (fun n digit => 10 * n + digit) 0)
      else none

/-- The integer that a text denotes, if it denotes one and has not too many
digits. -/
def integer? (text : String) : Option Int :=
  match Text.strip text with
  | '+' :: rest => (natural? rest).map Int.ofNat
  | '-' :: rest => (natural? rest).map fun n => - Int.ofNat n
  | rest => (natural? rest).map Int.ofNat

/-- The integer of a variable, or a default. -/
def integerOr (env : Environment) (variableName : String) (default : Int) : Int :=
  match env.lookup variableName with
  | none => default
  | some text => (integer? text).getD default

/-! ## The nesting limit -/

/-- The nesting limit before any is set. -/
def initialLimit : Nat := 1000

/-- The greatest nesting limit that can be set. -/
def greatestLimit : Nat := Nat.pow 2 31 - 1

/-- The nesting limit that the environment asks for, at least one hundred. -/
def wantedLimit (env : Environment) : Nat :=
  (max (integerOr env "YAFT_RECURSION_LIMIT" 10000) 100).toNat

/-- Raises the limit in force to the one the environment asks for. -/
def raiseLimit (current : Nat) (env : Environment) : Except Fault Nat :=
  let wanted := wantedLimit env
  if current < wanted then
    if wanted ≤ greatestLimit then .ok wanted else .error .limitTooLarge
  else .ok current

/-! ## Prompt, log level and server address -/

/-- The text shown before each line of the console. -/
def prompt (env : Environment) : String :=
  textOr env "YAFT_PROMPT" ""

/-- The upper-case form of a character, as far as the names of levels need it:
beside the ASCII letters, the dotless i and the long s have ASCII capitals. -/
def upperCase (c : Char) : Char :=
  if c = 'ı' then 'I' else if c = 'ſ' then 'S' else c.toUpper

/-- The threshold that a level's name in capitals stands for. -/
def threshold? : String → Option Nat
  | "NOTSET" => some 0
  | "DEBUG" => some 10
  | "INFO" => some 20
  | "WARN" => some 30
  | "WARNING" => some 30
  | "ERROR" => some 40
  | "CRITICAL" => some 50
  | "FATAL" => some 50
  | _ => none

/-- The log threshold; an unknown name stands for that of warnings. -/
def threshold (env : Environment) : Nat :=
  let name := (textOr env "YAFT_LOG_LEVEL" "WARNING").toList.map upperCase
  (threshold? (String.ofList name)).getD 30

/-- Where the server listens. -/
structure Address where
  host : String
  port : Int
  deriving DecidableEq, Repr

/-- The address that the environment gives. -/
def address (env : Environment) : Address :=
  ⟨textOr env "YAFT_SERVER_HOST" "127.0.0.1", integerOr env "YAFT_SERVER_PORT" 8765⟩

/-- The address of a server: a host or port given outright wins over the
environment. -/
def addressOr (env : Environment) (host : Option String) (port : Option Int) : Address :=
  ⟨host.getD (address env).host, port.getD (address env).port⟩

end Settings

end Catena
