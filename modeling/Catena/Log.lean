import Catena.Word

/-!
# The log

What happens during a run is reported by records. A record has a level, the part
of the program it comes from, and a text. Records are data: nothing is written
here, and a run is the same whether its records are kept or not.

A threshold is the rank of a level. Records below it are not kept.
-/

set_option autoImplicit false

namespace Catena

/-- How important a record is. -/
inductive Level where
  | debug
  | info
  | warning
  deriving DecidableEq, Repr

namespace Level

/-- The rank of a level; thresholds are compared with it. -/
def rank : Level → Nat
  | .debug => 10
  | .info => 20
  | .warning => 30

/-- The name of a level in a log line. -/
def title : Level → String
  | .debug => "DEBUG"
  | .info => "INFO"
  | .warning => "WARNING"

end Level

/-- One entry of the log. -/
structure Record where
  level : Level
  source : String
  text : String
  deriving DecidableEq, Repr

namespace Record

/-- The line that a record is written as. -/
def line (r : Record) : String :=
  r.level.title ++ " " ++ r.source ++ ": " ++ r.text

/-- Whether a record reaches a threshold. -/
def reaches (threshold : Nat) (r : Record) : Bool :=
  threshold ≤ r.level.rank

/-- A name was resolved to an operation. -/
def resolved (name : String) (op : Operation) : Record :=
  ⟨.debug, "yaft.evaluation.resolve", "Resolved " ++ name ++ " to " ++ op.shown⟩

/-- A name is about to be bound again. -/
def redefining (name : String) : Record :=
  ⟨.debug, "yaft.types.dictionary", "Redefining word " ++ name⟩

/-- A program defined a word. -/
def wordDefined (name : String) : Record :=
  ⟨.debug, "yaft.builtin.word_builtin", "Defined word " ++ name⟩

/-- A session forgets its stack and its definitions. -/
def resetting (words : Nat) : Record :=
  ⟨.debug, "yaft.interpreter", "Resetting session (" ++ toString words ++ " words)"⟩

/-- A line of the console ended in an error. -/
def lineFailed (e : Error) : Record :=
  ⟨.warning, "yaft.repl", e.title ++ ": " ++ e.message⟩

/-- A client opened a connection. -/
def connected (host : String) (port : Int) : Record :=
  ⟨.info, "yaft.repl_server", "Connection from " ++ host ++ ":" ++ toString port⟩

end Record

end Catena
