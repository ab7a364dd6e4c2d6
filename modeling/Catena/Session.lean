import Catena.Machine
import Catena.Program

/-!
# Sessions

A session is a stack and a dictionary that live across evaluations, with the
number of marks that its entries have in use. Evaluating a text reads it and runs
its nodes against the session.

* A text that cannot be read changes nothing.
* Whatever happens during the run, definitions made before stay, and the stack is
  the one the machine left.
* Exhausted nesting surfaces as an error of the language. The other faults
  surface as they are.

A prelude is a text evaluated for its definitions: what it leaves on the stack is
discarded, unless it fails.
-/

set_option autoImplicit false

namespace Catena

/-- The bounds under which a session works. -/
structure Bounds where
  /-- How deeply values may be nested when they are copied, compared or
  written. -/
  nesting : Nat
  /-- How many steps one evaluation may take. -/
  fuel : Nat
  /-- The rank from which log records are kept. -/
  threshold : Nat

namespace Bounds

/-- The records that are kept. -/
def keep (bounds : Bounds) (records : List Record) : List Record :=
  records.filter (·.reaches bounds.threshold)

end Bounds

/-- A stack and a dictionary shared by successive evaluations. -/
structure Session where
  stack : Stack
  words : Dictionary
  /-- The number of marks in use. -/
  marks : Nat
  deriving DecidableEq, Repr

/-- What an evaluation does to a session. -/
structure Evaluation where
  session : Session
  failure : Option Failure
  log : List Record
  deriving DecidableEq, Repr

/-- How a failure of the machine surfaces from a session. -/
def Failure.surface : Failure → Failure
  | .fault .nestingTooDeep => .error .tooDeep
  | failure => failure

namespace Session

/-- An empty stack and the built-in words. -/
def fresh : Session :=
  ⟨[], Dictionary.builtins, 0⟩

/-- Runs nodes against a session. -/
def runNodes (bounds : Bounds) (s : Session) (nodes : List Value) : Option Evaluation :=
  let m := Machine.start nodes s.stack s.words s.marks
  (m.run bounds.nesting bounds.fuel).map fun outcome =>
    { session := ⟨outcome.stack, outcome.words, outcome.marks⟩
      failure := outcome.failure
      log :=
        if bounds.threshold ≤ Level.rank .debug then m.recordsOfRun bounds.nesting bounds.fuel []
        else [] }

/-- Evaluates a text against a session. -/
def eval (bounds : Bounds) (s : Session) (text : String) : Option Evaluation :=
  match Program.read text with
  | .error failure => some ⟨s, some failure, []⟩
  | .ok nodes =>
      (s.runNodes bounds nodes).map fun evaluation =>
        { evaluation with failure := evaluation.failure.map Failure.surface }

/-- Evaluates a text for its definitions and empties the stack. -/
def prepare (bounds : Bounds) (s : Session) (text : String) : Option Evaluation :=
  (s.eval bounds text).map fun evaluation =>
    match evaluation.failure with
    | none => { evaluation with session := { evaluation.session with stack := [] } }
    | some _ => evaluation

/-- Opens a session; a prelude that is given and not empty is evaluated in it. -/
def create (bounds : Bounds) (preface : Option String) : Option Evaluation :=
  match preface with
  | none => some ⟨fresh, none, []⟩
  | some text =>
      if text.isEmpty then some ⟨fresh, none, []⟩ else fresh.prepare bounds text

/-- Forgets the stack and every definition. -/
def reset (bounds : Bounds) (s : Session) : Evaluation :=
  ⟨fresh, none, bounds.keep [Record.resetting s.words.size]⟩

/-- The program text of the session's stack. -/
def render (bounds : Bounds) (s : Session) : Except Fault String :=
  s.stack.render bounds.nesting

end Session

end Catena
