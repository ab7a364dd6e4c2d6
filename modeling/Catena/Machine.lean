import Catena.Log
import Catena.Word.Effect

/-!
# The machine

Evaluation is a loop over pending work, never a recursion. The machine holds the
stack, the dictionary, the number of marks in use and a stack of frames; one step
takes one item off the top frame.

* A node is resolved first. A symbol that is bound is run as a word. A numeral
  that is not bound becomes an integer. Everything else is pushed as it is.
* A word's frames go on top of what is pending. Frames that are used up are
  dropped before a new one is added, so a word that calls itself as its last
  action does not pile up frames.
* When a word fails with an error of the language, the entries that unfinished
  frames hold back return to the stack, those of the top frame first. A fault
  returns nothing.

Runs need not end, so `run` takes the number of steps it may use and answers
`none` when they do not suffice.
-/

set_option autoImplicit false

namespace Catena

/-- What a node turns out to be. -/
inductive Action where
  | push (v : Value)
  | invoke (name : String) (op : Operation)
  deriving DecidableEq, Repr

/-- Decides whether a node is data or a call. -/
def Action.ofNode (d : Dictionary) : Value → Except Fault Action
  | .symbol name =>
      match d.get? name with
      | some op => .ok (.invoke name op)
      | none =>
          if Value.isNumeral name then (Value.readNumeral name).map fun n => .push (.integer n)
          else .ok (.push (.symbol name))
  | v => .ok (.push v)

/-- The state of an evaluation. -/
structure Machine where
  stack : Stack
  words : Dictionary
  /-- The number of marks in use. -/
  marks : Nat
  /-- Pending work; the top frame is the head. -/
  frames : List Frame
  deriving DecidableEq, Repr

/-- How an evaluation ended, with the stack and the dictionary it left and the
number of marks then in use. -/
structure Outcome where
  failure : Option Failure
  stack : Stack
  words : Dictionary
  marks : Nat
  deriving DecidableEq, Repr

/-- What one step leads to. -/
inductive Progress where
  | next (m : Machine)
  | halted (outcome : Outcome)
  deriving DecidableEq, Repr

/-- Adds a frame on top of those that still have work. -/
def addFrame (frames : List Frame) (frame : Frame) : List Frame :=
  frame :: frames.dropWhile List.isEmpty

/-- The entry that an item puts back, if it does. -/
def Item.saved? : Item → Option Entry
  | .node _ => none
  | .restore e => some e

/-- The entries held back by frames, top frame first. -/
def savedEntries (frames : List Frame) : List Entry :=
  frames.flatMap fun frame => frame.filterMap Item.saved?

/-- The records of running an operation: only a definition that succeeds has
any. -/
def Operation.records (op : Operation) (s : Stack) (d : Dictionary) : List Record :=
  match op with
  | .builtin _ .define =>
      match Operands.check (Builtin.word .define) [.name, .quotation] s with
      | .ok (name, _, ()) => Record.replacing d name ++ [Record.wordDefined name]
      | .error _ => []
  | _ => []

namespace Machine

/-- The machine about to evaluate a sequence of nodes. -/
def start (nodes : List Value) (s : Stack) (d : Dictionary) (marks : Nat) : Machine :=
  ⟨s, d, marks, [Frame.ofNodes nodes]⟩

/-- Ends an evaluation that failed. -/
def fail (m : Machine) : Failure → Outcome
  | .error e => ⟨some (.error e), m.stack.pushAll (savedEntries m.frames), m.words, m.marks⟩
  | .fault f => ⟨some (.fault f), m.stack, m.words, m.marks⟩

/-- Evaluates a node that has been taken off its frame. -/
def dispatch (limit : Nat) (e : Entry) (m : Machine) : Progress :=
  match Action.ofNode m.words e.value with
  | .error fault => .halted (m.fail (.fault fault))
  | .ok (.push v) => .next { m with stack := ⟨v, e.mark⟩ :: m.stack }
  | .ok (.invoke _ op) =>
      match op.run limit m.stack m.words m.marks with
      | .done effect =>
          .next ⟨effect.stack, effect.words, effect.marks,
            effect.scheduled.foldl addFrame m.frames⟩
      | .failed failure left => .halted (fail { m with stack := left } failure)

/-- One step. -/
def step (limit : Nat) (m : Machine) : Progress :=
  match m.frames with
  | [] => .halted ⟨none, m.stack, m.words, m.marks⟩
  | [] :: rest => .next { m with frames := rest }
  | (.restore e :: items) :: rest => .next { m with stack := e :: m.stack, frames := items :: rest }
  | (.node e :: items) :: rest => dispatch limit e { m with frames := items :: rest }

/-- Runs the machine for at most `fuel` steps. -/
def run (limit : Nat) : (fuel : Nat) → Machine → Option Outcome
  | 0, _ => none
  | fuel + 1, m =>
      match step limit m with
      | .next m => run limit fuel m
      | .halted outcome => some outcome

/-! ## What a run reports -/

/-- The records of the next step. -/
def records (m : Machine) : List Record :=
  match m.frames with
  | (.node e :: _) :: _ =>
      match Action.ofNode m.words e.value with
      | .ok (.invoke name op) => Record.resolved name op :: op.records m.stack m.words
      | _ => []
  | _ => []

/-- The records of a run in order. `earlier` holds those of the steps already
made, last one first. -/
def recordsOfRun (limit : Nat) : (fuel : Nat) → Machine → List Record → List Record
  | 0, _, earlier => earlier.reverse
  | fuel + 1, m, earlier =>
      let earlier := m.records.reverse ++ earlier
      match step limit m with
      | .next m => recordsOfRun limit fuel m earlier
      | .halted _ => earlier.reverse

end Machine

end Catena
