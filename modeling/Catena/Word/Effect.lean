import Catena.Dictionary

/-!
# What words do

Running a word changes the stack and the dictionary, and it may ask for work to
be done next: control words never run a quotation themselves, they schedule it
as a frame. A frame is a sequence of items. An item is a node to evaluate or an
entry that waits to be put back on the stack.

A word that fails with an error of the language has changed nothing. A fault
gives no such promise: doubling a quotation takes it off the stack first, so when
the copy goes too deep the quotation is gone.

Doubling makes a copy of a quotation only. The copy lies beneath; a mapping lies
on the stack twice, under one mark.
-/

set_option autoImplicit false

namespace Catena

/-- A piece of pending work. -/
inductive Item where
  /-- Evaluate a node. -/
  | node (e : Entry)
  /-- Put a saved entry back on the stack. -/
  | restore (e : Entry)
  deriving DecidableEq, Repr

/-- Pending work, to be done in order. -/
abbrev Frame := List Item

/-- The frame that evaluates a sequence of entries. -/
def Frame.ofEntries (entries : List Entry) : Frame :=
  entries.map .node

/-- The frame that evaluates the nodes of a program. -/
def Frame.ofNodes (nodes : List Value) : Frame :=
  Frame.ofEntries (nodes.map .plain)

/-- What a word has done when it succeeds. -/
structure Effect where
  stack : Stack
  words : Dictionary
  /-- The number of marks in use. -/
  marks : Nat
  /-- The frames to run next, in the order in which they were scheduled: the last
  one runs first. -/
  scheduled : List Frame
  deriving DecidableEq, Repr

/-- The outcome of running a word once. -/
inductive Attempt where
  | done (effect : Effect)
  | failed (failure : Failure) (left : Stack)
  deriving DecidableEq, Repr

namespace Attempt

/-- Goes on with what was taken off the stack, and with the stack that is left. -/
def after {α : Type} (removal : Removal α) (next : α → Stack → Attempt) : Attempt :=
  match removal with
  | .failed failure left => .failed failure left
  | .done removed left => next removed left

end Attempt

namespace Builtin

/-- Runs a built-in word on a stack and a dictionary, with `marks` marks in
use. -/
def run (limit : Nat) (b : Builtin) (s : Stack) (d : Dictionary) (marks : Nat) : Attempt :=
  match b with
  | .arithmetic op =>
      Attempt.after (Operands.remove b.word [.integer, .integer] s) fun (top, deeper, ()) rest =>
        match op.compute deeper top with
        | .error e => .failed e.raise s
        | .ok v => .done ⟨.plain v :: rest, d, marks, []⟩
  | .equal =>
      Attempt.after (Operands.remove b.word [.any, .any] s) fun (top, deeper, ()) rest =>
        match deeper.sameWithin limit top with
        | .error fault => .failed (.fault fault) s
        | .ok answer => .done ⟨.plain (.boolean answer) :: rest, d, marks, []⟩
  | .truth t => .done ⟨.plain (.boolean t) :: s, d, marks, []⟩
  | .dup =>
      Attempt.after s.pop fun e rest =>
        if e.value.isQuotation then
          if e.value.copyable limit then .done ⟨e :: .plain e.value :: rest, d, marks, []⟩
          else .failed (.fault .nestingTooDeep) rest
        else
          let (e, marks) := e.ready marks
          .done ⟨e :: e :: rest, d, marks, []⟩
  | .pop => Attempt.after s.pop fun _ rest => .done ⟨rest, d, marks, []⟩
  | .swap =>
      Attempt.after (Operands.remove b.word [.any, .any] s) fun (top, deeper, ()) rest =>
        .done ⟨deeper :: top :: rest, d, marks, []⟩
  | .clear => .done ⟨[], d, marks, []⟩
  | .quote => Attempt.after s.pop fun e rest => .done ⟨e.enclosed :: rest, d, marks, []⟩
  | .apply =>
      Attempt.after (Operands.remove b.word [.quotation] s) fun (q, ()) rest =>
        .done ⟨rest, d, marks, [Frame.ofEntries q]⟩
  | .dip =>
      Attempt.after (Operands.remove b.word [.quotation, .any] s) fun (q, saved, ()) rest =>
        .done ⟨rest, d, marks, [[.restore saved], Frame.ofEntries q]⟩
  | .choose =>
      Attempt.after (Operands.remove b.word [.any, .quotation, .quotation] s)
        fun (condition, first, second, ()) rest =>
          let chosen := if condition.value.countsAsTrue then first else second
          .done ⟨rest, d, marks, [Frame.ofEntries chosen]⟩
  | .define =>
      Attempt.after (Operands.remove b.word [.name, .quotation] s) fun (name, body, ()) rest =>
        .done ⟨rest, d.insert name (.defined name (body.map (·.value))), marks, []⟩

end Builtin

namespace Operation

/-- Runs an operation. A defined word schedules a copy of its body, which the
nesting limit has to allow. -/
def run (limit : Nat) (op : Operation) (s : Stack) (d : Dictionary) (marks : Nat) : Attempt :=
  match op with
  | .builtin _ b => b.run limit s d marks
  | .defined _ body =>
      if (Value.quotation body).copyable limit then .done ⟨s, d, marks, [Frame.ofNodes body]⟩
      else .failed (.fault .nestingTooDeep) s

end Operation

end Catena
