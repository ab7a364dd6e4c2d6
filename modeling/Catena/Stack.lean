import Catena.Error

/-!
# The stack

A stack is a list of entries with its top at the head. Removing several of them
is all or nothing: when too few are there, nothing is removed. The outcome of a
removal says which stack is left, whether it succeeds or fails (`Removal`).

Counts and depths are integers, because the operations are also open to a host
that may pass any of them. A negative count removes nothing and answers the
entries left after skipping that many from the bottom; a negative depth counts
from the bottom instead of the top.
-/

set_option autoImplicit false

namespace Catena

/-- A stack of entries, top first. -/
abbrev Stack := List Entry

/-- The outcome of taking something off a stack, with the stack that is left. -/
inductive Removal (α : Type) where
  | done (removed : α) (left : Stack)
  | failed (failure : Failure) (left : Stack)
  deriving DecidableEq, Repr

namespace Stack

/-- The stack that holds the values of a list, its first value at the bottom. -/
def ofList (values : List Value) : Stack :=
  values.reverse.map .plain

/-- The values of a stack, bottom first. -/
def toList (s : Stack) : List Value :=
  s.reverse.map (·.value)

/-- Pushes the entries of a list, first one first. -/
def pushAll (s : Stack) (entries : List Entry) : Stack :=
  entries.foldl (fun t e => e :: t) s

/-- The values of a stack made of a list are those of the list. -/
@[simp] theorem toList_ofList (values : List Value) : (ofList values).toList = values := by
  simp [ofList, toList, List.map_reverse, Entry.plain, Function.comp_def]

/-- Whether a stack holds at least that many values. -/
def holds : Nat → Stack → Bool
  | 0, _ => true
  | _ + 1, [] => false
  | n + 1, _ :: s => holds n s

/-- A stack holds `n` values exactly when it has that many. -/
theorem holds_iff (n : Nat) (s : Stack) : holds n s = true ↔ n ≤ s.length := by
  induction n generalizing s with
  | zero => simp [holds]
  | succ n ih => cases s <;> simp [holds, ih]

/-- Pushing a list reverses it onto the stack. -/
theorem pushAll_eq (s : Stack) (entries : List Entry) :
    s.pushAll entries = entries.reverse ++ s := by
  simp [pushAll]

/-- Demands that a stack hold at least that many values. -/
def demand (n : Int) (s : Stack) : Except Failure Unit :=
  if holds n.toNat s then .ok () else .error (.error (.tooFewValues n.toNat s.length))

/-- Removes the top value. -/
def pop : Stack → Removal Entry
  | [] => .failed (.error .emptyStack) []
  | e :: s => .done e s

/-- Removes the top `n` values at once and answers them top first. -/
def popMany (n : Int) (s : Stack) : Removal (List Entry) :=
  match demand n s with
  | .error failure => .failed failure s
  | .ok () =>
      if 0 ≤ n then .done (s.take n.toNat) (s.drop n.toNat)
      else .done (s.take (s.length - n.natAbs)) s

/-- The value that lies `depth` places below the top. -/
def peek (depth : Int) (s : Stack) : Except Failure Entry := do
  demand (depth + 1) s
  let found := if 0 ≤ depth then s[depth.toNat]? else s.reverse[depth.natAbs - 1]?
  match found with
  | some e => .ok e
  | none => .error (.fault (.ofPosition (-1 - depth)))

/-! ## Texts and comparison -/

/-- The program text of a stack: bottom first, enclosed like a quotation. -/
def render (limit : Nat) (s : Stack) : Except Fault String :=
  Value.render limit (.quotation s.toList)

/-- The diagnostic form of a stack. -/
def inspect (limit : Nat) (s : Stack) : Except Fault String :=
  (Value.inspect limit (.quotation s.toList)).map fun shown => "Stack(" ++ shown ++ ")"

/-- Whether a stack holds values alike to those of a list, bottom first. -/
def alike (limit : Nat) (s : Stack) (values : List Value) : Except Fault Bool :=
  Value.alikeWithin limit (.quotation s.toList) (.quotation values)

end Stack

end Catena
