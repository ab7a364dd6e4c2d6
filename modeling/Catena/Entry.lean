import Catena.Value

/-!
# Entries

What lies on the stack, and what waits to be put there, is an entry: a value,
and possibly a mark.

Doubling a mapping does not copy it. The two entries then have one mapping in
common, and a mark that no other entry bears says so. An entry hands its mark on
when it is enclosed in a quotation, and a quotation hands it on to its items when
it is taken apart. A copy bears no mark, because what it holds is new.

Words put a value into another one only by enclosing it, so the mapping of a
mark is always the innermost part of the entry: the entry holds that mapping
itself, or the mapping inside quotations of one item each. Two entries of one
mark are therefore compared down to that mapping and no further.
-/

set_option autoImplicit false

namespace Catena

/-- A value with the mark of the mapping that it has in common with others. -/
structure Entry where
  value : Value
  mark : Option Nat
  deriving DecidableEq, Repr

namespace Entry

/-- A value that has nothing in common with others. -/
def plain (v : Value) : Entry :=
  ⟨v, none⟩

/-- The quotation that holds an entry alone. -/
def enclosed (e : Entry) : Entry :=
  ⟨.quotation [e.value], e.mark⟩

/-- The items of a quotation, as entries that bear its mark. -/
def items? (e : Entry) : Option (List Entry) :=
  match e.value with
  | .quotation items => some (items.map fun v => ⟨v, e.mark⟩)
  | _ => none

/-- Makes an entry ready to lie on the stack twice. A mapping without a mark gets
the next one; `marks` of them are in use. The second part is the number of marks
then in use. -/
def ready (marks : Nat) (e : Entry) : Entry × Nat :=
  match e.value, e.mark with
  | .mapping _ _, none => (⟨e.value, some marks⟩, marks + 1)
  | _, _ => (e, marks)

/-- Whether two entries have a mapping in common. -/
def shares (a b : Entry) : Bool :=
  a.mark.isSome && a.mark == b.mark

/-- Whether two entries hold the same value, under a nesting limit. -/
def sameWithin (limit : Nat) (a b : Entry) : Except Fault Bool :=
  Value.sameWithin (a.shares b) limit a.value b.value

/-- Enclosing an entry and taking the quotation apart gives the entry back. -/
@[simp] theorem items?_enclosed (e : Entry) : e.enclosed.items? = some [e] :=
  rfl

/-- Getting ready changes no value. -/
@[simp] theorem ready_value (marks : Nat) (e : Entry) : (e.ready marks).1.value = e.value := by
  unfold ready
  split <;> rfl

end Entry

/-! ## Kinds of operand

A word states what it expects of each operand by a kind. A kind accepts some
entries, by their values alone, and says what it reads off them: an integer word
works on integers, a control word on the contents of a quotation, a definition on
a name. -/

/-- What a word demands of an operand. -/
inductive Kind where
  | any
  | integer
  | quotation
  | name
  deriving DecidableEq, Repr

namespace Kind

/-- What an operand of a kind amounts to once it is accepted. -/
abbrev Carrier : Kind → Type
  | .any => Entry
  | .integer => Int
  | .quotation => List Entry
  | .name => String

/-- Reads an entry as an operand of a kind; `none` if the kind does not accept
it. -/
def view? : (kind : Kind) → Entry → Option kind.Carrier
  | .any, e => some e
  | .integer, e => e.value.integer?
  | .quotation, e => e.items?
  | .name, e => e.value.name?

/-- The name of a kind in error messages. -/
def title : Kind → String
  | .any => "value"
  | .integer => "integer"
  | .quotation => "quotation"
  | .name => "symbol"

end Kind

end Catena
