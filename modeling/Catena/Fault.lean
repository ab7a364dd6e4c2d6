import Catena.Text.Quoted

/-!
# Faults

A fault is a failure of the machinery that runs a program, as opposed to an
error of the language: no program text is wrong because of it, and the language
does not promise to repair the stack after it. Faults come from four sources.

* Integers and their decimal texts. A numeral of more than `digitLimit`
  characters is not read, and an integer of more than `digitLimit` digits is not
  written.
* Nesting. Copying, comparing and writing a value descend into it and stop at a
  limit.
* Positions and keys that do not exist: an index outside a list or beyond the
  range of an index, an opener that opens nothing, a value that cannot be a key.
* What a host hands over: a nesting limit too large to be set, half a mapping, a
  file name that no file can have.
-/

set_option autoImplicit false

namespace Catena

/-- The number of decimal digits up to which integers are read and written. -/
def digitLimit : Nat := 4300

/-- The kinds of value that cannot serve as a key, because they hold others. -/
inductive Compound where
  | quotation
  | mapping
  deriving DecidableEq, Repr

/-- A failure of the machinery. -/
inductive Fault where
  /-- A numeral with that many digits is too long to be read. -/
  | numeralTooLong (digits : Nat)
  /-- An integer is too long to be written. -/
  | integerTooLong
  /-- A value is nested too deeply to be copied, compared or written. -/
  | nestingTooDeep
  /-- A position lies outside a list. -/
  | positionOutOfRange
  /-- A number is too large or too small to be a position. -/
  | positionUnusable
  /-- A closing bracket met a group whose opener is no bracket. -/
  | unknownOpener (opener : String)
  /-- A value that holds others was used as a key. -/
  | unusableKey (kind : Compound)
  /-- A nesting limit is too large to be set. -/
  | limitTooLarge
  /-- A mapping was given a key without a value, or a value without a key. -/
  | halfMapping
  /-- A file name holds the null character, which ends names. -/
  | nullInName
  deriving DecidableEq, Repr

namespace Fault

/-- How a fault about the length of an integer begins. -/
def lengthLimit : String :=
  "Exceeds the limit (" ++ toString digitLimit ++ " digits) for integer string conversion"

/-- How a fault about the length of an integer ends. -/
def lengthAdvice : String :=
  "; use sys.set_int_max_str_digits() to increase the limit"

/-- The wording of a fault. Where exhausted nesting surfaces as an error of the
language, that error has a wording of its own. -/
def message : Fault → String
  | .numeralTooLong digits =>
      lengthLimit ++ ": value has " ++ toString digits ++ " digits" ++ lengthAdvice
  | .integerTooLong => lengthLimit ++ lengthAdvice
  | .nestingTooDeep => "maximum recursion depth exceeded"
  | .positionOutOfRange => "list index out of range"
  | .positionUnusable => "cannot fit 'int' into an index-sized integer"
  | .unknownOpener opener => Text.quoted opener
  | .unusableKey .quotation => "unhashable type: 'list'"
  | .unusableKey .mapping => "unhashable type: 'Mapping'"
  | .limitTooLarge => "Python int too large to convert to C int"
  | .halfMapping => "Mapping needs both a key and a value, or neither"
  | .nullInName => "embedded null byte"

/-- The fault of asking a list for a position that it does not have. A position
is a signed number of 64 bits; any other number is not even looked up. -/
def ofPosition (position : Int) : Fault :=
  if -Int.pow 2 63 ≤ position ∧ position < Int.pow 2 63 then .positionOutOfRange
  else .positionUnusable

end Fault

/-- The least natural number with more digits than can be written. -/
def writeBound : Nat := Nat.pow 10 digitLimit

/-- Whether an integer has more digits than can be written. -/
def tooLongToWrite (n : Int) : Bool :=
  writeBound ≤ n.natAbs

end Catena
