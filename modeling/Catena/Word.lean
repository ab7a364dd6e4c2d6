import Catena.Stack

/-!
# Words

A word of the language is either built in or defined by a program. An operation
carries the name it was bound under, because the log and hosts show it.

The built-in words come in five families: integer arithmetic and comparison,
equality, the two truth values, stack shuffling, and control. Their order in
`Builtin.all` is the order in which a fresh dictionary lists them.
-/

set_option autoImplicit false

namespace Catena

/-! ## Operands

A word checks all its operands before it removes any of them, so a word that
fails leaves the stack as it was. The check has two parts: the stack must hold
enough values, and then, from the top down, each value must be of the kind the
word expects there. The first operand that is not decides the error.

The operands of a list of kinds form a tuple: for two integers and a quotation,
two integers and a list of entries. -/

/-- The operands of a list of kinds, top of the stack first. -/
abbrev Operands : List Kind → Type
  | [] => Unit
  | kind :: kinds => kind.Carrier × Operands kinds

/-- Reads the operands of a word off the top of a stack, top first. -/
def Operands.view (word : String) : (kinds : List Kind) → Stack → Except Failure (Operands kinds)
  | [], _ => .ok ()
  | _ :: _, [] => .error (.error .emptyStack)
  | kind :: kinds, e :: s =>
      match kind.view? e with
      | none => .error (Error.wrongKind word kind e.value).raise
      | some operand =>
          match Operands.view word kinds s with
          | .error failure => .error failure
          | .ok operands => .ok (operand, operands)

/-- Checks the operands of a word and answers them; the stack keeps them. -/
def Operands.check (word : String) (kinds : List Kind) (s : Stack) :
    Except Failure (Operands kinds) :=
  if s.holds kinds.length then Operands.view word kinds s
  else .error (.error (.tooFewValues kinds.length s.length))

/-- Checks the operands of a word and removes them. -/
def Operands.remove (word : String) (kinds : List Kind) (s : Stack) :
    Removal (Operands kinds) :=
  match Operands.check word kinds s with
  | .error failure => .failed failure s
  | .ok values => .done values (s.drop kinds.length)

/-! ## Built-in words and operations -/

/-- The words that combine two integers. -/
inductive Arithmetic where
  | plus
  | minus
  | times
  | over
  | less
  | greater
  | atMost
  | atLeast
  deriving DecidableEq, Repr

namespace Arithmetic

/-- The spelling of an arithmetic word. -/
def word : Arithmetic → String
  | .plus => "+"
  | .minus => "-"
  | .times => "*"
  | .over => "/"
  | .less => "<"
  | .greater => ">"
  | .atMost => "<="
  | .atLeast => ">="

/-- The result of an arithmetic word on the deeper operand `b` and the top
operand `a`. Division rounds down. -/
def compute : Arithmetic → Int → Int → Except Error Value
  | .plus, b, a => .ok (.integer (b + a))
  | .minus, b, a => .ok (.integer (b - a))
  | .times, b, a => .ok (.integer (b * a))
  | .over, b, a => if a = 0 then .error (.divisionByZero b) else .ok (.integer (b.fdiv a))
  | .less, b, a => .ok (.boolean (b < a))
  | .greater, b, a => .ok (.boolean (a < b))
  | .atMost, b, a => .ok (.boolean (b ≤ a))
  | .atLeast, b, a => .ok (.boolean (a ≤ b))

end Arithmetic

/-- The built-in words. -/
inductive Builtin where
  /-- Combines two integers. -/
  | arithmetic (op : Arithmetic)
  /-- Compares two values. -/
  | equal
  /-- Pushes a truth value. -/
  | truth (b : Bool)
  /-- Doubles the top value. -/
  | dup
  /-- Drops the top value. -/
  | pop
  /-- Exchanges the two top values. -/
  | swap
  /-- Empties the stack. -/
  | clear
  /-- Encloses the top value in a quotation. -/
  | quote
  /-- Runs a quotation. -/
  | apply
  /-- Runs a quotation under the value beneath it. -/
  | dip
  /-- Runs one of two quotations. -/
  | choose
  /-- Binds a name to a quotation. -/
  | define
  deriving DecidableEq, Repr

namespace Builtin

/-- The spelling of a built-in word. -/
def word : Builtin → String
  | .arithmetic op => op.word
  | .equal => "eq"
  | .truth true => "true"
  | .truth false => "false"
  | .dup => "dup"
  | .pop => "pop"
  | .swap => "swap"
  | .clear => "clear"
  | .quote => "quote"
  | .apply => "apply"
  | .dip => "dip"
  | .choose => "if"
  | .define => "def"

/-- The built-in words in the order of a fresh dictionary. -/
def all : List Builtin :=
  [.arithmetic .plus, .arithmetic .minus, .arithmetic .times, .arithmetic .over,
    .arithmetic .less, .arithmetic .greater, .arithmetic .atMost, .arithmetic .atLeast,
    .equal, .truth true, .truth false, .dup, .pop, .swap, .clear, .quote, .apply, .dip,
    .choose, .define]

/-- The built-in word of a spelling. -/
def ofWord? (text : String) : Option Builtin :=
  all.find? fun b => b.word == text

/-- What a built-in word expects of its operands, top first. -/
def kinds : Builtin → List Kind
  | .arithmetic _ => [.integer, .integer]
  | .equal => [.any, .any]
  | .truth _ => []
  | .dup => [.any]
  | .pop => [.any]
  | .swap => [.any, .any]
  | .clear => []
  | .quote => [.any]
  | .apply => [.quotation]
  | .dip => [.quotation, .any]
  | .choose => [.any, .quotation, .quotation]
  | .define => [.name, .quotation]

end Builtin

/-- What a name is bound to. -/
inductive Operation where
  | builtin (name : String) (b : Builtin)
  | defined (name : String) (body : List Value)
  deriving DecidableEq, Repr

namespace Operation

/-- The name an operation was bound under. -/
def name : Operation → String
  | .builtin name _ => name
  | .defined name _ => name

/-- How the log and hosts show an operation. -/
def shown : Operation → String
  | .builtin name _ => "<builtin " ++ name ++ ">"
  | .defined name _ => "<defined " ++ name ++ ">"

end Operation

end Catena
