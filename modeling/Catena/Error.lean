import Catena.Entry

/-!
# Errors of the language

An error says what is wrong with a program or with the stack it runs on. Each
constructor is one cause and carries what the wording needs; the wording itself
stands in `Error.message` alone.

Some wordings mention an integer. When that integer is too long to be written
the error cannot be worded, and the attempt to raise it ends in a fault instead:
`Error.raise` settles which of the two it is.
-/

set_option autoImplicit false

namespace Catena

/-! ## Brackets

Groups of a program are enclosed by brackets of two kinds: square ones around a
quotation, curly ones around a mapping. The four bracket tokens stand alone
between blanks; a bracket inside a longer token is an ordinary character. -/

/-- The two kinds of bracket. -/
inductive Bracket where
  | square
  | curly
  deriving DecidableEq, Repr

namespace Bracket

/-- The token that opens a group. -/
def opener : Bracket → String
  | .square => "["
  | .curly => "\x7b"

/-- The token that closes a group. -/
def closer : Bracket → String
  | .square => "]"
  | .curly => "\x7d"

/-- The bracket that a token opens. -/
def ofOpener? (token : String) : Option Bracket :=
  if token = opener .square then some .square
  else if token = opener .curly then some .curly
  else none

/-- The bracket that a token closes. -/
def ofCloser? (token : String) : Option Bracket :=
  if token = closer .square then some .square
  else if token = closer .curly then some .curly
  else none

end Bracket

/-! ## Errors and failures -/

/-- An error of the language. -/
inductive Error where
  /-- A word needs more values than the stack holds. -/
  | tooFewValues (needed held : Nat)
  /-- A value was popped from an empty stack. -/
  | emptyStack
  /-- A word found an operand of the wrong kind. -/
  | wrongKind (word : String) (expected : Kind) (found : Value)
  /-- An integer was divided by zero. -/
  | divisionByZero (dividend : Int)
  /-- Copying or comparing went deeper than the nesting limit. -/
  | tooDeep
  /-- A definition was given a name that is no symbol; `shown` is its diagnostic
  form. -/
  | unnameable (shown : String)
  /-- A closing bracket closes nothing. -/
  | unexpectedCloser (closer : Bracket) (position : Int)
  /-- A group was closed by the other kind of bracket. -/
  | mismatchedGroup (opened closed : Bracket) (position : Int)
  /-- A group was never closed. -/
  | unterminatedGroup (opener : String)
  /-- A curly group holds neither none nor two elements. -/
  | malformedMapping (count : Nat)
  deriving DecidableEq, Repr

/-- What a value is called in an error message. -/
def Value.inWords : Value → String
  | .boolean true => "boolean true"
  | .boolean false => "boolean false"
  | .integer n => "integer " ++ toString n
  | .symbol name => "symbol " ++ name
  | .emptyMapping => "mapping"
  | .mapping _ _ => "mapping"
  | .quotation _ => "quotation"

/-- Whether a value can be named in an error message: an integer has to be short
enough to be written. -/
def Value.wordable : Value → Bool
  | .integer n => !tooLongToWrite n
  | _ => true

namespace Error

/-- The wording of an error. -/
def message : Error → String
  | .tooFewValues needed held =>
      "needs " ++ toString needed ++ " value(s) but the stack holds " ++ toString held
  | .emptyStack => "cannot pop from an empty stack"
  | .wrongKind word expected found =>
      word ++ " expects a " ++ expected.title ++ ", got " ++ found.inWords
  | .divisionByZero dividend => "cannot divide " ++ toString dividend ++ " by zero"
  | .tooDeep => "recursion too deep"
  | .unnameable shown => "Cannot define " ++ shown ++ ": word names must be symbols"
  | .unexpectedCloser closer position =>
      "'" ++ closer.closer ++ "' at token " ++ toString position ++ " closes nothing"
  | .mismatchedGroup opened closed position =>
      "'" ++ opened.opener ++ "' closed by '" ++ closed.closer ++ "' at token " ++ toString position
  | .unterminatedGroup opener => "Unmatched '" ++ opener ++ "'"
  | .malformedMapping count =>
      "Mapping needs a key and a value, got " ++ toString count ++ " element(s)"

/-- The name under which the log reports an error. -/
def title : Error → String
  | .tooFewValues _ _ => "StackUnderflow"
  | .emptyStack => "StackUnderflow"
  | .wrongKind _ _ _ => "YaftTypeError"
  | .divisionByZero _ => "DivisionByZero"
  | .tooDeep => "RecursionDepthExceeded"
  | .unnameable _ => "YaftTypeError"
  | .unexpectedCloser _ _ => "UnexpectedCloser"
  | .mismatchedGroup _ _ _ => "MismatchedGroup"
  | .unterminatedGroup _ => "UnterminatedGroup"
  | .malformedMapping _ => "MalformedMapping"

/-- Whether the message of an error mentions only integers that can be
written. -/
def wordable : Error → Bool
  | .wrongKind _ _ found => found.wordable
  | .divisionByZero dividend => !tooLongToWrite dividend
  | _ => true

end Error

/-- Why an evaluation stopped before its end. -/
inductive Failure where
  | error (e : Error)
  | fault (f : Fault)
  deriving DecidableEq, Repr

/-- Raises an error: the failure is the error itself if it can be worded, and the
fault met in wording it otherwise. -/
def Error.raise (e : Error) : Failure :=
  if e.wordable then .error e else .fault .integerTooLong

end Catena
