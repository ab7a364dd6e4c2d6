import Catena.Error

/-!
# Reading programs

A program is read in two passes: its text is cut into words, here called tokens,
and the tokens are gathered into nodes.

* A bracket token opens or closes a group. Each group has to be closed by its own
  kind of bracket.
* A square group is a quotation. A curly group is a mapping: it holds nothing, or
  a key and a value.
* Every other token is a symbol, numerals included.

The reader keeps no call stack of its own. The groups under way form a path from
the innermost one outwards, so nesting costs memory only.

Reading can also begin inside a group that is already open, at any position of
the token list. It then ends with the bracket that closes that group.
-/

set_option autoImplicit false

namespace Catena.Program

/-- The value of a group that has just been closed. -/
def close : Bracket → List Value → Except Error Value
  | .square, items => .ok (.quotation items)
  | .curly, [] => .ok .emptyMapping
  | .curly, [key, value] => .ok (.mapping key value)
  | .curly, items => .error (.malformedMapping items.length)

/-- How far the reading of a token list has come. -/
structure Reading where
  /-- The nodes of the innermost group under way, last one first. -/
  nodes : List Value
  /-- The brackets opened and not yet closed, innermost first, each with the
  nodes that stand before it in the group around it, last one first. -/
  enclosing : List (Bracket × List Value)

namespace Reading

/-- Nothing has been read. -/
def start : Reading :=
  ⟨[], []⟩

/-- Adds a node to the innermost group. -/
def add (v : Value) (r : Reading) : Reading :=
  { r with nodes := v :: r.nodes }

/-- Opens a group inside the innermost one. -/
def enter (b : Bracket) (r : Reading) : Reading :=
  ⟨[], (b, r.nodes) :: r.enclosing⟩

end Reading

/-- Ends the reading at the bracket that closes the group it began in. -/
def leaveBase (opener : Option String) (b : Bracket) (position : Int) (nodes : List Value) :
    Except Failure (List Value × Int) :=
  match opener with
  | none => .error (.error (.unexpectedCloser b position))
  | some text =>
      match Bracket.ofOpener? text with
      | none => .error (.fault (.unknownOpener text))
      | some opened =>
          if b = opened then .ok (nodes.reverse, position + 1)
          else .error (.error (.mismatchedGroup opened b position))

/-- Ends the reading where the tokens end. -/
def finish (opener : Option String) (position : Int) (r : Reading) :
    Except Failure (List Value × Int) :=
  match r.enclosing, opener with
  | (b, _) :: _, _ => .error (.error (.unterminatedGroup b.opener))
  | [], some text => .error (.error (.unterminatedGroup text))
  | [], none => .ok (r.nodes.reverse, position)

/-- Reads the tokens that are left. `opener` is the token that opened the group
the reading began in, if any, and `position` the index of the next token. -/
def readOn (opener : Option String) :
    List String → Int → Reading → Except Failure (List Value × Int)
  | [], position, r => finish opener position r
  | token :: rest, position, r =>
      match Bracket.ofOpener? token, Bracket.ofCloser? token with
      | some b, _ => readOn opener rest (position + 1) (r.enter b)
      | none, some b =>
          match r.enclosing with
          | [] => leaveBase opener b position r.nodes
          | (opened, before) :: outer =>
              if b = opened then
                match close b r.nodes.reverse with
                | .error e => .error (.error e)
                | .ok v => readOn opener rest (position + 1) ⟨v :: before, outer⟩
              else .error (.error (.mismatchedGroup opened b position))
      | none, none => readOn opener rest (position + 1) (r.add (.symbol token))

/-- The tokens met when reading from a position. A negative position counts from
the end of the list, and the walk then passes the end and goes through the whole
list once more. `none` if the position lies before the list. -/
def tokensFrom (tokens : List String) (start : Int) : Option (List String) :=
  if 0 ≤ start then some (tokens.drop start.toNat)
  else if start.natAbs ≤ tokens.length then
    some (tokens.drop (tokens.length - start.natAbs) ++ tokens)
  else none

/-- Reads tokens from a position, inside the group opened by `opener` or, without
one, at top level. The answer is the nodes and the position after the last token
used. -/
def parseFrom (tokens : List String) (start : Int) (opener : Option String) :
    Except Failure (List Value × Int) :=
  match tokensFrom tokens start with
  | none => .error (.fault (.ofPosition start))
  | some rest => readOn opener rest start .start

/-- Reads a whole token list at top level. -/
def parse (tokens : List String) : Except Failure (List Value × Int) :=
  parseFrom tokens 0 none

/-- Reads the text of a program into its nodes. -/
def read (text : String) : Except Failure (List Value) :=
  (parse (Text.words text)).map (·.1)

end Catena.Program
