import Catena.Json
import Catena.Session

/-!
# Requests

A client of the server sends one request a line and gets one response a line,
both JSON objects. The field `cmd` of a request says what to do:

* `eval` evaluates the text in the field `code`, which may be missing, and
  answers with the stack, or with the error and the stack as it was left;
* `clear` makes the session a fresh one.

A line that is no request gets a response that says why, without a stack, and
changes nothing. A fault gets no response at all.

How a line is read is a parameter of this layer (`Reader`), and nothing below depends
on it. `Reader.json` is the reader that a server uses. A text is a sequence of
characters here, so half of a surrogate pair, which JSON can name by an escape, has no
place in it: this reader takes the replacement character for it, and what a host does
with such halves is left out.
-/

set_option autoImplicit false

namespace Catena

/-- The answer to a request. -/
structure Response where
  ok : Bool
  error : Option String
  stack : Option String
  deriving DecidableEq, Repr

namespace Response

/-- The fields of a response that are present, with their written forms. -/
def fields (r : Response) : List (String × String) :=
  ("ok", if r.ok then "true" else "false")
    :: ((r.error.map fun text => ("error", Json.writeString text)).toList
      ++ (r.stack.map fun text => ("stack", Json.writeString text)).toList)

/-- The line that a response is sent as, without its line feed. -/
def line (r : Response) : String :=
  let written := r.fields.map fun (name, text) => Json.writeString name ++ ": " ++ text
  "\x7b" ++ ", ".intercalate written ++ "\x7d"

/-- The response to a line that is no request. -/
def invalid (reason : String) : Response :=
  ⟨false, some ("Invalid request: " ++ reason), none⟩

end Response

namespace Request

/-- A line as it arrives: decoded or not. -/
inductive Line where
  | text (s : String)
  | bytes (b : List UInt8)

/-- A line as far as it can be made sense of. -/
inductive Content where
  | datum (j : Json)
  | invalid (reason : String)
  | fault (f : Fault)

/-- A way of reading lines. -/
structure Reader where
  /-- What there is to a line, under a nesting limit. -/
  read : Nat → Line → Content

/-- Reads the characters of a line. Exhausted nesting is a fault; anything else
that is wrong with the text makes the line invalid. -/
def ofChars (nesting : Nat) (text : List Char) : Content :=
  match Json.read nesting text with
  | .ok datum => .datum datum
  | .error (.malformed complaint position) => .invalid (Json.complaintText text complaint position)
  | .error (.fault .nestingTooDeep) => .fault .nestingTooDeep
  | .error (.fault f) => .invalid f.message

/-- Reads JSON. A text must not begin with a byte order mark; bytes may, since the mark
tells their encoding. -/
def Reader.json : Reader where
  read
    | nesting, .text s =>
        match s.toList with
        | '\uFEFF' :: rest => .invalid (Json.complaintText ('\uFEFF' :: rest) .byteOrderMark 0)
        | chars => ofChars nesting chars
    | nesting, .bytes b =>
        match Text.decode b with
        | .error f => .invalid f.message
        | .ok chars => ofChars nesting chars

/-- What a request asks for. -/
inductive Command where
  | eval (code : String)
  | clear
  | invalid (reason : String)
  | unknown (shown : String)

/-- The command of a datum. -/
def Command.ofJson : Json → Command
  | .object fields =>
      match fields.lookup "cmd" with
      | some (.string "eval") =>
          match fields.lookup "code" with
          | none => .eval ""
          | some (.string code) => .eval code
          | some _ => .invalid "code must be a string"
      | some (.string "clear") => .clear
      | some datum => .unknown datum.shown
      | none => .unknown (Json.shown .null)
  | _ => .invalid "expected a JSON object"

/-- What answering a request leads to: the session after it, and a response
unless a fault prevented one. -/
structure Answer where
  session : Session
  response : Except Fault Response
  log : List Record

/-- Answers with the stack of a session, after an error or without one. -/
def withStack (bounds : Bounds) (s : Session) (error : Option String) : Except Fault Response :=
  (s.render bounds).map fun stack => ⟨error.isNone, error, some stack⟩

/-- Carries out a command. -/
def Command.answer (bounds : Bounds) (s : Session) : Command → Option Answer
  | .eval code =>
      (s.eval bounds code).map fun evaluation =>
        let s := evaluation.session
        match evaluation.failure with
        | none => ⟨s, withStack bounds s none, evaluation.log⟩
        | some (.error e) => ⟨s, withStack bounds s (some e.message), evaluation.log⟩
        | some (.fault f) => ⟨s, .error f, evaluation.log⟩
  | .clear =>
      let evaluation := s.reset bounds
      some ⟨evaluation.session, withStack bounds evaluation.session none, evaluation.log⟩
  | .invalid reason => some ⟨s, .ok (.invalid reason), []⟩
  | .unknown shown => some ⟨s, .ok ⟨false, some ("Unknown cmd: " ++ shown), none⟩, []⟩

/-- Answers one line in a session. -/
def answer (reader : Reader) (bounds : Bounds) (s : Session) (line : Line) : Option Answer :=
  match reader.read bounds.nesting line with
  | .datum datum => (Command.ofJson datum).answer bounds s
  | .invalid reason => (Command.invalid reason).answer bounds s
  | .fault f => some ⟨s, .error f, []⟩

end Request

end Catena
