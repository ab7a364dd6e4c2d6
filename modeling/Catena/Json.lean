import Catena.Fault
import Catena.Number
import Catena.Text.Encoding

/-!
# JSON

The data that requests and responses are made of, with a reader of JSON text and
the writing of strings.

Numbers without a fraction and an exponent are integers of any size; the others
are numbers of double precision, among them the three that JSON proper does not
have. The fields of an object are listed in the order in which their names first
appeared.
-/

set_option autoImplicit false

namespace Catena

/-- A JSON datum. -/
inductive Json where
  | null
  | boolean (b : Bool)
  | integer (n : Int)
  | decimal (d : Number.Double)
  | string (s : String)
  | array (items : List Json)
  | object (fields : List (String × Json))

namespace Json

/-- Sets a field: in its place if the name is there, at the end otherwise. -/
def setField (name : String) (datum : Json) : List (String × Json) → List (String × Json)
  | [] => [(name, datum)]
  | (key, old) :: rest =>
      if key = name then (key, datum) :: rest else (key, old) :: setField name datum rest

/-! ## Diagnostic form -/

mutual
/-- Puts the pieces of a datum's diagnostic form in front of `rest`. -/
def piecesOnto : Json → List String → List String
  | .null, rest => "None" :: rest
  | .boolean b, rest => (if b then "True" else "False") :: rest
  | .integer n, rest => toString n :: rest
  | .decimal d, rest => d.text :: rest
  | .string s, rest => Text.quoted s :: rest
  | .array items, rest => "[" :: itemsOnto items ("]" :: rest)
  | .object fields, rest => "\x7b" :: fieldsOnto fields ("\x7d" :: rest)
/-- Puts the pieces of the items of an array in front of `rest`. -/
def itemsOnto : List Json → List String → List String
  | [], rest => rest
  | [item], rest => item.piecesOnto rest
  | item :: next :: items, rest => item.piecesOnto (", " :: itemsOnto (next :: items) rest)
/-- Puts the pieces of the fields of an object in front of `rest`. -/
def fieldsOnto : List (String × Json) → List String → List String
  | [], rest => rest
  | [(name, datum)], rest => Text.quoted name :: ": " :: datum.piecesOnto rest
  | (name, datum) :: next :: fields, rest =>
      Text.quoted name :: ": " :: datum.piecesOnto (", " :: fieldsOnto (next :: fields) rest)
end

/-- How a datum is shown in a message: a text as it is, anything else in its
diagnostic form. -/
def shown : Json → String
  | .string s => s
  | datum => String.join (datum.piecesOnto [])

/-! ## Writing strings

Responses are written in ASCII. A character outside the range from the space to
the tilde is escaped, the usual ones by a letter, the others by their units of
sixteen bits: one unit up to the code point `FFFF`, a surrogate pair above. -/

/-- The escape of one unit of sixteen bits. -/
def unitEscape (unit : Nat) : List Char :=
  '\\' :: 'u' :: Text.hexDigits 4 unit

/-- One character of a written string. -/
def writtenChar (c : Char) : List Char :=
  if c = '\x22' then ['\\', '\x22']
  else if c = '\\' then ['\\', '\\']
  else if c = '\n' then ['\\', 'n']
  else if c = '\r' then ['\\', 'r']
  else if c = '\t' then ['\\', 't']
  else if c = '\x0c' then ['\\', 'f']
  else if c = '\x08' then ['\\', 'b']
  else if 0x20 ≤ c.toNat && c.toNat ≤ 0x7E then [c]
  else if c.toNat ≤ 0xFFFF then unitEscape c.toNat
  else
    let above := c.toNat - 0x10000
    unitEscape (0xD800 + above / 0x400) ++ unitEscape (0xDC00 + above % 0x400)

/-- A string between its quotes. -/
def writeString (text : String) : String :=
  String.ofList ('\x22' :: text.toList.flatMap writtenChar ++ ['\x22'])

/-! ## Reading

The reader says exactly where a text goes wrong: what it missed and the position,
line and column of the character where it missed it.

It walks the text as a list of characters together with the number of characters
already passed. It accepts `NaN`, `Infinity` and `-Infinity` beside the numbers of
JSON, and only space, tab, line feed and carriage return as blanks. A numeral of
too many digits and a text nested too deeply are refused; one level of nesting
takes one unit of the limit. -/

/-- What a reader misses in a text. -/
inductive Complaint where
  | noValue
  | extraData
  | noFieldName
  | noColon
  | noComma
  | openString
  | controlCharacter
  | badEscape
  | badPointEscape
  | byteOrderMark
  deriving DecidableEq, Repr

/-- The wording of a complaint. -/
def Complaint.message : Complaint → String
  | .noValue => "Expecting value"
  | .extraData => "Extra data"
  | .noFieldName => "Expecting property name enclosed in double quotes"
  | .noColon => "Expecting ':' delimiter"
  | .noComma => "Expecting ',' delimiter"
  | .openString => "Unterminated string starting at"
  | .controlCharacter => "Invalid control character at"
  | .badEscape => "Invalid \\escape"
  | .badPointEscape => "Invalid \\uXXXX escape"
  | .byteOrderMark => "Unexpected UTF-8 BOM (decode using utf-8-sig)"

/-- Why a text cannot be read. -/
inductive Refusal where
  | malformed (complaint : Complaint) (position : Nat)
  | fault (f : Fault)
  deriving DecidableEq, Repr

/-- The rest of a text and the number of characters passed. -/
structure Cursor where
  rest : List Char
  position : Nat

/-- A reading step: a result and the cursor after it, or a refusal. -/
abbrev Reading (α : Type) := Except Refusal (α × Cursor)

/-- Refuses a text at a position. -/
def refuse {α : Type} (complaint : Complaint) (position : Nat) : Except Refusal α :=
  .error (.malformed complaint position)

/-! ### Blanks -/

/-- Whether a character may stand between the parts of a text. -/
def isGap (c : Char) : Bool :=
  c = ' ' || c = '\t' || c = '\n' || c = '\r'

/-- Passes the blanks at a position. -/
def skipGaps : List Char → Nat → Cursor
  | [], position => ⟨[], position⟩
  | c :: rest, position =>
      if isGap c then skipGaps rest (position + 1) else ⟨c :: rest, position⟩

/-- Passes the blanks at a cursor. -/
def Cursor.skip (here : Cursor) : Cursor :=
  skipGaps here.rest here.position

/-! ### Strings -/

/-- The value of a hexadecimal digit. -/
def hexValue? (c : Char) : Option Nat :=
  if '0' ≤ c && c ≤ '9' then some (c.toNat - '0'.toNat)
  else if 'a' ≤ c && c ≤ 'f' then some (c.toNat - 'a'.toNat + 10)
  else if 'A' ≤ c && c ≤ 'F' then some (c.toNat - 'A'.toNat + 10)
  else none

/-- The number that four hexadecimal digits denote. -/
def hexPoint? (a b c d : Char) : Option Nat :=
  match hexValue? a, hexValue? b, hexValue? c, hexValue? d with
  | some a, some b, some c, some d => some (((a * 16 + b) * 16 + c) * 16 + d)
  | _, _, _, _ => none

/-- Whether a code point is the first half of a surrogate pair. -/
def isHighHalf (point : Nat) : Bool :=
  0xD800 ≤ point && point ≤ 0xDBFF

/-- Whether a code point is the second half of a surrogate pair. -/
def isLowHalf (point : Nat) : Bool :=
  0xDC00 ≤ point && point ≤ 0xDFFF

/-- The code point of a surrogate pair. -/
def joinHalves (high low : Nat) : Nat :=
  0x10000 + (high - 0xD800) * 0x400 + (low - 0xDC00)

/-- The character that a one-letter escape stands for. -/
def simpleEscape? (c : Char) : Option Char :=
  match c with
  | '\x22' => some '\x22'
  | '\\' => some '\\'
  | '/' => some '/'
  | 'b' => some '\x08'
  | 'f' => some '\x0c'
  | 'n' => some '\n'
  | 'r' => some '\r'
  | 't' => some '\t'
  | _ => none

/-- What follows a backslash and a `u`: a code point, the number of characters it
takes, and what comes after. -/
inductive PointEscape where
  | point (n : Nat) (width : Nat)
  | bad (ahead : Nat)

/-- Reads the code point of an escape off the characters after the `u`. Four
hexadecimal digits have to follow, and at least one character after them. The
first half of a surrogate pair takes the escape after it along, if that is its
second half. `bad` tells how many characters before the faulty `u` are right. -/
def pointEscape : List Char → PointEscape
  | a :: b :: c :: d :: after@(_ :: _) =>
      match hexPoint? a b c d with
      | none => .bad 0
      | some high =>
          if isHighHalf high then
            match after with
            | '\\' :: 'u' :: e :: f :: g :: h :: _ :: _ =>
                match hexPoint? e f g h with
                | none => .bad 6
                | some low =>
                    if isLowHalf low then .point (joinHalves high low) 10 else .point high 4
            | _ => .point high 4
          else .point high 4
  | _ => .bad 0

/-- Reads the rest of a string. `start` is the position of its opening quote,
`skip` the number of characters that an escape has already accounted for, and
`done` holds the characters of the string so far, last one first. -/
def readString (start : Nat) : (skip : Nat) → List Char → Nat → List Char → Reading String
  | _, [], _, _ => refuse .openString start
  | skip + 1, _ :: rest, position, done => readString start skip rest (position + 1) done
  | 0, c :: rest, position, done =>
      if c = '\x22' then .ok (String.ofList done.reverse, ⟨rest, position + 1⟩)
      else if c = '\\' then
        match rest with
        | [] => refuse .openString start
        | 'u' :: digits =>
            match pointEscape digits with
            | .bad ahead => refuse .badPointEscape (position + 1 + ahead)
            | .point n width =>
                readString start (width + 1) rest (position + 1) (Text.character n :: done)
        | letter :: _ =>
            match simpleEscape? letter with
            | none => refuse .badEscape position
            | some c => readString start 1 rest (position + 1) (c :: done)
      else if c.toNat ≤ 0x1F then refuse .controlCharacter position
      else readString start 0 rest (position + 1) (c :: done)

/-! ### Numbers -/

/-- The digits at the front of a text, and what follows them. -/
def digitSpan (text : List Char) : List Char × List Char :=
  text.span Text.isAsciiDigit

/-- The digits of a fraction: a point and at least one digit. -/
def fraction : List Char → List Char × List Char
  | '.' :: rest =>
      match digitSpan rest with
      | ([], _) => ([], '.' :: rest)
      | (digits, after) => (digits, after)
  | text => ([], text)

/-- An exponent as it is written. -/
structure Exponent where
  power : Int
  /-- The number of characters it takes. -/
  width : Nat
  after : List Char

/-- The exponent at the front of a text: a mark, perhaps a sign, and at least one
digit. -/
def exponent? : List Char → Option Exponent
  | mark :: rest =>
      if mark = 'e' || mark = 'E' then
        let (sign, signWidth, text) :=
          match rest with
          | '-' :: rest => ((-1 : Int), 1, rest)
          | '+' :: rest => (1, 1, rest)
          | rest => (1, 0, rest)
        match digitSpan text with
        | ([], _) => none
        | (digits, after) =>
            some ⟨sign * Int.ofNat (Text.natOfDigits digits), 1 + signWidth + digits.length, after⟩
      else none
  | [] => none

/-- The integer part of a number: a zero, or digits that do not begin with
one. -/
def wholePart? : List Char → Option (List Char × List Char)
  | '0' :: rest => some (['0'], rest)
  | text =>
      match digitSpan text with
      | ([], _) => none
      | (digits, after) => some (digits, after)

/-- Reads a number. -/
def readNumber (here : Cursor) : Reading Json :=
  let (negative, start, text) :=
    match here.rest with
    | '-' :: rest => (true, here.position + 1, rest)
    | rest => (false, here.position, rest)
  match wholePart? text with
  | none => refuse .noValue here.position
  | some (whole, afterWhole) =>
      let (places, afterPlaces) := fraction afterWhole
      match places, exponent? afterPlaces with
      | [], none =>
          let magnitude := Int.ofNat (Text.natOfDigits whole)
          if whole.length ≤ digitLimit then
            .ok (.integer (if negative then -magnitude else magnitude),
              ⟨afterWhole, start + whole.length⟩)
          else .error (.fault (.numeralTooLong whole.length))
      | places, exponent =>
          let exponent := exponent.getD ⟨0, 0, afterPlaces⟩
          let placesWidth := if places.isEmpty then 0 else places.length + 1
          let digits := Text.natOfDigits (whole ++ places)
          .ok (.decimal (Number.ofDecimal negative digits (exponent.power - places.length)),
            ⟨exponent.after, start + whole.length + placesWidth + exponent.width⟩)

/-! ### Data -/

/-- The data that are written by a fixed word, in the order in which they are
tried. -/
def fixedWords : List (List Char × Json) :=
  [("null".toList, .null), ("true".toList, .boolean true), ("false".toList, .boolean false),
    ("NaN".toList, .decimal .undefined), ("Infinity".toList, .decimal (.infinite false)),
    ("-Infinity".toList, .decimal (.infinite true))]

/-- Reads a datum that is neither a string nor nested. -/
def readPlain (here : Cursor) : Reading Json :=
  match fixedWords.find? fun (word, _) => word.isPrefixOf here.rest with
  | some (word, datum) => .ok (datum, ⟨here.rest.drop word.length, here.position + word.length⟩)
  | none => readNumber here

/-- Reads a string whose opening quote has just been passed. -/
def readStringAfter (here : Cursor) : Reading String :=
  readString (here.position - 1) 0 here.rest here.position []

mutual
/-- Reads a datum, with `room` levels of nesting left. -/
def readDatum : (rounds : Nat) → (room : Nat) → Cursor → Reading Json
  | 0, _, here => refuse .noValue here.position
  | rounds + 1, room, here =>
      match here.rest with
      | '\x22' :: rest =>
          (readStringAfter ⟨rest, here.position + 1⟩).map fun (s, here) => (.string s, here)
      | '[' :: rest =>
          if room = 0 then .error (.fault .nestingTooDeep)
          else
            let here := skipGaps rest (here.position + 1)
            match here.rest with
            | ']' :: rest => .ok (.array [], ⟨rest, here.position + 1⟩)
            | _ => readItems rounds (room - 1) here []
      | '\x7b' :: rest =>
          if room = 0 then .error (.fault .nestingTooDeep)
          else
            let here := skipGaps rest (here.position + 1)
            match here.rest with
            | '\x7d' :: rest => .ok (.object [], ⟨rest, here.position + 1⟩)
            | _ => readFields rounds (room - 1) here []
      | _ => readPlain here
/-- Reads the items of an array up to its closing bracket. `done` holds the items
so far, last one first. -/
def readItems : (rounds : Nat) → (room : Nat) → Cursor → List Json → Reading Json
  | 0, _, here, _ => refuse .noValue here.position
  | rounds + 1, room, here, done =>
      match readDatum rounds room here with
      | .error refusal => .error refusal
      | .ok (item, here) =>
          let here := here.skip
          match here.rest with
          | ']' :: rest => .ok (.array (item :: done).reverse, ⟨rest, here.position + 1⟩)
          | ',' :: rest => readItems rounds room (skipGaps rest (here.position + 1)) (item :: done)
          | _ => refuse .noComma here.position
/-- Reads the fields of an object up to its closing bracket. `done` holds the
fields so far. -/
def readFields : (rounds : Nat) → (room : Nat) → Cursor → List (String × Json) → Reading Json
  | 0, _, here, _ => refuse .noFieldName here.position
  | rounds + 1, room, here, done =>
      match here.rest with
      | '\x22' :: rest =>
          match readStringAfter ⟨rest, here.position + 1⟩ with
          | .error refusal => .error refusal
          | .ok (name, here) =>
              let here := here.skip
              match here.rest with
              | ':' :: rest =>
                  match readDatum rounds room (skipGaps rest (here.position + 1)) with
                  | .error refusal => .error refusal
                  | .ok (datum, here) =>
                      let here := here.skip
                      let fields := setField name datum done
                      match here.rest with
                      | '\x7d' :: rest => .ok (.object fields, ⟨rest, here.position + 1⟩)
                      | ',' :: rest =>
                          readFields rounds room (skipGaps rest (here.position + 1)) fields
                      | _ => refuse .noComma here.position
              | _ => refuse .noColon here.position
      | _ => refuse .noFieldName here.position
end

/-- Reads a whole text, with `room` levels of nesting. -/
def read (room : Nat) (text : List Char) : Except Refusal Json :=
  match readDatum (2 * text.length + 2) room (skipGaps text 0) with
  | .error refusal => .error refusal
  | .ok (datum, here) =>
      let here := here.skip
      match here.rest with
      | [] => .ok datum
      | _ :: _ => refuse .extraData here.position

/-! ### Where a text went wrong -/

/-- The line of a position, counted from one. -/
def lineOf (text : List Char) (position : Nat) : Nat :=
  (text.take position).count '\n' + 1

/-- The column of a position, counted from one. -/
def columnOf (text : List Char) (position : Nat) : Nat :=
  ((text.take position).reverse.takeWhile (· != '\n')).length + 1

/-- The wording of a complaint about a text. -/
def complaintText (text : List Char) (complaint : Complaint) (position : Nat) : String :=
  complaint.message ++ ": line " ++ toString (lineOf text position) ++ " column "
    ++ toString (columnOf text position) ++ " (char " ++ toString position ++ ")"

end Json

end Catena
