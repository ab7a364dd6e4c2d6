/-!
# Texts

How a text is cut into words and lines, and which of its characters are digits.

* Program text has no quoting, no escapes and no comments: it is a run of words
  set apart by blanks. No word is empty, and a text of blanks only has no words.
* A line ends with a line feed. Text after the last line feed is a line as well,
  unless it is empty.
* Unicode gives each script that writes decimal numbers a run of ten consecutive
  code points, from its zero to its nine.
-/

set_option autoImplicit false

namespace Catena.Text

/-! ## Blanks

A character is blank when its code point lies in one of the ranges of
`blankRanges`: the ASCII controls from tab to carriage return, the four
information separators, the space, and every space, line and paragraph
separator of Unicode. -/

/-- The code points that separate words, as closed ranges in ascending order. -/
def blankRanges : List (Nat × Nat) :=
  [(0x0009, 0x000D), (0x001C, 0x0020), (0x0085, 0x0085), (0x00A0, 0x00A0),
    (0x1680, 0x1680), (0x2000, 0x200A), (0x2028, 0x2029), (0x202F, 0x202F),
    (0x205F, 0x205F), (0x3000, 0x3000)]

/-- Whether a code point lies in one of the closed ranges. -/
def inRanges (ranges : List (Nat × Nat)) (point : Nat) : Bool :=
  ranges.any fun range => range.1 ≤ point && point ≤ range.2

/-- Whether a character separates words. -/
def isBlank (c : Char) : Bool :=
  inRanges blankRanges c.toNat

/-! ## Words -/

/-- Ends the word under way. Its characters stand in `word`, last one first; an
empty `word` means that no word is under way. -/
def closeWord (word : List Char) (words : List String) : List String :=
  match word with
  | [] => words
  | _ :: _ => String.ofList word.reverse :: words

/-- Cuts the rest of a text into words. `word` is the word under way and `words`
the words already closed, both last one first. -/
def wordsFrom : List Char → List Char → List String → List String
  | [], word, words => (closeWord word words).reverse
  | c :: text, word, words =>
      if isBlank c then wordsFrom text [] (closeWord word words)
      else wordsFrom text (c :: word) words

/-- The words of a text, in order. -/
def words (text : String) : List String :=
  wordsFrom text.toList [] []

/-- The characters of a text without the blanks at its two ends. -/
def strip (text : String) : List Char :=
  ((text.toList.dropWhile isBlank).reverse.dropWhile isBlank).reverse

/-! ## Lines

A text file may end its lines in two further ways, by a carriage return alone or
by a carriage return and a line feed; `unifyLines` turns both into a line feed. -/

/-- Cuts the rest of a text into lines, without their line feeds. `line` is the
line under way and `lines` the lines already closed, both last one first. -/
def linesFrom : List Char → List Char → List String → List String
  | [], [], lines => lines.reverse
  | [], c :: line, lines => (String.ofList (c :: line).reverse :: lines).reverse
  | c :: text, line, lines =>
      if c = '\n' then linesFrom text [] (String.ofList line.reverse :: lines)
      else linesFrom text (c :: line) lines

/-- The lines of a text, without their line feeds. -/
def lines (text : String) : List String :=
  linesFrom text.toList [] []

/-- Ends every line by a line feed. `done` holds the characters already settled,
last one first. -/
def unifyFrom : List Char → List Char → List Char
  | [], done => done.reverse
  | '\r' :: '\n' :: text, done => unifyFrom text ('\n' :: done)
  | '\r' :: text, done => unifyFrom text ('\n' :: done)
  | c :: text, done => unifyFrom text (c :: done)

/-- A text with every line end turned into a line feed. -/
def unifyLines (text : String) : String :=
  String.ofList (unifyFrom text.toList [])

/-! ## Decimal digits

The table lists the zeros, so the value of a digit is its distance from the zero
of its run. -/

/-- The code points of the zeros, one for each run of ten decimal digits, in
ascending order. -/
def digitZeros : List Nat :=
  [0x0030, 0x0660, 0x06F0, 0x07C0, 0x0966, 0x09E6, 0x0A66, 0x0AE6,
    0x0B66, 0x0BE6, 0x0C66, 0x0CE6, 0x0D66, 0x0DE6, 0x0E50, 0x0ED0,
    0x0F20, 0x1040, 0x1090, 0x17E0, 0x1810, 0x1946, 0x19D0, 0x1A80,
    0x1A90, 0x1B50, 0x1BB0, 0x1C40, 0x1C50, 0xA620, 0xA8D0, 0xA900,
    0xA9D0, 0xA9F0, 0xAA50, 0xABF0, 0xFF10, 0x104A0, 0x10D30, 0x11066,
    0x110F0, 0x11136, 0x111D0, 0x112F0, 0x11450, 0x114D0, 0x11650, 0x116C0,
    0x11730, 0x118E0, 0x11950, 0x11C50, 0x11D50, 0x11DA0, 0x16A60, 0x16AC0,
    0x16B50, 0x1D7CE, 0x1D7D8, 0x1D7E2, 0x1D7EC, 0x1D7F6, 0x1E140, 0x1E2F0,
    0x1E950, 0x1FBF0]

/-- The value of a decimal digit of any script; `none` for other characters. -/
def digitValue? (c : Char) : Option Nat :=
  (digitZeros.find? fun first => first ≤ c.toNat && c.toNat < first + 10).map (c.toNat - ·)

/-- Whether a character is one of the ten ASCII digits. -/
def isAsciiDigit (c : Char) : Bool :=
  '0' ≤ c && c ≤ '9'

/-- The number that a run of ASCII digits denotes in base ten. -/
def natOfDigits (digits : List Char) : Nat :=
  digits.foldl (fun n c => 10 * n + (c.toNat - '0'.toNat)) 0

end Catena.Text
