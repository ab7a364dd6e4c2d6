/-!
# Text from bytes

A request may arrive as bytes in one of five encodings: UTF-8, and UTF-16 or
UTF-32 in either byte order. A byte order mark names the encoding; without one
it is recognised by the zero bytes among the first four.

Decoding stops at the first bytes that are no character and says which they are
and why. The halves of a surrogate pair are accepted alone; they are no
characters, and the replacement character stands for them.
-/

set_option autoImplicit false

namespace Catena.Text

/-- Why bytes cannot be decoded. -/
structure DecodeFault where
  encoding : String
  /-- The bytes that are no character. -/
  bytes : List UInt8
  /-- The position of the first of them. -/
  position : Nat
  reason : String
  deriving DecidableEq, Repr

/-- A byte as two hexadecimal digits. -/
def byteDigits (b : UInt8) : String :=
  let digits := Nat.toDigits 16 b.toNat
  String.ofList (List.replicate (2 - digits.length) '0' ++ digits)

/-- The wording of a decoding fault. -/
def DecodeFault.message (f : DecodeFault) : String :=
  let what :=
    match f.bytes with
    | [b] => "byte 0x" ++ byteDigits b ++ " in position " ++ toString f.position
    | bytes =>
        "bytes in position " ++ toString f.position ++ "-"
          ++ toString (f.position + bytes.length - 1)
  "'" ++ f.encoding ++ "' codec can't decode " ++ what ++ ": " ++ f.reason

/-- What stands at the front of a byte sequence: a code point with the number of
bytes it takes, or a number of bytes that are no character and the reason. -/
inductive Front where
  | point (n : Nat) (width : Nat)
  | bad (width : Nat) (reason : String)

/-! ## UTF-8 -/

/-- Whether a byte continues a character. -/
def isContinuation (b : UInt8) : Bool :=
  0x80 ≤ b && b ≤ 0xBF

/-- Whether a byte may come second in a character of three or four bytes. After
some first bytes the range is narrower, since the shorter forms have the rest. -/
def isSecond (first b : UInt8) : Bool :=
  if first = 0xE0 then 0xA0 ≤ b && b ≤ 0xBF
  else if first = 0xF0 then 0x90 ≤ b && b ≤ 0xBF
  else if first = 0xF4 then 0x80 ≤ b && b ≤ 0x8F
  else isContinuation b

/-- The six bits that a continuation byte carries. -/
def payload (b : UInt8) : Nat :=
  b.toNat % 0x40

/-- The character at the front of a UTF-8 sequence. -/
def frontUtf8 : List UInt8 → Front
  | [] => .bad 0 "unexpected end of data"
  | a :: rest =>
      if a < 0x80 then .point a.toNat 1
      else if a < 0xC2 || 0xF5 ≤ a then .bad 1 "invalid start byte"
      else if a < 0xE0 then
        match rest with
        | [] => .bad 1 "unexpected end of data"
        | b :: _ =>
            if isContinuation b then .point (a.toNat % 0x20 * 0x40 + payload b) 2
            else .bad 1 "invalid continuation byte"
      else
        match rest with
        | [] => .bad 1 "unexpected end of data"
        | [b] =>
            if isSecond a b && !(a = 0xED && 0xA0 ≤ b) then .bad 2 "unexpected end of data"
            else .bad 1 "invalid continuation byte"
        | b :: c :: rest =>
            if !isSecond a b then .bad 1 "invalid continuation byte"
            else if !isContinuation c then
              .bad (if a = 0xED && 0xA0 ≤ b then 1 else 2) "invalid continuation byte"
            else if a < 0xF0 then
              .point ((a.toNat % 0x10 * 0x40 + payload b) * 0x40 + payload c) 3
            else
              match rest with
              | [] => .bad 3 "unexpected end of data"
              | d :: _ =>
                  if isContinuation d then
                    .point
                      (((a.toNat % 0x08 * 0x40 + payload b) * 0x40 + payload c) * 0x40
                        + payload d) 4
                  else .bad 3 "invalid continuation byte"

/-! ## UTF-16 and UTF-32 -/

/-- Two bytes as a number, in either byte order. -/
def unit16 (big : Bool) (a b : UInt8) : Nat :=
  if big then a.toNat * 0x100 + b.toNat else b.toNat * 0x100 + a.toNat

/-- The character at the front of a UTF-16 sequence. -/
def frontUtf16 (big : Bool) : List UInt8 → Front
  | a :: b :: rest =>
      let unit := unit16 big a b
      if 0xD800 ≤ unit && unit ≤ 0xDBFF then
        match rest with
        | c :: d :: _ =>
            let next := unit16 big c d
            if 0xDC00 ≤ next && next ≤ 0xDFFF then
              .point (0x10000 + (unit - 0xD800) * 0x400 + (next - 0xDC00)) 4
            else .point unit 2
        | _ => .point unit 2
      else .point unit 2
  | rest => .bad rest.length "truncated data"

/-- The character at the front of a UTF-32 sequence. -/
def frontUtf32 (big : Bool) : List UInt8 → Front
  | a :: b :: c :: d :: _ =>
      let n :=
        if big then unit16 big a b * 0x10000 + unit16 big c d
        else unit16 big c d * 0x10000 + unit16 big a b
      if n < 0x110000 then .point n 4 else .bad 4 "code point not in range(0x110000)"
  | rest => .bad rest.length "truncated data"

/-! ## Decoding -/

/-- The character of a code point; the replacement character for half of a
surrogate pair. -/
def character (point : Nat) : Char :=
  if 0xD800 ≤ point && point ≤ 0xDFFF then Char.ofNat 0xFFFD else Char.ofNat point

/-- An encoding of text. -/
inductive Encoding where
  | utf8
  | utf16 (big : Bool)
  | utf32 (big : Bool)
  deriving DecidableEq, Repr

namespace Encoding

/-- The name of an encoding. -/
def title : Encoding → String
  | .utf8 => "utf-8"
  | .utf16 big => if big then "utf-16-be" else "utf-16-le"
  | .utf32 big => if big then "utf-32-be" else "utf-32-le"

/-- What stands at the front of a byte sequence in an encoding. -/
def front : Encoding → List UInt8 → Front
  | .utf8 => frontUtf8
  | .utf16 big => frontUtf16 big
  | .utf32 big => frontUtf32 big

/-- Decodes bytes. `skip` is the number of bytes that the last character has
already accounted for, and `done` holds the characters so far, last one first. -/
def decodeFrom (e : Encoding) :
    (skip : Nat) → List UInt8 → Nat → List Char → Except DecodeFault (List Char)
  | _, [], _, done => .ok done.reverse
  | skip + 1, _ :: bytes, position, done => decodeFrom e skip bytes (position + 1) done
  | 0, b :: bytes, position, done =>
      match e.front (b :: bytes) with
      | .point n width => decodeFrom e (width - 1) bytes (position + 1) (character n :: done)
      | .bad width reason => .error ⟨e.title, (b :: bytes).take width, position, reason⟩

end Encoding

/-- The encoding of a byte sequence without a byte order mark. -/
def unmarked : List UInt8 → Encoding
  | a :: b :: c :: d :: _ =>
      if a = 0 then if b = 0 then .utf32 true else .utf16 true
      else if b = 0 then if c = 0 && d = 0 then .utf32 false else .utf16 false
      else .utf8
  | [a, b] => if a = 0 then .utf16 true else if b = 0 then .utf16 false else .utf8
  | _ => .utf8

/-- The encoding of a byte sequence, the bytes after its byte order mark, and the
position at which they are counted to begin. -/
def detect : List UInt8 → Encoding × List UInt8 × Nat
  | 0x00 :: 0x00 :: 0xFE :: 0xFF :: rest => (.utf32 true, rest, 4)
  | 0xFF :: 0xFE :: 0x00 :: 0x00 :: rest => (.utf32 false, rest, 4)
  | 0xFE :: 0xFF :: rest => (.utf16 true, rest, 2)
  | 0xFF :: 0xFE :: rest => (.utf16 false, rest, 2)
  | 0xEF :: 0xBB :: 0xBF :: rest => (.utf8, rest, 0)
  | bytes => (unmarked bytes, bytes, 0)

/-- The characters of a byte sequence in the encoding it is found to have. -/
def decode (bytes : List UInt8) : Except DecodeFault (List Char) :=
  let (encoding, rest, position) := detect bytes
  encoding.decodeFrom 0 rest position []

end Catena.Text
