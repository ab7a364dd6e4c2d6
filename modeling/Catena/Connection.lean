import Catena.Request

/-!
# Connections

Each connection has a session of its own. Bytes arrive in chunks that need not
end where lines end, so the bytes after the last line feed wait for the next
chunk. Every complete line that is not blank is answered in order; bytes that no
line feed follows are never answered. A fault ends the connection with the
responses of the earlier lines sent.
-/

set_option autoImplicit false

namespace Catena

/-- The state of a connection. -/
structure Connection where
  session : Session
  /-- The bytes after the last line feed. -/
  pending : List UInt8
  /-- The response lines sent so far, without their line feeds. -/
  sent : List String
  log : List Record
  /-- What ended the connection early, if anything did. -/
  fault : Option Fault

namespace Connection

/-- The byte that ends a line. -/
def lineFeed : UInt8 := 0x0A

/-- Whether a byte is blank at the ends of a line. -/
def isBlankByte (b : UInt8) : Bool :=
  b = 0x20 || (0x09 ≤ b && b ≤ 0x0D)

/-- A line without the blanks at its two ends. -/
def trim (line : List UInt8) : List UInt8 :=
  ((line.dropWhile isBlankByte).reverse.dropWhile isBlankByte).reverse

/-- Cuts bytes into complete lines, without their line feeds, and the bytes after
the last one. `line` is the line under way and `lines` the lines already closed,
both last one first. -/
def cutFrom : List UInt8 → List UInt8 → List (List UInt8) → List (List UInt8) × List UInt8
  | [], line, lines => (lines.reverse, line.reverse)
  | b :: bytes, line, lines =>
      if b = lineFeed then cutFrom bytes [] (line.reverse :: lines)
      else cutFrom bytes (b :: line) lines

/-- The complete lines of a byte sequence and the bytes after them. -/
def cut (bytes : List UInt8) : List (List UInt8) × List UInt8 :=
  cutFrom bytes [] []

/-- A connection that has just been opened from an address. -/
def opened (bounds : Bounds) (host : String) (port : Int) : Connection :=
  ⟨Session.fresh, [], [], bounds.keep [Record.connected host port], none⟩

/-- Answers one complete line. -/
def answerLine (reader : Request.Reader) (bounds : Bounds) (c : Connection) (line : List UInt8) :
    Option Connection :=
  match c.fault, trim line with
  | some _, _ => some c
  | none, [] => some c
  | none, trimmed =>
      (Request.answer reader bounds c.session (.bytes trimmed)).map fun answer =>
        let log := c.log ++ answer.log
        match answer.response with
        | .ok response =>
            { c with session := answer.session, sent := c.sent ++ [response.line], log := log }
        | .error fault => { c with session := answer.session, log := log, fault := some fault }

/-- Takes in a chunk of bytes. -/
def receive (reader : Request.Reader) (bounds : Bounds) (c : Connection) (chunk : List UInt8) :
    Option Connection :=
  let (lines, rest) := cut (c.pending ++ chunk)
  lines.foldlM (answerLine reader bounds) { c with pending := rest }

/-- Serves a connection over the chunks that arrive on it. -/
def serve (reader : Request.Reader) (bounds : Bounds) (host : String) (port : Int)
    (chunks : List (List UInt8)) : Option Connection :=
  chunks.foldlM (receive reader bounds) (opened bounds host port)

/-- All that a connection has sent: each response and a line feed. -/
def output (c : Connection) : String :=
  String.join (c.sent.map (· ++ "\n"))

end Connection

end Catena
