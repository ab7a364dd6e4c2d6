import Catena.Connection
import Catena.Proofs.Request
import Mathlib.Data.List.Induction

/-!
# What a connection sends

A stream of bytes has complete lines, which line feeds end, and bytes after the last line feed
(`Framed`). There is one way to see it so (`framed_iff_cut`), and it does not depend on the chunks
in which the stream arrives: the bytes that wait at the end of a chunk are the beginning of the
line that the next chunks complete (`Framed.append`).

A connection therefore answers the lines of the whole stream as one series of requests
(`serve_eq`), and at each line it has sent the responses to the requests before it
(`comesTo_iff`). Responses are lines themselves, so what the connection sends is framed again, one
line to a response (`framed_output`).
-/

set_option autoImplicit false

namespace Catena.Connection

/-! ## Lines -/

/-- A stream consists of complete lines, with a line feed after each, and of the bytes after the
last of them. -/
structure Framed (stream : List UInt8) (lines : List (List UInt8)) (rest : List UInt8) : Prop where
  eq : stream = lines.flatMap (· ++ [lineFeed]) ++ rest
  lines_free : ∀ line ∈ lines, lineFeed ∉ line
  rest_free : lineFeed ∉ rest

section Lines

variable {stream more rest rest' : List UInt8} {lines lines' : List (List UInt8)}

/-- The bytes after the last line feed go on in what follows the stream. -/
theorem Framed.append (h : Framed stream lines rest) (h' : Framed (rest ++ more) lines' rest') :
    Framed (stream ++ more) (lines ++ lines') rest' := by
  refine ⟨?_, ?_, h'.rest_free⟩
  · rw [h.eq, List.append_assoc, h'.eq, List.flatMap_append, List.append_assoc]
  · intro line hline
    rcases List.mem_append.1 hline with hline | hline
    · exact h.lines_free line hline
    · exact h'.lines_free line hline

/-- Bytes other than the line feed go to the line under way. -/
theorem cutFrom_append {bytes : List UInt8} (h : lineFeed ∉ bytes) (more line : List UInt8)
    (closed : List (List UInt8)) :
    cutFrom (bytes ++ more) line closed = cutFrom more (bytes.reverse ++ line) closed := by
  induction bytes generalizing line with
  | nil => rfl
  | cons b bytes ih =>
      have hb : b ≠ lineFeed := fun heq => h (heq ▸ List.mem_cons_self)
      have hbytes : lineFeed ∉ bytes := fun hmem => h (List.mem_cons_of_mem b hmem)
      rw [List.cons_append, cutFrom, if_neg hb, ih hbytes, List.reverse_cons, List.append_assoc,
        List.singleton_append]

/-- Complete lines are closed one after another. -/
theorem cutFrom_flatMap (hlines : ∀ line ∈ lines, lineFeed ∉ line) (hrest : lineFeed ∉ rest)
    (closed : List (List UInt8)) :
    cutFrom (lines.flatMap (· ++ [lineFeed]) ++ rest) [] closed =
      (closed.reverse ++ lines, rest) := by
  induction lines generalizing closed with
  | nil =>
      have hcut := cutFrom_append hrest [] [] closed
      rw [List.append_nil, List.append_nil] at hcut
      rw [List.flatMap_nil, List.nil_append, hcut, cutFrom, List.reverse_reverse, List.append_nil]
  | cons line lines ih =>
      have hline : lineFeed ∉ line := hlines line List.mem_cons_self
      have hothers : ∀ l ∈ lines, lineFeed ∉ l := fun l hl => hlines l (List.mem_cons_of_mem _ hl)
      rw [List.flatMap_cons, List.append_assoc, List.append_assoc, cutFrom_append hline,
        List.singleton_append, cutFrom, if_pos rfl, ih hothers, List.append_nil,
        List.reverse_reverse, List.reverse_cons, List.append_assoc, List.singleton_append]

/-- What is cut, after the lines closed and the line under way, frames the stream. -/
theorem framed_cutFrom (bytes line : List UInt8) (closed : List (List UInt8))
    (hclosed : ∀ l ∈ closed, lineFeed ∉ l) (hline : lineFeed ∉ line) :
    Framed (closed.reverse.flatMap (· ++ [lineFeed]) ++ line.reverse ++ bytes)
      (cutFrom bytes line closed).1 (cutFrom bytes line closed).2 := by
  induction bytes generalizing line closed with
  | nil =>
      -- the line under way is what comes after the last line feed
      rw [List.append_nil]
      exact ⟨rfl, by simpa [cutFrom] using hclosed, by simpa [cutFrom] using hline⟩
  | cons b bytes ih =>
      rw [cutFrom]
      split
      · rename_i hb
        subst hb
        have hmore : ∀ l ∈ line.reverse :: closed, lineFeed ∉ l := by
          simpa [hline] using hclosed
        simpa using ih [] (line.reverse :: closed) hmore (by simp)
      · rename_i hb
        have hmore : lineFeed ∉ b :: line := by
          simpa [hline] using Ne.symm hb
        simpa using ih (b :: line) closed hclosed hmore

/-- A stream is framed in one way, and cutting finds it. -/
theorem framed_iff_cut : Framed stream lines rest ↔ cut stream = (lines, rest) := by
  constructor
  · rintro ⟨rfl, hlines, hrest⟩
    exact cutFrom_flatMap hlines hrest []
  · intro h
    have hframed := framed_cutFrom stream [] [] (by simp) (by simp)
    rw [← cut, h] at hframed
    exact hframed

theorem exists_framed (stream : List UInt8) : ∃ lines rest, Framed stream lines rest :=
  ⟨_, _, framed_iff_cut.2 rfl⟩

theorem Framed.unique (h : Framed stream lines rest) (h' : Framed stream lines' rest') :
    lines = lines' ∧ rest = rest' := by
  rw [framed_iff_cut] at h h'
  rw [h] at h'
  exact Prod.mk.inj h'

end Lines

/-! ## Answering lines -/

/-- The requests among complete lines: what is left of each without the blanks at its ends,
unless nothing is. -/
def requests (lines : List (List UInt8)) : List Request.Line :=
  ((lines.map trim).filter (· ≠ [])).map .bytes

/-- A connection after a series of requests. -/
def after (c : Connection) (x : Request.Exchange) : Connection :=
  { c with
    session := x.session
    sent := c.sent ++ x.responses.map Response.line
    log := c.log ++ x.log
    fault := x.fault }

/-- A connection with other bytes waiting. -/
def withPending (c : Connection) (bytes : List UInt8) : Connection :=
  { c with pending := bytes }

section Answers

variable {reader : Request.Reader} {bounds : Bounds} {c : Connection} {lines : List (List UInt8)}

theorem requests_cons_of_blank {line : List UInt8} (h : trim line = []) :
    requests (line :: lines) = requests lines := by
  simp [requests, h]

theorem requests_cons {line : List UInt8} (h : trim line ≠ []) :
    requests (line :: lines) = .bytes (trim line) :: requests lines := by
  simp [requests, h]

theorem answerLine_of_fault {fault : Fault} (h : c.fault = some fault) (line : List UInt8) :
    answerLine reader bounds c line = some c := by
  simp only [answerLine, h]

theorem answerLine_of_blank {line : List UInt8} (hfault : c.fault = none) (h : trim line = []) :
    answerLine reader bounds c line = some c := by
  simp only [answerLine, hfault, h]

theorem answerLine_of_request {line : List UInt8} (hfault : c.fault = none)
    (h : trim line ≠ []) :
    answerLine reader bounds c line =
      (Request.answer reader bounds c.session (.bytes (trim line))).map fun a =>
        match a.response with
        | .ok response => c.after ⟨a.session, [response], a.log, none⟩
        | .error fault => c.after ⟨a.session, [], a.log, some fault⟩ := by
  obtain ⟨session, pending, sent, log, fault⟩ := c
  obtain rfl : fault = none := hfault
  cases htrim : trim line with
  | nil => exact absurd htrim h
  | cons b bytes =>
      simp only [answerLine, htrim]
      refine Option.map_congr fun a _ => ?_
      cases a.response with
      | ok response => rfl
      | error fault => simp only [after, List.map_nil, List.append_nil]

/-- Once it has met a fault, a connection answers nothing. -/
theorem foldlM_answerLine_of_fault {fault : Fault} (h : c.fault = some fault) :
    lines.foldlM (answerLine reader bounds) c = some c := by
  induction lines with
  | nil => rfl
  | cons line lines ih =>
      rw [List.foldlM_cons, answerLine_of_fault h]
      exact ih

/-- Answering lines is answering the requests among them in a row. -/
theorem foldlM_answerLine (hfault : c.fault = none) :
    lines.foldlM (answerLine reader bounds) c =
      (Request.answerEach reader bounds c.session (requests lines)).map c.after := by
  induction lines generalizing c with
  | nil =>
      obtain ⟨session, pending, sent, log, fault⟩ := c
      obtain rfl : fault = none := hfault
      simp [requests, Request.answerEach, after]
  | cons line lines ih =>
      rw [List.foldlM_cons]
      by_cases htrim : trim line = []
      · rw [answerLine_of_blank hfault htrim, requests_cons_of_blank htrim]
        exact ih hfault
      · rw [answerLine_of_request hfault htrim, requests_cons htrim]
        -- the first request has no answer, ends the series with a fault, or has a response
        cases hanswer : Request.answer reader bounds c.session (.bytes (trim line)) with
        | none =>
            rw [Request.answerEach_cons_of_none hanswer]
            rfl
        | some a =>
            cases hresponse : a.response with
            | error fault =>
                rw [Request.answerEach_cons_of_error hanswer hresponse]
                simp only [Option.map_some, hresponse]
                exact foldlM_answerLine_of_fault rfl
            | ok response =>
                rw [Request.answerEach_cons_of_ok hanswer hresponse, Option.map_map]
                simp only [Option.map_some, hresponse]
                refine (ih rfl).trans (Option.map_congr fun x _ => ?_)
                simp [after]

/-- The bytes that wait have no part in answering lines. -/
theorem foldlM_answerLine_withPending (bytes : List UInt8) :
    lines.foldlM (answerLine reader bounds) (c.withPending bytes) =
      (lines.foldlM (answerLine reader bounds) c).map (·.withPending bytes) := by
  have hsame : (c.withPending bytes).fault = c.fault := rfl
  cases hfault : c.fault with
  | some fault =>
      rw [foldlM_answerLine_of_fault (hsame.trans hfault), foldlM_answerLine_of_fault hfault]
      rfl
  | none =>
      rw [foldlM_answerLine (hsame.trans hfault), foldlM_answerLine hfault, Option.map_map]
      rfl

end Answers

/-! ## Serving a stream -/

section Streams

variable {reader : Request.Reader} {bounds : Bounds} {c : Connection} {chunks : List (List UInt8)}
  {lines : List (List UInt8)} {rest : List UInt8}

theorem receive_of_framed {chunk : List UInt8} (h : Framed (c.pending ++ chunk) lines rest) :
    receive reader bounds c chunk =
      (lines.foldlM (answerLine reader bounds) c).map (·.withPending rest) := by
  rw [receive, framed_iff_cut.1 h]
  exact foldlM_answerLine_withPending rest

/-- Taking in chunks is answering the lines of the bytes that wait and of the chunks together. -/
theorem foldlM_receive (hpending : lineFeed ∉ c.pending)
    (h : Framed (c.pending ++ chunks.flatten) lines rest) :
    chunks.foldlM (receive reader bounds) c =
      (lines.foldlM (answerLine reader bounds) c).map (·.withPending rest) := by
  induction chunks generalizing c lines with
  | nil =>
      rw [List.flatten_nil, List.append_nil] at h
      have hwaiting : Framed c.pending [] c.pending := ⟨rfl, by simp, hpending⟩
      obtain ⟨rfl, rfl⟩ := h.unique hwaiting
      rfl
  | cons chunk chunks ih =>
      -- the lines that the first chunk completes, and those that the others do
      obtain ⟨first, waiting, hfirst⟩ := exists_framed (c.pending ++ chunk)
      obtain ⟨others, last, hothers⟩ := exists_framed (waiting ++ chunks.flatten)
      have hall := hfirst.append hothers
      rw [List.append_assoc, ← List.flatten_cons] at hall
      obtain ⟨rfl, rfl⟩ := h.unique hall
      rw [List.foldlM_cons, receive_of_framed hfirst, List.foldlM_append]
      cases first.foldlM (answerLine reader bounds) c with
      | none => rfl
      | some d =>
          have hd := ih (c := d.withPending waiting) hfirst.rest_free hothers
          rw [foldlM_answerLine_withPending, Option.map_map] at hd
          exact hd

/-- A connection answers the lines of the whole stream, however it is cut into chunks. -/
theorem serve_eq (h : Framed chunks.flatten lines rest) (host : String) (port : Int) :
    serve reader bounds host port chunks =
      (lines.foldlM (answerLine reader bounds) (opened bounds host port)).map
        (·.withPending rest) :=
  foldlM_receive (by simp [opened]) h

/-- What a connection has sent is framed into its responses. -/
theorem framed_output {responses : List Response} (h : c.sent = responses.map Response.line) :
    Framed (Text.bytes c.output) (responses.map fun r => Text.bytes r.line) [] := by
  refine ⟨?_, ?_, by simp⟩
  · rw [output, h, Text.bytes_join, List.append_nil]
    simp only [List.flatMap_map, Text.bytes_append]
    rfl
  · intro line hline
    obtain ⟨r, -, rfl⟩ := List.mem_map.1 hline
    exact r.lineFeed_not_mem_bytes

/-- A connection comes to a line: it has answered the lines before it and met no fault, and it
is about to answer this one. -/
def ComesTo (reader : Request.Reader) (bounds : Bounds) (host : String) (port : Int)
    (chunks : List (List UInt8)) (line : List UInt8) (c : Connection) : Prop :=
  ∃ earlier chunk later start before after,
    chunks = earlier ++ chunk :: later ∧
    serve reader bounds host port earlier = some start ∧
    cut (start.pending ++ chunk) = (before ++ line :: after, c.pending) ∧
    before.foldlM (answerLine reader bounds) (start.withPending c.pending) = some c ∧
    c.fault = none

variable {host : String} {port : Int} {line : List UInt8}

/-- What arrives later does not matter. -/
theorem ComesTo.extend (h : ComesTo reader bounds host port chunks line c) (chunk : List UInt8) :
    ComesTo reader bounds host port (chunks ++ [chunk]) line c := by
  obtain ⟨earlier, chunk', later, start, before, after, rfl, hrest⟩ := h
  refine ⟨earlier, chunk', later ++ [chunk], start, before, after, ?_, hrest⟩
  rw [List.append_assoc, List.cons_append]

/-- When a connection comes to a line, it has answered the lines of the stream before it. -/
theorem ComesTo.exists_before (hcomes : ComesTo reader bounds host port chunks line c)
    (h : Framed chunks.flatten lines rest) :
    ∃ before after d, lines = before ++ line :: after ∧
      before.foldlM (answerLine reader bounds) (opened bounds host port) = some d ∧
      d.withPending c.pending = c := by
  obtain ⟨earlier, chunk, later, start, before, after, rfl, hstart, hcut, hbefore, -⟩ := hcomes
  -- the stream in three parts: the earlier chunks, the one that completes the line, and the rest
  obtain ⟨lines₀, rest₀, hframed₀⟩ := exists_framed earlier.flatten
  rw [serve_eq hframed₀, Option.map_eq_some_iff] at hstart
  obtain ⟨d, hd, rfl⟩ := hstart
  have hframed₁ : Framed (rest₀ ++ chunk) (before ++ line :: after) c.pending :=
    framed_iff_cut.2 hcut
  obtain ⟨lines₂, rest₂, hframed₂⟩ := exists_framed (c.pending ++ later.flatten)
  have hall := (hframed₀.append hframed₁).append hframed₂
  rw [List.append_assoc, ← List.flatten_cons, ← List.flatten_append] at hall
  obtain ⟨rfl, rfl⟩ := h.unique hall
  rw [foldlM_answerLine_withPending, foldlM_answerLine_withPending, Option.map_map,
    Option.map_eq_some_iff] at hbefore
  obtain ⟨e, he, hc⟩ := hbefore
  refine ⟨lines₀ ++ before, after ++ lines₂, e, by simp, ?_, hc⟩
  rw [List.foldlM_append, hd]
  exact he

/-- A connection comes to the lines that a last chunk completes. -/
theorem comesTo_concat {chunk rest' : List UInt8} {before after : List (List UInt8)}
    {d : Connection} (h : Framed chunks.flatten lines rest)
    (h' : Framed (rest ++ chunk) (before ++ line :: after) rest')
    (hbefore :
      (lines ++ before).foldlM (answerLine reader bounds) (opened bounds host port) = some d)
    (hfault : d.fault = none) :
    ComesTo reader bounds host port (chunks ++ [chunk]) line (d.withPending rest') := by
  rw [List.foldlM_append] at hbefore
  obtain ⟨start, hstart, hbefore⟩ := Option.bind_eq_some_iff.1 hbefore
  refine ⟨chunks, chunk, [], start.withPending rest, before, after, rfl, ?_,
    framed_iff_cut.1 h', ?_, hfault⟩
  · rw [serve_eq h, hstart, Option.map_some]
  · rw [foldlM_answerLine_withPending, foldlM_answerLine_withPending, hbefore]
    rfl

/-- A connection that can answer the lines before a certain one comes to it. -/
theorem comesTo_of_before {before after : List (List UInt8)} {d : Connection}
    (h : Framed chunks.flatten (before ++ line :: after) rest)
    (hbefore : before.foldlM (answerLine reader bounds) (opened bounds host port) = some d)
    (hfault : d.fault = none) :
    ∃ bytes, ComesTo reader bounds host port chunks line (d.withPending bytes) := by
  induction chunks using List.reverseRecOn generalizing rest after with
  | nil =>
      have hnone : Framed [] [] [] := ⟨rfl, by simp, by simp⟩
      exact absurd (h.unique hnone).1 (by simp)
  | append_singleton chunks chunk ih =>
      obtain ⟨lines₀, rest₀, hframed₀⟩ := exists_framed chunks.flatten
      obtain ⟨lines₁, rest₁, hframed₁⟩ := exists_framed (rest₀ ++ chunk)
      have hall := hframed₀.append hframed₁
      rw [List.flatten_append, List.flatten_singleton] at h
      obtain ⟨hlines, -⟩ := h.unique hall
      -- the line is complete before the last chunk, or it is the last chunk that completes it
      rcases List.append_eq_append_iff.1 hlines with ⟨more, rfl, hmore⟩ | ⟨more, rfl, rfl⟩
      · cases more with
        | nil =>
            obtain rfl : [] ++ line :: after = lines₁ := hmore
            refine ⟨rest₁, comesTo_concat hframed₀ hframed₁ ?_ hfault⟩
            simpa using hbefore
        | cons first more =>
            obtain ⟨rfl, -⟩ := List.cons.inj hmore
            obtain ⟨bytes, hcomes⟩ := ih hframed₀
            exact ⟨bytes, hcomes.extend chunk⟩
      · exact ⟨rest₁, comesTo_concat hframed₀ hframed₁ hbefore hfault⟩

/-- A connection comes to a line of the stream in one session, having sent certain responses, when
the requests before the line lead there. This does not depend on the chunks. -/
theorem comesTo_iff (h : Framed chunks.flatten lines rest) {s : Session} {sent : List String} :
    (∃ c, ComesTo reader bounds host port chunks line c ∧ c.session = s ∧ c.sent = sent) ↔
      ∃ before after x, lines = before ++ line :: after ∧
        Request.answerEach reader bounds Session.fresh (requests before) = some x ∧ x.fault = none ∧
        x.session = s ∧ x.responses.map Response.line = sent := by
  have hseries : ∀ before, before.foldlM (answerLine reader bounds) (opened bounds host port) =
      (Request.answerEach reader bounds Session.fresh (requests before)).map
        (opened bounds host port).after := by
    intro before
    exact foldlM_answerLine rfl
  constructor
  · rintro ⟨c, hcomes, rfl, rfl⟩
    obtain ⟨before, after, d, rfl, hbefore, hc⟩ := hcomes.exists_before h
    rw [hseries, Option.map_eq_some_iff] at hbefore
    obtain ⟨x, hx, rfl⟩ := hbefore
    have hfault : c.fault = none := by
      obtain ⟨_, _, _, _, _, _, -, -, -, -, hfault⟩ := hcomes
      exact hfault
    rw [← hc] at hfault ⊢
    exact ⟨before, after, x, rfl, hx, hfault, rfl, rfl⟩
  · rintro ⟨before, after, x, rfl, hx, hfault, rfl, rfl⟩
    have hbefore := hseries before
    rw [hx, Option.map_some] at hbefore
    obtain ⟨bytes, hcomes⟩ := comesTo_of_before h hbefore hfault
    exact ⟨_, hcomes, rfl, rfl⟩

end Streams

/-- Every stream has complete lines and bytes after them, and however it is cut into chunks, a
connection does the same. It answers the requests among the lines in a row, in one fresh session,
and the bytes after the lines wait. What it sends is framed into the responses. Without a fault
there is one to each request; with a fault there is one to each request before the one that met
it. At each line it comes to, it has sent the responses to the requests before. -/
theorem serve_of_flatten (reader : Request.Reader) (bounds : Bounds) (host : String) (port : Int)
    (stream : List UInt8) :
    ∃ lines rest, Framed stream lines rest ∧ ∀ chunks, chunks.flatten = stream →
      (serve reader bounds host port chunks =
        (Request.answerEach reader bounds Session.fresh (requests lines)).map fun x =>
          ⟨x.session, rest, x.responses.map Response.line,
            bounds.keep [Record.connected host port] ++ x.log, x.fault⟩) ∧
      (∀ c, serve reader bounds host port chunks = some c →
        ∃ x, Request.answerEach reader bounds Session.fresh (requests lines) = some x ∧
          Framed (Text.bytes c.output) (x.responses.map fun r => Text.bytes r.line) [] ∧
          (c.fault = none → x.responses.length = (requests lines).length) ∧
          ∀ fault, c.fault = some fault →
            ∃ before line after y a, requests lines = before ++ line :: after ∧
              Request.answerEach reader bounds Session.fresh before = some y ∧ y.fault = none ∧
              y.responses.length = before.length ∧ x.responses = y.responses ∧
              Request.answer reader bounds y.session line = some a ∧ a.response = .error fault) ∧
      ∀ line s sent,
        (∃ c, ComesTo reader bounds host port chunks line c ∧ c.session = s ∧ c.sent = sent) ↔
          ∃ before after x, lines = before ++ line :: after ∧
            Request.answerEach reader bounds Session.fresh (requests before) = some x ∧
            x.fault = none ∧ x.session = s ∧ x.responses.map Response.line = sent := by
  obtain ⟨lines, rest, hframed⟩ := exists_framed stream
  refine ⟨lines, rest, hframed, ?_⟩
  rintro chunks rfl
  have hserve : serve reader bounds host port chunks =
      (Request.answerEach reader bounds Session.fresh (requests lines)).map fun x =>
        ((opened bounds host port).after x).withPending rest := by
    rw [serve_eq hframed, foldlM_answerLine rfl, Option.map_map]
    rfl
  refine ⟨hserve, ?_, fun line s sent => comesTo_iff hframed⟩
  intro c hc
  rw [hserve, Option.map_eq_some_iff] at hc
  obtain ⟨x, hx, rfl⟩ := hc
  refine ⟨x, hx, framed_output rfl, fun hfault => Request.length_responses hx hfault, ?_⟩
  intro fault hfault
  obtain ⟨before, line, after, y, a, hlines, hy, hnone, ha, herror, rfl⟩ :=
    Request.answerEach_fault hx hfault
  exact ⟨before, line, after, y, a, hlines, hy, hnone, Request.length_responses hy hnone, rfl, ha,
    herror⟩

/-- A request, a blank line, a request that fails, and the beginning of a third one. -/
def sumStream : List UInt8 :=
  Text.bytes ("\x7b\"cmd\": \"eval\", \"code\": \"1 2 +\"\x7d\n \r\n" ++
    "\x7b\"cmd\": \"eval\", \"code\": \"+\"\x7d\n\x7b\"cmd")

/-- Whether the stream above arrives as one chunk or byte by byte, the same is sent. -/
theorem serve_of_flatten_of_sum :
    (serve .json ⟨10000, 10, 100⟩ "localhost" 7000 [sumStream]).map output =
      some ("\x7b\"ok\": true, \"stack\": \"[ 3 ]\"\x7d\n" ++
        "\x7b\"ok\": false, \"error\": \"needs 2 value(s) but the stack holds 1\", " ++
        "\"stack\": \"[ 3 ]\"\x7d\n") ∧
    serve .json ⟨10000, 10, 100⟩ "localhost" 7000 (sumStream.map fun b => [b]) =
      serve .json ⟨10000, 10, 100⟩ "localhost" 7000 [sumStream] := by
  obtain ⟨lines, rest, -, hserve⟩ :=
    serve_of_flatten .json ⟨10000, 10, 100⟩ "localhost" 7000 sumStream
  have hwhole : [sumStream].flatten = sumStream := by simp
  have hbytes : (sumStream.map fun b => [b]).flatten = sumStream := by
    rw [← List.flatMap_def, List.flatMap_singleton']
  refine ⟨by decide +kernel, ?_⟩
  rw [(hserve _ hwhole).1, (hserve _ hbytes).1]

end Catena.Connection
