import Catena.Proofs.Json
import Catena.Request

/-!
# Requests in a row

A server answers the requests of one client in order, all in one session. `Request.answerEach`
says what becomes of a list of requests: the responses, the session that is left, and the fault
at which the series stops if there is one. Without a fault each request has a response
(`Request.length_responses`). With a fault it is the requests before a certain one that have
responses (`Request.answerEach_fault`).

A response is written as a line of plain text, so it holds no line feed
(`Response.lineFeed_not_mem_bytes`).
-/

set_option autoImplicit false

namespace Catena

/-! ## The line of a response -/

namespace Response

/-- The written form of a field is plain text. -/
theorem plain_of_mem_fields {r : Response} {field : String × String} (h : field ∈ r.fields) :
    Text.Plain field.2 := by
  have hoption : ∀ (name : String) (text? : Option String),
      field ∈ (text?.map fun text => (name, Json.writeString text)).toList →
        Text.Plain field.2 := by
    intro name text? hfield
    rw [Option.mem_toList, Option.map_eq_some_iff] at hfield
    obtain ⟨text, -, rfl⟩ := hfield
    exact Json.plain_writeString text
  rw [fields, List.mem_cons, List.mem_append] at h
  rcases h with rfl | herror | hstack
  · cases r.ok with
    | true => decide
    | false => decide
  · exact hoption _ _ herror
  · exact hoption _ _ hstack

theorem plain_line (r : Response) : Text.Plain r.line := by
  have hopen : Text.Plain "\x7b" := by decide
  have hcomma : Text.Plain ", " := by decide
  refine (hopen.append (hcomma.intercalate ?_)).append (by decide)
  intro text htext
  obtain ⟨⟨name, value⟩, hfield, rfl⟩ := List.mem_map.1 htext
  have hname : Text.Plain (Json.writeString name ++ ": ") :=
    (Json.plain_writeString name).append (by decide)
  exact hname.append (plain_of_mem_fields hfield)

/-- The line of a response is sent as bytes other than the line feed. -/
theorem lineFeed_not_mem_bytes (r : Response) : 0x0A ∉ Text.bytes r.line := by
  intro h
  have hlow := (r.plain_line.of_mem_bytes h).1
  revert hlow
  decide

end Response

namespace Request

/-! ## Series of requests -/

/-- What a series of requests leads to. -/
structure Exchange where
  session : Session
  /-- The responses, in the order of the requests. -/
  responses : List Response
  log : List Record
  /-- The fault at which the series has stopped. -/
  fault : Option Fault
  deriving DecidableEq, Repr

/-- Answers requests in order in one session, up to the first that meets a fault. -/
def answerEach (reader : Reader) (bounds : Bounds) (s : Session) : List Line → Option Exchange
  | [] => some ⟨s, [], [], none⟩
  | line :: lines =>
      match answer reader bounds s line with
      | none => none
      | some a =>
          match a.response with
          | .error fault => some ⟨a.session, [], a.log, some fault⟩
          | .ok response =>
              (answerEach reader bounds a.session lines).map fun x =>
                ⟨x.session, response :: x.responses, a.log ++ x.log, x.fault⟩

section Series

variable {reader : Reader} {bounds : Bounds} {s : Session} {line : Line} {lines : List Line}
  {x : Exchange}

theorem answerEach_cons_of_ok {a : Answer} {response : Response}
    (hanswer : answer reader bounds s line = some a) (hok : a.response = .ok response) :
    answerEach reader bounds s (line :: lines) =
      (answerEach reader bounds a.session lines).map fun x =>
        ⟨x.session, response :: x.responses, a.log ++ x.log, x.fault⟩ := by
  simp only [answerEach, hanswer, hok]

theorem answerEach_cons_of_error {a : Answer} {fault : Fault}
    (hanswer : answer reader bounds s line = some a) (herror : a.response = .error fault) :
    answerEach reader bounds s (line :: lines) = some ⟨a.session, [], a.log, some fault⟩ := by
  simp only [answerEach, hanswer, herror]

theorem answerEach_cons_of_none (hanswer : answer reader bounds s line = none) :
    answerEach reader bounds s (line :: lines) = none := by
  simp only [answerEach, hanswer]

/-- What becomes of a first request and of those after it. -/
theorem answerEach_cons_cases (h : answerEach reader bounds s (line :: lines) = some x) :
    ∃ a, answer reader bounds s line = some a ∧
      ((∃ fault, a.response = .error fault ∧ x = ⟨a.session, [], a.log, some fault⟩) ∨
        ∃ response y, a.response = .ok response ∧
          answerEach reader bounds a.session lines = some y ∧
          x = ⟨y.session, response :: y.responses, a.log ++ y.log, y.fault⟩) := by
  cases hanswer : answer reader bounds s line with
  | none =>
      rw [answerEach_cons_of_none hanswer] at h
      cases h
  | some a =>
      refine ⟨a, rfl, ?_⟩
      cases hresponse : a.response with
      | error fault =>
          rw [answerEach_cons_of_error hanswer hresponse] at h
          cases h
          exact Or.inl ⟨fault, rfl, rfl⟩
      | ok response =>
          rw [answerEach_cons_of_ok hanswer hresponse, Option.map_eq_some_iff] at h
          obtain ⟨y, hy, rfl⟩ := h
          exact Or.inr ⟨response, y, rfl, hy, rfl⟩

/-- A series without a fault has a response to each request. -/
theorem length_responses (h : answerEach reader bounds s lines = some x) (hfault : x.fault = none) :
    x.responses.length = lines.length := by
  induction lines generalizing s x with
  | nil =>
      cases h
      rfl
  | cons line lines ih =>
      obtain ⟨a, -, ⟨fault, -, rfl⟩ | ⟨response, y, -, hrest, rfl⟩⟩ := answerEach_cons_cases h
      · cases hfault
      · exact congrArg (· + 1) (ih hrest hfault)

/-- A series that has met a fault has answered the requests before a certain one, and it is
this one that met the fault. -/
theorem answerEach_fault {fault : Fault} (h : answerEach reader bounds s lines = some x)
    (hfault : x.fault = some fault) :
    ∃ before line after y a, lines = before ++ line :: after ∧
      answerEach reader bounds s before = some y ∧ y.fault = none ∧
      answer reader bounds y.session line = some a ∧ a.response = .error fault ∧
      x = ⟨a.session, y.responses, y.log ++ a.log, some fault⟩ := by
  induction lines generalizing s x with
  | nil =>
      cases h
      cases hfault
  | cons line lines ih =>
      -- the fault is that of the first request, or of one after it
      obtain ⟨a, hanswer, ⟨fault', herror, rfl⟩ | ⟨response, y, hok, hrest, rfl⟩⟩ :=
        answerEach_cons_cases h
      · cases hfault
        exact ⟨[], line, lines, ⟨s, [], [], none⟩, a, rfl, rfl, rfl, hanswer, herror, rfl⟩
      · obtain ⟨before, next, after, z, b, rfl, hbefore, hnone, hnext, herror, rfl⟩ :=
          ih hrest hfault
        refine ⟨line :: before, next, after,
          ⟨z.session, response :: z.responses, a.log ++ z.log, z.fault⟩, b, rfl, ?_, hnone, hnext,
          herror, ?_⟩
        · rw [answerEach_cons_of_ok hanswer hok, hbefore, Option.map_some]
        · rw [List.append_assoc]

/-- The last request of a series without a fault is answered in the session that the requests
before it have left. -/
theorem answerEach_concat (h : answerEach reader bounds s (lines ++ [line]) = some x)
    (hfault : x.fault = none) :
    ∃ y a response, answerEach reader bounds s lines = some y ∧ y.fault = none ∧
      answer reader bounds y.session line = some a ∧ a.response = .ok response ∧
      x = ⟨a.session, y.responses ++ [response], y.log ++ a.log, none⟩ := by
  induction lines generalizing s x with
  | nil =>
      obtain ⟨a, hanswer, ⟨fault, -, rfl⟩ | ⟨response, y, hok, hnil, rfl⟩⟩ :=
        answerEach_cons_cases h
      · cases hfault
      · cases hnil
        exact ⟨_, a, response, rfl, rfl, hanswer, hok, by simp⟩
  | cons first lines ih =>
      obtain ⟨a, hanswer, ⟨fault, -, rfl⟩ | ⟨response, y, hok, hrest, rfl⟩⟩ :=
        answerEach_cons_cases h
      · cases hfault
      · obtain ⟨z, b, last, hlines, hnone, hlast, hlastok, rfl⟩ := ih hrest hfault
        refine ⟨⟨z.session, response :: z.responses, a.log ++ z.log, z.fault⟩, b, last, ?_, hnone,
          hlast, hlastok, ?_⟩
        · rw [answerEach_cons_of_ok hanswer hok, hlines, Option.map_some]
        · rw [List.cons_append, List.append_assoc]

end Series

end Request

end Catena
