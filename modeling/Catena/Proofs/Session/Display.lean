import Catena.CommandLine
import Catena.Proofs.Session.Faults
import Catena.Request

/-!
# Showing the stack after an evaluation

The console and the server evaluate a text and then show the stack that is left. Whether
the evaluation has succeeded or has ended in an error of the language, they have an answer
exactly when this stack can be written: no value on it goes too deep, and no integer in a
value is too long (`Session.answers_iff_writable`). Evaluation keeps neither bound. It pushes
a quotation of any depth, and it computes integers of any length. The session has changed by
the time the stack is shown, so a stack that cannot be written is there to stay.
-/

set_option autoImplicit false

namespace Catena

/-! ## Stacks that can be written -/

/-- A stack can be written under a nesting limit. Its brackets and each level of a value on
it take two units of the limit, and the integers on it are not too long. -/
structure Stack.Writable (limit : Nat) (s : Stack) : Prop where
  two_le : 2 ≤ limit
  depth_le : ∀ e ∈ s, 2 * e.value.depth + 2 ≤ limit
  short : ∀ e ∈ s, e.value.ShortIntegers

namespace Stack

/-- The values of a stack as a quotation, bottom first, with single spaces between the
tokens. -/
def text (s : Stack) : String :=
  " ".intercalate (Value.quotation s.toList).tokens

theorem forall_mem_toList {p : Value → Prop} {s : Stack} :
    (∀ v ∈ s.toList, p v) ↔ ∀ e ∈ s, p e.value := by
  simp [toList]

/-- A stack is written exactly when it can be, and its text is that of a quotation. -/
theorem render_eq_ok_iff {limit : Nat} {s : Stack} {text : String} :
    s.render limit = .ok text ↔ s.Writable limit ∧ s.text = text := by
  -- a stack is written as a quotation, so its own brackets are one level more
  have hshort : (Value.quotation s.toList).ShortIntegers ↔ ∀ e ∈ s, e.value.ShortIntegers := by
    rw [Value.ShortIntegers, Value.everyLeaf_quotation]
    exact forall_mem_toList
  have hdepth : 2 * (Value.quotation s.toList).depth ≤ limit ↔
      2 ≤ limit ∧ ∀ e ∈ s, 2 * e.value.depth ≤ limit - 2 := by
    have hvalues : (∀ e ∈ s, 2 * e.value.depth ≤ limit - 2) ↔
        2 * Value.depthList s.toList ≤ limit - 2 := by
      rw [Value.two_mul_depthList_le_iff]
      simp only [forall_mem_toList]
    rw [hvalues, Value.depth_quotation]
    omega
  rw [Stack.render, Value.render_eq_ok_iff, hshort, hdepth]
  refine and_congr_left fun _ => ?_
  constructor
  · rintro ⟨⟨htwo, hlevels⟩, hints⟩
    refine ⟨htwo, fun e he => ?_, hints⟩
    have hle := hlevels e he
    omega
  · rintro ⟨htwo, hlevels, hints⟩
    refine ⟨⟨htwo, fun e he => ?_⟩, hints⟩
    have hle := hlevels e he
    omega

end Stack

/-! ## Answers -/

namespace Evaluation

/-- The message of the error that an evaluation has ended in. -/
def message? (evaluation : Evaluation) : Option String :=
  match evaluation.failure with
  | some (.error e) => some e.message
  | _ => none

/-- What there is to show of an evaluation: its error, if there is one, and its stack. -/
def shown (evaluation : Evaluation) : String :=
  match evaluation.message? with
  | none => evaluation.session.stack.text
  | some message => "error: " ++ message ++ "\n" ++ evaluation.session.stack.text

/-- What there is to respond after an evaluation. -/
def response (evaluation : Evaluation) : Response :=
  ⟨evaluation.message?.isNone, evaluation.message?, some evaluation.session.stack.text⟩

end Evaluation

/-- The text that a line asks to have evaluated. -/
def Request.Reader.code? (reader : Request.Reader) (nesting : Nat) (line : Request.Line) :
    Option String :=
  match reader.read nesting line with
  | .datum datum =>
      match Request.Command.ofJson datum with
      | .eval code => some code
      | _ => none
  | _ => none

section Answers

variable {bounds : Bounds} {s : Session} {code : String} {evaluation : Evaluation}

theorem Request.Reader.code?_eq_some_iff {reader : Request.Reader} {nesting : Nat}
    {line : Request.Line} :
    reader.code? nesting line = some code ↔
      ∃ datum, reader.read nesting line = .datum datum ∧
        Request.Command.ofJson datum = .eval code := by
  unfold Request.Reader.code?
  cases reader.read nesting line with
  | datum datum => cases hcommand : Request.Command.ofJson datum <;> simp [hcommand]
  | invalid reason => simp
  | fault f => simp

/-- What is made of the text of the stack is there exactly when the stack can be written. -/
theorem Session.render_map_eq_ok_iff {β : Type} {f : String → β} {b : β} :
    (s.render bounds).map f = .ok b ↔
      s.stack.Writable bounds.nesting ∧ f s.stack.text = b := by
  constructor
  · intro h
    cases hrender : s.render bounds with
    | error fault =>
        rw [hrender] at h
        cases h
    | ok text =>
        obtain ⟨hwritable, rfl⟩ := Stack.render_eq_ok_iff.1 hrender
        rw [hrender] at h
        cases h
        exact ⟨hwritable, rfl⟩
  · rintro ⟨hwritable, rfl⟩
    have hrender : s.render bounds = .ok s.stack.text :=
      Stack.render_eq_ok_iff.2 ⟨hwritable, rfl⟩
    rw [hrender]
    rfl

/-- The console has something to show exactly when the stack can be written. -/
theorem Console.replyTo_of_eval (heval : s.eval bounds code = some evaluation)
    (hfault : ∀ f, evaluation.failure ≠ some (.fault f)) :
    ∃ reply, Console.replyTo bounds s code = some reply ∧ reply.session = evaluation.session ∧
      ∀ text, reply.shown = .ok text ↔
        evaluation.session.stack.Writable bounds.nesting ∧ evaluation.shown = text := by
  obtain ⟨after, failure, log⟩ := evaluation
  rcases failure with - | (e | f)
  · have hreply : Console.replyTo bounds s code = some ⟨after, after.render bounds, log⟩ := by
      simp only [Console.replyTo, heval, Option.map_some]
    exact ⟨_, hreply, rfl, fun text => Stack.render_eq_ok_iff⟩
  · have hreply : Console.replyTo bounds s code = some
        ⟨after, (after.render bounds).map ("error: " ++ e.message ++ "\n" ++ ·),
          log ++ bounds.keep [Record.lineFailed e]⟩ := by
      simp only [Console.replyTo, heval, Option.map_some]
    exact ⟨_, hreply, rfl, fun text => Session.render_map_eq_ok_iff⟩
  · exact absurd rfl (hfault f)

/-- The server has a response exactly when the stack can be written. -/
theorem Request.answer_of_eval (heval : s.eval bounds code = some evaluation)
    (hfault : ∀ f, evaluation.failure ≠ some (.fault f)) {reader : Request.Reader}
    {line : Request.Line} (hline : reader.code? bounds.nesting line = some code) :
    ∃ answer, Request.answer reader bounds s line = some answer ∧
      answer.session = evaluation.session ∧
      ∀ response, answer.response = .ok response ↔
        evaluation.session.stack.Writable bounds.nesting ∧ evaluation.response = response := by
  have hanswer : Request.answer reader bounds s line = (Command.eval code).answer bounds s := by
    obtain ⟨datum, hread, hcommand⟩ := Request.Reader.code?_eq_some_iff.1 hline
    rw [Request.answer, hread, ← hcommand]
  obtain ⟨after, failure, log⟩ := evaluation
  rcases failure with - | (e | f)
  · have heq : (Command.eval code).answer bounds s =
        some ⟨after, withStack bounds after none, log⟩ := by
      simp only [Command.answer, heval, Option.map_some]
    exact ⟨_, hanswer.trans heq, rfl, fun response => Session.render_map_eq_ok_iff⟩
  · have heq : (Command.eval code).answer bounds s =
        some ⟨after, withStack bounds after (some e.message), log⟩ := by
      simp only [Command.answer, heval, Option.map_some]
    exact ⟨_, hanswer.trans heq, rfl, fun response => Session.render_map_eq_ok_iff⟩
  · exact absurd rfl (hfault f)

end Answers

namespace Session

/-- After an evaluation that succeeds or ends in an error of the language, the session is
that of the evaluation. The console has a text to show exactly when the stack of that session
can be written, and the text is then that of the error, if there is one, and of the stack. So
it is with the response of the server to a line that asks for this evaluation. -/
theorem answers_iff_writable {bounds : Bounds} {s : Session} {code : String}
    {evaluation : Evaluation} (heval : s.eval bounds code = some evaluation)
    (hfault : ∀ f, evaluation.failure ≠ some (.fault f)) :
    (∃ reply, Console.replyTo bounds s code = some reply ∧
      reply.session = evaluation.session ∧
      ∀ text, reply.shown = .ok text ↔
        evaluation.session.stack.Writable bounds.nesting ∧ evaluation.shown = text) ∧
    ∀ (reader : Request.Reader) line, reader.code? bounds.nesting line = some code →
      ∃ answer, Request.answer reader bounds s line = some answer ∧
        answer.session = evaluation.session ∧
        ∀ response, answer.response = .ok response ↔
          evaluation.session.stack.Writable bounds.nesting ∧ evaluation.response = response := by
  refine ⟨Console.replyTo_of_eval heval hfault, fun reader line hline => ?_⟩
  exact Request.answer_of_eval heval hfault hline

/-- Adding one and two leaves a stack that can be written, so the console and the server
answer. -/
theorem answers_iff_writable_of_sum :
    ∃ reply answer, Console.replyTo ⟨10000, 10, 100⟩ Session.fresh "1 2 +" = some reply ∧
      Request.answer .json ⟨10000, 10, 100⟩ Session.fresh
        (.text "\x7b\"cmd\": \"eval\", \"code\": \"1 2 +\"\x7d") = some answer ∧
      reply.shown = .ok "[ 3 ]" ∧ answer.response = .ok ⟨true, none, some "[ 3 ]"⟩ := by
  have heval : Session.fresh.eval ⟨10000, 10, 100⟩ "1 2 +" =
      some ⟨⟨[.plain (.integer 3)], Dictionary.builtins, 0⟩, none, []⟩ := by
    decide +kernel
  have hline : Request.Reader.code? .json 10000
      (.text "\x7b\"cmd\": \"eval\", \"code\": \"1 2 +\"\x7d") = some "1 2 +" := by
    decide +kernel
  have hwritable : Stack.Writable 10000 [.plain (.integer 3)] := by
    refine ⟨by decide, ?_, ?_⟩
    · intro e he
      rw [List.mem_singleton.1 he]
      decide
    · intro e he
      rw [List.mem_singleton.1 he]
      refine .integer fun n hn => ?_
      cases hn
      decide +kernel
  obtain ⟨⟨reply, hreply, -, hshown⟩, hrequest⟩ :=
    answers_iff_writable heval (fun f hf => by cases hf)
  obtain ⟨answer, hanswer, -, hresponse⟩ := hrequest _ _ hline
  have htext : Stack.text [.plain (.integer 3)] = "[ 3 ]" := by decide +kernel
  refine ⟨reply, answer, hreply, hanswer, (hshown _).2 ⟨hwritable, htext⟩, ?_⟩
  rw [← htext]
  exact (hresponse _).2 ⟨hwritable, rfl⟩

/-- A quotation 12000 levels deep is evaluated in a fresh session with a limit of 10000. The
evaluation succeeds and pushes the quotation, but neither the console nor the server has an
answer. -/
theorem unanswered_of_deep_quotation :
    ∃ text bounds evaluation, text = " ".intercalate Value.deep.tokens ∧
      bounds.nesting = 10000 ∧ Session.fresh.eval bounds text = some evaluation ∧
      evaluation.failure = none ∧ evaluation.session.stack = [.plain .deep] ∧
      (∃ reply, Console.replyTo bounds Session.fresh text = some reply ∧
        ∀ shown, reply.shown ≠ .ok shown) ∧
      ∀ (reader : Request.Reader) line, reader.code? 10000 line = some text →
        ∃ answer, Request.answer reader bounds Session.fresh line = some answer ∧
          ∀ response, answer.response ≠ .ok response := by
  have hread : Program.read (" ".intercalate Value.deep.tokens) = .ok [.deep] := by
    have hnodes : ∀ v ∈ [Value.deep], v.OfTokens := by
      rw [List.forall_mem_singleton]
      exact Value.ofTokens_deep
    simpa using Program.read_intercalate hnodes
  have hpush : Action.ofNode Dictionary.builtins .deep = .ok (.push .deep) :=
    Action.ofNode_of_isQuotation Value.isQuotation_deep
  have hends : Session.fresh.Ends 10000 (" ".intercalate Value.deep.tokens)
      ⟨[.plain .deep], Dictionary.builtins, 0⟩ none := by
    rw [ends_iff_evaluates hread]
    exact ⟨_, .cons (.push hpush) rfl (.nil _), rfl, rfl⟩
  obtain ⟨fuel, threshold, log, heval⟩ := hends
  have hstack : ¬ Stack.Writable 10000 [.plain .deep] := by
    intro h
    have hle : 2 * Value.deep.depth + 2 ≤ 10000 := h.depth_le (.plain .deep) List.mem_cons_self
    rw [Value.depth_deep] at hle
    omega
  have hfault : ∀ f, (none : Option Failure) ≠ some (.fault f) := fun f hf => by cases hf
  obtain ⟨reply, hreply, -, hshown⟩ := Console.replyTo_of_eval heval hfault
  refine ⟨_, _, _, rfl, rfl, heval, rfl, rfl, ⟨reply, hreply, fun text h => ?_⟩, ?_⟩
  · exact hstack ((hshown text).1 h).1
  · intro reader line hline
    obtain ⟨answer, hanswer, -, hresponse⟩ := Request.answer_of_eval heval hfault hline
    exact ⟨answer, hanswer, fun response h => hstack ((hresponse response).1 h).1⟩

end Session

end Catena
