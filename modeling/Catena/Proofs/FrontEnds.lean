import Catena.Proofs.CommandLine
import Catena.Proofs.Request
import Catena.Proofs.Session.Messages

/-!
# The front ends agree

The server, the console and the command line evaluate programs one after another in one
session, each in a loop of its own. They differ in what they do about an error: the server
reports it and goes on, the console shows it and goes on, and the command line shows it and
stops. Apart from that they do the same (`frontEnds_agree`).

What they have in common is a series of evaluations (`Session.Series`). The requests tell what
the series is, since each of them is answered by an evaluation that can be shown
(`Request.series_of_answerEach`). The console and the command line are then followed along the
series (`Console.runLines_of_series`, `CommandLine.run_of_succeeds`, `CommandLine.run_of_error`).

What the command line writes is what its toolkit makes of a message. A toolkit is documented to
write it as it is on a terminal, and elsewhere if it does not hold the escape character. So the
three agree up to what a toolkit drops where no terminal reads the messages, and there they do
disagree (`frontEnds_differ_of_controlSequence`).
-/

set_option autoImplicit false

namespace Catena

/-! ## Series of evaluations -/

namespace Session

/-- Evaluating a text in the session `s` ends within `fuel` steps. It leaves the session `s'`
and reports `failure`, whatever part of the log is kept; above the level for debugging nothing
is. -/
def EndsWithin (nesting fuel : Nat) (s : Session) (text : String) (s' : Session)
    (failure : Option Failure) : Prop :=
  ∀ threshold, ∃ log, s.eval ⟨nesting, fuel, threshold⟩ text = some ⟨s', failure, log⟩ ∧
    (Level.rank .debug < threshold → log = [])

/-- The log has no influence on an evaluation. -/
theorem endsWithin_of_eval {bounds : Bounds} {s : Session} {text : String}
    {evaluation : Evaluation} (h : s.eval bounds text = some evaluation) :
    s.EndsWithin bounds.nesting bounds.fuel text evaluation.session evaluation.failure := by
  intro threshold
  unfold eval at h ⊢
  cases hread : Program.read text with
  | error failure =>
      simp only [hread, Option.some.injEq] at h
      subst h
      exact ⟨[], rfl, fun _ => rfl⟩
  | ok nodes =>
      simp only [hread, runNodes, Option.map_map, Option.map_eq_some_iff] at h
      obtain ⟨o, hrun, rfl⟩ := h
      -- the run is the same, and the threshold decides only whether its records are kept
      simp only [runNodes, hrun, Option.map_some]
      refine ⟨_, rfl, fun hlt => ?_⟩
      exact if_neg (Nat.not_le.2 hlt)

/-- Evaluating texts one after another, whether they fail or not, leads from one session to
another, by one evaluation for each text. What the evaluations have logged does not matter. -/
inductive Series (nesting fuel : Nat) : Session → List String → List Evaluation → Session → Prop
  | nil (s : Session) : Series nesting fuel s [] [] s
  | cons {s last : Session} {text : String} {texts : List String} {evaluation : Evaluation}
      {evaluations : List Evaluation} :
      s.EndsWithin nesting fuel text evaluation.session evaluation.failure →
      Series nesting fuel evaluation.session texts evaluations last →
      Series nesting fuel s (text :: texts) (evaluation :: evaluations) last

namespace Series

variable {nesting fuel : Nat} {s last : Session} {texts : List String}
  {evaluations more : List Evaluation}

/-- A series can be cut between any two evaluations. -/
theorem split (h : Series nesting fuel s texts (evaluations ++ more) last) :
    ∃ texts₁ texts₂ middle, texts = texts₁ ++ texts₂ ∧ texts₁.length = evaluations.length ∧
      Series nesting fuel s texts₁ evaluations middle ∧
      Series nesting fuel middle texts₂ more last := by
  induction evaluations generalizing s texts with
  | nil => exact ⟨[], texts, s, rfl, rfl, .nil s, h⟩
  | cons evaluation evaluations ih =>
      cases h with
      | cons hends hrest =>
          obtain ⟨texts₁, texts₂, middle, rfl, hlength, hfirst, hsecond⟩ := ih hrest
          exact ⟨_ :: texts₁, texts₂, middle, rfl, congrArg (· + 1) hlength, .cons hends hfirst,
            hsecond⟩

/-- The session at the end is that of the last evaluation. -/
theorem last_eq (h : Series nesting fuel s texts evaluations last) {evaluation : Evaluation}
    (hlast : evaluations.getLast? = some evaluation) : last = evaluation.session := by
  induction h with
  | nil => cases hlast
  | @cons s last text texts first rest hends hrest ih =>
      cases rest with
      | nil =>
          cases hlast
          cases hrest
          rfl
      | cons second others => exact ih (by simpa using hlast)

/-- What is to be shown in a series that begins in a reachable session fits on lines. -/
theorem isLine (h : Series nesting fuel s texts evaluations last) (hs : s.Reachable) :
    ∀ evaluation ∈ evaluations, Text.IsLine evaluation.session.stack.text ∧
      ∀ e, evaluation.failure = some (.error e) → Text.IsLine e.message := by
  induction h with
  | nil => exact List.forall_mem_nil _
  | cons hends _ ih =>
      obtain ⟨log, heval, -⟩ := hends 0
      have hfirst := hs.isLine_of_eval heval
      have hafter := hs.eval heval
      exact List.forall_mem_cons.2 ⟨hfirst, ih hafter⟩

end Series

end Session

/-- An evaluation can be shown: it has not ended in a fault, and its stack can be written. -/
structure Evaluation.Showable (nesting : Nat) (evaluation : Evaluation) : Prop where
  no_fault : ∀ f, evaluation.failure ≠ some (.fault f)
  writable : evaluation.session.stack.Writable nesting

namespace Evaluation

variable {nesting : Nat} {evaluation : Evaluation}

/-- The response to an evaluation is good exactly when the evaluation has succeeded. -/
theorem Showable.ok_iff (h : evaluation.Showable nesting) :
    evaluation.response.ok = true ↔ evaluation.failure = none := by
  obtain ⟨s, failure, log⟩ := evaluation
  rcases failure with - | (e | f)
  · simp [response, message?]
  · simp [response, message?]
  · exact absurd rfl (h.no_fault f)

/-- Evaluations whose responses are all good have succeeded. -/
theorem failure_eq_none_of_ok {evaluations : List Evaluation}
    (hshowable : ∀ evaluation ∈ evaluations, evaluation.Showable nesting)
    (hok : ∀ r ∈ evaluations.map response, r.ok = true) :
    ∀ evaluation ∈ evaluations, evaluation.failure = none := by
  intro evaluation hmem
  exact (hshowable evaluation hmem).ok_iff.1 (hok _ (List.mem_map_of_mem hmem))

/-- A response that is not good reports the error of its evaluation. -/
theorem failure_of_ok (h : evaluation.response.ok = false) :
    ∃ e, evaluation.failure = some (.error e) ∧ evaluation.response.error = some e.message := by
  obtain ⟨s, failure, log⟩ := evaluation
  rcases failure with - | (e | f)
  · cases h
  · exact ⟨e, rfl, rfl⟩
  · cases h

end Evaluation

/-- The lines that there are to show of a response: the stack, and before it the error, if the
response is not good. -/
def Response.shown (r : Response) : List String :=
  if r.ok then [r.stack.getD ""] else ["error: " ++ r.error.getD "", r.stack.getD ""]

/-- What the console shows of an evaluation are the lines of the response to it. -/
theorem Evaluation.ofLines_shown (evaluation : Evaluation) :
    Text.ofLines evaluation.response.shown = evaluation.shown ++ "\n" := by
  unfold Evaluation.shown
  cases hmessage : evaluation.message? with
  | none => simp [response, Response.shown, hmessage, Text.ofLines_cons]
  | some message =>
      simp [response, Response.shown, hmessage, Text.ofLines_cons, String.append_assoc]

/-! ## The server -/

namespace Request

variable {reader : Reader} {bounds : Bounds} {s : Session}

/-- A request that asks for an evaluation and gets a response has been evaluated. -/
theorem eval_of_answer {line : Line} {code : String} {a : Answer} {response : Response}
    (hline : reader.code? bounds.nesting line = some code)
    (hanswer : answer reader bounds s line = some a) (hok : a.response = .ok response) :
    ∃ evaluation, s.eval bounds code = some evaluation ∧ evaluation.Showable bounds.nesting ∧
      a.session = evaluation.session ∧ response = evaluation.response := by
  obtain ⟨datum, hread, hcommand⟩ := Reader.code?_eq_some_iff.1 hline
  have hcommanded : (Command.eval code).answer bounds s = some a := by
    rw [← hcommand, ← hanswer, answer, hread]
  simp only [Command.answer, Option.map_eq_some_iff] at hcommanded
  obtain ⟨evaluation, heval, ha⟩ := hcommanded
  -- after a fault there would be no response
  have hfault : ∀ f, evaluation.failure ≠ some (.fault f) := by
    intro f hf
    rw [← ha, hf] at hok
    cases hok
  obtain ⟨a', hanswer', hsession, hresponse⟩ := answer_of_eval heval hfault hline
  rw [hanswer, Option.some.injEq] at hanswer'
  subst hanswer'
  obtain ⟨hwritable, hsame⟩ := (hresponse response).1 hok
  exact ⟨evaluation, heval, ⟨hfault, hwritable⟩, hsession, hsame.symm⟩

/-- Requests for evaluations that all get a response go through a series. -/
theorem series_of_answerEach {lines : List Line} {programs : List String} {x : Exchange}
    (hcodes : lines.map (reader.code? bounds.nesting) = programs.map some)
    (h : answerEach reader bounds s lines = some x) (hfault : x.fault = none) :
    ∃ evaluations, s.Series bounds.nesting bounds.fuel programs evaluations x.session ∧
      (∀ evaluation ∈ evaluations, evaluation.Showable bounds.nesting) ∧
      x.responses = evaluations.map Evaluation.response := by
  induction lines generalizing s programs x with
  | nil =>
      cases programs with
      | nil =>
          cases h
          exact ⟨[], .nil s, List.forall_mem_nil _, rfl⟩
      | cons program programs => cases hcodes
  | cons line lines ih =>
      cases programs with
      | nil => cases hcodes
      | cons program programs =>
          rw [List.map_cons, List.map_cons, List.cons.injEq] at hcodes
          obtain ⟨a, hanswer, ⟨fault, -, rfl⟩ | ⟨response, y, hok, hrest, rfl⟩⟩ :=
            answerEach_cons_cases h
          · cases hfault
          · obtain ⟨evaluation, heval, hshowable, hsession, rfl⟩ :=
              eval_of_answer hcodes.1 hanswer hok
            rw [hsession] at hrest
            obtain ⟨evaluations, hseries, hall, hresponses⟩ := ih hcodes.2 hrest hfault
            refine ⟨evaluation :: evaluations, .cons (Session.endsWithin_of_eval heval) hseries,
              List.forall_mem_cons.2 ⟨hshowable, hall⟩, ?_⟩
            rw [List.map_cons, ← hresponses]

end Request

/-! ## The console -/

/-- Along a series that can be shown, the console shows what the responses have to show. -/
theorem Console.runLines_of_series {nesting fuel threshold : Nat} {s last : Session}
    {programs : List String} {evaluations : List Evaluation}
    (h : s.Series nesting fuel programs evaluations last)
    (hshowable : ∀ evaluation ∈ evaluations, evaluation.Showable nesting)
    (output : String) (log : List Record) :
    ∃ log', runLines ⟨nesting, fuel, threshold⟩ "" programs ⟨output, s, log, none⟩ =
      some ⟨output ++ Text.ofLines (evaluations.flatMap (·.response.shown)), last, log',
        none⟩ := by
  induction h generalizing output log with
  | nil s => exact ⟨log, by simp [runLines]⟩
  | @cons s last program programs evaluation evaluations hends hrest ih =>
      obtain ⟨hfirst, hothers⟩ := List.forall_mem_cons.1 hshowable
      obtain ⟨kept, heval, -⟩ := hends threshold
      obtain ⟨reply, hreply, hsession, hshown⟩ := replyTo_of_eval heval hfirst.no_fault
      have htext : reply.shown = .ok evaluation.shown := (hshown _).2 ⟨hfirst.writable, rfl⟩
      have hafter : reply.session = evaluation.session := hsession
      obtain ⟨log', hlines⟩ := ih hothers (output ++ Text.ofLines evaluation.response.shown)
        (log ++ reply.log)
      refine ⟨log', ?_⟩
      rw [runLines]
      simp only [hreply, htext, hafter, String.append_empty]
      rw [String.append_assoc, ← evaluation.ofLines_shown, hlines, List.flatMap_cons,
        Text.ofLines_append, String.append_assoc]

/-! ## The command line -/

namespace CommandLine

section Running

variable {t : Toolkit} {terminal : Stream → Bool} {nesting fuel : Nat} {s last : Session}
  {programs : List String} {evaluations : List Evaluation}

theorem writeStack_of_writable (h : s.stack.Writable nesting) (fuel threshold : Nat)
    (r : Report) :
    writeStack t ⟨nesting, fuel, threshold⟩ s r = r.say t .output s.stack.text := by
  have hrender : s.render ⟨nesting, fuel, threshold⟩ = .ok s.stack.text :=
    Stack.render_eq_ok_iff.2 ⟨h, rfl⟩
  simp only [writeStack, hrender]

/-- Programs that succeed are evaluated one after another, and those after them in the session
that they leave. -/
theorem runPrograms_append (h : s.Series nesting fuel programs evaluations last)
    (hsucceeds : ∀ evaluation ∈ evaluations, evaluation.failure = none) (threshold : Nat) :
    ∃ records, (Level.rank .debug < threshold → records = []) ∧ ∀ more r,
      runPrograms t ⟨nesting, fuel, threshold⟩ (programs ++ more) s r =
        runPrograms t ⟨nesting, fuel, threshold⟩ more last (r.log records) := by
  induction h with
  | nil s => exact ⟨[], fun _ => rfl, fun more r => by simp⟩
  | cons hends _ ih =>
      obtain ⟨hnone, hothers⟩ := List.forall_mem_cons.1 hsucceeds
      obtain ⟨log, heval, hlog⟩ := hends threshold
      obtain ⟨records, hrecords, hrun⟩ := ih hothers
      refine ⟨log ++ records, fun hlt => by rw [hlog hlt, hrecords hlt]; rfl, fun more r => ?_⟩
      rw [List.cons_append, runPrograms, heval]
      simp only [hnone]
      rw [hrun, Report.log_append]

/-- A program that ends in an error ends the run; those after it are not evaluated. -/
theorem runPrograms_of_error {s' : Session} {program : String} {e : Error}
    (hends : s.EndsWithin nesting fuel program s' (some (.error e)))
    (hwritable : s'.stack.Writable nesting) (threshold : Nat) :
    ∃ records, (Level.rank .debug < threshold → records = []) ∧ ∀ more r,
      runPrograms t ⟨nesting, fuel, threshold⟩ (program :: more) s r =
        some (Report.say t
          { (r.log records).say t .errors ("error: " ++ e.message) with status := 1 }
          .output s'.stack.text, none) := by
  obtain ⟨log, heval, hlog⟩ := hends threshold
  refine ⟨log, hlog, fun more r => ?_⟩
  rw [runPrograms, heval]
  simp only [writeStack_of_writable hwritable]

variable {around : Surroundings}

/-- A command line whose programs all succeed writes the stack that the last one leaves. -/
theorem run_of_succeeds (ht : t.Documented terminal)
    (h : Session.fresh.Series nesting around.fuel programs evaluations last)
    (hsucceeds : ∀ evaluation ∈ evaluations, evaluation.failure = none) {evaluation : Evaluation}
    (hlast : evaluations.getLast? = some evaluation)
    (hwritable : evaluation.session.stack.Writable nesting) (hprograms : programs ≠ [])
    (hlimit : Settings.raiseLimit around.limit around.environment = .ok nesting) :
    ∃ records, (Level.rank .debug < threshold around.environment 0 → records = []) ∧
      run t around (commands programs) =
        some ⟨0, t.echo .output evaluation.session.stack.text,
          Text.ofLines (records.map Record.line), none⟩ := by
  obtain rfl := h.last_eq hlast
  obtain ⟨records, hrecords, hrun⟩ :=
    runPrograms_append h hsucceeds (threshold around.environment 0)
  have hall := hrun [] .start
  rw [List.append_nil] at hall
  refine ⟨records, hrecords, ?_⟩
  rw [run_commands ht hlimit hprograms, boundsOf, hall]
  simp only [runPrograms, Option.map_some, writeStack_of_writable hwritable]
  simp [Report.say, Report.write, Report.log_eq, Report.warn, Report.start]

/-- A command line reports the first of its programs that ends in an error, and it writes the
stack that this one leaves. The programs after it do not matter. -/
theorem run_of_error (ht : t.Documented terminal) {before after : List Evaluation}
    {evaluation : Evaluation} {e : Error}
    (h : Session.fresh.Series nesting around.fuel programs (before ++ evaluation :: after) last)
    (hsucceeds : ∀ evaluation ∈ before, evaluation.failure = none)
    (hfailure : evaluation.failure = some (.error e))
    (hwritable : evaluation.session.stack.Writable nesting)
    (hlimit : Settings.raiseLimit around.limit around.environment = .ok nesting) :
    ∃ records, (Level.rank .debug < threshold around.environment 0 → records = []) ∧ ∀ later,
      run t around (commands (programs.take (before.length + 1) ++ later)) =
        some ⟨1, t.echo .output evaluation.session.stack.text,
          Text.ofLines (records.map Record.line) ++ t.echo .errors ("error: " ++ e.message),
          none⟩ := by
  -- up to the program that fails, the programs succeed; then it ends the run
  obtain ⟨earlier, others, middle, rfl, hlength, hfirst, hsecond⟩ := h.split
  cases hsecond with
  | @cons _ _ program rest _ _ hends _ =>
      rw [hfailure] at hends
      obtain ⟨records, hrecords, hrun⟩ :=
        runPrograms_append hfirst hsucceeds (threshold around.environment 0)
      obtain ⟨records', hrecords', hrun'⟩ :=
        runPrograms_of_error hends hwritable (threshold around.environment 0)
      have htake :
          (earlier ++ program :: rest).take (before.length + 1) = earlier ++ [program] := by
        rw [← hlength, List.take_length_add_append]
        rfl
      refine ⟨records ++ records', ?_, ?_⟩
      · intro hlt
        rw [hrecords hlt, hrecords' hlt]
        rfl
      · intro later
        have hprograms : earlier ++ program :: later ≠ [] := by simp
        rw [htake, List.append_assoc, List.singleton_append, run_commands ht hlimit hprograms,
          boundsOf, hrun, hrun', ← Report.log_append, Option.map_some]
        simp [Report.say, Report.write, Report.log_eq, Report.warn, Report.start]

end Running

end CommandLine

/-! ## Agreement -/

/-- The lines that there are to show of an evaluation fit on lines. -/
theorem Evaluation.isLine_shown {evaluation : Evaluation}
    (hstack : Text.IsLine evaluation.session.stack.text)
    (hmessage : ∀ e, evaluation.failure = some (.error e) → Text.IsLine e.message) :
    ∀ line ∈ evaluation.response.shown, Text.IsLine line := by
  have hfixed : Text.IsLine "error: " := by decide
  cases hok : evaluation.response.ok with
  | true =>
      simp only [Response.shown, hok, if_true, List.forall_mem_singleton]
      exact hstack
  | false =>
      obtain ⟨e, hfailure, herror⟩ := evaluation.failure_of_ok hok
      simp only [Response.shown, hok, Bool.false_eq_true, if_false, List.forall_mem_cons, herror]
      exact ⟨hfixed.append (hmessage e hfailure), hstack, List.forall_mem_nil _⟩

/-- The server, the console and the command line agree on programs of one line each. The server
is asked to evaluate the programs one after another in a fresh session, and no fault keeps it
from responding.

* The console, without a prompt, writes the stack of each response on a line, with the error of
  the response on a line before it, if there is one. None of these lines holds a line feed.
* If all responses are good, the command line writes the last stack, with status zero.
  Otherwise it reports the error of the first response that is not good, and writes the stack of
  that response, with status one; the programs after it do not matter.

The command line writes a stack or an error as its toolkit does. On a terminal this is the text
itself on a line, and elsewhere it is if the text does not hold the escape character. The lines of
its log come before the error, and there are none unless records for debugging are kept. -/
theorem frontEnds_agree {reader : Request.Reader} {bounds : Bounds} {programs : List String}
    {lines : List Request.Line} {x : Request.Exchange} (hne : programs ≠ [])
    (hprograms : ∀ program ∈ programs, Text.IsLine program)
    (hcodes : lines.map (reader.code? bounds.nesting) = programs.map some)
    (hserver : Request.answerEach reader bounds Session.fresh lines = some x)
    (hfault : x.fault = none) :
    (x.responses.length = programs.length ∧
      ∀ r ∈ x.responses, r.stack.isSome = true ∧ r.ok = r.error.isNone) ∧
    (∀ threshold, ∃ log,
      Console.run ⟨bounds.nesting, bounds.fuel, threshold⟩ "" Session.fresh
          (Text.ofLines programs) =
        some ⟨Text.ofLines (x.responses.flatMap Response.shown), x.session, log, none⟩) ∧
    (∀ line ∈ x.responses.flatMap Response.shown, Text.IsLine line) ∧
    ∀ (t : CommandLine.Toolkit) (terminal : CommandLine.Stream → Bool), t.Documented terminal →
      ∀ around : CommandLine.Surroundings, around.fuel = bounds.fuel →
      Settings.raiseLimit around.limit around.environment = .ok bounds.nesting →
      ((∀ r ∈ x.responses, r.ok = true) →
        ∃ r stack records, x.responses.getLast? = some r ∧ r.stack = some stack ∧
          (Level.rank .debug < CommandLine.threshold around.environment 0 → records = []) ∧
          CommandLine.run t around (CommandLine.commands programs) =
            some ⟨0, t.echo .output stack, Text.ofLines (records.map Record.line), none⟩ ∧
          (CommandLine.Verbatim terminal .output stack → t.echo .output stack = stack ++ "\n")) ∧
      ∀ before r after, x.responses = before ++ r :: after → (∀ r ∈ before, r.ok = true) →
        r.ok = false →
        ∃ error stack records report, r.error = some error ∧ r.stack = some stack ∧
          (Level.rank .debug < CommandLine.threshold around.environment 0 → records = []) ∧
          report = ⟨1, t.echo .output stack,
            Text.ofLines (records.map Record.line) ++ t.echo .errors ("error: " ++ error), none⟩ ∧
          CommandLine.run t around (CommandLine.commands programs) = some report ∧
          (∀ later, CommandLine.run t around
            (CommandLine.commands (programs.take (before.length + 1) ++ later)) = some report) ∧
          (CommandLine.Verbatim terminal .output stack → t.echo .output stack = stack ++ "\n") ∧
          (CommandLine.Verbatim terminal .errors error →
            t.echo .errors ("error: " ++ error) = "error: " ++ error ++ "\n") := by
  -- all three are compared with the series of evaluations that the server has gone through
  obtain ⟨evaluations, hseries, hshowable, hresponses⟩ :=
    Request.series_of_answerEach hcodes hserver hfault
  have hlength : x.responses.length = programs.length := by
    have hlines := congrArg List.length hcodes
    rw [List.length_map, List.length_map] at hlines
    rw [Request.length_responses hserver hfault, hlines]
  have hshown : x.responses.flatMap Response.shown =
      evaluations.flatMap (·.response.shown) := by
    rw [hresponses, List.flatMap_map]
  refine ⟨⟨hlength, ?_⟩, ?_, ?_, ?_⟩
  · rw [hresponses, List.forall_mem_map]
    exact fun evaluation _ => ⟨rfl, rfl⟩
  · intro threshold
    rw [hshown, Console.run, Text.lines_ofLines hprograms]
    simpa using Console.runLines_of_series hseries hshowable "" []
  · rw [hshown]
    intro line hline
    obtain ⟨evaluation, hmem, hline⟩ := List.mem_flatMap.1 hline
    obtain ⟨hstack, hmessage⟩ := hseries.isLine .fresh evaluation hmem
    exact Evaluation.isLine_shown hstack hmessage line hline
  · intro t terminal ht around hfuel hlimit
    rw [← hfuel] at hseries
    constructor
    · intro hall
      rw [hresponses] at hall
      have hsucceeds := Evaluation.failure_eq_none_of_ok hshowable hall
      have hsome : evaluations ≠ [] := by
        rintro rfl
        rw [hresponses] at hlength
        exact hne (List.eq_nil_of_length_eq_zero hlength.symm)
      have hlast := List.getLast?_eq_some_getLast hsome
      have hwritable := (hshowable _ (List.getLast_mem hsome)).writable
      obtain ⟨records, hrecords, hrun⟩ :=
        CommandLine.run_of_succeeds ht hseries hsucceeds hlast hwritable hne hlimit
      refine ⟨(evaluations.getLast hsome).response, _, records, ?_, rfl, hrecords, hrun,
        ht.echo_verbatim _ _⟩
      rw [hresponses, List.getLast?_map, hlast]
      rfl
    · intro before r after hsplit hgood hbad
      -- where the responses are cut, the series is cut
      rw [hresponses] at hsplit
      obtain ⟨earlier, others, rfl, rfl, hothers⟩ := List.map_eq_append_iff.1 hsplit
      obtain ⟨evaluation, later, rfl, rfl, -⟩ := List.map_eq_cons_iff.1 hothers
      have hsucceeds := Evaluation.failure_eq_none_of_ok
        (fun evaluation hmem => hshowable evaluation (List.mem_append_left _ hmem)) hgood
      have hwritable := (hshowable evaluation (by simp)).writable
      obtain ⟨e, hfailure, herror⟩ := evaluation.failure_of_ok hbad
      obtain ⟨records, hrecords, hrun⟩ :=
        CommandLine.run_of_error ht hseries hsucceeds hfailure hwritable hlimit
      rw [List.length_map]
      refine ⟨_, _, records, _, herror, rfl, hrecords, rfl, ?_, hrun, ht.echo_verbatim _ _, ?_⟩
      · have hgiven := hrun (programs.drop (earlier.length + 1))
        rwa [List.take_append_drop] at hgiven
      · intro hverbatim
        exact ht.echo_verbatim _ _ (hverbatim.append (by decide))

/-- Surroundings without environment variables. -/
def CommandLine.Surroundings.bare (fuel : Nat) : CommandLine.Surroundings :=
  ⟨[], Settings.initialLimit, fuel⟩

/-- An outside without files and input, where a terminal reads nothing. -/
def Main.Outside.piped : Main.Outside :=
  ⟨fun _ => .error "No such file or directory", "", fun _ => false⟩

/-- Requests to add, to divide by zero and to push a number. -/
def sumAndDivision : List Request.Line :=
  [.text "\x7b\"cmd\": \"eval\", \"code\": \"1 2 +\"\x7d",
    .text "\x7b\"cmd\": \"eval\", \"code\": \"1 0 /\"\x7d",
    .text "\x7b\"cmd\": \"eval\", \"code\": \"5\"\x7d"]

/-- What the server makes of these requests. -/
def sumAndDivisionExchange : Request.Exchange :=
  ⟨⟨[.plain (.integer 5), .plain (.integer 0), .plain (.integer 1), .plain (.integer 3)],
      Dictionary.builtins, 0⟩,
    [⟨true, none, some "[ 3 ]"⟩, ⟨false, some "cannot divide 1 by zero", some "[ 3 1 0 ]"⟩,
      ⟨true, none, some "[ 3 1 0 5 ]"⟩], [], none⟩

/-- Three programs, of which the second divides by zero. The console goes on with the third, and
the command line does not. -/
theorem frontEnds_agree_of_division :
    (∃ t, Console.run ⟨10000, 20, 30⟩ "" Session.fresh "1 2 +\n1 0 /\n5\n" = some t ∧
      t.output = "[ 3 ]\nerror: cannot divide 1 by zero\n[ 3 1 0 ]\n[ 3 1 0 5 ]\n") ∧
    CommandLine.run (Main.toolkit .piped) (.bare 20) ["-c", "1 2 +", "-c", "1 0 /", "-c", "5"] =
      some ⟨1, "[ 3 1 0 ]\n", "error: cannot divide 1 by zero\n", none⟩ := by
  have hlines : ∀ program ∈ ["1 2 +", "1 0 /", "5"], Text.IsLine program := by decide
  have hcodes : sumAndDivision.map (Request.Reader.json.code? 10000) =
      ["1 2 +", "1 0 /", "5"].map some := by
    decide +kernel
  have hserver : Request.answerEach .json ⟨10000, 20, 30⟩ Session.fresh sumAndDivision =
      some sumAndDivisionExchange := by
    decide +kernel
  obtain ⟨-, hconsole, -, hcommand⟩ :=
    frontEnds_agree (List.cons_ne_nil _ _) hlines hcodes hserver rfl
  constructor
  · obtain ⟨log, hrun⟩ := hconsole 30
    have htext : Text.ofLines (sumAndDivisionExchange.responses.flatMap Response.shown) =
        "[ 3 ]\nerror: cannot divide 1 by zero\n[ 3 1 0 ]\n[ 3 1 0 5 ]\n" := by
      decide +kernel
    exact ⟨_, hrun, htext⟩
  · obtain ⟨-, hfirst⟩ := hcommand _ _ (Main.documented_toolkit .piped) (.bare 20) rfl rfl
    obtain ⟨error, stack, records, report, herror, hstack, hrecords, rfl, hrun, -, houtput,
      herrors⟩ := hfirst [⟨true, none, some "[ 3 ]"⟩] _ _ rfl (by decide) rfl
    cases herror
    cases hstack
    rw [hrecords (by decide), houtput (Or.inr (by decide)), herrors (Or.inr (by decide))] at hrun
    exact hrun

/-- A program that leaves a symbol with a control sequence in it. The server and the console show
the stack as it is. Where no terminal reads the output, the command line writes it without the
control sequence. -/
theorem frontEnds_differ_of_controlSequence :
    ∃ (program : String) (line : Request.Line) (x : Request.Exchange)
      (report : CommandLine.Report),
      Text.IsLine program ∧ Request.Reader.json.code? 10000 line = some program ∧
      Request.answerEach .json ⟨10000, 10, 30⟩ Session.fresh [line] = some x ∧ x.fault = none ∧
      x.responses = [⟨true, none, some "[ \x1b[31mred ]"⟩] ∧
      (Console.run ⟨10000, 10, 30⟩ "" Session.fresh (Text.ofLines [program])).map (·.output) =
        some "[ \x1b[31mred ]\n" ∧
      Settings.raiseLimit Settings.initialLimit [] = .ok 10000 ∧
      CommandLine.run (Main.toolkit .piped) (.bare 10) (CommandLine.commands [program]) =
        some report ∧
      report.status = 0 ∧ report.output = "[ red ]\n" ∧
      report.output ≠ "[ \x1b[31mred ]\n" := by
  have hserver : Request.answerEach .json ⟨10000, 10, 30⟩ Session.fresh
      [.text "\x7b\"cmd\": \"eval\", \"code\": \"\\u001b[31mred\"\x7d"] =
        some ⟨⟨[.plain (.symbol "\x1b[31mred")], Dictionary.builtins, 0⟩,
          [⟨true, none, some "[ \x1b[31mred ]"⟩], [], none⟩ := by
    decide +kernel
  have hconsole : (Console.run ⟨10000, 10, 30⟩ "" Session.fresh
      (Text.ofLines ["\x1b[31mred"])).map (·.output) = some "[ \x1b[31mred ]\n" := by
    decide +kernel
  have hcommand : CommandLine.run (Main.toolkit .piped) (.bare 10)
      (CommandLine.commands ["\x1b[31mred"]) = some ⟨0, "[ red ]\n", "", none⟩ := by
    decide +kernel
  refine ⟨_, _, _, _, ?_, ?_, hserver, rfl, rfl, hconsole, rfl, hcommand, rfl, rfl, ?_⟩
  · decide
  · decide +kernel
  · decide

end Catena
