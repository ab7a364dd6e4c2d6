import Catena.Proofs.Request
import Catena.Proofs.Session
import Catena.Proofs.Session.Display
import Mathlib.Data.List.DropRight

/-!
# What a session remembers of its requests

Two kinds of request change the session. A request to evaluate a text leaves the session that
the evaluation leaves, whether it fails or not, and a request to clear leaves a fresh session.
Any other line leaves the session as it is: it may be no JSON, no object, name an unknown
command, or have a code that is no text (`Request.answer_cases`).

So the session after a series of requests is told by the texts that were to be evaluated since
the last request to clear (`Request.leadsTo_codesSinceClear`). Two series that agree on these
texts leave the same session, and whatever is asked next gets the same answer
(`Request.answer_of_codesSinceClear`).
-/

set_option autoImplicit false

namespace Catena

/-! ## Evaluations in a row -/

namespace Session

/-- Evaluating texts one after another, whether they fail or not, leads from the session `s`
to the session `s'`. -/
def LeadsTo (nesting : Nat) (s : Session) : List String → Session → Prop
  | [], s' => s = s'
  | text :: texts, s' =>
      ∃ middle failure, s.Ends nesting text middle failure ∧ middle.LeadsTo nesting texts s'

variable {nesting : Nat} {s middle s' s'' : Session} {texts : List String}

theorem LeadsTo.concat {text : String} {failure : Option Failure}
    (h : s.LeadsTo nesting texts middle) (hends : middle.Ends nesting text s' failure) :
    s.LeadsTo nesting (texts ++ [text]) s' := by
  induction texts generalizing s with
  | nil =>
      obtain rfl : s = middle := h
      exact ⟨s', failure, hends, rfl⟩
  | cons first texts ih =>
      obtain ⟨next, firstFailure, hfirst, hrest⟩ := h
      exact ⟨next, firstFailure, hfirst, ih hrest⟩

/-- Evaluations in a row lead to one session at most. -/
theorem LeadsTo.unique (h : s.LeadsTo nesting texts s') (h' : s.LeadsTo nesting texts s'') :
    s' = s'' := by
  induction texts generalizing s with
  | nil => exact h.symm.trans h'
  | cons first texts ih =>
      obtain ⟨next, failure, hfirst, hrest⟩ := h
      obtain ⟨next', failure', hfirst', hrest'⟩ := h'
      obtain ⟨rfl, -⟩ := hfirst.unique hfirst'
      exact ih hrest hrest'

end Session

namespace Request

/-! ## Lines that change the session -/

namespace Reader

/-- A line asks to evaluate a text: it is an object with the command `eval`, and its code,
which is empty if it is missing, is this text. -/
def AsksToEvaluate (reader : Reader) (nesting : Nat) (line : Line) (code : String) : Prop :=
  ∃ fields, reader.read nesting line = .datum (.object fields) ∧
    fields.lookup "cmd" = some (.string "eval") ∧
    (fields.lookup "code").getD (.string "") = .string code

/-- A line asks to clear the session: it is an object with the command `clear`. -/
def AsksToClear (reader : Reader) (nesting : Nat) (line : Line) : Prop :=
  ∃ fields, reader.read nesting line = .datum (.object fields) ∧
    fields.lookup "cmd" = some (.string "clear")

/-- Whether a line asks to clear the session. -/
def isClear (reader : Reader) (nesting : Nat) (line : Line) : Bool :=
  match reader.read nesting line with
  | .datum datum =>
      match Command.ofJson datum with
      | .clear => true
      | _ => false
  | _ => false

end Reader

/-- A code that is missing is an empty text. -/
theorem Command.ofJson_eq_eval_iff {datum : Json} {code : String} :
    ofJson datum = .eval code ↔
      ∃ fields, datum = .object fields ∧ fields.lookup "cmd" = some (.string "eval") ∧
        (fields.lookup "code").getD (.string "") = .string code := by
  constructor
  · intro h
    unfold ofJson at h
    split at h
    · rename_i fields
      refine ⟨fields, rfl, ?_⟩
      split at h
      · rename_i hcmd
        refine ⟨hcmd, ?_⟩
        split at h
        · rename_i hcode
          cases h
          rw [hcode, Option.getD_none]
        · rename_i text hcode
          cases h
          rw [hcode, Option.getD_some]
        · cases h
      all_goals cases h
    · cases h
  · rintro ⟨fields, rfl, hcmd, hcode⟩
    simp only [ofJson, hcmd]
    cases hfield : fields.lookup "code" with
    | none =>
        rw [hfield, Option.getD_none] at hcode
        cases hcode
        rfl
    | some datum =>
        rw [hfield, Option.getD_some] at hcode
        cases hcode
        rfl

theorem Command.ofJson_eq_clear_iff {datum : Json} :
    ofJson datum = .clear ↔
      ∃ fields, datum = .object fields ∧ fields.lookup "cmd" = some (.string "clear") := by
  constructor
  · intro h
    unfold ofJson at h
    split at h
    · rename_i fields
      refine ⟨fields, rfl, ?_⟩
      split at h
      · split at h <;> cases h
      · assumption
      all_goals cases h
    · cases h
  · rintro ⟨fields, rfl, hcmd⟩
    simp only [ofJson, hcmd]

namespace Reader

variable {reader : Reader} {nesting : Nat} {line : Line}

theorem code?_eq_some_iff_asks {code : String} :
    reader.code? nesting line = some code ↔ reader.AsksToEvaluate nesting line code := by
  rw [code?_eq_some_iff]
  constructor
  · rintro ⟨datum, hread, hcommand⟩
    obtain ⟨fields, rfl, hfields⟩ := Command.ofJson_eq_eval_iff.1 hcommand
    exact ⟨fields, hread, hfields⟩
  · rintro ⟨fields, hread, hfields⟩
    exact ⟨_, hread, Command.ofJson_eq_eval_iff.2 ⟨fields, rfl, hfields⟩⟩

theorem isClear_eq_true_iff :
    reader.isClear nesting line = true ↔
      ∃ datum, reader.read nesting line = .datum datum ∧ Command.ofJson datum = .clear := by
  unfold isClear
  cases reader.read nesting line with
  | datum datum => cases hcommand : Command.ofJson datum <;> simp [hcommand]
  | invalid reason => simp
  | fault f => simp

theorem isClear_iff_asks :
    reader.isClear nesting line = true ↔ reader.AsksToClear nesting line := by
  rw [isClear_eq_true_iff]
  constructor
  · rintro ⟨datum, hread, hcommand⟩
    obtain ⟨fields, rfl, hcmd⟩ := Command.ofJson_eq_clear_iff.1 hcommand
    exact ⟨fields, hread, hcmd⟩
  · rintro ⟨fields, hread, hcmd⟩
    exact ⟨_, hread, Command.ofJson_eq_clear_iff.2 ⟨fields, rfl, hcmd⟩⟩

end Reader

section Sessions

variable {reader : Reader} {bounds : Bounds} {s : Session} {line : Line} {lines : List Line}
  {a : Answer}
  {x : Exchange}

/-- A request to evaluate a text leaves the session that the evaluation leaves. -/
theorem Command.ends_of_answer {code : String} (h : (eval code).answer bounds s = some a) :
    ∃ failure, s.Ends bounds.nesting code a.session failure := by
  simp only [Command.answer, Option.map_eq_some_iff] at h
  obtain ⟨⟨after, failure, log⟩, heval, rfl⟩ := h
  have hends : s.Ends bounds.nesting code after failure := ⟨_, _, _, heval⟩
  refine ⟨failure, ?_⟩
  -- the session is the same however the evaluation has ended
  rcases failure with - | (e | f)
  · exact hends
  · exact hends
  · exact hends

/-- What answering a line does to the session. -/
theorem answer_cases (h : answer reader bounds s line = some a) :
    (reader.isClear bounds.nesting line = true ∧ a.session = Session.fresh) ∨
    (∃ code failure, reader.isClear bounds.nesting line = false ∧
      reader.code? bounds.nesting line = some code ∧ s.Ends bounds.nesting code a.session failure) ∨
    (reader.isClear bounds.nesting line = false ∧ reader.code? bounds.nesting line = none ∧
      a.session = s) := by
  unfold answer at h
  cases hread : reader.read bounds.nesting line with
  | datum datum =>
      simp only [hread] at h
      cases hcommand : Command.ofJson datum with
      | eval code =>
          rw [hcommand] at h
          obtain ⟨failure, hends⟩ := Command.ends_of_answer h
          exact Or.inr (Or.inl ⟨code, failure, by simp only [Reader.isClear, hread, hcommand],
            by simp only [Reader.code?, hread, hcommand], hends⟩)
      | clear =>
          rw [hcommand] at h
          cases h
          exact Or.inl ⟨by simp only [Reader.isClear, hread, hcommand], rfl⟩
      | invalid reason =>
          rw [hcommand] at h
          cases h
          exact Or.inr (Or.inr ⟨by simp only [Reader.isClear, hread, hcommand],
            by simp only [Reader.code?, hread, hcommand], rfl⟩)
      | unknown shown =>
          rw [hcommand] at h
          cases h
          exact Or.inr (Or.inr ⟨by simp only [Reader.isClear, hread, hcommand],
            by simp only [Reader.code?, hread, hcommand], rfl⟩)
  | invalid reason =>
      rw [hread] at h
      cases h
      exact Or.inr (Or.inr ⟨by simp only [Reader.isClear, hread],
        by simp only [Reader.code?, hread], rfl⟩)
  | fault f =>
      rw [hread] at h
      cases h
      exact Or.inr (Or.inr ⟨by simp only [Reader.isClear, hread],
        by simp only [Reader.code?, hread], rfl⟩)

/-! ## Series of requests -/

/-- The texts that requests ask to evaluate, from the last request to clear on. -/
def codesSinceClear (reader : Reader) (nesting : Nat) (lines : List Line) : List String :=
  (lines.rtakeWhile fun line => !reader.isClear nesting line).filterMap (reader.code? nesting)

/-- The session after a series of requests is the one to which the evaluations since the last
request to clear lead from a fresh session. -/
theorem leadsTo_codesSinceClear (h : answerEach reader bounds Session.fresh lines = some x)
    (hfault : x.fault = none) :
    Session.fresh.LeadsTo bounds.nesting (codesSinceClear reader bounds.nesting lines)
      x.session := by
  -- on the series from its end: the last request decides what the others count for
  induction lines using List.reverseRecOn generalizing x with
  | nil =>
      cases h
      rfl
  | append_singleton lines line ih =>
      obtain ⟨y, a, response, hlines, hnone, hanswer, -, rfl⟩ := answerEach_concat h hfault
      have hbefore := ih hlines hnone
      obtain ⟨hclear, hsession⟩ | ⟨code, failure, hclear, hcode, hends⟩ |
        ⟨hclear, hcode, hsession⟩ := answer_cases hanswer
      · have hcodes : codesSinceClear reader bounds.nesting (lines ++ [line]) = [] := by
          simp [codesSinceClear, hclear]
        rw [hcodes]
        exact hsession.symm
      · have hcodes : codesSinceClear reader bounds.nesting (lines ++ [line]) =
            codesSinceClear reader bounds.nesting lines ++ [code] := by
          simp [codesSinceClear, hclear, hcode]
        rw [hcodes]
        exact hbefore.concat hends
      · have hcodes : codesSinceClear reader bounds.nesting (lines ++ [line]) =
            codesSinceClear reader bounds.nesting lines := by
          simp [codesSinceClear, hclear, hcode]
        rw [hcodes]
        change Session.fresh.LeadsTo _ _ a.session
        rw [hsession]
        exact hbefore

end Sessions

/-- Two series of requests in fresh sessions, both without a fault, leave the same session if
they ask to evaluate the same texts since their last requests to clear. Whatever line comes
next gets the same answer in both. A line that asks neither to evaluate nor to clear changes no
session, and one that asks to clear leaves nothing of a session. -/
theorem answer_of_codesSinceClear {reader : Reader} {bounds bounds' : Bounds}
    {lines lines' : List Line} {x x' : Exchange} (hnesting : bounds.nesting = bounds'.nesting)
    (h : answerEach reader bounds Session.fresh lines = some x) (hfault : x.fault = none)
    (h' : answerEach reader bounds' Session.fresh lines' = some x') (hfault' : x'.fault = none)
    (hcodes : codesSinceClear reader bounds.nesting lines =
      codesSinceClear reader bounds.nesting lines') :
    x.session = x'.session ∧
    (∀ limits line, answer reader limits x.session line = answer reader limits x'.session line) ∧
    ∀ limits s line a, answer reader limits s line = some a →
      (reader.AsksToClear limits.nesting line → a.session = Session.fresh) ∧
      (¬ reader.AsksToClear limits.nesting line →
        (∀ code, ¬ reader.AsksToEvaluate limits.nesting line code) → a.session = s) := by
  have hsession : x.session = x'.session := by
    have hleads := leadsTo_codesSinceClear h hfault
    have hleads' := leadsTo_codesSinceClear h' hfault'
    rw [← hnesting, ← hcodes] at hleads'
    exact hleads.unique hleads'
  refine ⟨hsession, fun limits line => by rw [hsession], fun limits s line a hanswer => ?_⟩
  rw [← Reader.isClear_iff_asks]
  simp only [← Reader.code?_eq_some_iff_asks]
  obtain ⟨hclear, hfresh⟩ | ⟨code, failure, hclear, hcode, -⟩ | ⟨hclear, -, hsame⟩ :=
    answer_cases hanswer
  · exact ⟨fun _ => hfresh, fun hnot => absurd hclear hnot⟩
  · refine ⟨fun htrue => ?_, fun _ hnot => absurd hcode (hnot code)⟩
    rw [hclear] at htrue
    cases htrue
  · refine ⟨fun htrue => ?_, fun _ _ => hsame⟩
    rw [hclear] at htrue
    cases htrue

/-- Requests that define a word, clear, send a line that is no JSON, and divide by zero. -/
def divisionAfterClear : List Line :=
  [.text "\x7b\"cmd\": \"eval\", \"code\": \"[ dup * ] sq def 9\"\x7d",
    .text "\x7b\"cmd\": \"clear\"\x7d",
    .text "1 0 /",
    .text "\x7b\"cmd\": \"eval\", \"code\": \"1 0 /\"\x7d"]

/-- Requests that divide by zero and then have a code that is no text. -/
def divisionAtOnce : List Line :=
  [.text "\x7b\"code\": \"1 0 /\", \"cmd\": \"eval\"\x7d",
    .text "\x7b\"cmd\": \"eval\", \"code\": 9\x7d"]

/-- The two series above leave the same session, with a one under a zero on its stack. -/
theorem answer_of_codesSinceClear_of_division :
    ∃ x x' : Exchange,
      answerEach .json ⟨10000, 10, 100⟩ Session.fresh divisionAfterClear = some x ∧
      answerEach .json ⟨10000, 20, 100⟩ Session.fresh divisionAtOnce = some x' ∧
      x.session.stack = [.plain (.integer 0), .plain (.integer 1)] ∧
      x.session = x'.session := by
  have hafter : answerEach .json ⟨10000, 10, 100⟩ Session.fresh divisionAfterClear =
      some ⟨⟨[.plain (.integer 0), .plain (.integer 1)], Dictionary.builtins, 0⟩,
        [⟨true, none, some "[ 9 ]"⟩, ⟨true, none, some "[ ]"⟩,
          ⟨false, some "Invalid request: Extra data: line 1 column 3 (char 2)", none⟩,
          ⟨false, some "cannot divide 1 by zero", some "[ 1 0 ]"⟩], [], none⟩ := by
    decide +kernel
  have honce : answerEach .json ⟨10000, 20, 100⟩ Session.fresh divisionAtOnce =
      some ⟨⟨[.plain (.integer 0), .plain (.integer 1)], Dictionary.builtins, 0⟩,
        [⟨false, some "cannot divide 1 by zero", some "[ 1 0 ]"⟩,
          ⟨false, some "Invalid request: code must be a string", none⟩], [], none⟩ := by
    decide +kernel
  have hcodes : codesSinceClear .json 10000 divisionAfterClear =
      codesSinceClear .json 10000 divisionAtOnce := by
    decide +kernel
  have hnesting : (⟨10000, 10, 100⟩ : Bounds).nesting = (⟨10000, 20, 100⟩ : Bounds).nesting := rfl
  exact ⟨_, _, hafter, honce, rfl,
    (answer_of_codesSinceClear hnesting hafter rfl honce rfl hcodes).1⟩

end Request

end Catena
