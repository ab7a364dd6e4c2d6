import Catena.Proofs.Evaluation.Agreement

/-!
# What can happen to a session

Evaluating a text either leaves the session alone, because the text cannot be
read, or runs its nodes on a machine that halts (`Session.eval_cases`). `Session.Ends`
says that an evaluation comes to its end, without saying after how many steps, and
`Session.Ends.unique` that it does so in one way.

A session is reachable when it comes from a fresh one by evaluating texts,
evaluating preludes and resetting, in any order and under any bounds. Evaluations
that fail count like the others. What holds of a fresh session and is kept by every
evaluation and by emptying the stack holds of all reachable sessions
(`Session.Reachable.preserves`).
-/

set_option autoImplicit false

namespace Catena.Session

/-- What an evaluation does: it refuses a text that cannot be read, or it runs the
nodes of the text to their end. -/
theorem eval_cases {bounds : Bounds} {s : Session} {text : String} {evaluation : Evaluation}
    (h : s.eval bounds text = some evaluation) :
    (∃ failure, Program.read text = .error failure ∧
      evaluation.session = s ∧ evaluation.failure = some failure) ∨
    ∃ nodes o, Program.read text = .ok nodes ∧
      Machine.Halts bounds.nesting (Machine.start nodes s.stack s.words s.marks) o ∧
      evaluation.session = o.session ∧ evaluation.failure = o.failure.map Failure.surface := by
  unfold Session.eval at h
  cases hread : Program.read text with
  | error failure =>
      simp only [hread, Option.some.injEq] at h
      subst h
      exact Or.inl ⟨failure, rfl, rfl, rfl⟩
  | ok nodes =>
      simp only [hread, Session.runNodes, Option.map_map, Option.map_eq_some_iff] at h
      obtain ⟨o, hrun, rfl⟩ := h
      exact Or.inr ⟨nodes, o, rfl, ⟨bounds.fuel, hrun⟩, rfl, rfl⟩

/-! ## Evaluations that end -/

/-- Evaluating a text in the session `s` ends: with the right number of steps it
leaves the session `s'` and reports `failure`. The nesting limit is fixed; the number
of steps and the threshold of the log are not. -/
def Ends (nesting : Nat) (s : Session) (text : String) (s' : Session)
    (failure : Option Failure) : Prop :=
  ∃ fuel threshold log, s.eval ⟨nesting, fuel, threshold⟩ text = some ⟨s', failure, log⟩

section Ending

variable {nesting : Nat} {s s' : Session} {text : String} {failure : Option Failure}

/-- Evaluating a text that can be read ends as the machine does that runs its nodes. -/
theorem ends_iff_halts {nodes : List Value} (hread : Program.read text = .ok nodes) :
    s.Ends nesting text s' failure ↔
      ∃ o, Machine.Halts nesting (Machine.start nodes s.stack s.words s.marks) o ∧
        o.session = s' ∧ o.failure.map Failure.surface = failure := by
  constructor
  · rintro ⟨fuel, threshold, log, heval⟩
    rcases eval_cases heval with ⟨refusal, herror, -, -⟩ | ⟨nodes', o, hok, hhalts, hses, hfail⟩
    · rw [hread] at herror
      cases herror
    · rw [hread] at hok
      cases hok
      exact ⟨o, hhalts, hses.symm, hfail.symm⟩
  · rintro ⟨o, ⟨fuel, hrun⟩, rfl, rfl⟩
    -- with the log switched off, what is evaluated is the outcome alone
    refine ⟨fuel, Level.rank .debug + 1, [], ?_⟩
    simp only [Session.eval, hread, Session.runNodes, hrun, Option.map_some]
    rfl

/-- Evaluating a text that can be read ends as its nodes do recursively. -/
theorem ends_iff_evaluates {nodes : List Value} (hread : Program.read text = .ok nodes) :
    s.Ends nesting text s' failure ↔
      ∃ o, Evaluates nesting (nodes.map .plain) s o ∧ o.session = s' ∧
        o.failure.map Failure.surface = failure := by
  rw [ends_iff_halts hread]
  refine exists_congr fun o => and_congr_left fun _ => ?_
  exact ⟨evaluates_of_halts, halts_of_evaluates⟩

/-- Evaluating a text that cannot be read ends at once. -/
theorem ends_iff_of_read_error {refusal : Failure} (hread : Program.read text = .error refusal) :
    s.Ends nesting text s' failure ↔ s = s' ∧ some refusal = failure := by
  constructor
  · rintro ⟨fuel, threshold, log, heval⟩
    simp only [Session.eval, hread, Option.some.injEq, Evaluation.mk.injEq] at heval
    exact ⟨heval.1, heval.2.1⟩
  · rintro ⟨rfl, rfl⟩
    exact ⟨0, 0, [], by simp only [Session.eval, hread]⟩

/-- An evaluation ends in one way at most. -/
theorem Ends.unique {s'' : Session} {failure' : Option Failure}
    (h : s.Ends nesting text s' failure) (h' : s.Ends nesting text s'' failure') :
    s' = s'' ∧ failure = failure' := by
  cases hread : Program.read text with
  | error refusal =>
      rw [ends_iff_of_read_error hread] at h h'
      exact ⟨h.1.symm.trans h'.1, h.2.symm.trans h'.2⟩
  | ok nodes =>
      rw [ends_iff_halts hread] at h h'
      obtain ⟨o, hhalts, rfl, rfl⟩ := h
      obtain ⟨o', hhalts', rfl, rfl⟩ := h'
      obtain rfl := hhalts.unique hhalts'
      exact ⟨rfl, rfl⟩

end Ending

/-! ## Reachable sessions -/

/-- The sessions that a fresh one can become. -/
inductive Reachable : Session → Prop
  | fresh : Reachable fresh
  | eval {s : Session} {bounds : Bounds} {text : String} {evaluation : Evaluation} :
      Reachable s → s.eval bounds text = some evaluation → Reachable evaluation.session
  | prepare {s : Session} {bounds : Bounds} {text : String} {evaluation : Evaluation} :
      Reachable s → s.prepare bounds text = some evaluation → Reachable evaluation.session
  | reset {s : Session} {bounds : Bounds} : Reachable s → Reachable (s.reset bounds).session

/-- Evaluating a prelude is evaluating a text, and then possibly emptying the
stack. -/
theorem prepare_cases {bounds : Bounds} {s : Session} {text : String} {evaluation : Evaluation}
    (h : s.prepare bounds text = some evaluation) :
    ∃ before, s.eval bounds text = some before ∧
      (evaluation.session = before.session ∨
        evaluation.session = { before.session with stack := [] }) := by
  simp only [prepare, Option.map_eq_some_iff] at h
  obtain ⟨before, heval, rfl⟩ := h
  refine ⟨before, heval, ?_⟩
  split
  · exact Or.inr rfl
  · exact Or.inl rfl

/-- What a fresh session has, and evaluating and emptying the stack keep, every
reachable session has. -/
theorem Reachable.preserves {P : Session → Prop} (hfresh : P Session.fresh)
    (heval : ∀ s bounds text evaluation, P s → s.eval bounds text = some evaluation →
      P evaluation.session)
    (hempty : ∀ s : Session, P s → P { s with stack := [] }) {s : Session} (h : Reachable s) :
    P s := by
  induction h with
  | fresh => exact hfresh
  | eval _ hrun ih => exact heval _ _ _ _ ih hrun
  | prepare _ hrun ih =>
      obtain ⟨before, hbefore, heq | heq⟩ := prepare_cases hrun
      · rw [heq]
        exact heval _ _ _ _ ih hbefore
      · rw [heq]
        exact hempty _ (heval _ _ _ _ ih hbefore)
  | reset _ _ => exact hfresh

end Catena.Session
