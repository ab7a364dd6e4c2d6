import Catena.Proofs.Machine.Faults
import Catena.Proofs.Program.Grammar
import Catena.Proofs.Session
import Catena.Proofs.Value.Spelling

/-!
# Evaluations that end in a fault

An evaluation that does not succeed should end in an error of the language. It ends in a
fault exactly when it comes to a node with a text that is too long
(`Session.eval_failure_eq_fault_iff`): reading reports errors of syntax only, exhausted
nesting surfaces as an error, and nothing else can go wrong.

For the three kinds of such nodes the bound is exact. A numeral that is not bound is
evaluated to its integer exactly when it has at most `digitLimit` characters, leading zeros
included. A division by zero and an operand of the wrong kind are reported exactly when the
integer to be named is less than `writeBound` (`Session.fault_iff_overlong`).
-/

set_option autoImplicit false

namespace Catena

/-- Exhausted nesting apart, faults surface as they are. -/
theorem Failure.surface_eq_fault_iff {failure : Failure} {f : Fault} :
    failure.surface = .fault f ↔ failure = .fault f ∧ f ≠ .nestingTooDeep := by
  unfold Failure.surface
  split
  · constructor
    · intro h
      cases h
    · rintro ⟨h, hne⟩
      cases h
      exact absurd rfl hne
  · rename_i hdeep
    constructor
    · rintro rfl
      exact ⟨rfl, fun hf => hdeep (by rw [hf])⟩
    · exact And.left

/-! ## Numerals -/

namespace Value

theorem isNumeral_iff {name : String} :
    isNumeral name = true ↔
      name.toList ≠ [] ∧ ∀ c ∈ name.toList, Text.isAsciiDigit c = true := by
  simp [isNumeral]

/-- A numeral is a token. -/
theorem isToken_of_isNumeral {name : String} (h : isNumeral name = true) : Text.IsToken name := by
  obtain ⟨hne, hdigits⟩ := isNumeral_iff.1 h
  exact Text.isToken_of_decimal hne fun c hc => Or.inr (hdigits c hc)

/-- The numeral of `k` zeros. -/
def zeros (k : Nat) : String :=
  String.ofList (List.replicate k '0')

theorem length_zeros (k : Nat) : (zeros k).length = k := by
  rw [zeros, String.length_ofList, List.length_replicate]

theorem isNumeral_zeros {k : Nat} (h : 0 < k) : isNumeral (zeros k) = true := by
  rw [isNumeral_iff, zeros, String.toList_ofList]
  refine ⟨List.ne_nil_of_length_pos (by rwa [List.length_replicate]), fun c hc => ?_⟩
  rw [List.eq_of_mem_replicate hc]
  rfl

theorem natOfDigits_zeros (k : Nat) : Text.natOfDigits (zeros k).toList = 0 := by
  rw [zeros, String.toList_ofList]
  induction k with
  | zero => rfl
  | succ k ih => exact ih

end Value

namespace Program

/-- Values made of groups and tokens are read from the text in which their tokens are joined
by single spaces. -/
theorem read_intercalate {nodes : List Value} (h : ∀ v ∈ nodes, v.OfTokens) :
    read (" ".intercalate (nodes.flatMap Value.tokens)) = .ok nodes := by
  refine read_eq_ok_iff.2 ⟨fun v hv => (h v hv).syntactic, ?_⟩
  rw [Text.words_intercalate]
  intro t ht
  obtain ⟨v, hv, ht⟩ := List.mem_flatMap.1 ht
  exact Value.isWord_of_mem_tokens (h v hv).tokenNamed t ht

/-- A token alone is read as a symbol. -/
theorem read_of_isToken {name : String} (h : Text.IsToken name) :
    read name = .ok [.symbol name] := by
  have hnodes : ∀ v ∈ [Value.symbol name], v.OfTokens := by
    intro v hv
    rw [List.mem_singleton] at hv
    subst hv
    exact .symbol ⟨name, rfl, h⟩
  simpa using read_intercalate hnodes

end Program

/-- A quotation is data. -/
theorem Action.ofNode_of_isQuotation {d : Dictionary} {v : Value} (h : v.isQuotation = true) :
    Action.ofNode d v = .ok (.push v) := by
  refine Action.ofNode_eq_push_iff.2 (Or.inl ⟨rfl, ?_⟩)
  rintro name rfl
  cases h

/-- No built-in word is a numeral. -/
theorem Dictionary.get?_builtins_of_isNumeral {name : String}
    (h : Value.isNumeral name = true) : Dictionary.builtins.get? name = none := by
  have hfind : ∀ bindings : List (String × Operation),
      (∀ binding ∈ bindings, Value.isNumeral binding.1 = false) →
      find? name bindings = none := by
    intro bindings hbindings
    induction bindings with
    | nil => rfl
    | cons binding rest ih =>
        obtain ⟨hfirst, hrest⟩ := List.forall_mem_cons.1 hbindings
        have hne : binding.1 ≠ name := by
          intro heq
          rw [heq, h] at hfirst
          cases hfirst
        rw [find?, if_neg hne]
        exact ih hrest
  -- the names of the twenty words are looked through once
  exact hfind _ (by decide +kernel)

namespace Session

/-! ## Evaluations -/

/-- How an evaluation fails. The text is refused by an error of syntax, or the machine comes
to a node that fails, and the failure of this node surfaces. -/
theorem eval_failure_cases {bounds : Bounds} {s : Session} {text : String}
    {evaluation : Evaluation} {surfaced : Failure} (heval : s.eval bounds text = some evaluation)
    (hfailure : evaluation.failure = some surfaced) :
    (∃ e, Program.read text = .error (.error e) ∧ e.isSyntax = true ∧ surfaced = .error e) ∨
    ∃ nodes node τ items below failure left, Program.read text = .ok nodes ∧
      Machine.Reaches bounds.nesting (Machine.start nodes s.stack s.words s.marks)
        (Session.machine τ ((.node node :: items) :: below)) ∧
      FailsInside bounds.nesting (nodes.map .plain) s node τ (savedEntries (items :: below)) ∧
      Machine.Fails bounds.nesting node τ.stack τ.words τ.marks failure left ∧
      failure.surface = surfaced ∧
      evaluation.session =
        (Machine.fail ⟨left, τ.words, τ.marks, items :: below⟩ failure).session := by
  rcases eval_cases heval with ⟨failure, hread, -, hfail⟩ | ⟨nodes, o, hread, hhalts, hses, hfail⟩
  · obtain ⟨e, rfl, hsyntax⟩ := Program.isSyntax_of_read_error hread
    rw [hfailure, Option.some.injEq] at hfail
    exact Or.inl ⟨e, hread, hsyntax, hfail⟩
  · rw [hfailure] at hfail
    obtain ⟨failure, hsome, hsurface⟩ := Option.map_eq_some_iff.1 hfail.symm
    have hfailed : o.failure ≠ none := by simp [hsome]
    obtain ⟨node, τ, items, below, failure, left, hreach, hfails, hinside, rfl⟩ :=
      hhalts.failsInside hfailed
    rw [Machine.fail_eq_putBack, Outcome.putBack_failure] at hsome
    cases hsome
    exact Or.inr ⟨nodes, node, τ, items, below, failure, left, hread, hreach, hinside, hfails,
      hsurface, hses⟩

/-- An evaluation ends in a fault exactly when it comes to a node with a text that is too
long, and the fault is that of the node. -/
theorem eval_failure_eq_fault_iff {bounds : Bounds} {s : Session} {text : String}
    {evaluation : Evaluation} (heval : s.eval bounds text = some evaluation) (f : Fault) :
    evaluation.failure = some (.fault f) ↔
      ∃ nodes m node items below, Program.read text = .ok nodes ∧
        Machine.Reaches bounds.nesting (Machine.start nodes s.stack s.words s.marks) m ∧
        m.frames = (.node node :: items) :: below ∧
        Overlong m.words m.stack node.value f := by
  constructor
  · intro h
    rcases eval_failure_cases heval h with ⟨e, -, -, herror⟩ |
      ⟨nodes, node, τ, items, below, failure, left, hread, hreach, -, hfails, hsurface, -⟩
    · cases herror
    obtain ⟨rfl, hne⟩ := Failure.surface_eq_fault_iff.1 hsurface
    rcases Machine.fails_fault_iff.1 hfails with ⟨hover, -⟩ | ⟨hdeep, -⟩
    · exact ⟨nodes, _, node, items, below, hread, hreach, rfl, hover⟩
    · exact absurd hdeep hne
  · rintro ⟨nodes, m, node, items, below, hread, hreach, hframes, hover⟩
    obtain ⟨stack, words, marks, frames⟩ := m
    subst hframes
    -- the machine stops at that node, and no evaluation ends in two ways
    have hhalts := Machine.halts_iff.2 ⟨_, hreach, .failed (Machine.fails_of_overlong hover)⟩
    have hends := (ends_iff_halts hread).2 ⟨_, hhalts, rfl, rfl⟩
    have hsame := Ends.unique ⟨bounds.fuel, bounds.threshold, evaluation.log, heval⟩ hends
    have hsurface : Failure.surface (.fault f) = .fault f :=
      Failure.surface_eq_fault_iff.2 ⟨rfl, hover.ne_nestingTooDeep⟩
    rw [hsame.2, Machine.fail_eq_putBack, Outcome.putBack_failure, Option.map_some, hsurface]

section Numerals

variable {nesting : Nat} {s : Session} {name : String}

/-- The session in which a numeral has been evaluated. -/
def withNumeral (s : Session) (name : String) : Session :=
  ⟨.plain (.integer (Text.natOfDigits name.toList)) :: s.stack, s.words, s.marks⟩

/-- A numeral that is short enough is evaluated to its integer. -/
theorem ends_numeral_of_le (hnumeral : Value.isNumeral name = true)
    (hfree : s.words.get? name = none) (hlen : name.length ≤ digitLimit) :
    s.Ends nesting name (s.withNumeral name) none := by
  have hread : Value.readNumeral name = .ok (Text.natOfDigits name.toList : Int) := by
    simp [Value.readNumeral, String.length_toList, hlen]
  have hnode : Action.ofNode s.words (.symbol name) =
      .ok (.push (.integer (Text.natOfDigits name.toList))) :=
    Action.ofNode_eq_push_iff.2 (Or.inr ⟨name, _, rfl, hfree, hnumeral, hread, rfl⟩)
  rw [ends_iff_evaluates (Program.read_of_isToken (Value.isToken_of_isNumeral hnumeral))]
  exact ⟨_, .cons (.push hnode) rfl (.nil _), rfl, rfl⟩

/-- A numeral that is too long ends the evaluation in a fault. -/
theorem ends_numeral_of_lt (hnumeral : Value.isNumeral name = true)
    (hfree : s.words.get? name = none) (hlen : digitLimit < name.length) :
    s.Ends nesting name s (some (.fault (.numeralTooLong name.length))) := by
  have hover : Overlong s.words s.stack (Entry.plain (.symbol name)).value
      (.numeralTooLong name.length) := .numeral hfree hnumeral hlen
  rw [ends_iff_evaluates (Program.read_of_isToken (Value.isToken_of_isNumeral hnumeral))]
  exact ⟨_, .stop (.fail (Machine.fails_of_overlong hover)) (Option.some_ne_none _), rfl, rfl⟩

/-- A numeral that is not bound is evaluated to its integer exactly when it is short
enough. -/
theorem ends_numeral_iff (hnumeral : Value.isNumeral name = true)
    (hfree : s.words.get? name = none) :
    s.Ends nesting name (s.withNumeral name) none ↔ name.length ≤ digitLimit := by
  refine ⟨fun h => ?_, ends_numeral_of_le hnumeral hfree⟩
  apply Nat.le_of_not_lt
  intro hlen
  have hfault : s.Ends nesting name s (some (.fault (.numeralTooLong name.length))) :=
    ends_numeral_of_lt hnumeral hfree hlen
  cases (h.unique hfault).2

end Numerals

end Session

/-! ## Words -/

section Words

variable {limit : Nat} {d : Dictionary} {marks : Nat}

/-- A division by zero is reported exactly when the dividend can be named. -/
theorem Builtin.run_over_zero_iff {top deeper : Entry} {n : Int} {rest : Stack}
    (hzero : top.value.integer? = some 0) (hn : deeper.value.integer? = some n) :
    (Builtin.arithmetic .over).run limit (top :: deeper :: rest) d marks =
        .failed (.error (.divisionByZero n)) (top :: deeper :: rest) ↔
      n.natAbs < writeBound := by
  have hrun : (Builtin.arithmetic .over).run limit (top :: deeper :: rest) d marks =
      .failed (Error.divisionByZero n).raise (top :: deeper :: rest) :=
    Builtin.run_of_fails (.zeroDivisor hzero hn)
  rw [hrun, Attempt.failed.injEq, and_iff_left rfl, Error.raise_eq_error_iff,
    ← Bool.not_eq_false, Error.wordable_divisionByZero_eq_false_iff, Nat.not_le]

/-- An operand of the wrong kind is reported exactly when it can be named. -/
theorem Builtin.run_misfit_iff {b : Builtin} {s : Stack} {kind : Kind} {v : Value}
    (hlen : b.kinds.length ≤ s.length) (hmisfit : Operands.Misfit b.kinds s kind v) :
    b.run limit s d marks = .failed (.error (.wrongKind b.word kind v)) s ↔
      ∀ n, v = .integer n → n.natAbs < writeBound := by
  have hrun : b.run limit s d marks = .failed (Error.wrongKind b.word kind v).raise s :=
    Builtin.run_of_fails (.misfit hlen hmisfit)
  rw [hrun, Attempt.failed.injEq, and_iff_left rfl, Error.raise_eq_error_iff,
    Error.wordable_wrongKind, ← Bool.not_eq_false, Value.wordable_eq_false_iff]
  simp only [not_exists, not_and, Nat.not_le]

end Words

/-! ## The bound -/

namespace Session

/-- Evaluating a text ends in a fault exactly when it comes to a node with a text that is
too long; in all other cases it succeeds or ends in an error of the language. In
particular, a numeral that is not bound is evaluated to its integer exactly when it has at
most `digitLimit` characters, a division by zero is reported exactly when the dividend is
less than `writeBound`, and an operand of the wrong kind is reported exactly when it is no
integer or one less than `writeBound`. -/
theorem fault_iff_overlong (s : Session) :
    (∀ bounds text evaluation, s.eval bounds text = some evaluation → ∀ f,
      evaluation.failure = some (.fault f) ↔
        ∃ nodes m node items below, Program.read text = .ok nodes ∧
          Machine.Reaches bounds.nesting (Machine.start nodes s.stack s.words s.marks) m ∧
          m.frames = (.node node :: items) :: below ∧
          Overlong m.words m.stack node.value f) ∧
    (∀ nesting name, Value.isNumeral name = true → s.words.get? name = none →
      (s.Ends nesting name (s.withNumeral name) none ↔ name.length ≤ digitLimit)) ∧
    (∀ limit d marks (top deeper : Entry) n rest,
      top.value.integer? = some 0 → deeper.value.integer? = some n →
      ((Builtin.arithmetic .over).run limit (top :: deeper :: rest) d marks =
          .failed (.error (.divisionByZero n)) (top :: deeper :: rest) ↔
        n.natAbs < writeBound)) ∧
    ∀ limit d marks (b : Builtin) (stack : Stack) kind v,
      b.kinds.length ≤ stack.length → Operands.Misfit b.kinds stack kind v →
      (b.run limit stack d marks = .failed (.error (.wrongKind b.word kind v)) stack ↔
        ∀ n, v = .integer n → n.natAbs < writeBound) := by
  refine ⟨?_, ?_, ?_, ?_⟩
  · intro bounds text evaluation heval f
    exact eval_failure_eq_fault_iff heval f
  · intro nesting name hnumeral hfree
    exact ends_numeral_iff hnumeral hfree
  · intro limit d marks top deeper n rest hzero hn
    exact Builtin.run_over_zero_iff hzero hn
  · intro limit d marks b stack kind v hlen hmisfit
    exact Builtin.run_misfit_iff hlen hmisfit

/-- Dividing seven by zero ends in an error of the language, so no node on the way has a
text that is too long. -/
theorem fault_iff_overlong_of_division :
    ∃ evaluation, Session.fresh.eval ⟨10000, 10, 100⟩ "7 0 /" = some evaluation ∧
      evaluation.failure = some (.error (.divisionByZero 7)) ∧
      ¬ ∃ f nodes m node items below, Program.read "7 0 /" = .ok nodes ∧
        Machine.Reaches 10000 (Machine.start nodes [] Dictionary.builtins 0) m ∧
        m.frames = (.node node :: items) :: below ∧ Overlong m.words m.stack node.value f := by
  have heval : Session.fresh.eval ⟨10000, 10, 100⟩ "7 0 /" =
      some ⟨⟨[.plain (.integer 0), .plain (.integer 7)], Dictionary.builtins, 0⟩,
        some (.error (.divisionByZero 7)), []⟩ := by
    decide +kernel
  refine ⟨_, heval, rfl, ?_⟩
  rintro ⟨f, hover⟩
  cases ((fault_iff_overlong Session.fresh).1 _ _ _ heval f).2 hover

/-- A numeral of 4301 zeros denotes the integer zero, but evaluating it in a fresh session
ends in a fault. -/
theorem fault_of_long_zero :
    Value.isNumeral (Value.zeros 4301) = true ∧
    Text.natOfDigits (Value.zeros 4301).toList = 0 ∧
    Session.fresh.Ends 10000 (Value.zeros 4301) Session.fresh
      (some (.fault (.numeralTooLong 4301))) := by
  have hnumeral : Value.isNumeral (Value.zeros 4301) = true :=
    Value.isNumeral_zeros (Nat.succ_pos _)
  have hlong : digitLimit < (Value.zeros 4301).length := by
    rw [Value.length_zeros]
    decide
  have hfree : Session.fresh.words.get? (Value.zeros 4301) = none :=
    Dictionary.get?_builtins_of_isNumeral hnumeral
  have hends : Session.fresh.Ends 10000 (Value.zeros 4301) Session.fresh
      (some (.fault (.numeralTooLong (Value.zeros 4301).length))) :=
    ends_numeral_of_lt hnumeral hfree hlong
  rw [Value.length_zeros] at hends
  exact ⟨hnumeral, Value.natOfDigits_zeros 4301, hends⟩

end Session

end Catena
