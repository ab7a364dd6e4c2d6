import Catena.Proofs.Session.Bindings
import Catena.Proofs.Session.Faults
import Catena.Proofs.Value.Comparison

/-!
# When a word succeeds

A built-in word judges its stack in a fixed order. There have to be enough values; then, from the
top down, each operand has to be of the kind expected of it; then a divisor must not be zero. The
first of these conditions that is not met decides what is reported, and if all are met the word
succeeds (`Builtin.Verdict`). The kinds of the operands are those of `Builtin.kinds`, for all
words alike, although each word checks and removes its operands in a way of its own.

What the words for arithmetic and comparison push is stated by `Arithmetic.Yields`. Division
rounds towards the lower integer, for divisors of either sign.
-/

set_option autoImplicit false

namespace Catena

/-! ## Operands of the wrong kind -/

/-- The values that a kind accepts. A boolean is no integer, and a name is a symbol, bare or
alone in a quotation. -/
inductive Kind.Accepts : Kind → Value → Prop
  | any (v : Value) : Accepts .any v
  | integer (n : Int) : Accepts .integer (.integer n)
  | quotation (items : List Value) : Accepts .quotation (.quotation items)
  | symbol (name : String) : Accepts .name (.symbol name)
  | enclosed (name : String) : Accepts .name (.quotation [.symbol name])

theorem Value.integer?_eq_some_iff {v : Value} {n : Int} :
    v.integer? = some n ↔ v = .integer n := by
  cases v <;> simp [Value.integer?]

/-- An operand can be read exactly when its kind accepts it. -/
theorem Kind.view?_ne_none_iff {kind : Kind} {e : Entry} :
    kind.view? e ≠ none ↔ kind.Accepts e.value := by
  obtain ⟨v, mark⟩ := e
  constructor
  · intro h
    cases kind with
    | any => exact .any v
    | integer =>
        cases v with
        | integer n => exact .integer n
        | boolean _ | symbol _ | quotation _ | emptyMapping | mapping _ _ => exact absurd rfl h
    | quotation =>
        cases v with
        | quotation items => exact .quotation items
        | integer _ | boolean _ | symbol _ | emptyMapping | mapping _ _ => exact absurd rfl h
    | name =>
        obtain ⟨name, hname⟩ := Option.ne_none_iff_exists'.1 h
        change v.name? = some name at hname
        rcases Value.name?_eq_some_iff.1 hname with rfl | rfl
        · exact .symbol name
        · exact .enclosed name
  · intro h hnone
    cases h <;> cases hnone

namespace Operands

/-- The value `v`, which lies `depth` places below the top, is not of the kind expected there,
and all operands above it are of theirs. -/
structure WrongAt (kinds : List Kind) (s : Stack) (depth : Nat) (kind : Kind) (v : Value) :
    Prop where
  expected : kinds[depth]? = some kind
  found : (s.map (·.value))[depth]? = some v
  refused : ¬ kind.Accepts v
  above : ∀ i < depth, ∀ k w, kinds[i]? = some k → (s.map (·.value))[i]? = some w → k.Accepts w

variable {kinds : List Kind} {s : Stack} {kind : Kind} {v : Value}

/-- The topmost operand that does not fit, by its place. -/
theorem misfit_iff_wrongAt : Misfit kinds s kind v ↔ ∃ depth, WrongAt kinds s depth kind v := by
  constructor
  · intro h
    induction h with
    | top hnone =>
        refine ⟨0, rfl, rfl, mt Kind.view?_ne_none_iff.2 (not_not_intro hnone), ?_⟩
        intro i hi
        cases hi
    | deeper hfits _ ih =>
        obtain ⟨depth, hexpected, hfound, hrefused, habove⟩ := ih
        refine ⟨depth + 1, hexpected, hfound, hrefused, ?_⟩
        intro i hi k w hk hw
        cases i with
        | zero =>
            cases hk
            cases hw
            exact Kind.view?_ne_none_iff.1 hfits
        | succ i => exact habove i (Nat.lt_of_succ_lt_succ hi) k w hk hw
  · rintro ⟨depth, hexpected, hfound, hrefused, habove⟩
    induction depth generalizing kinds s with
    | zero =>
        cases kinds with
        | nil => cases hexpected
        | cons k kinds =>
            cases s with
            | nil => cases hfound
            | cons e s =>
                cases hexpected
                cases hfound
                exact .top (Classical.not_not.1 (mt Kind.view?_ne_none_iff.1 hrefused))
    | succ depth ih =>
        cases kinds with
        | nil => cases hexpected
        | cons k kinds =>
            cases s with
            | nil => cases hfound
            | cons e s =>
                have hfits : k.view? e ≠ none :=
                  Kind.view?_ne_none_iff.2 (habove 0 (Nat.succ_pos _) k e.value rfl rfl)
                refine .deeper hfits (ih hexpected hfound ?_)
                intro i hi k' w hk hw
                exact habove (i + 1) (Nat.succ_lt_succ hi) k' w hk hw

/-- The operand that is wrong is one of the operands. -/
theorem WrongAt.mem_take {depth : Nat} (h : WrongAt kinds s depth kind v) :
    ∃ e ∈ s.take kinds.length, e.value = v := by
  obtain ⟨hlt, -⟩ := List.getElem?_eq_some_iff.1 h.expected
  have hfound := h.found
  rw [List.getElem?_map, Option.map_eq_some_iff] at hfound
  obtain ⟨e, he, hv⟩ := hfound
  refine ⟨e, List.mem_iff_getElem?.2 ⟨depth, ?_⟩, hv⟩
  rw [List.getElem?_take_of_lt hlt]
  exact he

end Operands

/-! ## Results of arithmetic -/

/-- What an arithmetic word pushes for the deeper operand `b` and the top operand `a`. A quotient
is the integer with `b` between it and the next one, counted in divisors. -/
def Arithmetic.Yields : Arithmetic → Int → Int → Value → Prop
  | .plus, b, a, v => v = .integer (b + a)
  | .minus, b, a, v => v = .integer (b - a)
  | .times, b, a, v => v = .integer (b * a)
  | .over, b, a, v => ∃ q, v = .integer q ∧
      (0 < a ∧ q * a ≤ b ∧ b < (q + 1) * a ∨ a < 0 ∧ q * a ≥ b ∧ b > (q + 1) * a)
  | .less, b, a, v => v = .boolean (decide (b < a))
  | .greater, b, a, v => v = .boolean (decide (b > a))
  | .atMost, b, a, v => v = .boolean (decide (b ≤ a))
  | .atLeast, b, a, v => v = .boolean (decide (b ≥ a))

/-- Division rounds towards the lower integer. -/
theorem Arithmetic.fdiv_eq_iff {a b q : Int} (ha : a ≠ 0) :
    b.fdiv a = q ↔
      0 < a ∧ q * a ≤ b ∧ b < (q + 1) * a ∨ a < 0 ∧ q * a ≥ b ∧ b > (q + 1) * a := by
  have hnext : (q + 1) * a = q * a + a := by rw [Int.add_mul, Int.one_mul]
  rw [hnext]
  rcases Int.lt_or_gt_of_ne ha with hneg | hpos
  · -- both signs are turned round, so that the divisor is positive
    rw [← Int.neg_fdiv_neg, Int.fdiv_eq_ediv_of_nonneg _ (by omega),
      Int.ediv_eq_iff_of_pos (by omega), Int.mul_neg]
    omega
  · rw [Int.fdiv_eq_ediv_of_nonneg _ (by omega), Int.ediv_eq_iff_of_pos hpos]
    omega

theorem Arithmetic.compute_eq_ok_iff {op : Arithmetic} {b a : Int} {v : Value} :
    op.compute b a = .ok v ↔ op.Yields b a v := by
  cases op
  case plus | minus | times | less | greater | atMost | atLeast =>
    simp [Arithmetic.compute, Arithmetic.Yields, eq_comm]
  -- division is left, the only one that can fail
  by_cases ha : a = 0
  · simp [Arithmetic.compute, Arithmetic.Yields, ha]
  · simp only [Arithmetic.compute, if_neg ha, Except.ok.injEq, Arithmetic.Yields,
      ← fdiv_eq_iff ha]
    constructor
    · rintro rfl
      exact ⟨_, rfl, rfl⟩
    · rintro ⟨q, rfl, rfl⟩
      rfl

/-! ## Verdicts -/

/-- No operand is of the wrong kind. -/
def Operands.Fit (kinds : List Kind) (s : Stack) : Prop :=
  ∀ depth kind v, ¬ WrongAt kinds s depth kind v

/-- An attempt ends in an error of the language that has the given title. -/
def Attempt.Raises (title : String) (attempt : Attempt) : Prop :=
  ∃ e left, attempt = .failed (.error e) left ∧ e.title = title

namespace Attempt

variable {title : String}

@[simp] theorem raises_error {e : Error} {left : Stack} :
    (Attempt.failed (.error e) left).Raises title ↔ e.title = title := by
  constructor
  · rintro ⟨e', left', h, htitle⟩
    cases h
    exact htitle
  · intro htitle
    exact ⟨e, left, rfl, htitle⟩

@[simp] theorem not_raises_fault {f : Fault} {left : Stack} :
    ¬ (Attempt.failed (.fault f) left).Raises title := by
  rintro ⟨e, left', h, -⟩
  cases h

@[simp] theorem not_raises_done {effect : Effect} : ¬ (Attempt.done effect).Raises title := by
  rintro ⟨e, left, h, -⟩
  cases h

end Attempt

namespace Builtin

/-- The word is a division, and the value on top of the stack is zero. -/
def DividesByZero (b : Builtin) (s : Stack) : Prop :=
  b = .arithmetic .over ∧ (s.map (·.value))[0]? = some (.integer 0)

/-- The integers among the operands of a word are short enough to be named in a message. -/
def ShortOperands (b : Builtin) (s : Stack) : Prop :=
  ∀ e ∈ s.take b.kinds.length, ∀ n, e.value = .integer n → n.natAbs < writeBound

/-- How a built-in word judges a stack, and what it then comes to. -/
inductive Verdict (limit : Nat) (b : Builtin) (s : Stack) : Attempt → Prop
  /-- There are too few values. -/
  | short : s.length < b.kinds.length →
      Verdict limit b s (.failed (.error (b.shortage s.length)) s)
  /-- An operand is of the wrong kind. -/
  | wrong {depth : Nat} {kind : Kind} {v : Value} :
      b.kinds.length ≤ s.length → Operands.WrongAt b.kinds s depth kind v →
      Verdict limit b s (.failed (.error (.wrongKind b.word kind v)) s)
  /-- The operands are as expected, but the divisor is zero. -/
  | zeroDivisor {n : Int} :
      b.kinds.length ≤ s.length → Operands.Fit b.kinds s → b.DividesByZero s →
      Verdict limit b s (.failed (.error (.divisionByZero n)) s)
  /-- All is well, but an operand goes too deep to be copied or compared. -/
  | tooDeep {e : Entry} {left : Stack} :
      b.kinds.length ≤ s.length → Operands.Fit b.kinds s → ¬ b.DividesByZero s →
      e ∈ s.take b.kinds.length → limit < 3 * e.value.depth →
      Verdict limit b s (.failed (.fault .nestingTooDeep) left)
  /-- All is well. -/
  | fine {effect : Effect} :
      b.kinds.length ≤ s.length → Operands.Fit b.kinds s → ¬ b.DividesByZero s →
      Verdict limit b s (.done effect)

variable {limit : Nat} {b : Builtin} {s : Stack} {d : Dictionary} {marks : Nat}

/-- A word complains of the topmost operand of the wrong kind. -/
theorem run_of_wrongAt {depth : Nat} {kind : Kind} {v : Value} (hshort : b.ShortOperands s)
    (hlen : b.kinds.length ≤ s.length) (hwrong : Operands.WrongAt b.kinds s depth kind v) :
    b.run limit s d marks = .failed (.error (.wrongKind b.word kind v)) s := by
  apply (run_misfit_iff hlen (Operands.misfit_iff_wrongAt.2 ⟨depth, hwrong⟩)).2
  rintro n rfl
  obtain ⟨e, he, hvalue⟩ := hwrong.mem_take
  exact hshort e he n hvalue

/-- A division complains of a divisor that is zero, if it has two integers. -/
theorem run_of_dividesByZero (hshort : b.ShortOperands s) (hlen : b.kinds.length ≤ s.length)
    (hfit : Operands.Fit b.kinds s) (hzero : b.DividesByZero s) :
    ∃ n, b.run limit s d marks = .failed (.error (.divisionByZero n)) s := by
  obtain ⟨rfl, htop⟩ := hzero
  obtain - | ⟨top, - | ⟨deeper, rest⟩⟩ := s
  · cases htop
  · cases Nat.le_of_succ_le_succ hlen
  have htop : top.value = .integer 0 := Option.some.inj htop
  -- the dividend is an integer, since otherwise it would be the operand to complain of
  cases hdeeper : deeper.value with
  | integer n =>
      have hshortDeeper : n.natAbs < writeBound :=
        hshort deeper (List.mem_cons_of_mem _ List.mem_cons_self) n hdeeper
      exact ⟨n, (run_over_zero_iff (Value.integer?_eq_some_iff.2 htop)
        (Value.integer?_eq_some_iff.2 hdeeper)).2 hshortDeeper⟩
  | boolean _ | symbol _ | quotation _ | emptyMapping | mapping _ _ =>
      exfalso
      refine hfit 1 .integer _ ⟨rfl, congrArg some hdeeper, nofun, ?_⟩
      intro i hi k w hk hw
      obtain rfl : i = 0 := Nat.lt_one_iff.1 hi
      cases hk
      obtain rfl : top.value = w := Option.some.inj hw
      rw [htop]
      exact .integer 0

/-- If nothing else is wrong, a word succeeds, or an operand goes too deep. -/
theorem verdict_of_fit (hlen : b.kinds.length ≤ s.length) (hfit : Operands.Fit b.kinds s)
    (hzero : ¬ b.DividesByZero s) : Verdict limit b s (b.run limit s d marks) := by
  cases hrun : b.run limit s d marks with
  | done effect => exact .fine hlen hfit hzero
  | failed failure left =>
      cases fails_of_run hrun with
      | short hfew => exact absurd hlen (Nat.not_le.2 hfew)
      | misfit _ hmisfit =>
          obtain ⟨depth, hwrong⟩ := Operands.misfit_iff_wrongAt.1 hmisfit
          exact absurd hwrong (hfit depth _ _)
      | @zeroDivisor top deeper n rest htop _ =>
          have hvalue : top.value = .integer 0 := Value.integer?_eq_some_iff.1 htop
          exact absurd ⟨rfl, congrArg some hvalue⟩ hzero
      | @incomparable top deeper rest hsame =>
          rcases Value.run_equal limit d marks top deeper rest with hok | ⟨-, hdeep, -⟩
          · rw [hrun] at hok
            cases hok
          · have hmem : deeper ∈ List.take 2 (top :: deeper :: rest) :=
              List.mem_cons_of_mem _ List.mem_cons_self
            exact .tooDeep hlen hfit hzero hmem hdeep
      | uncopyable hq hc =>
          have hdeep := Value.copyable_eq_false_iff.1 hc
          exact .tooDeep hlen hfit hzero List.mem_cons_self (by omega)

/-- What a built-in word comes to is decided by the first condition that its stack does not
meet. -/
theorem verdict_run (hshort : b.ShortOperands s) :
    Verdict limit b s (b.run limit s d marks) := by
  by_cases hlen : b.kinds.length ≤ s.length
  · by_cases hfit : Operands.Fit b.kinds s
    · by_cases hzero : b.DividesByZero s
      · have hraised : ∃ n, b.run limit s d marks = .failed (.error (.divisionByZero n)) s :=
          run_of_dividesByZero hshort hlen hfit hzero
        obtain ⟨n, hrun⟩ := hraised
        rw [hrun]
        exact .zeroDivisor hlen hfit hzero
      · exact verdict_of_fit hlen hfit hzero
    · simp only [Operands.Fit, not_forall, not_not] at hfit
      obtain ⟨depth, kind, v, hwrong⟩ := hfit
      rw [run_of_wrongAt hshort hlen hwrong]
      exact .wrong hlen hwrong
  · have hfew : s.length < b.kinds.length := Nat.lt_of_not_le hlen
    rw [run_of_fails (.short hfew)]
    exact .short hfew

/-! ## Errors by their titles -/

section Titles

variable {attempt : Attempt}

theorem Verdict.raises_underflow_iff (h : Verdict limit b s attempt) :
    attempt.Raises "StackUnderflow" ↔ s.length < b.kinds.length := by
  cases h with
  | short hfew => simp [title_shortage, hfew]
  | wrong hlen _ => simpa [Error.title] using hlen
  | zeroDivisor hlen _ _ => simpa [Error.title] using hlen
  | tooDeep hlen _ _ _ _ => simpa using hlen
  | fine hlen _ _ => simpa using hlen

theorem Verdict.raises_typeError_iff (h : Verdict limit b s attempt)
    (hlen : b.kinds.length ≤ s.length) :
    attempt.Raises "YaftTypeError" ↔ ∃ depth kind v, Operands.WrongAt b.kinds s depth kind v := by
  have hright : Operands.Fit b.kinds s →
      ¬ ∃ depth kind v, Operands.WrongAt b.kinds s depth kind v := by
    rintro hfit ⟨depth, kind, v, hwrong⟩
    exact hfit depth kind v hwrong
  cases h with
  | short hfew => exact absurd hlen (Nat.not_le.2 hfew)
  | wrong _ hwrong => exact iff_of_true (Attempt.raises_error.2 rfl) ⟨_, _, _, hwrong⟩
  | zeroDivisor _ hfit _ => simp [Error.title, hright hfit]
  | tooDeep _ hfit _ _ _ => exact iff_of_false Attempt.not_raises_fault (hright hfit)
  | fine _ hfit _ => exact iff_of_false Attempt.not_raises_done (hright hfit)

theorem Verdict.raises_divisionByZero_iff (h : Verdict limit b s attempt)
    (hlen : b.kinds.length ≤ s.length) (hfit : Operands.Fit b.kinds s) :
    attempt.Raises "DivisionByZero" ↔ b.DividesByZero s := by
  cases h with
  | short hfew => exact absurd hlen (Nat.not_le.2 hfew)
  | wrong _ hwrong => exact absurd hwrong (hfit _ _ _)
  | zeroDivisor _ _ hzero => exact iff_of_true (Attempt.raises_error.2 rfl) hzero
  | tooDeep _ _ hzero _ _ => exact iff_of_false Attempt.not_raises_fault hzero
  | fine _ _ hzero => exact iff_of_false Attempt.not_raises_done hzero

theorem Verdict.done_or_tooDeep (h : Verdict limit b s attempt)
    (hlen : b.kinds.length ≤ s.length) (hfit : Operands.Fit b.kinds s)
    (hzero : ¬ b.DividesByZero s) :
    (∃ effect, attempt = .done effect) ∨
      (∃ left, attempt = .failed (.fault .nestingTooDeep) left) ∧
        ∃ e ∈ s.take b.kinds.length, limit < 3 * e.value.depth := by
  cases h with
  | short hfew => exact absurd hlen (Nat.not_le.2 hfew)
  | wrong _ hwrong => exact absurd hwrong (hfit _ _ _)
  | zeroDivisor _ _ hdivides => exact absurd hdivides hzero
  | tooDeep _ _ _ hmem hdeep => exact Or.inr ⟨⟨_, rfl⟩, _, hmem, hdeep⟩
  | fine _ _ _ => exact Or.inl ⟨_, rfl⟩

end Titles

/-- An arithmetic word pushes its result in place of two integers, and pushes nothing else. -/
theorem run_arithmetic_iff {op : Arithmetic} {top deeper : Entry} {rest : Stack} {a c : Int}
    {v : Value} (htop : top.value = .integer a) (hdeeper : deeper.value = .integer c) :
    (Builtin.arithmetic op).run limit (top :: deeper :: rest) d marks =
        .done ⟨.plain v :: rest, d, marks, []⟩ ↔ op.Yields c a v := by
  rw [← Arithmetic.compute_eq_ok_iff, run_eq_done_iff]
  have ha : top.value.integer? = some a := Value.integer?_eq_some_iff.2 htop
  have hc : deeper.value.integer? = some c := Value.integer?_eq_some_iff.2 hdeeper
  constructor
  · intro h
    cases h with
    | arithmetic ha' hc' hv =>
        rw [ha] at ha'
        rw [hc] at hc'
        cases ha'
        cases hc'
        exact hv
  · intro hv
    exact .arithmetic ha hc hv

/-- When a built-in word succeeds, on a stack whose integers among the operands are short enough
to be named in a message. It raises an underflow exactly when the stack holds fewer values than
the word has operands. Otherwise it raises a type error exactly when an operand is of the wrong
kind, and the error names the topmost such operand. Otherwise it raises a division by zero exactly
when it is a division and the top value is zero. Otherwise it succeeds, unless an operand goes too
deep for the limit. What the words for arithmetic and comparison push is their result. -/
theorem raises_iff_of_shortOperands (limit : Nat) (b : Builtin) (s : Stack) (d : Dictionary)
    (marks : Nat) (hshort : b.ShortOperands s) :
    ((b.run limit s d marks).Raises "StackUnderflow" ↔ s.length < b.kinds.length) ∧
    (b.kinds.length ≤ s.length →
      ((b.run limit s d marks).Raises "YaftTypeError" ↔
        ∃ depth kind v, Operands.WrongAt b.kinds s depth kind v) ∧
      (∀ depth kind v, Operands.WrongAt b.kinds s depth kind v →
        b.run limit s d marks = .failed (.error (.wrongKind b.word kind v)) s) ∧
      (Operands.Fit b.kinds s →
        ((b.run limit s d marks).Raises "DivisionByZero" ↔ b.DividesByZero s) ∧
        (¬ b.DividesByZero s →
          (∃ effect, b.run limit s d marks = .done effect) ∨
            (∃ left, b.run limit s d marks = .failed (.fault .nestingTooDeep) left) ∧
              ∃ e ∈ s.take b.kinds.length, limit < 3 * e.value.depth))) ∧
    ∀ op (top deeper : Entry) rest a c, top.value = .integer a → deeper.value = .integer c →
      ∀ v, (Builtin.arithmetic op).run limit (top :: deeper :: rest) d marks =
          .done ⟨.plain v :: rest, d, marks, []⟩ ↔ op.Yields c a v := by
  have hverdict : Verdict limit b s (b.run limit s d marks) := verdict_run hshort
  refine ⟨hverdict.raises_underflow_iff, ?_, ?_⟩
  · intro hlen
    refine ⟨hverdict.raises_typeError_iff hlen, ?_, ?_⟩
    · intro depth kind v hwrong
      exact run_of_wrongAt hshort hlen hwrong
    · intro hfit
      exact ⟨hverdict.raises_divisionByZero_iff hlen hfit, hverdict.done_or_tooDeep hlen hfit⟩
  · intro op top deeper rest a c htop hdeeper v
    exact run_arithmetic_iff htop hdeeper

/-- A boolean is divided by zero. The wrong kind of the dividend is what is reported, although it
lies under the divisor. A positive integer divided by a negative one is rounded down. -/
theorem raises_iff_of_shortOperands_of_boolean_dividend :
    (Builtin.arithmetic .over).run 100 [.plain (.integer 0), .plain (.boolean true)]
        Dictionary.builtins 0 =
      .failed (.error (.wrongKind "/" .integer (.boolean true)))
        [.plain (.integer 0), .plain (.boolean true)] ∧
    (Builtin.arithmetic .over).run 100 [.plain (.integer (-2)), .plain (.integer 7)]
        Dictionary.builtins 0 =
      .done ⟨[.plain (.integer (-4))], Dictionary.builtins, 0, []⟩ := by
  have hshort : (Builtin.arithmetic .over).ShortOperands
      [.plain (.integer 0), .plain (.boolean true)] := by
    have hpow : ∀ k, 0 < Nat.pow 10 k := fun k => Nat.pow_pos (by decide)
    intro e he n hn
    have hmem : e ∈ [Entry.plain (.integer 0), .plain (.boolean true)] := he
    rcases List.mem_pair.1 hmem with rfl | rfl
    · cases hn
      unfold writeBound
      exact hpow digitLimit
    · cases hn
  obtain ⟨-, hkinds, hpushes⟩ := raises_iff_of_shortOperands 100 (.arithmetic .over)
    [.plain (.integer 0), .plain (.boolean true)] Dictionary.builtins 0 hshort
  constructor
  · refine (hkinds (Nat.le_refl 2)).2.1 1 .integer (.boolean true) ⟨rfl, rfl, nofun, ?_⟩
    intro i hi k w hk hw
    obtain rfl : i = 0 := Nat.lt_one_iff.1 hi
    cases hk
    cases hw
    exact .integer 0
  · exact (hpushes .over _ _ [] (-2) 7 rfl rfl _).2 ⟨-4, rfl, by decide⟩

end Builtin

end Catena
