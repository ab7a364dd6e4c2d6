import Catena.Proofs.Machine.Run

/-!
# What lies under the stack

A word works on the entries that it takes from the top of the stack. Those beneath stay where
they are, and it does not matter what they are or how many of them there are, as long as the
stack is high enough. So an evaluation can be moved onto other entries: if it succeeds on a
stack, it does the same above any entries and leaves them there, and if it fails for another
reason than a stack too short, it fails in the same way above any entries
(`Machine.Halts.append`).

`clear` is the one word for which this is wrong, since it removes whatever there is. An
evaluation is `ClearFree` when it never comes to `clear`, under whatever name.
-/

set_option autoImplicit false

namespace Catena

/-! ## Words -/

section Words

variable {limit : Nat} {d : Dictionary} {marks : Nat} {s left : Stack} {effect : Effect}
  {failure : Failure}

/-- A built-in word that succeeds, other than `clear`, does the same above other entries. -/
theorem Builtin.Does.append {b : Builtin} (h : Builtin.Does limit d marks b s effect)
    (hclear : b ≠ .clear) (r : Stack) :
    Builtin.Does limit d marks b (s ++ r) { effect with stack := effect.stack ++ r } := by
  -- each rule says what is on top and leaves open what is under it
  cases h with
  | arithmetic ha hb hv => exact .arithmetic ha hb hv
  | equal hv => exact .equal hv
  | truth t s => exact .truth t (s ++ r)
  | dupQuotation hq hc => exact .dupQuotation hq hc
  | dupOther hq => exact .dupOther hq
  | pop e rest => exact .pop e (rest ++ r)
  | swap top deeper rest => exact .swap top deeper (rest ++ r)
  | clear _ => exact absurd rfl hclear
  | quote e rest => exact .quote e (rest ++ r)
  | apply hq => exact .apply hq
  | dip hq => exact .dip hq
  | choose hx hy => exact .choose hx hy
  | define hn hb => exact .define hn hb

/-- The operand that does not fit is among those on top. -/
theorem Operands.Misfit.append {kinds : List Kind} {kind : Kind} {v : Value}
    (h : Operands.Misfit kinds s kind v) (r : Stack) :
    Operands.Misfit kinds (s ++ r) kind v := by
  induction h with
  | top hnone => exact .top hnone
  | deeper hfits _ ih => exact .deeper hfits ih

/-- A built-in word that fails, other than by underflow, fails in the same way above other
entries. -/
theorem Builtin.Fails.append {b : Builtin} (h : Builtin.Fails limit b s failure left)
    (hheld : ∀ e, failure = .error e → e.title ≠ "StackUnderflow") (r : Stack) :
    Builtin.Fails limit b (s ++ r) failure (left ++ r) := by
  cases h with
  | short _ => exact absurd (b.title_shortage s.length) (hheld _ rfl)
  | misfit hlen hmisfit =>
      refine .misfit ?_ (hmisfit.append r)
      rw [List.length_append]
      omega
  | zeroDivisor hzero hn => exact .zeroDivisor hzero hn
  | incomparable hv => exact .incomparable hv
  | uncopyable hq hc => exact .uncopyable hq hc

/-- An operation that succeeds, other than `clear`, does the same above other entries. -/
theorem Operation.run_append_of_done {op : Operation}
    (h : op.run limit s d marks = .done effect) (hclear : ∀ word, op ≠ .builtin word .clear)
    (r : Stack) :
    op.run limit (s ++ r) d marks = .done { effect with stack := effect.stack ++ r } := by
  rw [Operation.run_eq_done_iff] at h ⊢
  cases h with
  | @builtin name b _ _ h =>
      refine .builtin (h.append ?_ r)
      rintro rfl
      exact hclear name rfl
  | defined s hc => exact .defined (s ++ r) hc

/-- An operation that fails, other than by underflow, fails in the same way above other
entries. -/
theorem Operation.run_append_of_failed {op : Operation}
    (h : op.run limit s d marks = .failed failure left)
    (hheld : ∀ e, failure = .error e → e.title ≠ "StackUnderflow") (r : Stack) :
    op.run limit (s ++ r) d marks = .failed failure (left ++ r) := by
  rw [Operation.run_eq_failed_iff] at h ⊢
  cases h with
  | builtin h => exact .builtin (h.append hheld r)
  | defined s hc => exact .defined (s ++ r) hc

end Words

namespace Machine

/-! ## Evaluations without `clear` -/

/-- Whether the next step of a machine runs `clear`. -/
def clears (m : Machine) : Bool :=
  match m.frames with
  | (.node e :: _) :: _ =>
      match Action.ofNode m.words e.value with
      | .ok (.invoke _ (.builtin _ .clear)) => true
      | _ => false
  | _ => false

/-- An evaluation never runs `clear`. -/
def ClearFree (limit : Nat) (m : Machine) : Prop :=
  ∀ m', Reaches limit m m' → m'.clears = false

/-- Whether an evaluation runs `clear` or takes more than the given number of steps. -/
def mayClear (limit : Nat) : (fuel : Nat) → Machine → Bool
  | 0, _ => true
  | fuel + 1, m =>
      m.clears ||
        match step limit m with
        | .next m => mayClear limit fuel m
        | .halted _ => false

section Running

variable {limit : Nat} {m m' : Machine} {outcome : Outcome}

theorem ClearFree.of_move (h : ClearFree limit m) (hmove : Move limit m m') :
    ClearFree limit m' := by
  intro last hreach
  exact h last (hreach.head hmove)

/-- An evaluation that ends can be tested for `clear`. -/
theorem clearFree_of_mayClear {fuel : Nat} (h : mayClear limit fuel m = false) :
    ClearFree limit m := by
  induction fuel generalizing m with
  | zero => cases h
  | succ fuel ih =>
      rw [mayClear, Bool.or_eq_false_iff] at h
      intro last hreach
      rcases hreach.cases_head with rfl | ⟨next, hmove, hrest⟩
      · exact h.1
      · have hnext : mayClear limit fuel next = false := by
          simpa only [step_of_move hmove] using h.2
        exact ih hnext last hrest

/-- A node that is run as a word is not `clear` unless the machine says so. -/
theorem ne_clear_of_clears {e : Entry} {items : Frame} {rest : List Frame} {s : Stack}
    {d : Dictionary} {marks : Nat} {name : String} {op : Operation}
    (hclears : clears ⟨s, d, marks, (.node e :: items) :: rest⟩ = false)
    (hnode : Action.ofNode d e.value = .ok (.invoke name op)) (word : String) :
    op ≠ .builtin word .clear := by
  rintro rfl
  simp [clears, hnode] at hclears

/-! ## Steps and runs above other entries -/

/-- A move is the same above other entries. -/
theorem Move.append (h : Move limit m m') (hclears : m.clears = false) (r : Stack) :
    Move limit { m with stack := m.stack ++ r } { m' with stack := m'.stack ++ r } := by
  cases h with
  | drop => exact .drop
  | restore => exact .restore
  | push hnode => exact .push hnode
  | word hnode hrun =>
      have hclear := ne_clear_of_clears hclears hnode
      exact .word hnode (Operation.run_append_of_done hrun hclear r)

/-- A node that fails, other than by underflow, fails in the same way above other entries. -/
theorem Fails.append {e : Entry} {s left : Stack} {d : Dictionary} {marks : Nat}
    {failure : Failure} (h : Fails limit e s d marks failure left)
    (hheld : ∀ e, failure = .error e → e.title ≠ "StackUnderflow") (r : Stack) :
    Fails limit e (s ++ r) d marks failure (left ++ r) := by
  cases h with
  | unreadable hnode => exact .unreadable hnode
  | word hnode hrun => exact .word hnode (Operation.run_append_of_failed hrun hheld r)

/-- Entries that return to the stack when an evaluation fails lie above the others. -/
theorem fail_append (m : Machine) (failure : Failure) (r : Stack) :
    fail { m with stack := m.stack ++ r } failure =
      { fail m failure with stack := (fail m failure).stack ++ r } := by
  cases failure with
  | fault f => rfl
  | error e => simp only [fail, Stack.pushAll_eq, List.append_assoc]

@[simp] theorem fail_failure (m : Machine) (failure : Failure) :
    (fail m failure).failure = some failure := by
  cases failure <;> rfl

/-- An evaluation that ends, other than by underflow, ends in the same way above other
entries. -/
theorem Stop.append (h : Stop limit m outcome)
    (hheld : ∀ e, outcome.failure = some (.error e) → e.title ≠ "StackUnderflow") (r : Stack) :
    Stop limit { m with stack := m.stack ++ r }
      { outcome with stack := outcome.stack ++ r } := by
  cases h with
  | finished => exact .finished
  | @failed s left d marks e failure items rest hfails =>
      have hfails' : Fails limit e (s ++ r) d marks failure (left ++ r) := by
        refine hfails.append (fun error herror => hheld error ?_) r
        rw [fail_failure, herror]
      rw [← fail_append]
      exact .failed hfails'

/-- A run that never comes to `clear` and does not end in an underflow is the same above other
entries. -/
theorem Halts.append (h : Halts limit m outcome) (hclear : ClearFree limit m)
    (hheld : ∀ e, outcome.failure = some (.error e) → e.title ≠ "StackUnderflow") (r : Stack) :
    Halts limit { m with stack := m.stack ++ r }
      { outcome with stack := outcome.stack ++ r } := by
  revert hclear
  -- from the end backwards: being free of `clear` passes from a machine to the next one
  refine Halts.induct
    (motive := fun m => ClearFree limit m → Halts limit { m with stack := m.stack ++ r }
      { outcome with stack := outcome.stack ++ r }) ?_ ?_ h
  · intro m hstop _
    exact .of_stop (hstop.append hheld r)
  · intro m m' hmove ih hclear
    have hclears : m.clears = false := hclear m .refl
    exact .of_move (hmove.append hclears r) (ih (hclear.of_move hmove))

end Running

/-- Nodes are evaluated on a stack without coming to `clear`. If they succeed, they succeed
above any entries `r` as well: with the same stack above `r`, and with the same dictionary. If
they fail, other than by underflow, they fail above `r` in the same way, and the stack that is
left is the same above `r`. -/
theorem halts_start_append {limit : Nat} {nodes : List Value} {s : Stack} {d : Dictionary}
    {marks : Nat} (hclear : ClearFree limit (start nodes s d marks)) (r : Stack) :
    (∀ s' d' marks', Halts limit (start nodes s d marks) ⟨none, s', d', marks'⟩ →
      Halts limit (start nodes (s ++ r) d marks) ⟨none, s' ++ r, d', marks'⟩) ∧
    ∀ failure s' d' marks', Halts limit (start nodes s d marks) ⟨some failure, s', d', marks'⟩ →
      (∀ e, failure = .error e → e.title ≠ "StackUnderflow") →
      Halts limit (start nodes (s ++ r) d marks) ⟨some failure, s' ++ r, d', marks'⟩ := by
  constructor
  · intro s' d' marks' h
    exact h.append hclear (fun e he => by cases he) r
  · intro failure s' d' marks' h hheld
    refine h.append hclear (fun e he => hheld e ?_) r
    exact Option.some.inj he

/-- Squaring under a saved integer and adding leaves a boolean and a symbol underneath alone.
Dividing by zero under a saved integer does as well, and the integer returns above them. -/
theorem halts_start_append_of_dip :
    Halts 100
      (start [.quotation [.symbol "dup", .symbol "*"], .symbol "dip", .symbol "+"]
        [.plain (.integer 4), .plain (.integer 3), .plain (.boolean true), .plain (.symbol "x")]
        Dictionary.builtins 0)
      ⟨none, [.plain (.integer 13), .plain (.boolean true), .plain (.symbol "x")],
        Dictionary.builtins, 0⟩ ∧
    Halts 100
      (start [.quotation [.symbol "0", .symbol "/"], .symbol "dip", .symbol "+"]
        [.plain (.integer 4), .plain (.integer 3), .plain (.boolean true), .plain (.symbol "x")]
        Dictionary.builtins 0)
      ⟨some (.error (.divisionByZero 3)),
        [.plain (.integer 4), .plain (.integer 0), .plain (.integer 3), .plain (.boolean true),
          .plain (.symbol "x")], Dictionary.builtins, 0⟩ := by
  constructor
  · have hclear : ClearFree 100
        (start [.quotation [.symbol "dup", .symbol "*"], .symbol "dip", .symbol "+"]
          [.plain (.integer 4), .plain (.integer 3)] Dictionary.builtins 0) :=
      clearFree_of_mayClear (by decide +kernel : mayClear 100 20 _ = false)
    refine (halts_start_append hclear [.plain (.boolean true), .plain (.symbol "x")]).1
      [.plain (.integer 13)] _ _ ⟨20, ?_⟩
    decide +kernel
  · have hclear : ClearFree 100
        (start [.quotation [.symbol "0", .symbol "/"], .symbol "dip", .symbol "+"]
          [.plain (.integer 4), .plain (.integer 3)] Dictionary.builtins 0) :=
      clearFree_of_mayClear (by decide +kernel : mayClear 100 20 _ = false)
    refine (halts_start_append hclear [.plain (.boolean true), .plain (.symbol "x")]).2
      _ [.plain (.integer 4), .plain (.integer 0), .plain (.integer 3)] _ _ ⟨20, ?_⟩ ?_
    · decide +kernel
    · intro e he
      cases he
      decide

end Machine

end Catena
