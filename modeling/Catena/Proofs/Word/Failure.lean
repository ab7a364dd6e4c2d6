import Catena.Proofs.Word.Success

/-!
# How a word fails

`Builtin.Fails` and `Operation.Fails` list the ways in which a word can fail, each with
what it reports and the stack that it leaves, and `Operation.run_eq_failed_iff` says that
the list is complete.

* The stack may be too short. Words that move one value complain of an empty stack, the
  others of how many values they need.
* An operand may be of the wrong kind. The operands are looked at from the top down, so
  the topmost of them is the one named (`Operands.Misfit`).
* A divisor may be zero.
* Copying or comparing may go deeper than the nesting limit. This is a fault, and it is
  the only failure that can change the stack: `dup` has taken its quotation off by then
  (`Operation.left_of_run_failed`).
-/

set_option autoImplicit false

namespace Catena

/-! ## Operands that do not fit -/

/-- The topmost operand that is not of the kind expected in its place, with that kind. -/
inductive Operands.Misfit : List Kind → Stack → Kind → Value → Prop
  | top {kind : Kind} {kinds : List Kind} {e : Entry} {s : Stack} :
      kind.view? e = none → Misfit (kind :: kinds) (e :: s) kind e.value
  | deeper {kind expected : Kind} {kinds : List Kind} {e : Entry} {s : Stack} {v : Value} :
      kind.view? e ≠ none → Misfit kinds s expected v →
      Misfit (kind :: kinds) (e :: s) expected v

/-- On a stack that is high enough, operands cannot be read exactly when one of them does
not fit. -/
theorem Operands.view_eq_error_iff (word : String) {failure : Failure} :
    ∀ (kinds : List Kind) (s : Stack), kinds.length ≤ s.length →
      (Operands.view word kinds s = .error failure ↔
        ∃ kind v, Operands.Misfit kinds s kind v ∧
          (Error.wrongKind word kind v).raise = failure)
  | [], s, _ => by
      constructor
      · intro h
        cases h
      · rintro ⟨kind, v, hmisfit, -⟩
        cases hmisfit
  | kind :: kinds, [], hlen => absurd hlen (by simp)
  | kind :: kinds, e :: s, hlen => by
      have ih : Operands.view word kinds s = .error failure ↔ _ :=
        Operands.view_eq_error_iff word kinds s (Nat.le_of_succ_le_succ hlen)
      rw [Operands.view]
      cases hv : kind.view? e with
      | none =>
          constructor
          · intro h
            cases h
            exact ⟨kind, e.value, .top hv, rfl⟩
          · rintro ⟨expected, v, hmisfit, rfl⟩
            cases hmisfit with
            | top _ => rfl
            | deeper hfits _ => exact absurd hv hfits
      | some operand =>
          -- the top operand fits, so the others decide
          have hfits : kind.view? e ≠ none := by simp [hv]
          have hbelow : (∃ expected v, Operands.Misfit (kind :: kinds) (e :: s) expected v ∧
                (Error.wrongKind word expected v).raise = failure) ↔
              ∃ expected v, Operands.Misfit kinds s expected v ∧
                (Error.wrongKind word expected v).raise = failure := by
            refine exists_congr fun expected => exists_congr fun v => and_congr_left fun _ => ?_
            constructor
            · intro h
              cases h with
              | top hnone => exact absurd hnone hfits
              | deeper _ h => exact h
            · exact .deeper hfits
          rw [hbelow, ← ih]
          cases Operands.view word kinds s with
          | error other => simp
          | ok operands => simp

/-- Operands cannot be removed exactly when they cannot be checked, and for the same reason.
The stack keeps them then. -/
theorem Operands.remove_eq_failed_iff_check {word : String} {kinds : List Kind} {s left : Stack}
    {failure : Failure} :
    Operands.remove word kinds s = .failed failure left ↔
      Operands.check word kinds s = .error failure ∧ s = left := by
  rw [Operands.remove]
  cases Operands.check word kinds s with
  | error other => simp
  | ok operands => simp

/-- Checking and removing operands fails when there are too few values, or when one of
them does not fit. -/
theorem Operands.remove_eq_failed_iff (word : String) (kinds : List Kind) (s left : Stack)
    {failure : Failure} :
    Operands.remove word kinds s = .failed failure left ↔
      (s.length < kinds.length ∧ .error (.tooFewValues kinds.length s.length) = failure ∨
        kinds.length ≤ s.length ∧ ∃ kind v, Operands.Misfit kinds s kind v ∧
          (Error.wrongKind word kind v).raise = failure) ∧ s = left := by
  rw [Operands.remove_eq_failed_iff_check, Operands.check]
  refine and_congr_left fun _ => ?_
  by_cases hlen : kinds.length ≤ s.length
  · have hnot : ¬ s.length < kinds.length := Nat.not_lt.2 hlen
    rw [if_pos ((Stack.holds_iff _ _).2 hlen), Operands.view_eq_error_iff word kinds s hlen]
    simp only [hlen, hnot, true_and, false_and, false_or]
  · have hlt : s.length < kinds.length := Nat.lt_of_not_le hlen
    rw [if_neg (fun h => hlen ((Stack.holds_iff _ _).1 h))]
    simp only [hlen, hlt, true_and, false_and, or_false, Except.error.injEq]

theorem Stack.pop_eq_failed_iff {s left : Stack} {failure : Failure} :
    s.pop = .failed failure left ↔ s = [] ∧ .error .emptyStack = failure ∧ s = left := by
  cases s with
  | nil => simp [Stack.pop]
  | cons e s => simp [Stack.pop]

/-! ## Comparisons that go too deep -/

namespace Value

mutual
/-- Comparing two values fails for want of room only. -/
theorem sameWithin_error (shared : Bool) {f : Fault} : ∀ (room : Nat) (a b : Value),
    sameWithin shared room a b = .error f → f = .nestingTooDeep
  | room, .integer _, b, h => by cases b <;> simp [sameWithin] at h
  | room, .boolean _, b, h => by cases b <;> simp [sameWithin] at h
  | room, .symbol _, b, h => by cases b <;> simp [sameWithin] at h
  | room, .emptyMapping, b, h => by cases b <;> simp [sameWithin] at h
  | room, .quotation xs, b, h => by
      cases b with
      | quotation ys =>
          rw [sameWithin] at h
          split at h
          · cases h
          split at h
          · cases h
            rfl
          · exact sameList_error shared (room - 3) xs ys h
      | integer _ | boolean _ | symbol _ | emptyMapping | mapping _ _ => simp [sameWithin] at h
  | room, .mapping k v, b, h => by
      cases b with
      | mapping k' v' =>
          rw [sameWithin] at h
          split at h
          · cases h
          split at h
          · cases h
            rfl
          · -- the keys are compared first, and the values only if the keys agree
            split at h
            · exact sameWithin_error shared (room - 1) v v' h
            · exact sameWithin_error shared (room - 1) k k' h
      | integer _ | boolean _ | symbol _ | emptyMapping | quotation _ => simp [sameWithin] at h
/-- Comparing two lists of values fails for want of room only. -/
theorem sameList_error (shared : Bool) {f : Fault} : ∀ (room : Nat) (xs ys : List Value),
    sameList shared room xs ys = .error f → f = .nestingTooDeep
  | room, [], ys, h => by cases ys <;> simp [sameList] at h
  | room, x :: xs, [], h => by simp [sameList] at h
  | room, x :: xs, y :: ys, h => by
      rw [sameList] at h
      split at h
      · exact sameList_error shared room xs ys h
      · exact sameWithin_error shared room x y h
end

end Value

/-! ## The built-in words -/

/-- What a built-in word reports on a stack of too few values. -/
def Builtin.shortage (b : Builtin) (held : Nat) : Error :=
  match b with
  | .dup => .emptyStack
  | .pop => .emptyStack
  | .quote => .emptyStack
  | _ => .tooFewValues b.kinds.length held

/-- A stack too short is an underflow, whatever the word. -/
theorem Builtin.title_shortage (b : Builtin) (held : Nat) :
    (b.shortage held).title = "StackUnderflow" := by
  cases b <;> rfl

/-- Only a division by zero has no result. -/
theorem Arithmetic.compute_eq_error_iff {op : Arithmetic} {b a : Int} {e : Error} :
    op.compute b a = .error e ↔ op = .over ∧ a = 0 ∧ .divisionByZero b = e := by
  by_cases ha : a = 0
  · cases op <;> simp [Arithmetic.compute, ha]
  · cases op <;> simp [Arithmetic.compute, ha]

/-- How a built-in word fails: what it reports, and the stack that it leaves. -/
inductive Builtin.Fails (limit : Nat) : Builtin → Stack → Failure → Stack → Prop
  /-- The stack is too short. -/
  | short {b : Builtin} {s : Stack} :
      s.length < b.kinds.length → Fails limit b s (.error (b.shortage s.length)) s
  /-- An operand is of the wrong kind. -/
  | misfit {b : Builtin} {s : Stack} {kind : Kind} {v : Value} :
      b.kinds.length ≤ s.length → Operands.Misfit b.kinds s kind v →
      Fails limit b s (Error.wrongKind b.word kind v).raise s
  /-- The divisor is zero. -/
  | zeroDivisor {top deeper : Entry} {n : Int} {rest : Stack} :
      top.value.integer? = some 0 → deeper.value.integer? = some n →
      Fails limit (.arithmetic .over) (top :: deeper :: rest)
        (Error.divisionByZero n).raise (top :: deeper :: rest)
  /-- The operands of a comparison go too deep. -/
  | incomparable {top deeper : Entry} {rest : Stack} :
      deeper.sameWithin limit top = .error .nestingTooDeep →
      Fails limit .equal (top :: deeper :: rest) (.fault .nestingTooDeep) (top :: deeper :: rest)
  /-- The quotation to be doubled goes too deep, and is lost. -/
  | uncopyable {e : Entry} {rest : Stack} :
      e.value.isQuotation = true → e.value.copyable limit = false →
      Fails limit .dup (e :: rest) (.fault .nestingTooDeep) rest

section Failing

variable {limit : Nat} {s left : Stack} {d : Dictionary} {marks : Nat} {failure : Failure}

/-- The failures of removing operands are failures of the word. -/
theorem Builtin.fails_of_remove {b : Builtin}
    (hshort : b.shortage s.length = .tooFewValues b.kinds.length s.length)
    (h : Operands.remove b.word b.kinds s = .failed failure left) :
    Builtin.Fails limit b s failure left := by
  obtain ⟨⟨hlen, rfl⟩ | ⟨hlen, kind, v, hv, rfl⟩, rfl⟩ :=
    (Operands.remove_eq_failed_iff _ _ _ _).1 h
  · rw [← hshort]
    exact .short hlen
  · exact .misfit hlen hv

/-- The failure of popping is a failure of a word that needs a value. -/
theorem Builtin.fails_of_pop {b : Builtin} (hshort : b.shortage s.length = .emptyStack)
    (hneeds : 0 < b.kinds.length) (h : s.pop = .failed failure left) :
    Builtin.Fails limit b s failure left := by
  obtain ⟨rfl, rfl, rfl⟩ := Stack.pop_eq_failed_iff.1 h
  rw [← hshort]
  exact .short hneeds

/-- A built-in word that fails does so in one of the ways listed. -/
theorem Builtin.fails_of_run {b : Builtin} (h : b.run limit s d marks = .failed failure left) :
    Builtin.Fails limit b s failure left := by
  -- either taking the operands off fails, or the work that follows
  cases b with
  | arithmetic op =>
      rcases Attempt.after_eq_failed_iff.1 h with hops | ⟨⟨a, b, ⟨⟩⟩, rest, hops, hfail⟩
      · exact Builtin.fails_of_remove rfl hops
      obtain ⟨top, s, rfl, ha, deeper, s, rfl, hb, rfl⟩ := (Operands.remove_eq_done_iff ..).1 hops
      cases hv : op.compute b a with
      | ok v => simp [hv] at hfail
      | error e =>
          simp only [hv, Attempt.failed.injEq] at hfail
          obtain ⟨rfl, rfl⟩ := hfail
          obtain ⟨rfl, rfl, rfl⟩ := Arithmetic.compute_eq_error_iff.1 hv
          exact .zeroDivisor ha hb
  | equal =>
      rcases Attempt.after_eq_failed_iff.1 h with hops | ⟨⟨a, b, ⟨⟩⟩, rest, hops, hfail⟩
      · exact Builtin.fails_of_remove rfl hops
      obtain ⟨top, s, rfl, ha, deeper, s, rfl, hb, rfl⟩ := (Operands.remove_eq_done_iff ..).1 hops
      cases ha
      cases hb
      cases hv : b.sameWithin limit a with
      | ok answer => simp [hv] at hfail
      | error fault =>
          simp only [hv, Attempt.failed.injEq] at hfail
          obtain ⟨rfl, rfl⟩ := hfail
          obtain rfl := Value.sameWithin_error _ _ _ _ hv
          exact .incomparable hv
  | dup =>
      rcases Attempt.after_eq_failed_iff.1 h with hpop | ⟨e, rest, hpop, hfail⟩
      · exact Builtin.fails_of_pop rfl (by decide) hpop
      rw [Stack.pop_eq_done_iff] at hpop
      subst hpop
      cases hq : e.value.isQuotation with
      | false => simp [hq] at hfail
      | true =>
          cases hc : e.value.copyable limit with
          | true => simp [hq, hc] at hfail
          | false =>
              simp only [hq, hc, if_true, Bool.false_eq_true, if_false,
                Attempt.failed.injEq] at hfail
              obtain ⟨rfl, rfl⟩ := hfail
              exact .uncopyable hq hc
  | truth t => cases h
  | clear => cases h
  | pop | quote =>
      rcases Attempt.after_eq_failed_iff.1 h with hpop | ⟨_, _, -, hfail⟩
      · exact Builtin.fails_of_pop rfl (by decide) hpop
      · cases hfail
  | swap | apply | dip | choose | define =>
      rcases Attempt.after_eq_failed_iff.1 h with hops | ⟨_, _, -, hfail⟩
      · exact Builtin.fails_of_remove rfl hops
      · cases hfail

/-- A word that removes its operands fails when they cannot be removed. -/
theorem Builtin.run_of_remove_failed {b : Builtin}
    (hshort : ∀ held, b.shortage held = .tooFewValues b.kinds.length held)
    (h : Operands.remove b.word b.kinds s = .failed failure left) :
    b.run limit s d marks = .failed failure left := by
  cases b with
  | arithmetic _ | equal | swap | apply | dip | choose | define =>
      exact Attempt.after_eq_failed_iff.2 (Or.inl h)
  | dup | pop | quote => cases hshort 0
  | truth _ | clear =>
      obtain ⟨⟨hlen, -⟩ | ⟨-, _, _, hmisfit, -⟩, -⟩ := (Operands.remove_eq_failed_iff _ _ _ _).1 h
      · cases hlen
      · cases hmisfit

/-- A built-in word fails in every way listed for it. -/
theorem Builtin.run_of_fails {b : Builtin} (h : Builtin.Fails limit b s failure left) :
    b.run limit s d marks = .failed failure left := by
  cases h with
  | short hlen =>
      have hremove : Operands.remove b.word b.kinds s =
          .failed (.error (.tooFewValues b.kinds.length s.length)) s :=
        (Operands.remove_eq_failed_iff _ _ _ _).2 ⟨Or.inl ⟨hlen, rfl⟩, rfl⟩
      cases b with
      | dup | pop | quote =>
          obtain rfl : s = [] := List.length_eq_zero_iff.1 (Nat.lt_one_iff.1 hlen)
          rfl
      | arithmetic _ | equal | swap | apply | dip | choose | define | truth _ | clear =>
          exact Builtin.run_of_remove_failed (fun _ => rfl) hremove
  | @misfit _ _ kind v hlen hmisfit =>
      have hremove : Operands.remove b.word b.kinds s =
          .failed (Error.wrongKind b.word kind v).raise s :=
        (Operands.remove_eq_failed_iff _ _ _ _).2 ⟨Or.inr ⟨hlen, kind, v, hmisfit, rfl⟩, rfl⟩
      cases b with
      | dup | pop | quote =>
          -- these words take any value
          cases hmisfit with
          | top hnone => cases hnone
          | deeper _ hrest => cases hrest
      | arithmetic _ | equal | swap | apply | dip | choose | define | truth _ | clear =>
          exact Builtin.run_of_remove_failed (fun _ => rfl) hremove
  | @zeroDivisor top deeper n rest hzero hn =>
      have hops : Operands.remove "/" [.integer, .integer] (top :: deeper :: rest) =
          .done (0, n, ()) rest :=
        (Operands.remove_eq_done_iff ..).2 ⟨top, _, rfl, hzero, deeper, _, rfl, hn, rfl⟩
      simp only [Builtin.run, Builtin.word, Arithmetic.word, hops, Attempt.after,
        Arithmetic.compute, if_true]
  | @incomparable top deeper rest hv =>
      have hops : Operands.remove "eq" [.any, .any] (top :: deeper :: rest) =
          .done (top, deeper, ()) rest :=
        (Operands.remove_eq_done_iff ..).2 ⟨top, _, rfl, rfl, deeper, _, rfl, rfl, rfl⟩
      simp only [Builtin.run, Builtin.word, hops, Attempt.after, hv]
  | uncopyable hq hc => simp [Builtin.run, Attempt.after, Stack.pop, hq, hc]

theorem Builtin.run_eq_failed_iff {b : Builtin} :
    b.run limit s d marks = .failed failure left ↔ Builtin.Fails limit b s failure left :=
  ⟨Builtin.fails_of_run, Builtin.run_of_fails⟩

/-! ## Operations -/

/-- How an operation fails: what it reports, and the stack that it leaves. -/
inductive Operation.Fails (limit : Nat) : Operation → Stack → Failure → Stack → Prop
  | builtin {name : String} {b : Builtin} {s left : Stack} {failure : Failure} :
      Builtin.Fails limit b s failure left → Fails limit (.builtin name b) s failure left
  | defined {name : String} {body : List Value} (s : Stack) :
      (Value.quotation body).copyable limit = false →
      Fails limit (.defined name body) s (.fault .nestingTooDeep) s

theorem Operation.run_eq_failed_iff {op : Operation} :
    op.run limit s d marks = .failed failure left ↔ Operation.Fails limit op s failure left := by
  constructor
  · intro h
    cases op with
    | builtin name b => exact .builtin (Builtin.run_eq_failed_iff.1 h)
    | defined name body =>
        cases hc : (Value.quotation body).copyable limit with
        | true => simp [Operation.run, hc] at h
        | false =>
            simp only [Operation.run, hc, Bool.false_eq_true, if_false,
              Attempt.failed.injEq] at h
            obtain ⟨rfl, rfl⟩ := h
            exact .defined s hc
  · intro h
    cases h with
    | builtin h => exact Builtin.run_eq_failed_iff.2 h
    | defined s hc => simp [Operation.run, hc]

/-- An operation that fails leaves the stack as it found it, unless nesting is exhausted:
doubling a quotation that goes too deep loses it. -/
theorem Operation.left_of_run_failed {op : Operation}
    (h : op.run limit s d marks = .failed failure left) :
    left = s ∨ failure = .fault .nestingTooDeep ∧ ∃ e, s = e :: left := by
  cases Operation.run_eq_failed_iff.1 h with
  | defined _ _ => exact Or.inl rfl
  | builtin h =>
      cases h with
      | short _ | misfit _ _ | zeroDivisor _ _ | incomparable _ => exact Or.inl rfl
      | uncopyable _ _ => exact Or.inr ⟨rfl, _, rfl⟩

/-- An operation that fails with an error of the language leaves the stack as it found
it. Only faults can lose a value. -/
theorem Operation.left_of_run_error {op : Operation} {e : Error}
    (h : op.run limit s d marks = .failed (.error e) left) : left = s := by
  rcases Operation.left_of_run_failed h with hs | ⟨hfault, -⟩
  · exact hs
  · cases hfault

end Failing

end Catena
