import Catena.Proofs.Machine.Run
import Catena.Proofs.Value

/-!
# The faults of a node

A node that is dispatched meets a fault for one of two reasons, and for no other
(`Machine.fails_fault_iff`).

* A text is too long (`Overlong`). The node is a numeral with more characters than are
  read, or the node is a word that fails, and the error cannot be worded because it has to
  name an integer with more digits than are written.
* A value goes too deep (`Exhausts`). The node is a word that copies or compares, and the
  nesting limit does not allow it.

The first kind leaves the stack as it was. So does the second, except for `dup`.
-/

set_option autoImplicit false

namespace Catena

/-! ## Integers that cannot be named -/

/-- A value cannot be named in a message exactly when it is an integer of too many
digits. -/
theorem Value.wordable_eq_false_iff {v : Value} :
    v.wordable = false ↔ ∃ n, v = .integer n ∧ writeBound ≤ n.natAbs := by
  cases v with
  | integer n =>
      simp only [Value.wordable, Bool.not_eq_false', tooLongToWrite_iff, Value.integer.injEq,
        exists_eq_left']
  | boolean _ | symbol _ | quotation _ | emptyMapping | mapping _ _ => simp [Value.wordable]

namespace Error

theorem wordable_wrongKind (word : String) (kind : Kind) (v : Value) :
    (Error.wrongKind word kind v).wordable = v.wordable :=
  rfl

theorem wordable_divisionByZero_eq_false_iff {n : Int} :
    (Error.divisionByZero n).wordable = false ↔ writeBound ≤ n.natAbs := by
  simp only [wordable, Bool.not_eq_false', tooLongToWrite_iff]

/-- Raising an error gives the error, unless it cannot be worded. -/
theorem raise_eq_error_iff {e : Error} : e.raise = .error e ↔ e.wordable = true := by
  cases h : e.wordable <;> simp [raise, h]

theorem raise_eq_fault_iff {e : Error} {f : Fault} :
    e.raise = .fault f ↔ e.wordable = false ∧ .integerTooLong = f := by
  cases h : e.wordable <;> simp [raise, h]

end Error

theorem Value.copyable_eq_false_iff {limit : Nat} {v : Value} :
    v.copyable limit = false ↔ limit < 2 * v.depth := by
  simp only [Value.copyable, decide_eq_false_iff_not, Nat.not_le]

/-! ## The two kinds of fault -/

/-- A node cannot be dispatched because a text is too long. -/
inductive Overlong (d : Dictionary) : Stack → Value → Fault → Prop
  /-- A numeral that is not bound has more characters than are read. -/
  | numeral {s : Stack} {name : String} :
      d.get? name = none → Value.isNumeral name = true → digitLimit < name.length →
      Overlong d s (.symbol name) (.numeralTooLong name.length)
  /-- The operand to complain of is an integer with more digits than are written. -/
  | operand {s : Stack} {name word : String} {b : Builtin} {kind : Kind} {n : Int} :
      d.get? name = some (.builtin word b) → b.kinds.length ≤ s.length →
      Operands.Misfit b.kinds s kind (.integer n) → writeBound ≤ n.natAbs →
      Overlong d s (.symbol name) .integerTooLong
  /-- The integer to be divided by zero has more digits than are written. -/
  | dividend {name word : String} {top deeper : Entry} {n : Int} {rest : Stack} :
      d.get? name = some (.builtin word (.arithmetic .over)) →
      top.value.integer? = some 0 → deeper.value.integer? = some n →
      writeBound ≤ n.natAbs →
      Overlong d (top :: deeper :: rest) (.symbol name) .integerTooLong

/-- A node cannot be dispatched because a value goes deeper than the nesting limit. The
last argument is the stack that is left. -/
inductive Exhausts (limit : Nat) (d : Dictionary) : Stack → Value → Stack → Prop
  /-- The quotation to be doubled goes too deep. It has been taken off the stack. -/
  | dup {name word : String} {e : Entry} {rest : Stack} :
      d.get? name = some (.builtin word .dup) → e.value.isQuotation = true →
      limit < 2 * e.value.depth → Exhausts limit d (e :: rest) (.symbol name) rest
  /-- The values to be compared go too deep before a difference is found. -/
  | equal {name word : String} {top deeper : Entry} {rest : Stack} :
      d.get? name = some (.builtin word .equal) →
      deeper.sameWithin limit top = .error .nestingTooDeep →
      Exhausts limit d (top :: deeper :: rest) (.symbol name) (top :: deeper :: rest)
  /-- The body of a word goes too deep to be copied. -/
  | defined {s : Stack} {name word : String} {body : List Value} :
      d.get? name = some (.defined word body) → limit < 2 * (Value.quotation body).depth →
      Exhausts limit d s (.symbol name) s

/-- A text that is too long has nothing to do with nesting. -/
theorem Overlong.ne_nestingTooDeep {d : Dictionary} {s : Stack} {v : Value} {f : Fault}
    (h : Overlong d s v f) : f ≠ .nestingTooDeep := by
  cases h <;> exact Fault.noConfusion

/-- A node cannot be resolved exactly when it is a numeral that is not bound and has more
characters than are read. -/
theorem Action.ofNode_eq_error_iff {d : Dictionary} {v : Value} {f : Fault} :
    Action.ofNode d v = .error f ↔
      ∃ name, v = .symbol name ∧ d.get? name = none ∧ Value.isNumeral name = true ∧
        digitLimit < name.length ∧ .numeralTooLong name.length = f := by
  cases v with
  | symbol name =>
      cases hget : d.get? name with
      | some op => simp [Action.ofNode, hget]
      | none =>
          cases hnumeral : Value.isNumeral name with
          | false => simp [Action.ofNode, hget, hnumeral]
          | true =>
              by_cases hlen : name.length ≤ digitLimit
              · have hnot : ¬ digitLimit < name.length := Nat.not_lt.2 hlen
                simp [Action.ofNode, hget, hnumeral, Value.readNumeral, String.length_toList, hlen,
                  hnot, Except.map]
              · have hlt : digitLimit < name.length := Nat.lt_of_not_le hlen
                simp [Action.ofNode, hget, hnumeral, Value.readNumeral, String.length_toList, hlen,
                  hlt, Except.map]
  | integer _ | boolean _ | quotation _ | emptyMapping | mapping _ _ => simp [Action.ofNode]

section Failing

variable {limit : Nat} {s left : Stack} {d : Dictionary} {marks : Nat} {f : Fault}

/-- The faults of a word that is bound. -/
theorem Operation.Fails.fault {name : String} {op : Operation} (hget : d.get? name = some op)
    (h : op.Fails limit s (.fault f) left) :
    Overlong d s (.symbol name) f ∧ left = s ∨
      f = .nestingTooDeep ∧ Exhausts limit d s (.symbol name) left := by
  generalize hfailure : Failure.fault f = failure at h
  -- an error that is raised is a fault only when it cannot be worded
  cases h with
  | defined s hc =>
      cases hfailure
      exact Or.inr ⟨rfl, .defined hget (Value.copyable_eq_false_iff.1 hc)⟩
  | builtin h =>
      cases h with
      | short _ => cases hfailure
      | @misfit b _ kind v hlen hmisfit =>
          obtain ⟨hword, rfl⟩ := Error.raise_eq_fault_iff.1 hfailure.symm
          rw [Error.wordable_wrongKind, Value.wordable_eq_false_iff] at hword
          obtain ⟨n, rfl, hn⟩ := hword
          exact Or.inl ⟨.operand hget hlen hmisfit hn, rfl⟩
      | @zeroDivisor top deeper n rest hzero hdeeper =>
          obtain ⟨hword, rfl⟩ := Error.raise_eq_fault_iff.1 hfailure.symm
          have hn : writeBound ≤ n.natAbs :=
            Error.wordable_divisionByZero_eq_false_iff.1 hword
          exact Or.inl ⟨.dividend hget hzero hdeeper hn, rfl⟩
      | incomparable hv =>
          cases hfailure
          exact Or.inr ⟨rfl, .equal hget hv⟩
      | uncopyable hq hc =>
          cases hfailure
          exact Or.inr ⟨rfl, .dup hget hq (Value.copyable_eq_false_iff.1 hc)⟩

namespace Machine

variable {e : Entry}

/-- A node with a text that is too long fails with that fault. -/
theorem fails_of_overlong (h : Overlong d s e.value f) :
    Fails limit e s d marks (.fault f) s := by
  generalize hv : e.value = v at h
  cases h with
  | @numeral _ name hget hnumeral hlen =>
      refine .unreadable ?_
      rw [hv]
      exact Action.ofNode_eq_error_iff.2 ⟨name, rfl, hget, hnumeral, hlen, rfl⟩
  | @operand _ name word b kind n hget hlen hmisfit hn =>
      have hnode : Action.ofNode d e.value = .ok (.invoke name (.builtin word b)) :=
        Action.ofNode_eq_invoke_iff.2 ⟨hv, hget⟩
      have hraise : (Error.wrongKind b.word kind (.integer n)).raise = .fault .integerTooLong := by
        rw [Error.raise_eq_fault_iff, Error.wordable_wrongKind, Value.wordable_eq_false_iff]
        exact ⟨⟨n, rfl, hn⟩, rfl⟩
      refine .word hnode (Operation.run_eq_failed_iff.2 (.builtin ?_))
      rw [← hraise]
      exact .misfit hlen hmisfit
  | @dividend name word top deeper n rest hget hzero hdeeper hn =>
      have hnode : Action.ofNode d e.value =
          .ok (.invoke name (.builtin word (.arithmetic .over))) :=
        Action.ofNode_eq_invoke_iff.2 ⟨hv, hget⟩
      have hraise : (Error.divisionByZero n).raise = .fault .integerTooLong :=
        Error.raise_eq_fault_iff.2 ⟨Error.wordable_divisionByZero_eq_false_iff.2 hn, rfl⟩
      refine .word hnode (Operation.run_eq_failed_iff.2 (.builtin ?_))
      rw [← hraise]
      exact .zeroDivisor hzero hdeeper

/-- A node with a value that goes too deep fails with that fault. -/
theorem fails_of_exhausts (h : Exhausts limit d s e.value left) :
    Fails limit e s d marks (.fault .nestingTooDeep) left := by
  generalize hv : e.value = v at h
  cases h with
  | dup hget hq hdepth =>
      refine .word (Action.ofNode_eq_invoke_iff.2 ⟨hv, hget⟩) (Operation.run_eq_failed_iff.2 ?_)
      exact .builtin (.uncopyable hq (Value.copyable_eq_false_iff.2 hdepth))
  | equal hget hsame =>
      refine .word (Action.ofNode_eq_invoke_iff.2 ⟨hv, hget⟩) (Operation.run_eq_failed_iff.2 ?_)
      exact .builtin (.incomparable hsame)
  | defined hget hdepth =>
      refine .word (Action.ofNode_eq_invoke_iff.2 ⟨hv, hget⟩) (Operation.run_eq_failed_iff.2 ?_)
      exact .defined _ (Value.copyable_eq_false_iff.2 hdepth)

/-- A node fails with a fault exactly when a text is too long or a value goes too deep. -/
theorem fails_fault_iff :
    Fails limit e s d marks (.fault f) left ↔
      Overlong d s e.value f ∧ left = s ∨
        f = .nestingTooDeep ∧ Exhausts limit d s e.value left := by
  constructor
  · intro h
    cases h with
    | unreadable hnode =>
        obtain ⟨name, hv, hget, hnumeral, hlen, rfl⟩ := Action.ofNode_eq_error_iff.1 hnode
        rw [hv]
        exact Or.inl ⟨.numeral hget hnumeral hlen, rfl⟩
    | word hnode hrun =>
        obtain ⟨hv, hget⟩ := Action.ofNode_eq_invoke_iff.1 hnode
        rw [hv]
        exact (Operation.run_eq_failed_iff.1 hrun).fault hget
  · rintro (⟨h, rfl⟩ | ⟨rfl, h⟩)
    · exact fails_of_overlong h
    · exact fails_of_exhausts h

end Machine

end Failing

end Catena
