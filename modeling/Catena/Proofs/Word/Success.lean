import Catena.Word.Effect

/-!
# What a word has done when it succeeds

`Builtin.run` and `Operation.run` check, remove, compute and push in an order of
their own for each word. This module reads the result off that order once, so
that no later argument opens either function.

* `Operands.Taken` relates a stack to the operands on its top and the stack under
  them; `remove_eq_done_iff` says that this is what `Operands.remove` finds.
* `Builtin.Does` lists what each built-in word does when it succeeds, and
  `Builtin.run_eq_done_iff` says that nothing else happens. `Operation.Does` adds
  the words that a program defined.
-/

set_option autoImplicit false

namespace Catena

/-! ## Operands -/

/-- The operands of a list of kinds lie on top of a stack, above the stack
`rest`. -/
def Operands.Taken : (kinds : List Kind) → Stack → Operands kinds → Stack → Prop
  | [], s, (), rest => s = rest
  | kind :: kinds, s, (operand, operands), rest =>
      ∃ e below, s = e :: below ∧ kind.view? e = some operand ∧
        Operands.Taken kinds below operands rest

theorem Operands.view_eq_ok_iff (word : String) :
    ∀ (kinds : List Kind) (s : Stack) (operands : Operands kinds),
      Operands.view word kinds s = .ok operands ↔
        Operands.Taken kinds s operands (s.drop kinds.length)
  | [], s, () => by simp [Operands.view, Operands.Taken]
  | kind :: kinds, [], (operand, operands) => by simp [Operands.view, Operands.Taken]
  | kind :: kinds, e :: s, (operand, operands) => by
      have ih := Operands.view_eq_ok_iff word kinds s
      simp only [Operands.view, Operands.Taken, List.length_cons, List.drop_succ_cons,
        List.cons.injEq]
      -- the top operand is looked at first; only if it fits are the others
      cases hv : kind.view? e with
      | none =>
          constructor
          · intro h
            cases h
          · rintro ⟨e', below, ⟨rfl, rfl⟩, h, -⟩
            rw [hv] at h
            cases h
      | some found =>
          cases hs : Operands.view word kinds s with
          | error failure =>
              constructor
              · intro h
                cases h
              · rintro ⟨e', below, ⟨rfl, rfl⟩, -, h⟩
                rw [← ih, hs] at h
                cases h
          | ok others =>
              constructor
              · intro h
                cases h
                exact ⟨e, s, ⟨rfl, rfl⟩, hv, (ih _).1 hs⟩
              · rintro ⟨e', below, ⟨rfl, rfl⟩, h, h'⟩
                rw [← ih, hs] at h'
                rw [hv] at h
                cases h
                cases h'
                rfl

/-- Operands that are there leave the rest of the stack, and are as many as their
kinds. -/
theorem Operands.Taken.rest_eq : ∀ {kinds : List Kind} {s rest : Stack}
    {operands : Operands kinds}, Operands.Taken kinds s operands rest →
      rest = s.drop kinds.length ∧ kinds.length ≤ s.length
  | [], s, rest, (), h => by
      have hs : s = rest := h
      subst hs
      simp
  | kind :: kinds, s, rest, (operand, operands), h => by
      obtain ⟨e, below, rfl, -, h⟩ := h
      obtain ⟨hrest, hlen⟩ := h.rest_eq
      exact ⟨by simpa using hrest, by simpa using hlen⟩

/-- Checking and removing operands succeeds exactly when they are there. -/
theorem Operands.remove_eq_done_iff (word : String) (kinds : List Kind) (s rest : Stack)
    (operands : Operands kinds) :
    Operands.remove word kinds s = .done operands rest ↔
      Operands.Taken kinds s operands rest := by
  have hview := Operands.view_eq_ok_iff word kinds s
  constructor
  · intro h
    unfold Operands.remove Operands.check at h
    split at h
    · cases h
    · rename_i found heq
      cases h
      split at heq
      · exact (hview operands).1 heq
      · cases heq
  · intro h
    obtain ⟨rfl, hlen⟩ := h.rest_eq
    -- the operands themselves show that the stack is high enough
    have hholds : Stack.holds kinds.length s = true := (Stack.holds_iff kinds.length s).2 hlen
    simp only [Operands.remove, Operands.check, hholds, if_true, (hview operands).2 h]

/-! ## What follows a removal -/

namespace Attempt

variable {α : Type} {left : Stack} {removal : Removal α} {next : α → Stack → Attempt}

theorem after_eq_done_iff {effect : Effect} :
    after removal next = .done effect ↔
      ∃ removed rest, removal = .done removed rest ∧ next removed rest = .done effect := by
  cases removal <;> simp [after, and_assoc]

theorem after_eq_failed_iff {failure : Failure} :
    after removal next = .failed failure left ↔
      removal = .failed failure left ∨
        ∃ removed rest, removal = .done removed rest ∧
          next removed rest = .failed failure left := by
  cases removal <;> simp [after, and_assoc]

end Attempt

/-! ## The built-in words -/

/-- What a built-in word does when it succeeds: one line a word, and two for
`dup`, which copies quotations only. -/
inductive Builtin.Does (limit : Nat) (d : Dictionary) (marks : Nat) :
    Builtin → Stack → Effect → Prop
  | arithmetic {op : Arithmetic} {top deeper : Entry} {a b : Int} {v : Value} {rest : Stack} :
      top.value.integer? = some a → deeper.value.integer? = some b → op.compute b a = .ok v →
      Does limit d marks (.arithmetic op) (top :: deeper :: rest)
        ⟨.plain v :: rest, d, marks, []⟩
  | equal {top deeper : Entry} {answer : Bool} {rest : Stack} :
      deeper.sameWithin limit top = .ok answer →
      Does limit d marks .equal (top :: deeper :: rest)
        ⟨.plain (.boolean answer) :: rest, d, marks, []⟩
  | truth (t : Bool) (s : Stack) :
      Does limit d marks (.truth t) s ⟨.plain (.boolean t) :: s, d, marks, []⟩
  | dupQuotation {e : Entry} {rest : Stack} :
      e.value.isQuotation = true → e.value.copyable limit = true →
      Does limit d marks .dup (e :: rest) ⟨e :: .plain e.value :: rest, d, marks, []⟩
  | dupOther {e : Entry} {rest : Stack} :
      e.value.isQuotation = false →
      Does limit d marks .dup (e :: rest)
        ⟨(e.ready marks).1 :: (e.ready marks).1 :: rest, d, (e.ready marks).2, []⟩
  | pop (e : Entry) (rest : Stack) : Does limit d marks .pop (e :: rest) ⟨rest, d, marks, []⟩
  | swap (top deeper : Entry) (rest : Stack) :
      Does limit d marks .swap (top :: deeper :: rest) ⟨deeper :: top :: rest, d, marks, []⟩
  | clear (s : Stack) : Does limit d marks .clear s ⟨[], d, marks, []⟩
  | quote (e : Entry) (rest : Stack) :
      Does limit d marks .quote (e :: rest) ⟨e.enclosed :: rest, d, marks, []⟩
  | apply {q : Entry} {items : List Entry} {rest : Stack} :
      q.items? = some items →
      Does limit d marks .apply (q :: rest) ⟨rest, d, marks, [Frame.ofEntries items]⟩
  | dip {q saved : Entry} {items : List Entry} {rest : Stack} :
      q.items? = some items →
      Does limit d marks .dip (q :: saved :: rest)
        ⟨rest, d, marks, [[.restore saved], Frame.ofEntries items]⟩
  | choose {condition first second : Entry} {xs ys : List Entry} {rest : Stack} :
      first.items? = some xs → second.items? = some ys →
      Does limit d marks .choose (condition :: first :: second :: rest)
        ⟨rest, d, marks, [Frame.ofEntries (if condition.value.countsAsTrue then xs else ys)]⟩
  | define {n body : Entry} {name : String} {items : List Entry} {rest : Stack} :
      n.value.name? = some name → body.items? = some items →
      Does limit d marks .define (n :: body :: rest)
        ⟨rest, d.insert name (.defined name (items.map (·.value))), marks, []⟩

theorem Stack.pop_eq_done_iff {s rest : Stack} {e : Entry} :
    s.pop = .done e rest ↔ s = e :: rest := by
  cases s <;> simp [Stack.pop]

section Success

variable {limit : Nat} {s : Stack} {d : Dictionary} {marks : Nat} {effect : Effect}

/-- A built-in word that succeeds has done one of the things listed. -/
theorem Builtin.does_of_run {b : Builtin} (h : b.run limit s d marks = .done effect) :
    Builtin.Does limit d marks b s effect := by
  -- every word that needs operands takes them off the stack; its own work follows
  cases b with
  | arithmetic op =>
      obtain ⟨⟨a, b, ⟨⟩⟩, rest, hops, hdone⟩ := Attempt.after_eq_done_iff.1 h
      obtain ⟨top, s, rfl, ha, deeper, s, rfl, hb, rfl⟩ := (Operands.remove_eq_done_iff ..).1 hops
      cases hv : op.compute b a with
      | error e => simp [hv] at hdone
      | ok v =>
          simp only [hv] at hdone
          cases hdone
          exact .arithmetic ha hb hv
  | equal =>
      obtain ⟨⟨a, b, ⟨⟩⟩, rest, hops, hdone⟩ := Attempt.after_eq_done_iff.1 h
      obtain ⟨top, s, rfl, ha, deeper, s, rfl, hb, rfl⟩ := (Operands.remove_eq_done_iff ..).1 hops
      cases ha
      cases hb
      cases hv : b.sameWithin limit a with
      | error fault => simp [hv] at hdone
      | ok answer =>
          simp only [hv] at hdone
          cases hdone
          exact .equal hv
  | truth t =>
      cases h
      exact .truth t s
  | dup =>
      obtain ⟨e, rest, hpop, hdone⟩ := Attempt.after_eq_done_iff.1 h
      rw [Stack.pop_eq_done_iff] at hpop
      subst hpop
      cases hq : e.value.isQuotation with
      | false =>
          simp only [hq, Bool.false_eq_true, if_false] at hdone
          cases hdone
          exact .dupOther hq
      | true =>
          cases hc : e.value.copyable limit with
          | false => simp [hq, hc] at hdone
          | true =>
              simp only [hq, hc, if_true] at hdone
              cases hdone
              exact .dupQuotation hq hc
  | pop =>
      obtain ⟨e, rest, hpop, hdone⟩ := Attempt.after_eq_done_iff.1 h
      rw [Stack.pop_eq_done_iff] at hpop
      subst hpop
      cases hdone
      exact .pop e rest
  | swap =>
      obtain ⟨⟨a, b, ⟨⟩⟩, rest, hops, hdone⟩ := Attempt.after_eq_done_iff.1 h
      obtain ⟨top, s, rfl, ha, deeper, s, rfl, hb, rfl⟩ := (Operands.remove_eq_done_iff ..).1 hops
      cases ha
      cases hb
      cases hdone
      exact .swap a b s
  | clear =>
      cases h
      exact .clear s
  | quote =>
      obtain ⟨e, rest, hpop, hdone⟩ := Attempt.after_eq_done_iff.1 h
      rw [Stack.pop_eq_done_iff] at hpop
      subst hpop
      cases hdone
      exact .quote e rest
  | apply =>
      obtain ⟨⟨items, ⟨⟩⟩, rest, hops, hdone⟩ := Attempt.after_eq_done_iff.1 h
      obtain ⟨q, s, rfl, hq, rfl⟩ := (Operands.remove_eq_done_iff ..).1 hops
      cases hdone
      exact .apply hq
  | dip =>
      obtain ⟨⟨items, saved, ⟨⟩⟩, rest, hops, hdone⟩ := Attempt.after_eq_done_iff.1 h
      obtain ⟨q, s, rfl, hq, t, s, rfl, ht, rfl⟩ := (Operands.remove_eq_done_iff ..).1 hops
      cases ht
      cases hdone
      exact .dip hq
  | choose =>
      obtain ⟨⟨c, xs, ys, ⟨⟩⟩, rest, hops, hdone⟩ := Attempt.after_eq_done_iff.1 h
      obtain ⟨condition, s, rfl, hc, first, s, rfl, hx, second, s, rfl, hy, rfl⟩ :=
        (Operands.remove_eq_done_iff ..).1 hops
      cases hc
      cases hdone
      exact .choose hx hy
  | define =>
      obtain ⟨⟨name, items, ⟨⟩⟩, rest, hops, hdone⟩ := Attempt.after_eq_done_iff.1 h
      obtain ⟨n, s, rfl, hn, body, s, rfl, hb, rfl⟩ := (Operands.remove_eq_done_iff ..).1 hops
      cases hdone
      exact .define hn hb

/-- A built-in word does what is listed for it. -/
theorem Builtin.run_of_does {b : Builtin} (h : Builtin.Does limit d marks b s effect) :
    b.run limit s d marks = .done effect := by
  cases h with
  | @arithmetic op top deeper a b v rest ha hb hv =>
      have hops : Operands.remove op.word [.integer, .integer] (top :: deeper :: rest) =
          .done (a, b, ()) rest :=
        (Operands.remove_eq_done_iff ..).2 ⟨top, _, rfl, ha, deeper, _, rfl, hb, rfl⟩
      simp only [Builtin.run, Builtin.word, hops, Attempt.after, hv]
  | @equal top deeper answer rest hv =>
      have hops : Operands.remove "eq" [.any, .any] (top :: deeper :: rest) =
          .done (top, deeper, ()) rest :=
        (Operands.remove_eq_done_iff ..).2 ⟨top, _, rfl, rfl, deeper, _, rfl, rfl, rfl⟩
      simp only [Builtin.run, Builtin.word, hops, Attempt.after, hv]
  | truth t s => rfl
  | dupQuotation hq hc => simp [Builtin.run, Attempt.after, Stack.pop, hq, hc]
  | dupOther hq => simp [Builtin.run, Attempt.after, Stack.pop, hq]
  | pop e rest => rfl
  | swap top deeper rest => rfl
  | clear s => rfl
  | quote e rest => rfl
  | @apply q items rest hq =>
      have hops : Operands.remove "apply" [.quotation] (q :: rest) = .done (items, ()) rest :=
        (Operands.remove_eq_done_iff ..).2 ⟨q, _, rfl, hq, rfl⟩
      simp only [Builtin.run, Builtin.word, hops, Attempt.after]
  | @dip q saved items rest hq =>
      have hops : Operands.remove "dip" [.quotation, .any] (q :: saved :: rest) =
          .done (items, saved, ()) rest :=
        (Operands.remove_eq_done_iff ..).2 ⟨q, _, rfl, hq, saved, _, rfl, rfl, rfl⟩
      simp only [Builtin.run, Builtin.word, hops, Attempt.after]
  | @choose condition first second xs ys rest hx hy =>
      have hops : Operands.remove "if" [.any, .quotation, .quotation]
          (condition :: first :: second :: rest) = .done (condition, xs, ys, ()) rest :=
        (Operands.remove_eq_done_iff ..).2
          ⟨condition, _, rfl, rfl, first, _, rfl, hx, second, _, rfl, hy, rfl⟩
      simp only [Builtin.run, Builtin.word, hops, Attempt.after]
  | @define n body name items rest hn hb =>
      have hops : Operands.remove "def" [.name, .quotation] (n :: body :: rest) =
          .done (name, items, ()) rest :=
        (Operands.remove_eq_done_iff ..).2 ⟨n, _, rfl, hn, body, _, rfl, hb, rfl⟩
      simp only [Builtin.run, Builtin.word, hops, Attempt.after]

theorem Builtin.run_eq_done_iff {b : Builtin} :
    b.run limit s d marks = .done effect ↔ Builtin.Does limit d marks b s effect :=
  ⟨Builtin.does_of_run, Builtin.run_of_does⟩

/-! ## Operations -/

/-- What an operation does when it succeeds. -/
inductive Operation.Does (limit : Nat) (d : Dictionary) (marks : Nat) :
    Operation → Stack → Effect → Prop
  | builtin {name : String} {b : Builtin} {s : Stack} {effect : Effect} :
      Builtin.Does limit d marks b s effect → Does limit d marks (.builtin name b) s effect
  | defined {name : String} {body : List Value} (s : Stack) :
      (Value.quotation body).copyable limit = true →
      Does limit d marks (.defined name body) s ⟨s, d, marks, [Frame.ofNodes body]⟩

theorem Operation.run_eq_done_iff {op : Operation} :
    op.run limit s d marks = .done effect ↔ Operation.Does limit d marks op s effect := by
  constructor
  · intro h
    cases op with
    | builtin name b => exact .builtin (Builtin.run_eq_done_iff.1 h)
    | defined name body =>
        cases hc : (Value.quotation body).copyable limit with
        | false => simp [Operation.run, hc] at h
        | true =>
            simp only [Operation.run, hc, if_true] at h
            cases h
            exact .defined s hc
  · intro h
    cases h with
    | builtin h => exact Builtin.run_eq_done_iff.2 h
    | defined s hc => simp [Operation.run, hc]

end Success

end Catena
