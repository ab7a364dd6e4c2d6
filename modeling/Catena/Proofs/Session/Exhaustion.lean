import Catena.Proofs.Session.Faults

/-!
# The state that exhausted nesting leaves

An evaluation that ends because a value goes too deep reports an error of the language. But
this error is made of a fault, and a fault leaves another state behind than the errors that
are raised by words (`Session.eval_tooDeep_state`).

* The dictionary is the one at the moment the failing word was dispatched, as for all
  errors.
* The entries that the calls around the word have saved are gone.
* So is the quotation that the word was to double, if the word is `dup`. The other words
  that may go too deep, `eq` and the defined ones, leave the stack as it was.

So the state is the one that the other errors leave exactly when nothing was saved and the
word is not `dup`.
-/

set_option autoImplicit false

namespace Catena

/-- Exhausted nesting surfaces from the fault of that name only, unless it was the error to
begin with. -/
theorem Failure.surface_eq_tooDeep_iff {failure : Failure} :
    failure.surface = .error .tooDeep ↔
      failure = .fault .nestingTooDeep ∨ failure = .error .tooDeep := by
  unfold Failure.surface
  split
  · simp
  · rename_i hdeep
    constructor
    · exact Or.inr
    · rintro (h | h)
      · exact absurd h hdeep
      · exact h

/-! ## What the failing word leaves -/

/-- A node doubles the top entry: it is a symbol that is bound to `dup`. -/
def Dictionary.Doubles (d : Dictionary) (v : Value) : Prop :=
  ∃ name word, v = .symbol name ∧ d.get? name = some (.builtin word .dup)

/-- No node raises exhausted nesting as an error. -/
theorem Machine.Fails.ne_tooDeep {limit : Nat} {e : Entry} {s left : Stack} {d : Dictionary}
    {marks : Nat} {failure : Failure} (h : Machine.Fails limit e s d marks failure left) :
    failure ≠ .error .tooDeep := by
  have hshort : ∀ (b : Builtin) (held : Nat), b.shortage held ≠ .tooDeep := by
    intro b held
    cases b <;> simp [Builtin.shortage]
  have hraise : ∀ error : Error, error.raise = .error .tooDeep → error = .tooDeep := by
    intro error herror
    cases hword : error.wordable <;> simp_all [Error.raise]
  -- words raise errors about their operands only; whatever goes too deep is a fault
  cases h with
  | unreadable _ => exact Failure.noConfusion
  | word _ hrun =>
      cases Operation.run_eq_failed_iff.1 hrun with
      | defined _ _ => exact Failure.noConfusion
      | builtin h =>
          cases h with
          | short _ =>
              intro h
              exact hshort _ _ (Failure.error.inj h)
          | misfit _ _ =>
              intro h
              cases hraise _ h
          | zeroDivisor _ _ =>
              intro h
              cases hraise _ h
          | incomparable _ | uncopyable _ _ => exact Failure.noConfusion

namespace Exhausts

variable {limit : Nat} {d : Dictionary} {s left : Stack} {v : Value}

/-- Exhausted nesting leaves the stack as it was, up to its top entry. -/
theorem isSuffix (h : Exhausts limit d s v left) : left <:+ s := by
  cases h with
  | dup => exact List.suffix_cons _ _
  | equal | defined => exact List.suffix_refl _

/-- Exhausted nesting leaves the whole stack, unless the word is `dup`. -/
theorem left_eq_iff (h : Exhausts limit d s v left) : left = s ↔ ¬ d.Doubles v := by
  cases h with
  | @dup name word e _ hget _ _ =>
      have hne : left ≠ e :: left := List.ne_cons_self
      simp only [hne, false_iff, not_not]
      exact ⟨name, word, rfl, hget⟩
  | equal hget _ =>
      -- the name is bound to this word, so it is not bound to `dup`
      simp only [true_iff]
      rintro ⟨name, word, hname, hdup⟩
      cases hname
      rw [hget] at hdup
      cases hdup
  | defined hget _ =>
      simp only [true_iff]
      rintro ⟨name, word, hname, hdup⟩
      cases hname
      rw [hget] at hdup
      cases hdup

/-- The stack that is left is the whole stack with the saved entries back on top exactly
when there are none to put back and the word is not `dup`. -/
theorem reverse_eq_append_iff (h : Exhausts limit d s v left) (saved : List Entry) :
    left.reverse = s.reverse ++ saved ↔ saved = [] ∧ ¬ d.Doubles v := by
  rw [← h.left_eq_iff]
  constructor
  · intro heq
    -- the left side is no longer than the stack, so nothing can follow it on the right
    have hlength := congrArg List.length heq
    have hle : left.length ≤ s.length := h.isSuffix.length_le
    rw [List.length_append, List.length_reverse, List.length_reverse] at hlength
    have hsaved : saved = [] := List.eq_nil_of_length_eq_zero (by omega)
    subst hsaved
    rw [List.append_nil, List.reverse_inj] at heq
    exact ⟨rfl, heq⟩
  · rintro ⟨rfl, rfl⟩
    rw [List.append_nil]

end Exhausts

namespace Session

/-- An evaluation that ends in exhausted nesting came to a machine `m` whose next node goes
too deep. The dictionary is that of `m`, and the stack is what the node left of that of `m`;
of the entries saved by the calls around the node none is put back. So the stack, read from
the bottom, is that of `m` followed by these entries exactly when there are none and the node
is not `dup`. -/
theorem eval_tooDeep_state {bounds : Bounds} {s : Session} {text : String}
    {evaluation : Evaluation} (heval : s.eval bounds text = some evaluation)
    (hdeep : evaluation.failure = some (.error .tooDeep)) :
    ∃ (nodes : List Value) (m : Machine) (node : Entry) (items : Frame) (below : List Frame),
      Program.read text = .ok nodes ∧
      Machine.Reaches bounds.nesting (Machine.start nodes s.stack s.words s.marks) m ∧
      m.frames = (.node node :: items) :: below ∧
      FailsInside bounds.nesting (nodes.map .plain) s node ⟨m.stack, m.words, m.marks⟩
        (savedEntries (items :: below)) ∧
      Exhausts bounds.nesting m.words m.stack node.value evaluation.session.stack ∧
      evaluation.session.words = m.words ∧
      (evaluation.session.stack.reverse = m.stack.reverse ++ savedEntries (items :: below) ↔
        savedEntries (items :: below) = [] ∧ ¬ m.words.Doubles node.value) := by
  rcases eval_failure_cases heval hdeep with ⟨e, -, hsyntax, herror⟩ |
    ⟨nodes, node, τ, items, below, failure, left, hread, hreach, hinside, hfails, hsurface, hses⟩
  · -- exhausted nesting is no error of syntax
    cases herror
    cases hsyntax
  have hfailure : failure = .fault .nestingTooDeep :=
    (Failure.surface_eq_tooDeep_iff.1 hsurface).resolve_right hfails.ne_tooDeep
  subst hfailure
  have hexhausts : Exhausts bounds.nesting τ.words τ.stack node.value left := by
    rcases Machine.fails_fault_iff.1 hfails with ⟨hover, -⟩ | ⟨-, hexhausts⟩
    · exact absurd rfl hover.ne_nestingTooDeep
    · exact hexhausts
  -- after a fault, what the frames hold back stays there
  have hsession : evaluation.session = ⟨left, τ.words, τ.marks⟩ := hses
  rw [hsession]
  exact ⟨nodes, _, node, items, below, hread, hreach, rfl, hinside, hexhausts, rfl,
    hexhausts.reverse_eq_append_iff _⟩

/-- The nodes that compare two quotations of forty levels each. -/
def comparison : List Value :=
  [.nested 40 (.symbol "x"), .nested 40 (.symbol "x"), .symbol "eq"]

theorem read_comparison :
    Program.read (" ".intercalate (comparison.flatMap Value.tokens)) = .ok comparison := by
  have hdeep : (Value.nested 40 (.symbol "x")).OfTokens := by
    rw [Value.OfTokens, Value.everyLeaf_nested]
    exact .symbol ⟨"x", rfl, by decide⟩
  refine Program.read_intercalate fun v hv => ?_
  simp only [comparison, List.mem_cons, List.not_mem_nil, or_false, or_self_left] at hv
  rcases hv with rfl | rfl
  · exact hdeep
  · exact .symbol ⟨"eq", rfl, by decide⟩

/-- Comparing two quotations of forty levels goes too deep for a limit of one hundred. Both stay on
the stack. -/
theorem eval_tooDeep_state_of_comparison :
    ∃ text e, text = " ".intercalate (comparison.flatMap Value.tokens) ∧ e.value.depth = 40 ∧
      Session.fresh.eval ⟨100, 20, 100⟩ text =
        some ⟨⟨[e, e], Dictionary.builtins, 0⟩, some (.error .tooDeep), []⟩ ∧
      ∃ nodes m node items below, Program.read text = .ok nodes ∧
        Machine.Reaches 100 (Machine.start nodes [] Dictionary.builtins 0) m ∧
        m.frames = (.node node :: items) :: below ∧
        Exhausts 100 m.words m.stack node.value [e, e] ∧ Dictionary.builtins = m.words := by
  have heval : Session.fresh.eval ⟨100, 20, 100⟩
      (" ".intercalate (comparison.flatMap Value.tokens)) =
      some ⟨⟨[.plain (.nested 40 (.symbol "x")), .plain (.nested 40 (.symbol "x"))],
        Dictionary.builtins, 0⟩, some (.error .tooDeep), []⟩ := by
    rw [eval, read_comparison]
    decide +kernel
  obtain ⟨nodes, m, node, items, below, hread, hreach, hframes, -, hexhausts, hwords, -⟩ :=
    eval_tooDeep_state heval rfl
  exact ⟨_, _, rfl, Value.depth_nested 40 _, heval, nodes, m, node, items, below, hread, hreach,
    hframes, hexhausts, hwords⟩

/-- The nodes that double `v` under a saved integer. -/
def doublingUnderFive (v : Value) : List Value :=
  [.symbol "5", .quotation [v, .symbol "dup"], .symbol "dip"]

/-- Doubling a quotation that goes too deep, under a saved integer, fails with the quotation
on the stack and the integer saved. -/
theorem failsInside_doublingUnderFive {limit : Nat} {v : Value} (hv : v.isQuotation = true)
    (hdepth : limit < 2 * v.depth) :
    Machine.Fails limit (.plain (.symbol "dup")) [.plain v] Dictionary.builtins 0
      (.fault .nestingTooDeep) [] ∧
    FailsInside limit ((doublingUnderFive v).map .plain) Session.fresh (.plain (.symbol "dup"))
      ⟨[.plain v], Dictionary.builtins, 0⟩ [.plain (.integer 5)] := by
  have hpush : Action.ofNode Dictionary.builtins v = .ok (.push v) :=
    Action.ofNode_of_isQuotation hv
  have hdup : Dictionary.builtins.get? "dup" = some (.builtin "dup" .dup) := by rfl
  have hdip : Action.ofNode Dictionary.builtins (.symbol "dip") =
      .ok (.invoke "dip" (.builtin "dip" .dip)) := by rfl
  have hfive : Action.ofNode Dictionary.builtins (.symbol "5") = .ok (.push (.integer 5)) := by rfl
  have hexhausts : Exhausts limit Dictionary.builtins [.plain v]
      (Entry.plain (.symbol "dup")).value [] := .dup hdup hv hdepth
  have hfails : Machine.Fails limit (.plain (.symbol "dup")) [.plain v] Dictionary.builtins 0
      (.fault .nestingTooDeep) [] := Machine.fails_of_exhausts hexhausts
  have hcall : Calls limit (.plain (.symbol "dip"))
      ⟨[.plain (.quotation [v, .symbol "dup"]), .plain (.integer 5)], Dictionary.builtins, 0⟩
      [.plain v, .plain (.symbol "dup")] ⟨[], Dictionary.builtins, 0⟩ [.plain (.integer 5)] :=
    .dip hdip rfl
  have hinside : FailsInside limit [.plain v, .plain (.symbol "dup")]
      ⟨[], Dictionary.builtins, 0⟩ (.plain (.symbol "dup"))
      ⟨[.plain v], Dictionary.builtins, 0⟩ [] :=
    .later (.push hpush) rfl (.here hfails)
  exact ⟨hfails, .later (.push hfive) rfl (.later (.push rfl) rfl (.call hcall hinside))⟩

/-- A quotation 12000 levels deep is doubled under a saved integer, in a fresh session with
a limit of 10000. When `dup` is dispatched, the quotation is on the stack and the integer is
saved; when the evaluation has ended, both are gone. -/
theorem values_lost_under_five :
    ∃ nodes m node items below, nodes = doublingUnderFive .deep ∧
      Program.read (" ".intercalate (nodes.flatMap Value.tokens)) = .ok nodes ∧
      Machine.Reaches 10000 (Machine.start nodes [] Dictionary.builtins 0) m ∧
      m.frames = (.node node :: items) :: below ∧ m.stack = [.plain .deep] ∧
      savedEntries (items :: below) = [.plain (.integer 5)] ∧
      Session.fresh.Ends 10000 (" ".intercalate (nodes.flatMap Value.tokens))
        ⟨[], Dictionary.builtins, 0⟩ (some (.error .tooDeep)) := by
  have hdepth : 10000 < 2 * Value.deep.depth := by
    rw [Value.depth_deep]
    decide
  have hread : Program.read (" ".intercalate ((doublingUnderFive .deep).flatMap Value.tokens)) =
      .ok (doublingUnderFive .deep) := by
    refine Program.read_intercalate fun v hv => ?_
    simp only [doublingUnderFive, List.mem_cons, List.not_mem_nil, or_false] at hv
    rcases hv with rfl | rfl | rfl
    · exact .symbol ⟨"5", rfl, by decide⟩
    · refine Value.everyLeaf_quotation.2 ?_
      rw [List.forall_mem_cons, List.forall_mem_singleton]
      exact ⟨Value.ofTokens_deep, .symbol ⟨"dup", rfl, by decide⟩⟩
    · exact .symbol ⟨"dip", rfl, by decide⟩
  obtain ⟨hfails, hinside⟩ := failsInside_doublingUnderFive Value.isQuotation_deep hdepth
  have hframes : [Frame.ofNodes (doublingUnderFive .deep)].flatten =
      Frame.ofEntries ((doublingUnderFive .deep).map .plain) ++ [] := by
    simp [Frame.ofNodes]
  obtain ⟨items, below, hreach, hsaved⟩ := hinside.reaches hframes
  have hhalts := Machine.halts_iff.2
    ⟨_, hreach, @Machine.Stop.failed _ _ _ _ _ _ _ items below hfails⟩
  refine ⟨_, _, _, items, below, rfl, hread, hreach, rfl, rfl, hsaved, ?_⟩
  exact (ends_iff_halts hread).2 ⟨_, hhalts, rfl, rfl⟩

end Session

end Catena
