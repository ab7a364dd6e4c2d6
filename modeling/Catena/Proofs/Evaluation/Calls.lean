import Catena.Proofs.Evaluation.Agreement

/-!
# Words that run a quotation

`apply` and `dip` both take a quotation off the stack and have its items evaluated. What a
call comes to is what its items come to, with the saved entries put back
(`Calls.evaluates_iff`). So `apply` means the items of its quotation
(`Machine.halts_apply_iff`), and `dip` means the same on the stack without the saved entry,
which then returns (`Machine.halts_dip_iff`).

It follows that `dip` is `apply` under an entry (`Machine.halts_dip_iff_halts_apply`). The items
may clear the stack, run out of it, save further entries, end in a call that takes the place of
their frame, or redefine `dip`: the saved entry waits in a frame of its own and returns once.
-/

set_option autoImplicit false

namespace Catena

/-- The spelling of a built-in word is still bound to that word. -/
def Dictionary.Keeps (d : Dictionary) (b : Builtin) : Prop :=
  ∃ name, d.get? b.word = some (.builtin name b)

/-- A symbol that is bound calls its operation. -/
theorem Action.ofNode_of_get? {d : Dictionary} {name : String} {op : Operation}
    (h : d.get? name = some op) : Action.ofNode d (.symbol name) = .ok (.invoke name op) :=
  Action.ofNode_eq_invoke_iff.2 ⟨rfl, h⟩

theorem Entry.exists_items? {q : Entry} (h : q.value.isQuotation = true) :
    ∃ items, q.items? = some items := by
  obtain ⟨v, mark⟩ := q
  cases v with
  | quotation items => exact ⟨_, rfl⟩
  | integer _ | boolean _ | symbol _ | emptyMapping | mapping _ _ => cases h

/-- What is put back can be told apart from what was left. -/
theorem Outcome.putBack_injective (entries : List Entry) :
    Function.Injective (Outcome.putBack entries) := by
  rintro ⟨failure, s, d, marks⟩ ⟨failure', s', d', marks'⟩ h
  have hfailure : failure = failure' := by
    simpa only [putBack_failure] using congrArg Outcome.failure h
  subst hfailure
  rcases failure with - | (e | fault)
  · simpa [putBack, Stack.pushAll_eq] using h
  · simpa [putBack, Stack.pushAll_eq] using h
  · exact h

/-! ## What a call comes to -/

section Calling

variable {limit : Nat} {e : Entry} {σ σ' : Session} {items saved : List Entry} {o : Outcome}

/-- A machine that moves halts as the one it moves to. -/
theorem Machine.halts_iff_of_move {m m' : Machine} (h : Move limit m m') :
    Halts limit m o ↔ Halts limit m' o := by
  refine ⟨?_, .of_move h⟩
  rintro ⟨fuel, hrun⟩
  cases fuel with
  | zero => cases hrun
  | succ fuel => exact ⟨fuel, by simpa only [run, step_of_move h] using hrun⟩

theorem evaluates_singleton : Evaluates limit [e] σ o ↔ EvaluatesNode limit e σ o := by
  constructor
  · intro h
    cases h with
    | stop hnode hfirst => exact hnode
    | @cons _ _ _ first _ hnode hfirst hnil =>
        cases hnil
        obtain ⟨failure, s, d, marks⟩ := first
        cases hfirst
        exact hnode
  · intro h
    by_cases ho : o.failure = none
    · obtain ⟨failure, s, d, marks⟩ := o
      cases ho
      exact .cons h rfl (.nil _)
    · exact .stop h ho

/-- A node that calls for the evaluation of other nodes comes to what these come to, with the
saved entries put back. -/
theorem Calls.evaluates_iff (h : Calls limit e σ items σ' saved) :
    Evaluates limit [e] σ o ↔
      ∃ first, Evaluates limit items σ' first ∧ o = first.putBack saved := by
  constructor
  · intro he
    -- the machine makes the call first, and what it halts with has completed the rest
    obtain ⟨frames, hframes, hmove⟩ := h.move [] []
    have hrest := completes_of_halts ((Machine.halts_iff_of_move hmove).1 (halts_of_evaluates he))
    rw [hframes, List.flatten_nil, List.append_nil, List.append_nil, completes_call] at hrest
    exact hrest
  · rintro ⟨first, hitems, rfl⟩
    exact evaluates_singleton.2 (.call h hitems)

/-- A node that saves nothing comes to what the nodes it calls for come to. -/
theorem Calls.evaluates_iff_of_nil (h : Calls limit e σ items σ' []) :
    Evaluates limit [e] σ o ↔ Evaluates limit items σ' o := by
  rw [h.evaluates_iff]
  simp only [Outcome.putBack_nil, exists_eq_right']

end Calling

/-! ## Applying a quotation, and doing so under an entry -/

namespace Machine

section Applying

variable {limit : Nat} {q : Entry} {items : List Entry} {s : Stack} {d : Dictionary} {marks : Nat}
  {o : Outcome}

/-- A machine that starts with one symbol halts with what the symbol comes to. -/
theorem halts_start_symbol_iff {name : String} :
    Halts limit (start [.symbol name] s d marks) o ↔
      Evaluates limit [.plain (.symbol name)] ⟨s, d, marks⟩ o :=
  ⟨evaluates_of_halts, halts_of_evaluates⟩

theorem halts_apply_iff (happly : d.Keeps .apply) (hq : q.items? = some items) :
    Halts limit (start [.symbol "apply"] (q :: s) d marks) o ↔
      Evaluates limit items ⟨s, d, marks⟩ o := by
  obtain ⟨name, hget⟩ := happly
  have hcall : Calls limit (.plain (.symbol "apply")) ⟨q :: s, d, marks⟩ items ⟨s, d, marks⟩ [] :=
    .apply (Action.ofNode_of_get? hget) hq
  rw [halts_start_symbol_iff, hcall.evaluates_iff_of_nil]

theorem halts_dip_iff (hdip : d.Keeps .dip) (hq : q.items? = some items) (t : Entry) :
    Halts limit (start [.symbol "dip"] (q :: t :: s) d marks) o ↔
      ∃ first, Evaluates limit items ⟨s, d, marks⟩ first ∧ o = first.putBack [t] := by
  obtain ⟨name, hget⟩ := hdip
  have hcall :
      Calls limit (.plain (.symbol "dip")) ⟨q :: t :: s, d, marks⟩ items ⟨s, d, marks⟩ [t] :=
    .dip (Action.ofNode_of_get? hget) hq
  rw [halts_start_symbol_iff, hcall.evaluates_iff]

/-- Under an entry, `dip` ends with what `apply` ends with and puts the entry back. -/
theorem halts_dip_putBack_iff (hdip : d.Keeps .dip) (happly : d.Keeps .apply)
    (hq : q.items? = some items) (t : Entry) :
    Halts limit (start [.symbol "dip"] (q :: t :: s) d marks) (o.putBack [t]) ↔
      Halts limit (start [.symbol "apply"] (q :: s) d marks) o := by
  rw [halts_dip_iff hdip hq, halts_apply_iff happly hq]
  constructor
  · rintro ⟨first, hfirst, ho⟩
    rw [Outcome.putBack_injective [t] ho]
    exact hfirst
  · intro h
    exact ⟨o, h, rfl⟩

end Applying

/-- `dip` and `apply` are the built-in words, and a quotation lies on top of the stack. Then
`dip`, with an entry `t` below the quotation, ends exactly when `apply` without that entry does.
Both end normally, or with the same error, or with the same fault; the dictionary and the marks
are then the same, and so is the stack, except that `t` lies on top of it unless there was a
fault. -/
theorem halts_dip_iff_halts_apply (limit : Nat) {q : Entry} {d : Dictionary}
    (hdip : d.Keeps .dip) (happly : d.Keeps .apply) (hq : q.value.isQuotation = true)
    (t : Entry) (s : Stack) (marks : Nat) :
    ((∃ o, Halts limit (start [.symbol "dip"] (q :: t :: s) d marks) o) ↔
      ∃ o, Halts limit (start [.symbol "apply"] (q :: s) d marks) o) ∧
    ∀ s' d' marks',
      (Halts limit (start [.symbol "dip"] (q :: t :: s) d marks) ⟨none, t :: s', d', marks'⟩ ↔
        Halts limit (start [.symbol "apply"] (q :: s) d marks) ⟨none, s', d', marks'⟩) ∧
      (∀ e, Halts limit (start [.symbol "dip"] (q :: t :: s) d marks)
          ⟨some (.error e), t :: s', d', marks'⟩ ↔
        Halts limit (start [.symbol "apply"] (q :: s) d marks)
          ⟨some (.error e), s', d', marks'⟩) ∧
      ∀ fault, Halts limit (start [.symbol "dip"] (q :: t :: s) d marks)
          ⟨some (.fault fault), s', d', marks'⟩ ↔
        Halts limit (start [.symbol "apply"] (q :: s) d marks)
          ⟨some (.fault fault), s', d', marks'⟩ := by
  obtain ⟨items, hitems⟩ := Entry.exists_items? hq
  have hback : ∀ o : Outcome,
      Halts limit (start [.symbol "dip"] (q :: t :: s) d marks) (o.putBack [t]) ↔
        Halts limit (start [.symbol "apply"] (q :: s) d marks) o :=
    fun o => halts_dip_putBack_iff hdip happly hitems t
  refine ⟨⟨?_, ?_⟩, fun s' d' marks' => ⟨?_, ?_, ?_⟩⟩
  · rintro ⟨o, ho⟩
    obtain ⟨first, hfirst, -⟩ := (halts_dip_iff hdip hitems t).1 ho
    exact ⟨first, (halts_apply_iff happly hitems).2 hfirst⟩
  · rintro ⟨o, ho⟩
    exact ⟨o.putBack [t], (hback o).2 ho⟩
  · exact hback ⟨none, s', d', marks'⟩
  · intro e
    exact hback ⟨some (.error e), s', d', marks'⟩
  · intro fault
    exact hback ⟨some (.fault fault), s', d', marks'⟩

/-- The quotation clears the stack, redefines `dip` and runs out of values inside of a further
quotation that it applies. The saved boolean is not touched and returns. -/
theorem halts_dip_iff_halts_apply_of_clear :
    Halts 100
      (start [.symbol "dip"]
        [.plain (.quotation [.symbol "clear", .quotation [], .quotation [.symbol "dip"],
            .symbol "def", .quotation [.symbol "1", .symbol "+"], .symbol "apply"]),
          .plain (.boolean true), .plain (.integer 8)] Dictionary.builtins 0)
      ⟨some (.error (.tooFewValues 2 1)), [.plain (.boolean true), .plain (.integer 1)],
        Dictionary.builtins.insert "dip" (.defined "dip" []), 0⟩ := by
  have hkeeps : Dictionary.builtins.Keeps .dip ∧ Dictionary.builtins.Keeps .apply :=
    ⟨⟨"dip", rfl⟩, ⟨"apply", rfl⟩⟩
  refine (((halts_dip_iff_halts_apply 100 hkeeps.1 hkeeps.2 rfl _ _ 0).2 _ _ _).2.1 _).2 ?_
  exact ⟨20, by decide +kernel⟩

end Machine

end Catena
