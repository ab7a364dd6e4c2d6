import Catena.Proofs.Evaluation.Calls
import Catena.Proofs.Session.Values

/-!
# Numerals do not stay on the stack

A numeral is a symbol that stands for an integer. Inside of quotations and mappings it is a symbol
like others. When it is evaluated as a node it is run, if it is bound, or becomes its integer, so
it is never pushed as it is. The other ways onto the stack are no ways for it either: results of
words are integers, booleans and quotations, and an entry that a `dip` puts back was on the stack
before. So no entry that lies on the stack, or waits to be put back, is a bare numeral
(`Machine.Settled`). One move keeps this, hence so does a run, however it ends, and so does every
sequence of calls on a session.

It follows that enclosing the top value in a quotation and applying that quotation changes nothing,
unless the value is a symbol that is bound (`Session.Reachable.ends_quote_apply`).
-/

set_option autoImplicit false

namespace Catena

/-! ## Settled values -/

/-- A value that is no bare numeral. -/
def Value.Settled (v : Value) : Prop :=
  ∀ name, v = .symbol name → isNumeral name = false

namespace Value

theorem settled_integer (n : Int) : (Value.integer n).Settled := by
  intro name h
  cases h

theorem settled_boolean (b : Bool) : (Value.boolean b).Settled := by
  intro name h
  cases h

/-- What is inside of a quotation does not matter. -/
theorem settled_quotation (items : List Value) : (Value.quotation items).Settled := by
  intro name h
  cases h

end Value

/-- The result of an arithmetic word is an integer or a boolean. -/
theorem Arithmetic.settled_of_compute {op : Arithmetic} {b a : Int} {v : Value}
    (h : op.compute b a = .ok v) : v.Settled := by
  cases op
  case plus | minus | times =>
    cases h
    exact Value.settled_integer _
  case less | greater | atMost | atLeast =>
    cases h
    exact Value.settled_boolean _
  -- division is left, and its quotient is an integer if there is one
  simp only [Arithmetic.compute] at h
  split at h
  · cases h
  · cases h
    exact Value.settled_integer _

/-- What a node that is data puts on the stack is settled. -/
theorem Action.settled_of_push {d : Dictionary} {v w : Value}
    (h : Action.ofNode d v = .ok (.push w)) : w.Settled := by
  rcases Action.ofNode_eq_push_iff.1 h with ⟨rfl, hdata⟩ | ⟨name, n, -, -, -, -, rfl⟩
  · intro name hname
    exact (hdata name hname).2
  · exact Value.settled_integer n

/-! ## Words -/

/-- The entries that a word leaves on the stack or has put back later are settled. -/
structure Effect.Settled (effect : Effect) : Prop where
  stack : Stack.Carries Value.Settled effect.stack
  saved : ∀ frame ∈ effect.scheduled, Stack.Carries Value.Settled (Item.savedOf frame)

/-- The entries that lie on the stack of a machine, or wait to be put back, are settled. -/
structure Machine.Settled (m : Machine) : Prop where
  stack : Stack.Carries Value.Settled m.stack
  saved : Stack.Carries Value.Settled (savedEntries m.frames)

section Words

variable {limit : Nat} {s : Stack} {d : Dictionary} {marks : Nat} {effect : Effect}

theorem Effect.settled_of_stack {t : Stack} (ht : Stack.Carries Value.Settled t) :
    Effect.Settled ⟨t, d, marks, []⟩ :=
  ⟨ht, List.forall_mem_nil _⟩

/-- A word that has a quotation evaluated saves nothing by that. -/
theorem Effect.settled_of_frame {t : Stack} {items : List Entry}
    (ht : Stack.Carries Value.Settled t) :
    Effect.Settled ⟨t, d, marks, [Frame.ofEntries items]⟩ := by
  refine ⟨ht, ?_⟩
  simp only [List.mem_singleton, forall_eq, Item.savedOf_ofEntries, Stack.carries_nil]

theorem Builtin.Does.settled {b : Builtin} (h : Builtin.Does limit d marks b s effect)
    (hs : Stack.Carries Value.Settled s) : effect.Settled := by
  cases h with
  | arithmetic _ _ hv =>
      simp only [Stack.carries_cons] at hs
      apply Effect.settled_of_stack
      exact Stack.carries_cons.2 ⟨Arithmetic.settled_of_compute hv, hs.2.2⟩
  | equal _ =>
      simp only [Stack.carries_cons] at hs
      apply Effect.settled_of_stack
      exact Stack.carries_cons.2 ⟨Value.settled_boolean _, hs.2.2⟩
  | truth t _ =>
      apply Effect.settled_of_stack
      exact Stack.carries_cons.2 ⟨Value.settled_boolean t, hs⟩
  | dupQuotation _ _ =>
      simp only [Stack.carries_cons] at hs
      apply Effect.settled_of_stack
      simpa [Entry.plain] using hs
  | dupOther _ =>
      simp only [Stack.carries_cons] at hs
      apply Effect.settled_of_stack
      simpa using hs
  | pop _ _ =>
      apply Effect.settled_of_stack
      exact (Stack.carries_cons.1 hs).2
  | swap top deeper rest =>
      simp only [Stack.carries_cons] at hs
      obtain ⟨htop, hdeeper, hrest⟩ := hs
      apply Effect.settled_of_stack
      simpa using ⟨hdeeper, htop, hrest⟩
  | clear _ =>
      apply Effect.settled_of_stack
      exact Stack.carries_nil
  | quote e rest =>
      apply Effect.settled_of_stack
      exact Stack.carries_cons.2 ⟨Value.settled_quotation _, (Stack.carries_cons.1 hs).2⟩
  | apply _ =>
      apply Effect.settled_of_frame
      exact (Stack.carries_cons.1 hs).2
  | dip _ =>
      simp only [Stack.carries_cons] at hs
      obtain ⟨-, hsaved, hrest⟩ := hs
      refine ⟨hrest, ?_⟩
      simpa using hsaved
  | choose _ _ =>
      simp only [Stack.carries_cons] at hs
      apply Effect.settled_of_frame
      exact hs.2.2.2
  | define _ _ =>
      simp only [Stack.carries_cons] at hs
      apply Effect.settled_of_stack
      exact hs.2.2

theorem Operation.Does.settled {op : Operation} (h : Operation.Does limit d marks op s effect)
    (hs : Stack.Carries Value.Settled s) : effect.Settled := by
  cases h with
  | builtin h => exact h.settled hs
  | defined _ _ => exact Effect.settled_of_frame hs

end Words

/-! ## Runs -/

namespace Machine

variable {limit : Nat} {m m' : Machine} {o : Outcome}

theorem settled_iff {s : Stack} {d : Dictionary} {marks : Nat} {frames : List Frame} :
    (Machine.mk s d marks frames).Settled ↔
      Stack.Carries Value.Settled s ∧
        Stack.Carries Value.Settled (Item.savedOf frames.flatten) := by
  rw [← savedEntries_eq]
  exact ⟨fun h => ⟨h.stack, h.saved⟩, fun h => ⟨h.1, h.2⟩⟩

/-- Frames that are added to others save what they save and what the others do. -/
theorem savedOf_foldl_addFrame {scheduled frames : List Frame}
    (hscheduled : ∀ frame ∈ scheduled, Stack.Carries Value.Settled (Item.savedOf frame))
    (hframes : Stack.Carries Value.Settled (Item.savedOf frames.flatten)) :
    Stack.Carries Value.Settled (Item.savedOf (scheduled.foldl addFrame frames).flatten) := by
  induction scheduled generalizing frames with
  | nil => exact hframes
  | cons frame scheduled ih =>
      obtain ⟨hframe, hothers⟩ := List.forall_mem_cons.1 hscheduled
      rw [List.foldl_cons]
      apply ih hothers
      rw [flatten_addFrame, Item.savedOf_append, Stack.carries_append]
      exact ⟨hframe, hframes⟩

/-- One move keeps a machine settled. -/
theorem Move.settled (h : Move limit m m') (hm : m.Settled) : m'.Settled := by
  cases h with
  | drop => exact ⟨hm.stack, hm.saved⟩
  | restore =>
      rw [settled_iff] at hm ⊢
      obtain ⟨hstack, hsaved⟩ := hm
      obtain ⟨he, hrest⟩ := Stack.carries_cons.1 hsaved
      exact ⟨Stack.carries_cons.2 ⟨he, hstack⟩, hrest⟩
  | push hnode =>
      rw [settled_iff] at hm ⊢
      obtain ⟨hstack, hsaved⟩ := hm
      exact ⟨Stack.carries_cons.2 ⟨Action.settled_of_push hnode, hstack⟩, hsaved⟩
  | word hnode hrun =>
      rw [settled_iff] at hm ⊢
      obtain ⟨hstack, hsaved⟩ := hm
      have heffect := (Operation.run_eq_done_iff.1 hrun).settled hstack
      exact ⟨heffect.stack, savedOf_foldl_addFrame heffect.saved hsaved⟩

/-- The end of an evaluation leaves a settled stack, also when it fails and entries are put
back. -/
theorem Stop.settled (h : Stop limit m o) (hm : m.Settled) :
    Stack.Carries Value.Settled o.stack := by
  cases h with
  | finished => exact hm.stack
  | @failed s left d marks e failure items rest hfails =>
      have hleft : Stack.Carries Value.Settled left := hfails.carries hm.stack
      cases failure with
      | fault _ => exact hleft
      | error _ =>
          change Stack.Carries Value.Settled (Stack.pushAll left (savedEntries (items :: rest)))
          rw [Stack.pushAll_eq, Stack.carries_append]
          refine ⟨?_, hleft⟩
          intro entry hentry
          exact hm.saved entry (List.mem_reverse.1 hentry)

/-- A whole evaluation leaves a settled stack. -/
theorem Halts.settled (h : Halts limit m o) (hm : m.Settled) :
    Stack.Carries Value.Settled o.stack := by
  revert hm
  refine Halts.induct (motive := fun m => m.Settled → Stack.Carries Value.Settled o.stack) ?_ ?_ h
  · intro m hstop hm
    exact hstop.settled hm
  · intro m m' hmove ih hm
    exact ih (hmove.settled hm)

/-- A machine that is about to evaluate nodes has saved nothing. The nodes may be numerals. -/
theorem settled_start {nodes : List Value} {s : Stack} {d : Dictionary} {marks : Nat}
    (hs : Stack.Carries Value.Settled s) : (start nodes s d marks).Settled := by
  rw [start, settled_iff, List.flatten_singleton, Frame.ofNodes, Item.savedOf_ofEntries]
  exact ⟨hs, Stack.carries_nil⟩

end Machine

/-! ## Sessions -/

namespace Session

theorem Reachable.settled {s : Session} (h : Reachable s) :
    Stack.Carries Value.Settled s.stack := by
  refine h.preserves (P := fun s => Stack.Carries Value.Settled s.stack) Stack.carries_nil ?_ ?_
  · intro s bounds text evaluation hs heval
    rcases eval_cases heval with ⟨failure, -, hsame, -⟩ | ⟨nodes, o, -, hhalts, hsession, -⟩
    · rw [hsame]
      exact hs
    · rw [hsession]
      exact hhalts.settled (Machine.settled_start hs)
  · intro s _
    exact Stack.carries_nil

/-- Enclosing the top entry in a quotation and applying that quotation pushes the entry again, if
evaluating its value does nothing but push it. -/
theorem evaluates_quote_apply {limit : Nat} {e : Entry} {rest : Stack} {d : Dictionary}
    {marks : Nat} (hquote : d.Keeps .quote) (happly : d.Keeps .apply)
    (hdata : Action.ofNode d e.value = .ok (.push e.value)) :
    Evaluates limit [.plain (.symbol "quote"), .plain (.symbol "apply")] ⟨e :: rest, d, marks⟩
      ⟨none, e :: rest, d, marks⟩ := by
  obtain ⟨called, hgetQuote⟩ := hquote
  obtain ⟨_, hgetApply⟩ := happly
  have hrun : (Operation.builtin called .quote).run limit (e :: rest) d marks =
      .done ⟨e.enclosed :: rest, d, marks, []⟩ :=
    Operation.run_eq_done_iff.2 (.builtin (.quote e rest))
  have hfirst : EvaluatesNode limit (.plain (.symbol "quote")) ⟨e :: rest, d, marks⟩
      ⟨none, e.enclosed :: rest, d, marks⟩ :=
    EvaluatesNode.word (σ := ⟨e :: rest, d, marks⟩) (Action.ofNode_of_get? hgetQuote) hrun rfl
  have hitem : Evaluates limit [e] ⟨rest, d, marks⟩ ⟨none, e :: rest, d, marks⟩ :=
    evaluates_singleton.2 (.push hdata)
  have hcall : Calls limit (.plain (.symbol "apply")) ⟨e.enclosed :: rest, d, marks⟩ [e]
      ⟨rest, d, marks⟩ [] :=
    .apply (Action.ofNode_of_get? hgetApply) (Entry.items?_enclosed e)
  have hsecond : Evaluates limit [.plain (.symbol "apply")] ⟨e.enclosed :: rest, d, marks⟩
      ⟨none, e :: rest, d, marks⟩ :=
    hcall.evaluates_iff_of_nil.2 hitem
  exact .cons hfirst rfl hsecond

/-- A settled value that is no bound symbol is pushed when it is evaluated. -/
theorem ofNode_of_settled {d : Dictionary} {v : Value} (hv : v.Settled)
    (hfree : ∀ name, v = .symbol name → d.get? name = none) :
    Action.ofNode d v = .ok (.push v) := by
  refine Action.ofNode_eq_push_iff.2 (Or.inl ⟨rfl, ?_⟩)
  intro name hname
  exact ⟨hfree name hname, hv name hname⟩

/-- No value that lies on the stack of a reachable session is a bare numeral. Hence, in a reachable
session in which `quote` and `apply` are the built-in words, evaluating the text `quote apply`
succeeds and leaves the session as it is, whatever lies on top of the stack, unless this is a
symbol that is bound. -/
theorem Reachable.ends_quote_apply {s : Session} (h : Reachable s) :
    (∀ e ∈ s.stack, e.value.Settled) ∧
    ∀ e rest, s.stack = e :: rest → s.words.Keeps .quote → s.words.Keeps .apply →
      (∀ name, e.value = .symbol name → s.words.get? name = none) →
      ∀ nesting, s.Ends nesting "quote apply" s none := by
  have hsettled := h.settled
  refine ⟨hsettled, ?_⟩
  intro e rest hstack hquote happly hfree nesting
  obtain ⟨stack, d, marks⟩ := s
  cases hstack
  have htop : e.value.Settled := hsettled e List.mem_cons_self
  have hread : Program.read "quote apply" = .ok [.symbol "quote", .symbol "apply"] := rfl
  rw [ends_iff_evaluates hread]
  exact ⟨_, evaluates_quote_apply hquote happly (ofNode_of_settled htop hfree), rfl, rfl⟩

/-- An evaluation fails inside of a `dip`, and the numeral that was quoted lies in a quotation on
top of what it has left. Quoting and applying changes nothing there. -/
theorem Reachable.ends_quote_apply_of_division :
    ∃ s, Reachable s ∧ s.stack = [.plain (.quotation [.symbol "5"]), .plain (.integer 0),
      .plain (.integer 7)] ∧ s.Ends 100 "quote apply" s none := by
  have heval : Session.fresh.eval ⟨100, 20, 100⟩ "7 [ 5 ] [ 0 / ] dip" =
      some ⟨⟨[.plain (.quotation [.symbol "5"]), .plain (.integer 0), .plain (.integer 7)],
        Dictionary.builtins, 0⟩, some (.error (.divisionByZero 7)), []⟩ := by
    decide +kernel
  have hreach := Reachable.eval .fresh heval
  refine ⟨_, hreach, rfl, ?_⟩
  refine hreach.ends_quote_apply.2 _ _ rfl ⟨"quote", rfl⟩ ⟨"apply", rfl⟩ ?_ 100
  intro name hname
  cases hname

end Session

end Catena
