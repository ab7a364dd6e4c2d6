import Catena.Proofs.Session

/-!
# The state that a failed evaluation leaves

An evaluation that ends in an error of the language leaves a state that can be told
from the run (`Session.eval_error_state`). If the text cannot be read, nothing has
changed. Otherwise some word failed, and

* the dictionary is the one at the moment that word was dispatched;
* the stack is the one at that moment, with the entries that the frames still held
  back on top, those of the top frame first.

The entries held back are those saved by the `dip`s whose quotations the failing
word lies in, innermost first: `FailsInside` says so without frames. Exhausted
nesting is left out, because it comes from a fault and not from an error.
-/

set_option autoImplicit false

namespace Catena

/-- A failure that surfaces as an error other than exhausted nesting was that error
all along. -/
theorem Failure.eq_error_of_surface {failure : Failure} {e : Error}
    (h : failure.surface = .error e) (hdeep : e ≠ .tooDeep) : failure = .error e := by
  unfold Failure.surface at h
  split at h
  · cases h
    exact absurd rfl hdeep
  · exact h

/-- A node that fails with an error of the language is a word, and the word leaves
the stack as it found it. -/
theorem Machine.Fails.of_error {limit : Nat} {node : Entry} {s left : Stack} {d : Dictionary}
    {marks : Nat} {e : Error} (h : Machine.Fails limit node s d marks (.error e) left) :
    ∃ name op, Action.ofNode d node.value = .ok (.invoke name op) ∧
      op.run limit s d marks = .failed (.error e) s ∧ left = s := by
  cases h with
  | @word name op _ _ hnode hrun =>
      have hleft : left = s := Operation.left_of_run_error hrun
      subst hleft
      exact ⟨name, op, hnode, hrun, rfl⟩

namespace Session

/-- An evaluation that ends in an error of the language, other than exhausted
nesting, leaves the session as it was if the text cannot be read. Otherwise it came
to a machine `m` whose next node is a word that fails with that error. The
dictionary is then that of `m`, and the stack, read from the bottom, is that of `m`
followed by the entries held back by the frames that are left once the node is
taken off. These are the entries saved by the calls around the failing node. -/
theorem eval_error_state {bounds : Bounds} {s : Session} {text : String}
    {evaluation : Evaluation} {e : Error} (heval : s.eval bounds text = some evaluation)
    (herror : evaluation.failure = some (.error e)) (hdeep : e ≠ .tooDeep) :
    (∀ failure, Program.read text = .error failure → evaluation.session = s) ∧
    ∀ nodes, Program.read text = .ok nodes →
      ∃ (m : Machine) (node : Entry) (items : Frame) (below : List Frame) (name : String)
        (op : Operation),
        Machine.Reaches bounds.nesting (Machine.start nodes s.stack s.words s.marks) m ∧
        m.frames = (.node node :: items) :: below ∧
        Action.ofNode m.words node.value = .ok (.invoke name op) ∧
        op.run bounds.nesting m.stack m.words m.marks = .failed (.error e) m.stack ∧
        evaluation.session.words = m.words ∧
        evaluation.session.stack.reverse = m.stack.reverse ++ savedEntries (items :: below) ∧
        FailsInside bounds.nesting (nodes.map .plain) s node ⟨m.stack, m.words, m.marks⟩
          (savedEntries (items :: below)) := by
  rcases eval_cases heval with ⟨failure, hread, hsame, -⟩ | ⟨nodes, o, hread, hhalts, hses, hfail⟩
  · refine ⟨fun _ _ => hsame, fun nodes hok => ?_⟩
    rw [hread] at hok
    cases hok
  refine ⟨fun failure herr => ?_, fun nodes' hok => ?_⟩
  · rw [hread] at herr
    cases herr
  rw [hread] at hok
  cases hok
  have ho : o.failure = some (.error e) := by
    rw [herror] at hfail
    obtain ⟨failure, hsome, hsurface⟩ := Option.map_eq_some_iff.1 hfail.symm
    rw [hsome, Failure.eq_error_of_surface hsurface hdeep]
  -- the place of the failure, first in the recursive meaning and then on the machine
  obtain ⟨bad, τ, saved, failure, left, hinside, hfails, rfl⟩ :=
    (evaluates_of_halts hhalts).failsInside (by rw [ho]; exact Option.some_ne_none _)
  rw [Outcome.putBack_failure, Option.some.injEq] at ho
  subst ho
  obtain ⟨name, op, hnode, hrun, rfl⟩ := hfails.of_error
  have hframes : [Frame.ofNodes nodes].flatten = Frame.ofEntries (nodes.map .plain) ++ [] := by
    simp [Frame.ofNodes]
  obtain ⟨items, below, hreach, hsaved⟩ := hinside.reaches hframes
  rw [Item.savedOf_nil, List.append_nil] at hsaved
  refine ⟨τ.machine ((.node bad :: items) :: below), bad, items, below, name, op, hreach, rfl,
    hnode, hrun, ?_, ?_, ?_⟩
  · rw [hses]
    rfl
  · rw [hses, hsaved]
    simp [Outcome.session, Outcome.putBack, Stack.pushAll_eq]
  · rw [hsaved]
    exact hinside

/-- The inner one of two nested `dip`s runs out of values. Both saved integers
return, first the one that the inner `dip` saved. -/
theorem eval_error_state_of_nested_dips :
    Session.fresh.eval ⟨100, 50, 100⟩ "7 8 [ [ pop pop ] dip ] dip" =
      some ⟨⟨[.plain (.integer 8), .plain (.integer 7)], Dictionary.builtins, 0⟩,
        some (.error .emptyStack), []⟩ ∧
    ∃ nodes m node items below, Program.read "7 8 [ [ pop pop ] dip ] dip" = .ok nodes ∧
      Machine.Reaches 100 (Machine.start nodes [] Dictionary.builtins 0) m ∧
      m.frames = (.node node :: items) :: below ∧
      m.stack.reverse ++ savedEntries (items :: below) =
        [.plain (.integer 7), .plain (.integer 8)] := by
  have heval : Session.fresh.eval ⟨100, 50, 100⟩ "7 8 [ [ pop pop ] dip ] dip" =
      some ⟨⟨[.plain (.integer 8), .plain (.integer 7)], Dictionary.builtins, 0⟩,
        some (.error .emptyStack), []⟩ := by
    rfl
  have hread : Program.read "7 8 [ [ pop pop ] dip ] dip" =
      .ok [.symbol "7", .symbol "8",
        .quotation [.quotation [.symbol "pop", .symbol "pop"], .symbol "dip"],
        .symbol "dip"] := by
    rfl
  obtain ⟨m, node, items, below, name, op, hreach, hframes, -, -, -, hstack, -⟩ :=
    (eval_error_state heval rfl (by decide)).2 _ hread
  exact ⟨heval, _, m, node, items, below, hread, hreach, hframes, hstack.symm⟩

end Session

end Catena
