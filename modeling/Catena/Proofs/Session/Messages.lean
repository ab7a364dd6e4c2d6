import Catena.Proofs.Program.Diagnosis
import Catena.Proofs.Session.Display
import Catena.Proofs.Session.ReadBack
import Catena.Proofs.Text

/-!
# What is shown fits on lines

Whatever there is to show after an evaluation fits on lines: the text of the stack on one, and
the message of an error on another (`Session.Reachable.isLine_of_eval`). The words of a text
hold no line feed, and the symbols of a session are such words. So neither the text of a stack
nor the name of an operand in a message can hold one, and the rest of a message is fixed.
-/

set_option autoImplicit false

namespace Catena

/-! ## The parts of a message -/

theorem Text.isLine_toString (n : Int) : Text.IsLine (toString n) :=
  (Text.isToken_toString n).toIsWord.isLine

theorem Text.isLine_toString_nat (n : Nat) : Text.IsLine (toString n) :=
  Text.isLine_toString n

/-- The name of a value fits on a line if its symbols are tokens. -/
theorem Value.isLine_inWords {v : Value} (h : v.TokenNamed) : Text.IsLine v.inWords := by
  cases v with
  | integer n =>
      have hfixed : Text.IsLine "integer " := by decide
      exact hfixed.append (Text.isLine_toString n)
  | symbol name =>
      have hfixed : Text.IsLine "symbol " := by decide
      cases h with
      | symbol htoken => exact hfixed.append (htoken name rfl).toIsWord.isLine
  | boolean b => cases b <;> decide
  | quotation _ => exact (by decide : Text.IsLine "quotation")
  | emptyMapping => exact (by decide : Text.IsLine "mapping")
  | mapping _ _ => exact (by decide : Text.IsLine "mapping")

theorem Kind.isLine_title (kind : Kind) : Text.IsLine kind.title := by
  cases kind <;> decide

theorem Builtin.isLine_word (b : Builtin) : Text.IsLine b.word := by
  cases b with
  | arithmetic op => cases op <;> decide
  | truth t => cases t <;> decide
  | equal | dup | pop | swap | clear | quote | apply | dip | choose | define => decide

theorem Bracket.isLine_opener (b : Bracket) : Text.IsLine b.opener := by
  cases b <;> decide

theorem Bracket.isLine_closer (b : Bracket) : Text.IsLine b.closer := by
  cases b <;> decide

/-! ## Messages -/

namespace Error

/-- What a message mentions beside numbers and brackets fits on a line: the name of the operand,
the diagnostic form of a name, the opener of a group. -/
def MentionsLines : Error → Prop
  | .wrongKind word _ found => Text.IsLine word ∧ Text.IsLine found.inWords
  | .unnameable shown => Text.IsLine shown
  | .unterminatedGroup opener => Text.IsLine opener
  | _ => True

/-- An error that is raised as an error is the one raised. -/
theorem eq_of_raise {e raised : Error} (h : e.raise = .error raised) : e = raised := by
  unfold raise at h
  split at h
  · cases h
    rfl
  · cases h

/-- A message fits on a line if all that it mentions does. -/
theorem isLine_message {e : Error} (h : e.MentionsLines) : Text.IsLine e.message := by
  cases e with
  | tooFewValues needed held =>
      refine .append (.append (.append ?_ (Text.isLine_toString_nat needed)) ?_)
        (Text.isLine_toString_nat held)
      · decide
      · decide
  | emptyStack => exact (by decide : Text.IsLine "cannot pop from an empty stack")
  | wrongKind word expected found =>
      refine .append (.append (.append (.append h.1 ?_) expected.isLine_title) ?_) h.2
      · decide
      · decide
  | divisionByZero dividend =>
      refine .append (.append ?_ (Text.isLine_toString dividend)) ?_
      · decide
      · decide
  | tooDeep => exact (by decide : Text.IsLine "recursion too deep")
  | unnameable shown =>
      refine .append (.append ?_ h) ?_
      · decide
      · decide
  | unexpectedCloser closer position =>
      refine .append (.append (.append (.append ?_ closer.isLine_closer) ?_)
        (Text.isLine_toString position)) ?_
      · decide
      · decide
      · decide
  | mismatchedGroup opened closed position =>
      refine .append (.append (.append (.append (.append ?_ opened.isLine_opener) ?_)
        closed.isLine_closer) ?_) (Text.isLine_toString position)
      · decide
      · decide
      · decide
  | unterminatedGroup opener =>
      refine .append (.append ?_ h) ?_
      · decide
      · decide
  | malformedMapping count =>
      refine .append (.append ?_ (Text.isLine_toString_nat count)) ?_
      · decide
      · decide

end Error

namespace Program

theorem Reading.Refuses.mentionsLines {token : String} {position : Int} {r : Reading} {e : Error}
    (h : r.Refuses token position e) : e.MentionsLines := by
  cases h with
  | unexpected b nodes => trivial
  | mismatched _ => trivial
  | malformed hclose =>
      obtain ⟨-, -, -, rfl⟩ := close_eq_error_iff.1 hclose
      trivial

/-- At top level, a reading that fails mentions an opener that is a bracket. -/
theorem mentionsLines_of_readOn_error {tokens : List String} {position : Int} {r : Reading}
    {e : Error} (h : readOn none tokens position r = .error (.error e)) : e.MentionsLines := by
  induction tokens generalizing position r with
  | nil =>
      -- at the end of the tokens only an open group is an error
      obtain ⟨nodes, enclosing⟩ := r
      cases enclosing with
      | nil => cases h
      | cons group outer =>
          cases h
          exact group.1.isLine_opener
  | cons token rest ih =>
      rcases r.accepts_or_refuses token position with ⟨r', haccepts⟩ | ⟨refused, hrefuses⟩
      · rw [readOn_of_accepts haccepts] at h
        exact ih h
      · rw [readOn_of_refuses hrefuses] at h
        cases h
        exact hrefuses.mentionsLines

theorem mentionsLines_of_read_error {text : String} {e : Error}
    (h : read text = .error (.error e)) : e.MentionsLines := by
  have hparse : parse (Text.words text) = .error (.error e) := by
    rw [read] at h
    cases hparsed : parse (Text.words text) with
    | ok result =>
        rw [hparsed] at h
        cases h
    | error failure =>
        rw [hparsed] at h
        cases h
        rfl
  exact mentionsLines_of_readOn_error hparse

end Program

/-! ## Words that fail -/

/-- The operand that does not fit lies on the stack. -/
theorem Operands.Misfit.mem {kinds : List Kind} {s : Stack} {kind : Kind} {v : Value}
    (h : Operands.Misfit kinds s kind v) : ∃ e ∈ s, e.value = v := by
  induction h with
  | top _ => exact ⟨_, List.mem_cons_self, rfl⟩
  | deeper _ _ ih =>
      obtain ⟨e, he, hv⟩ := ih
      exact ⟨e, List.mem_cons_of_mem _ he, hv⟩

/-- A built-in word mentions an operand from the stack. -/
theorem Builtin.Fails.mentionsLines {limit : Nat} {b : Builtin} {s left : Stack} {e : Error}
    (h : Builtin.Fails limit b s (.error e) left) (hs : Stack.Carries Value.TokenNamed s) :
    e.MentionsLines := by
  generalize hfailure : Failure.error e = failure at h
  cases h with
  | short _ =>
      cases hfailure
      cases b <;> trivial
  | misfit _ hmisfit =>
      obtain rfl := Error.eq_of_raise hfailure.symm
      obtain ⟨entry, hentry, rfl⟩ := hmisfit.mem
      exact ⟨b.isLine_word, Value.isLine_inWords (hs entry hentry)⟩
  | zeroDivisor _ _ =>
      obtain rfl := Error.eq_of_raise hfailure.symm
      trivial
  | incomparable _ => cases hfailure
  | uncopyable _ _ => cases hfailure

/-- A node that fails mentions an operand from the stack. -/
theorem Machine.Fails.mentionsLines {limit : Nat} {node : Entry} {s left : Stack}
    {d : Dictionary} {marks : Nat} {e : Error}
    (h : Machine.Fails limit node s d marks (.error e) left)
    (hs : Stack.Carries Value.TokenNamed s) : e.MentionsLines := by
  cases h with
  | word _ hrun =>
      cases Operation.run_eq_failed_iff.1 hrun with
      | builtin hfails => exact hfails.mentionsLines hs

/-! ## Evaluations -/

/-- The text of a stack fits on a line if the symbols on it are tokens. -/
theorem Stack.isLine_text {s : Stack} (hs : Stack.Carries Value.TokenNamed s) :
    Text.IsLine s.text := by
  have hspace : Text.IsLine " " := by decide
  have hvalues : (Value.quotation s.toList).TokenNamed :=
    Value.everyLeaf_quotation.2 (Stack.forall_mem_toList.2 hs)
  refine hspace.intercalate fun token htoken => ?_
  exact (Value.isWord_of_mem_tokens hvalues token htoken).isLine

namespace Session

theorem Reachable.carries_tokenNamed {s : Session} (hs : s.Reachable) :
    s.Carries Value.TokenNamed :=
  hs.carries Value.hereditary_tokenNamed fun _ _ => Program.tokenNamed_of_read

/-- After an evaluation in a reachable session, the text of the stack fits on a line, and so
does the message of the error, if there is one. -/
theorem Reachable.isLine_of_eval {s : Session} (hs : s.Reachable) {bounds : Bounds}
    {text : String} {evaluation : Evaluation} (heval : s.eval bounds text = some evaluation) :
    Text.IsLine evaluation.session.stack.text ∧
      ∀ e, evaluation.failure = some (.error e) → Text.IsLine e.message := by
  refine ⟨Stack.isLine_text (hs.eval heval).carries_tokenNamed.stack, fun e hfailure => ?_⟩
  apply Error.isLine_message
  rcases eval_failure_cases heval hfailure with ⟨refused, hread, -, herror⟩ |
    ⟨nodes, node, τ, items, below, failure, left, hread, hreach, -, hfails, hsurface, -⟩
  · cases herror
    exact Program.mentionsLines_of_read_error hread
  · -- the failing node finds the symbols of the session and of the text on its stack
    have hmachine := Machine.carries_of_reaches hreach Value.hereditary_tokenNamed
      (Machine.carries_start (Program.tokenNamed_of_read hread) hs.carries_tokenNamed)
    -- what surfaces is the failure itself, or exhausted nesting, which mentions nothing
    unfold Failure.surface at hsurface
    split at hsurface
    · cases hsurface
      trivial
    · subst hsurface
      exact hfails.mentionsLines hmachine.stack

end Session

end Catena
