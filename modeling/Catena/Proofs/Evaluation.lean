import Catena.Proofs.Machine.Run
import Catena.Session

/-!
# The recursive meaning of programs

The machine evaluates a program with an explicit list of frames. This module
says what a program means without frames, by recursion over the calls it makes.

* Nodes are evaluated from left to right, up to the first that fails.
* A node that is data is pushed. A word that schedules nothing does its effect.
* `apply` evaluates the quotation it finds on the stack that lies under it, `if`
  the branch it chooses, and a defined word its body.
* `dip` evaluates its quotation on the stack under the saved entry and then puts
  the entry back. An error of the language does not stop it from doing so, a fault
  does.

`Evaluates` relates a sequence of nodes to its outcome, and `EvaluatesNode` one
node. An outcome holds the failure, if there is one, and the stack, the
dictionary and the number of marks at the end. `FailsInside` follows an evaluation
that fails down to the node that does, with the entries saved on the way.
-/

set_option autoImplicit false

namespace Catena

/-- Puts entries back on the stack that an evaluation left, first one first. After
a fault nothing is put back. -/
def Outcome.putBack (entries : List Entry) (o : Outcome) : Outcome :=
  match o.failure with
  | some (.fault _) => o
  | _ => { o with stack := o.stack.pushAll entries }

/-- The session that an evaluation leaves. -/
def Outcome.session (o : Outcome) : Session :=
  ⟨o.stack, o.words, o.marks⟩

/-- A node calls for the evaluation of other nodes. `Calls limit e σ items σ' saved`
says that in the session `σ` the node `e` has `items` evaluated, that `σ'` is the
session in which this begins, and that `saved` is put back when it is over. -/
inductive Calls (limit : Nat) (e : Entry) : Session → List Entry → Session → List Entry → Prop
  | apply {q : Entry} {items : List Entry} {rest : Stack} {d : Dictionary} {marks : Nat}
      {name word : String} :
      Action.ofNode d e.value = .ok (.invoke name (.builtin word .apply)) →
      q.items? = some items →
      Calls limit e ⟨q :: rest, d, marks⟩ items ⟨rest, d, marks⟩ []
  | choose {condition first second : Entry} {xs ys : List Entry} {rest : Stack}
      {d : Dictionary} {marks : Nat} {name word : String} :
      Action.ofNode d e.value = .ok (.invoke name (.builtin word .choose)) →
      first.items? = some xs → second.items? = some ys →
      Calls limit e ⟨condition :: first :: second :: rest, d, marks⟩
        (if condition.value.countsAsTrue then xs else ys) ⟨rest, d, marks⟩ []
  | defined {s : Stack} {d : Dictionary} {marks : Nat} {name word : String} {body : List Value} :
      Action.ofNode d e.value = .ok (.invoke name (.defined word body)) →
      (Value.quotation body).copyable limit = true →
      Calls limit e ⟨s, d, marks⟩ (body.map .plain) ⟨s, d, marks⟩ []
  | dip {q saved : Entry} {items : List Entry} {rest : Stack} {d : Dictionary} {marks : Nat}
      {name word : String} :
      Action.ofNode d e.value = .ok (.invoke name (.builtin word .dip)) →
      q.items? = some items →
      Calls limit e ⟨q :: saved :: rest, d, marks⟩ items ⟨rest, d, marks⟩ [saved]

mutual
/-- A sequence of nodes, evaluated in a session, comes to an outcome. -/
inductive Evaluates (limit : Nat) : List Entry → Session → Outcome → Prop
  | nil (σ : Session) : Evaluates limit [] σ ⟨none, σ.stack, σ.words, σ.marks⟩
  | cons {e : Entry} {es : List Entry} {σ : Session} {first last : Outcome} :
      EvaluatesNode limit e σ first → first.failure = none →
      Evaluates limit es first.session last → Evaluates limit (e :: es) σ last
  | stop {e : Entry} {es : List Entry} {σ : Session} {first : Outcome} :
      EvaluatesNode limit e σ first → first.failure ≠ none →
      Evaluates limit (e :: es) σ first
/-- A node, evaluated in a session, comes to an outcome. -/
inductive EvaluatesNode (limit : Nat) : Entry → Session → Outcome → Prop
  | push {e : Entry} {σ : Session} {v : Value} :
      Action.ofNode σ.words e.value = .ok (.push v) →
      EvaluatesNode limit e σ ⟨none, ⟨v, e.mark⟩ :: σ.stack, σ.words, σ.marks⟩
  | word {e : Entry} {σ : Session} {name : String} {op : Operation} {effect : Effect} :
      Action.ofNode σ.words e.value = .ok (.invoke name op) →
      op.run limit σ.stack σ.words σ.marks = .done effect → effect.scheduled = [] →
      EvaluatesNode limit e σ ⟨none, effect.stack, effect.words, effect.marks⟩
  | fail {e : Entry} {σ : Session} {failure : Failure} {left : Stack} :
      Machine.Fails limit e σ.stack σ.words σ.marks failure left →
      EvaluatesNode limit e σ ⟨some failure, left, σ.words, σ.marks⟩
  | call {e : Entry} {σ σ' : Session} {items saved : List Entry} {o : Outcome} :
      Calls limit e σ items σ' saved → Evaluates limit items σ' o →
      EvaluatesNode limit e σ (o.putBack saved)
end

/-- The place of a failure. `FailsInside limit es σ bad τ saved` says that the
evaluation of `es` in `σ` comes to the node `bad` in the session `τ`, and that
dispatching `bad` there fails. `saved` lists what the calls that are not over at
that moment have saved, innermost call first. -/
inductive FailsInside (limit : Nat) :
    List Entry → Session → Entry → Session → List Entry → Prop
  | here {e : Entry} {es : List Entry} {σ : Session} {failure : Failure} {left : Stack} :
      Machine.Fails limit e σ.stack σ.words σ.marks failure left →
      FailsInside limit (e :: es) σ e σ []
  | later {e bad : Entry} {es saved : List Entry} {σ τ : Session} {first : Outcome} :
      EvaluatesNode limit e σ first → first.failure = none →
      FailsInside limit es first.session bad τ saved →
      FailsInside limit (e :: es) σ bad τ saved
  | call {e bad : Entry} {es items saved own : List Entry} {σ σ' τ : Session} :
      Calls limit e σ items σ' own → FailsInside limit items σ' bad τ saved →
      FailsInside limit (e :: es) σ bad τ (saved ++ own)

/-! ## Putting entries back -/

namespace Outcome

variable (o : Outcome) (entries : List Entry)

@[simp] theorem putBack_failure : (o.putBack entries).failure = o.failure := by
  unfold putBack
  split <;> rfl

@[simp] theorem putBack_nil : o.putBack [] = o := by
  unfold putBack
  split <;> rfl

/-- Putting entries back in two portions is putting them back at once. -/
theorem putBack_putBack (more : List Entry) :
    (o.putBack entries).putBack more = o.putBack (entries ++ more) := by
  obtain ⟨failure, s, d, marks⟩ := o
  rcases failure with - | (e | fault)
  · simp [putBack, Stack.pushAll_eq]
  · simp [putBack, Stack.pushAll_eq]
  · rfl

end Outcome

/-- What a machine leaves when a word fails: its own state, and the entries held
back by its frames put back. -/
theorem Machine.fail_eq_putBack (m : Machine) (failure : Failure) :
    m.fail failure =
      Outcome.putBack (savedEntries m.frames) ⟨some failure, m.stack, m.words, m.marks⟩ := by
  cases failure <;> rfl

end Catena
