import Catena.Machine
import Catena.Proofs.Word.Failure
import Mathlib.Logic.Relation

/-!
# Steps and runs of the machine

One step of the machine either leads to another machine or ends the evaluation.
`Move` lists the steps of the first kind and `Stop` those of the second, each with
what it needs, and `step_eq_next_iff` and `step_eq_halted_iff` say that the lists
are complete. `Reaches` is any number of moves, and an evaluation halts
(`Halts`) when some number of steps suffices for it: it then makes moves and
stops (`halts_iff`). Whether an evaluation that ends comes to a machine of some kind can
be computed (`mayMeet`).

The frames matter to a run only through the items in them, read from the top
frame down. Adding frames puts their items in front (`flatten_foldl_addFrame`),
and the entries to put back are those of the items in that order
(`savedEntries_eq`).
-/

set_option autoImplicit false

namespace Catena

/-! ## Frames and the items in them -/

theorem flatten_dropWhile_isEmpty (frames : List Frame) :
    (frames.dropWhile List.isEmpty).flatten = frames.flatten := by
  induction frames with
  | nil => rfl
  | cons frame frames ih =>
      cases frame with
      | nil => simpa using ih
      | cons item items => rfl

/-- The items of a new frame come before all others. -/
theorem flatten_addFrame (frames : List Frame) (frame : Frame) :
    (addFrame frames frame).flatten = frame ++ frames.flatten := by
  rw [addFrame, List.flatten_cons, flatten_dropWhile_isEmpty]

/-- Of several new frames, the one scheduled last comes first. -/
theorem flatten_foldl_addFrame (scheduled frames : List Frame) :
    (scheduled.foldl addFrame frames).flatten = scheduled.reverse.flatten ++ frames.flatten := by
  induction scheduled generalizing frames with
  | nil => rfl
  | cons frame scheduled ih =>
      rw [List.foldl_cons, ih, flatten_addFrame, List.reverse_cons, List.flatten_append]
      simp

/-- The entries that the items of a list put back, in order. -/
def Item.savedOf (items : List Item) : List Entry :=
  items.filterMap Item.saved?

@[simp] theorem Item.savedOf_nil : Item.savedOf [] = [] :=
  rfl

@[simp] theorem Item.savedOf_append (xs ys : List Item) :
    Item.savedOf (xs ++ ys) = Item.savedOf xs ++ Item.savedOf ys :=
  List.filterMap_append

@[simp] theorem Item.savedOf_restore (e : Entry) (items : List Item) :
    Item.savedOf (.restore e :: items) = e :: Item.savedOf items :=
  rfl

@[simp] theorem Item.savedOf_node (e : Entry) (items : List Item) :
    Item.savedOf (.node e :: items) = Item.savedOf items :=
  rfl

/-- A frame that evaluates entries puts nothing back. -/
@[simp] theorem Item.savedOf_ofEntries (entries : List Entry) :
    Item.savedOf (Frame.ofEntries entries) = [] := by
  induction entries with
  | nil => rfl
  | cons e entries ih => exact ih

theorem savedEntries_eq (frames : List Frame) :
    savedEntries frames = Item.savedOf frames.flatten := by
  induction frames with
  | nil => rfl
  | cons frame frames ih =>
      rw [List.flatten_cons, Item.savedOf_append, ← ih]
      rfl

/-! ## Nodes -/

/-- A node is a word exactly when it is a symbol that is bound. -/
theorem Action.ofNode_eq_invoke_iff {d : Dictionary} {v : Value} {name : String} {op : Operation} :
    Action.ofNode d v = .ok (.invoke name op) ↔ v = .symbol name ∧ d.get? name = some op := by
  cases v with
  | symbol called =>
      simp only [Action.ofNode, Value.symbol.injEq]
      cases hget : d.get? called with
      | some found =>
          simp only [Except.ok.injEq, Action.invoke.injEq]
          constructor
          · rintro ⟨rfl, rfl⟩
            exact ⟨rfl, hget⟩
          · rintro ⟨rfl, h⟩
            rw [hget, Option.some.injEq] at h
            exact ⟨rfl, h⟩
      | none =>
          constructor
          · intro h
            simp only at h
            split at h
            · cases hn : Value.readNumeral called <;> simp [hn, Except.map] at h
            · cases h
          · rintro ⟨rfl, h⟩
            rw [hget] at h
            cases h
  | integer _ | boolean _ | quotation _ | emptyMapping | mapping _ _ => simp [Action.ofNode]

/-- A node is data as it stands, unless it is a symbol that is bound or a numeral. A
numeral that is not bound stands for its integer. -/
theorem Action.ofNode_eq_push_iff {d : Dictionary} {v w : Value} :
    Action.ofNode d v = .ok (.push w) ↔
      (v = w ∧ ∀ name, v = .symbol name → d.get? name = none ∧ Value.isNumeral name = false) ∨
      ∃ name n, v = .symbol name ∧ d.get? name = none ∧ Value.isNumeral name = true ∧
        Value.readNumeral name = .ok n ∧ .integer n = w := by
  cases v with
  | symbol name =>
      cases hget : d.get? name with
      | some op => simp [Action.ofNode, hget]
      | none =>
          cases hnumeral : Value.isNumeral name with
          | false => simp [Action.ofNode, hget, hnumeral]
          | true =>
              cases hn : Value.readNumeral name with
              | error fault => simp [Action.ofNode, hget, hnumeral, hn, Except.map]
              | ok n => simp [Action.ofNode, hget, hnumeral, hn, Except.map]
  | integer _ | boolean _ | quotation _ | emptyMapping | mapping _ _ => simp [Action.ofNode]

namespace Machine

/-! ## Single steps -/

/-- A step after which the evaluation goes on. -/
inductive Move (limit : Nat) : Machine → Machine → Prop
  /-- A frame without items is dropped. -/
  | drop {s : Stack} {d : Dictionary} {marks : Nat} {rest : List Frame} :
      Move limit ⟨s, d, marks, [] :: rest⟩ ⟨s, d, marks, rest⟩
  /-- A saved entry is put back. -/
  | restore {s : Stack} {d : Dictionary} {marks : Nat} {e : Entry} {items : Frame}
      {rest : List Frame} :
      Move limit ⟨s, d, marks, (.restore e :: items) :: rest⟩ ⟨e :: s, d, marks, items :: rest⟩
  /-- A node is data. -/
  | push {s : Stack} {d : Dictionary} {marks : Nat} {e : Entry} {v : Value} {items : Frame}
      {rest : List Frame} (hnode : Action.ofNode d e.value = .ok (.push v)) :
      Move limit ⟨s, d, marks, (.node e :: items) :: rest⟩
        ⟨⟨v, e.mark⟩ :: s, d, marks, items :: rest⟩
  /-- A node is a word, and the word succeeds. -/
  | word {s : Stack} {d : Dictionary} {marks : Nat} {e : Entry} {name : String} {op : Operation}
      {effect : Effect} {items : Frame} {rest : List Frame}
      (hnode : Action.ofNode d e.value = .ok (.invoke name op))
      (hrun : op.run limit s d marks = .done effect) :
      Move limit ⟨s, d, marks, (.node e :: items) :: rest⟩
        ⟨effect.stack, effect.words, effect.marks,
          effect.scheduled.foldl addFrame (items :: rest)⟩

/-- Dispatching a node fails, and the stack is then `left`: the node is a numeral
too long to be read, or a word that fails. -/
inductive Fails (limit : Nat) (e : Entry) (s : Stack) (d : Dictionary) (marks : Nat) :
    Failure → Stack → Prop
  | unreadable {fault : Fault} (hnode : Action.ofNode d e.value = .error fault) :
      Fails limit e s d marks (.fault fault) s
  | word {name : String} {op : Operation} {failure : Failure} {left : Stack}
      (hnode : Action.ofNode d e.value = .ok (.invoke name op))
      (hrun : op.run limit s d marks = .failed failure left) :
      Fails limit e s d marks failure left

/-- A step that ends the evaluation. -/
inductive Stop (limit : Nat) : Machine → Outcome → Prop
  /-- No work is left. -/
  | finished {s : Stack} {d : Dictionary} {marks : Nat} :
      Stop limit ⟨s, d, marks, []⟩ ⟨none, s, d, marks⟩
  /-- A node fails. -/
  | failed {s left : Stack} {d : Dictionary} {marks : Nat} {e : Entry} {failure : Failure}
      {items : Frame} {rest : List Frame} (hfails : Fails limit e s d marks failure left) :
      Stop limit ⟨s, d, marks, (.node e :: items) :: rest⟩
        (fail ⟨left, d, marks, items :: rest⟩ failure)

/-- Every step is a move or a stop. -/
theorem step_cases (limit : Nat) (m : Machine) :
    (∃ m', step limit m = .next m' ∧ Move limit m m') ∨
      ∃ outcome, step limit m = .halted outcome ∧ Stop limit m outcome := by
  obtain ⟨s, d, marks, frames⟩ := m
  -- there is no frame, or the top frame is empty, or its first item decides
  rcases frames with - | ⟨- | ⟨item, items⟩, rest⟩
  · exact Or.inr ⟨_, rfl, .finished⟩
  · exact Or.inl ⟨_, rfl, .drop⟩
  cases item with
  | restore e => exact Or.inl ⟨_, rfl, .restore⟩
  | node e =>
      cases hnode : Action.ofNode d e.value with
      | error fault =>
          exact Or.inr ⟨_, by simp only [step, dispatch, hnode], .failed (.unreadable hnode)⟩
      | ok action =>
          cases action with
          | push v => exact Or.inl ⟨_, by simp only [step, dispatch, hnode], .push hnode⟩
          | invoke name op =>
              cases hrun : op.run limit s d marks with
              | done effect =>
                  exact Or.inl ⟨_, by simp only [step, dispatch, hnode, hrun], .word hnode hrun⟩
              | failed failure left =>
                  exact Or.inr
                    ⟨_, by simp only [step, dispatch, hnode, hrun], .failed (.word hnode hrun)⟩

theorem step_of_move {limit : Nat} {m m' : Machine} (h : Move limit m m') :
    step limit m = .next m' := by
  cases h with
  | drop => rfl
  | restore => rfl
  | push hnode => simp only [step, dispatch, hnode]
  | word hnode hrun => simp only [step, dispatch, hnode, hrun]

theorem step_of_stop {limit : Nat} {m : Machine} {outcome : Outcome} (h : Stop limit m outcome) :
    step limit m = .halted outcome := by
  cases h with
  | finished => rfl
  | failed hfails =>
      cases hfails with
      | unreadable hnode => simp only [step, dispatch, hnode]
      | word hnode hrun => simp only [step, dispatch, hnode, hrun]

theorem step_eq_next_iff {limit : Nat} {m m' : Machine} :
    step limit m = .next m' ↔ Move limit m m' := by
  refine ⟨fun h => ?_, step_of_move⟩
  rcases step_cases limit m with ⟨m'', hstep, hmove⟩ | ⟨outcome, hstep, -⟩
  · rw [h] at hstep
    cases hstep
    exact hmove
  · rw [h] at hstep
    cases hstep

theorem step_eq_halted_iff {limit : Nat} {m : Machine} {outcome : Outcome} :
    step limit m = .halted outcome ↔ Stop limit m outcome := by
  refine ⟨fun h => ?_, step_of_stop⟩
  rcases step_cases limit m with ⟨m', hstep, -⟩ | ⟨outcome', hstep, hstop⟩
  · rw [h] at hstep
    cases hstep
  · rw [h] at hstep
    cases hstep
    exact hstop

/-! ## Runs -/

/-- One machine leads to another in some number of steps. -/
abbrev Reaches (limit : Nat) : Machine → Machine → Prop :=
  Relation.ReflTransGen (Move limit)

/-- Whether an evaluation comes to a machine with a property, or takes more than the given number
of steps. -/
def mayMeet (p : Machine → Bool) (limit : Nat) : (fuel : Nat) → Machine → Bool
  | 0, _ => true
  | fuel + 1, m =>
      p m ||
        match step limit m with
        | .next m => mayMeet p limit fuel m
        | .halted _ => false

/-- An evaluation that ends can be tested for machines with a property. -/
theorem eq_false_of_mayMeet {p : Machine → Bool} {limit fuel : Nat} {m last : Machine}
    (h : mayMeet p limit fuel m = false) (hreach : Reaches limit m last) : p last = false := by
  induction fuel generalizing m with
  | zero => cases h
  | succ fuel ih =>
      rw [mayMeet, Bool.or_eq_false_iff] at h
      rcases hreach.cases_head with rfl | ⟨next, hmove, hrest⟩
      · exact h.1
      · have hnext : mayMeet p limit fuel next = false := by
          simpa only [step_of_move hmove] using h.2
        exact ih hnext hrest

/-- An evaluation ends with an outcome, however many steps it takes. -/
def Halts (limit : Nat) (m : Machine) (outcome : Outcome) : Prop :=
  ∃ fuel, m.run limit fuel = some outcome

theorem Halts.of_stop {limit : Nat} {m : Machine} {outcome : Outcome}
    (h : Stop limit m outcome) : Halts limit m outcome :=
  ⟨1, by simp only [run, step_of_stop h]⟩

theorem Halts.of_move {limit : Nat} {m m' : Machine} {outcome : Outcome}
    (h : Move limit m m') (hm' : Halts limit m' outcome) : Halts limit m outcome := by
  obtain ⟨fuel, hrun⟩ := hm'
  exact ⟨fuel + 1, by simpa only [run, step_of_move h] using hrun⟩

/-- Induction over an evaluation that halts, from its end backwards. -/
theorem Halts.induct {limit : Nat} {outcome : Outcome} {motive : Machine → Prop}
    (stop : ∀ m, Stop limit m outcome → motive m)
    (move : ∀ m m', Move limit m m' → motive m' → motive m) {m : Machine}
    (h : Halts limit m outcome) : motive m := by
  obtain ⟨fuel, hrun⟩ := h
  -- each step uses one unit of fuel, so the rest of the run has less
  induction fuel generalizing m with
  | zero => cases hrun
  | succ fuel ih =>
      rcases step_cases limit m with ⟨m', hstep, hmove⟩ | ⟨outcome', hstep, hstop⟩
      · simp only [run, hstep] at hrun
        exact move m m' hmove (ih hrun)
      · simp only [run, hstep, Option.some.injEq] at hrun
        subst hrun
        exact stop m hstop

/-- An evaluation has at most one outcome. -/
theorem Halts.unique {limit : Nat} {m : Machine} {outcome outcome' : Outcome}
    (h : Halts limit m outcome) (h' : Halts limit m outcome') : outcome = outcome' := by
  revert h'
  refine Halts.induct (motive := fun m => Halts limit m outcome' → outcome = outcome') ?_ ?_ h
  · rintro m hstop ⟨fuel, hrun⟩
    cases fuel with
    | zero => cases hrun
    | succ fuel => simpa only [run, step_of_stop hstop, Option.some.injEq] using hrun
  · rintro m m' hmove ih ⟨fuel, hrun⟩
    cases fuel with
    | zero => cases hrun
    | succ fuel =>
        simp only [run, step_of_move hmove] at hrun
        exact ih ⟨fuel, hrun⟩

/-- An evaluation halts exactly when it moves to a machine that stops. -/
theorem halts_iff {limit : Nat} {m : Machine} {outcome : Outcome} :
    Halts limit m outcome ↔ ∃ m', Reaches limit m m' ∧ Stop limit m' outcome := by
  constructor
  · intro h
    refine Halts.induct (motive := fun m => ∃ m', Reaches limit m m' ∧ Stop limit m' outcome)
      (fun m hstop => ⟨m, .refl, hstop⟩) ?_ h
    rintro m m' hmove ⟨last, hreach, hstop⟩
    exact ⟨last, hreach.head hmove, hstop⟩
  · rintro ⟨last, hreach, hstop⟩
    induction hreach using Relation.ReflTransGen.head_induction_on with
    | refl => exact .of_stop hstop
    | head hmove _ ih => exact .of_move hmove ih

end Machine

end Catena
