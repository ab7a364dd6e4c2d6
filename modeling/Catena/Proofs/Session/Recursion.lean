import Catena.Proofs.Machine.Frames
import Catena.Proofs.Session.Literals
import Catena.Proofs.Session.Quotations
import Mathlib.Data.Nat.Factorial.Basic
import Mathlib.Tactic.Ring

/-!
# Words that call themselves

A word may call itself, since its name is looked up when it is met. This module follows three such
words through a whole evaluation: one adds up the numbers up to its argument, one multiplies them,
and one counts down.

* They all begin in the same way (`branching`): the argument is compared with a number, two
  quotations are put under the answer by `dip`, and `if` goes on with one of them. What comes of
  this is what comes of the quotation chosen (`evaluates_branching`), and it takes two frames more
  for a while (`staysWithin_branching`).
* Two of them call themselves in the middle (`accumulating`). What they compute follows by induction
  on the argument from one recurrence (`evaluatesNode_of_recurrence`).
* The third calls itself in last place, and however far it has to count, it never takes more than
  three frames (`staysWithin_countdown`).

Nodes that are data or words without calls are passed over in one go (`Straight`).

What holds of the words in any dictionary with the built-in words holds of the programs that define
them and apply them to a number (`Program.Introduces`), up to reading the text
(`Session.ends_of_recursion`, `Machine.frames_of_reaches`).
-/

set_option autoImplicit false

namespace Catena

open Machine (StaysWithin Move Stop)

/-! ## The programs -/

namespace Program

/-- Nodes that compare the integer on top with the number `bound` and go on with `upper` if the
comparison holds, and with `lower` if it does not. The integer stays where it is. -/
def branching (test : Arithmetic) (bound : String) (lower upper : List Value) : List Value :=
  [.symbol "dup", .symbol bound, .symbol test.word,
    .quotation [.quotation lower, .quotation upper], .symbol "dip", .symbol "if"]

/-- Nodes that apply a word to the predecessor of the integer on top and combine the integer with
the result. -/
def accumulating (name : String) (op : Arithmetic) : List Value :=
  [.symbol "dup", .symbol "1", .symbol "-", .symbol name, .symbol op.word]

/-- Adds up the numbers up to the argument. -/
def sumToBody : List Value :=
  branching .greater "0" [] (accumulating "sumto" .plus)

/-- Multiplies the numbers up to the argument. -/
def factorialBody : List Value :=
  branching .atMost "1" (accumulating "fact" .times) []

/-- Counts down to zero. -/
def countdownBody : List Value :=
  branching .greater "0" [] [.symbol "1", .symbol "-", .symbol "count"]

/-- Defines a word that adds up the numbers up to its argument. -/
def sumTo : String :=
  "[ dup 0 > [ [ ] [ dup 1 - sumto + ] ] dip if ] sumto def"

/-- Defines a word that multiplies the numbers up to its argument. -/
def factorial : String :=
  "[ dup 1 <= [ [ dup 1 - fact * ] [ ] ] dip if ] fact def"

/-- Defines a word that counts down from its argument. -/
def countdown : String :=
  "[ dup 0 > [ [ ] [ 1 - count ] ] dip if ] count def"

/-- The program that defines a word and applies it to a number. -/
def applied (definition name : String) (n : Nat) : String :=
  definition ++ " " ++ toString n ++ " " ++ name

/-- A text that defines a word under a new name, which is a token and no numeral. -/
structure Introduces (definition name : String) (body : List Value) : Prop where
  read : Program.read definition = .ok [.quotation body, .symbol name, .symbol "def"]
  free : Dictionary.builtins.get? name = none
  token : Text.IsToken name
  not_numeral : Value.isNumeral name = false

theorem introduces_sumTo : Introduces sumTo "sumto" sumToBody :=
  ⟨rfl, rfl, by decide, rfl⟩

theorem introduces_factorial : Introduces factorial "fact" factorialBody :=
  ⟨rfl, rfl, by decide, rfl⟩

theorem introduces_countdown : Introduces countdown "count" countdownBody :=
  ⟨rfl, rfl, by decide, rfl⟩

end Program

open Program

/-! ## Nodes that call nothing -/

/-- Nodes that are data, or words that schedule nothing, lead from one session to another. -/
inductive Straight (limit : Nat) : List Entry → Session → Session → Prop
  | nil (σ : Session) : Straight limit [] σ σ
  | push {e : Entry} {es : List Entry} {σ σ' : Session} {v : Value} :
      Action.ofNode σ.words e.value = .ok (.push v) →
      Straight limit es ⟨⟨v, e.mark⟩ :: σ.stack, σ.words, σ.marks⟩ σ' →
      Straight limit (e :: es) σ σ'
  | word {e : Entry} {es : List Entry} {σ σ' : Session} {name : String} {op : Operation}
      {effect : Effect} :
      Action.ofNode σ.words e.value = .ok (.invoke name op) →
      op.run limit σ.stack σ.words σ.marks = .done effect → effect.scheduled = [] →
      Straight limit es ⟨effect.stack, effect.words, effect.marks⟩ σ' →
      Straight limit (e :: es) σ σ'

namespace Straight

variable {limit height : Nat} {es rest : List Entry} {σ σ' : Session}

/-- What follows such nodes is evaluated in the session that they lead to. -/
theorem evaluates {o : Outcome} (h : Straight limit es σ σ') (hrest : Evaluates limit rest σ' o) :
    Evaluates limit (es ++ rest) σ o := by
  induction h with
  | nil => exact hrest
  | push hnode _ ih => exact .cons (.push hnode) rfl (ih hrest)
  | word hnode hrun hnone _ ih => exact .cons (.word hnode hrun hnone) rfl (ih hrest)

/-- Such nodes take no frame but the one they stand in. -/
theorem staysWithin {frame : Frame} {below : List Frame} (h : Straight limit es σ σ')
    (hheight : below.length + 1 ≤ height)
    (hlast : StaysWithin limit height (σ'.machine (frame :: below))) :
    StaysWithin limit height (σ.machine ((Frame.ofEntries es ++ frame) :: below)) := by
  induction h with
  | nil => exact hlast
  | push hnode _ ih => exact (ih hlast).of_move (.push hnode) hheight
  | @word e es σ _ name op effect hnode hrun hnone _ ih =>
      have hmove := @Move.word limit _ _ _ _ _ _ _ (Frame.ofEntries es ++ frame) below hnode hrun
      rw [hnone] at hmove
      exact (ih hlast).of_move hmove hheight

end Straight

/-! ## Dictionaries with the built-in words -/

/-- A dictionary in which every built-in word has its meaning and numerals stand for integers. -/
structure Dictionary.Stocked (d : Dictionary) : Prop where
  keeps : ∀ b : Builtin, d.Keeps b
  numeral : ∀ name, Value.isNumeral name = true → d.get? name = none

namespace Dictionary

theorem stocked_builtins : builtins.Stocked where
  keeps := by
    intro b
    refine ⟨b.word, ?_⟩
    cases b with
    | arithmetic op => cases op <;> rfl
    | truth t => cases t <;> rfl
    | equal | dup | pop | swap | clear | quote | apply | dip | choose | define => rfl
  numeral := fun _ h => get?_builtins_of_isNumeral h

/-- A word under a new name that is no numeral takes nothing away. -/
theorem Stocked.insert {d : Dictionary} {name : String} {op : Operation} (h : d.Stocked)
    (hfree : d.get? name = none) (hname : Value.isNumeral name = false) :
    (d.insert name op).Stocked where
  keeps := by
    intro b
    obtain ⟨called, hget⟩ := h.keeps b
    have hne : b.word ≠ name := by
      rintro rfl
      rw [hfree] at hget
      cases hget
    exact ⟨called, by rw [get?_insert_of_ne hne, hget]⟩
  numeral := by
    intro numeral hnumeral
    have hne : numeral ≠ name := by
      rintro rfl
      rw [hname] at hnumeral
      cases hnumeral
    rw [get?_insert_of_ne hne, h.numeral numeral hnumeral]

end Dictionary

section Stocked

variable {limit : Nat} {d : Dictionary} {s : Stack} {marks : Nat} {es : List Entry} {σ : Session}

/-- A built-in word that succeeds moves the machine on. -/
theorem Machine.Move.builtin {b : Builtin} {effect : Effect} (hd : d.Stocked)
    (hdoes : Builtin.Does limit d marks b s effect) (frame : Frame) (below : List Frame) :
    Move limit ⟨s, d, marks, (.node (.plain (.symbol b.word)) :: frame) :: below⟩
      ⟨effect.stack, effect.words, effect.marks,
        effect.scheduled.foldl addFrame (frame :: below)⟩ := by
  obtain ⟨name, hget⟩ := hd.keeps b
  exact .word (Action.ofNode_of_get? hget) (Operation.run_eq_done_iff.2 (.builtin hdoes))

theorem Straight.builtin {b : Builtin} {t : Stack} {d' : Dictionary} {marks' : Nat}
    (hd : d.Stocked) (hdoes : Builtin.Does limit d marks b s ⟨t, d', marks', []⟩)
    (h : Straight limit es ⟨t, d', marks'⟩ σ) :
    Straight limit (.plain (.symbol b.word) :: es) ⟨s, d, marks⟩ σ := by
  obtain ⟨name, hget⟩ := hd.keeps b
  exact .word (Action.ofNode_of_get? hget) (Operation.run_eq_done_iff.2 (.builtin hdoes)) rfl h

theorem Straight.dup {k : Int} (hd : d.Stocked)
    (h : Straight limit es ⟨.plain (.integer k) :: .plain (.integer k) :: s, d, marks⟩ σ) :
    Straight limit (.plain (.symbol "dup") :: es) ⟨.plain (.integer k) :: s, d, marks⟩ σ :=
  .builtin hd (.dupOther rfl) h

theorem Straight.arithmetic {op : Arithmetic} {a b : Int} {v : Value} (hd : d.Stocked)
    (hv : op.compute b a = .ok v) (h : Straight limit es ⟨.plain v :: s, d, marks⟩ σ) :
    Straight limit (.plain (.symbol op.word) :: es)
      ⟨.plain (.integer a) :: .plain (.integer b) :: s, d, marks⟩ σ :=
  .builtin hd (.arithmetic rfl rfl hv) h

theorem Straight.numeral {numeral : String} {n : Int} (hd : d.Stocked)
    (hnumeral : Value.isNumeral numeral = true) (hn : Value.readNumeral numeral = .ok n)
    (h : Straight limit es ⟨.plain (.integer n) :: s, d, marks⟩ σ) :
    Straight limit (.plain (.symbol numeral) :: es) ⟨s, d, marks⟩ σ := by
  refine .push (Action.ofNode_eq_push_iff.2 (Or.inr ?_)) h
  exact ⟨numeral, n, rfl, hd.numeral numeral hnumeral, hnumeral, hn, rfl⟩

theorem Straight.quotation {items : List Value}
    (h : Straight limit es ⟨.plain (.quotation items) :: s, d, marks⟩ σ) :
    Straight limit (.plain (.quotation items) :: es) ⟨s, d, marks⟩ σ :=
  .push (Action.ofNode_of_isQuotation rfl) h

end Stocked

/-! ## A choice under a number -/

section Branching

variable {limit height : Nat} {d : Dictionary} {s : Stack} {marks : Nat} {test : Arithmetic}
  {bound : String} {lower upper : List Value} {k : Int} {answer : Bool}

/-- A comparison of the integer `k` with the number `bound` gives an answer. -/
def Arithmetic.Answers (test : Arithmetic) (bound : String) (k : Int) (answer : Bool) : Prop :=
  ∃ c, Value.isNumeral bound = true ∧ Value.readNumeral bound = .ok c ∧
    test.compute k c = .ok (.boolean answer)

/-- The nodes up to `dip` leave the two quotations, in one, above the answer. -/
theorem straight_question (hd : d.Stocked) (htest : test.Answers bound k answer) :
    Straight limit [.plain (.symbol "dup"), .plain (.symbol bound), .plain (.symbol test.word),
        .plain (.quotation [.quotation lower, .quotation upper])]
      ⟨.plain (.integer k) :: s, d, marks⟩
      ⟨.plain (.quotation [.quotation lower, .quotation upper]) :: .plain (.boolean answer) ::
        .plain (.integer k) :: s, d, marks⟩ := by
  obtain ⟨c, hbound, hc, hanswer⟩ := htest
  exact .dup hd (.numeral hd hbound hc (.arithmetic hd hanswer (.quotation (.nil _))))

theorem straight_branches :
    Straight limit [.plain (.quotation lower), .plain (.quotation upper)] ⟨s, d, marks⟩
      ⟨.plain (.quotation upper) :: .plain (.quotation lower) :: s, d, marks⟩ :=
  .quotation (.quotation (.nil _))

theorem map_plain_ite :
    (if (Value.boolean answer).countsAsTrue then upper.map Entry.plain else lower.map Entry.plain) =
      (if answer then upper else lower).map .plain := by
  cases answer <;> rfl

/-- A choice comes to what the nodes chosen come to. -/
theorem evaluates_branching {o : Outcome} (hd : d.Stocked) (htest : test.Answers bound k answer)
    (h : Evaluates limit ((if answer then upper else lower).map .plain)
      ⟨.plain (.integer k) :: s, d, marks⟩ o) :
    Evaluates limit ((branching test bound lower upper).map .plain)
      ⟨.plain (.integer k) :: s, d, marks⟩ o := by
  obtain ⟨dipName, hdip⟩ := hd.keeps .dip
  obtain ⟨ifName, hif⟩ := hd.keeps .choose
  have hunder : Calls limit (.plain (.symbol "dip"))
      ⟨.plain (.quotation [.quotation lower, .quotation upper]) :: .plain (.boolean answer) ::
        .plain (.integer k) :: s, d, marks⟩
      [.plain (.quotation lower), .plain (.quotation upper)] ⟨.plain (.integer k) :: s, d, marks⟩
      [.plain (.boolean answer)] :=
    .dip (Action.ofNode_of_get? hdip) rfl
  have hchoice : Calls limit (.plain (.symbol "if"))
      ⟨.plain (.boolean answer) :: .plain (.quotation upper) :: .plain (.quotation lower) ::
        .plain (.integer k) :: s, d, marks⟩
      (if (Value.boolean answer).countsAsTrue then upper.map .plain else lower.map .plain)
      ⟨.plain (.integer k) :: s, d, marks⟩ [] :=
    .choose (Action.ofNode_of_get? hif) rfl rfl
  rw [map_plain_ite] at hchoice
  -- the quotations are pushed under the answer, which is put back for `if` to take
  have hpushed : Evaluates limit [.plain (.quotation lower), .plain (.quotation upper)]
      ⟨.plain (.integer k) :: s, d, marks⟩ ⟨none, .plain (.quotation upper) ::
        .plain (.quotation lower) :: .plain (.integer k) :: s, d, marks⟩ :=
    straight_branches.evaluates (.nil _)
  exact (straight_question hd htest).evaluates
    (.cons (.call hunder hpushed) rfl (hchoice.evaluates_iff_of_nil.2 h))

/-- A choice takes two more frames while its quotations are pushed, and none when it is made. -/
theorem staysWithin_branching {below : List Frame} (hd : d.Stocked)
    (htest : test.Answers bound k answer) (hbelow : Frames.Shaped ([] :: below))
    (hheight : below.length + 3 ≤ height)
    (h : StaysWithin limit height (Session.machine ⟨.plain (.integer k) :: s, d, marks⟩
      (Frame.ofNodes (if answer then upper else lower) :: below))) :
    StaysWithin limit height (Session.machine ⟨.plain (.integer k) :: s, d, marks⟩
      (Frame.ofNodes (branching test bound lower upper) :: below)) := by
  have hdip : Builtin.Does limit d marks .dip
      (.plain (.quotation [.quotation lower, .quotation upper]) :: .plain (.boolean answer) ::
        .plain (.integer k) :: s)
      ⟨.plain (.integer k) :: s, d, marks, [[.restore (.plain (.boolean answer))],
        Frame.ofNodes [.quotation lower, .quotation upper]]⟩ :=
    .dip rfl
  have hif : Builtin.Does limit d marks .choose
      (.plain (.boolean answer) :: .plain (.quotation upper) :: .plain (.quotation lower) ::
        .plain (.integer k) :: s)
      ⟨.plain (.integer k) :: s, d, marks, [Frame.ofEntries
        (if (Value.boolean answer).countsAsTrue then upper.map .plain else lower.map .plain)]⟩ :=
    .choose rfl rfl
  rw [map_plain_ite] at hif
  have hchoice := Move.builtin hd hif [] below
  rw [List.foldl_cons, List.foldl_nil, hbelow.addFrame_nil] at hchoice
  have hone : below.length + 1 ≤ height := by omega
  have htwo : below.length + 2 ≤ height := by omega
  -- backwards from the choice: the answer is put back, and the frames above `if` are dropped
  have hback := h.of_move hchoice hone
  have hback := ((hback.of_move .drop htwo).of_move .restore htwo).of_move .drop hheight
  have hpushed := straight_branches.staysWithin hheight hback
  have hunder := hpushed.of_move
    (Move.builtin hd hdip [.node (.plain (.symbol "if"))] below) hone
  exact (straight_question hd htest).staysWithin hone hunder

end Branching

/-! ## Calls in the middle -/

section Recurrence

variable {limit : Nat} {d : Dictionary} {s : Stack} {marks : Nat} {name : String}
  {op : Arithmetic} {body : List Value}

/-- The predecessor of the integer on top is computed without a call. -/
theorem straight_predecessor {es : List Entry} {σ : Session} {k : Nat} (hd : d.Stocked)
    (h : Straight limit es ⟨.plain (.integer k) :: s, d, marks⟩ σ) :
    Straight limit (.plain (.symbol "1") :: .plain (.symbol "-") :: es)
      ⟨.plain (.integer (k + 1 : Nat)) :: s, d, marks⟩ σ := by
  have hpredecessor : Arithmetic.minus.compute (k + 1 : Nat) 1 = .ok (.integer k) := by
    simp [Arithmetic.compute]
  exact .numeral hd rfl rfl (.arithmetic hd hpredecessor h)

theorem evaluates_accumulating {k : Nat} {f : Int} {v : Value} (hd : d.Stocked)
    (hcall : EvaluatesNode limit (.plain (.symbol name))
      ⟨.plain (.integer k) :: .plain (.integer (k + 1 : Nat)) :: s, d, marks⟩
      ⟨none, .plain (.integer f) :: .plain (.integer (k + 1 : Nat)) :: s, d, marks⟩)
    (hv : op.compute (k + 1 : Nat) f = .ok v) :
    Evaluates limit ((accumulating name op).map .plain)
      ⟨.plain (.integer (k + 1 : Nat)) :: s, d, marks⟩ ⟨none, .plain v :: s, d, marks⟩ := by
  have hlast : Evaluates limit [.plain (.symbol op.word)]
      ⟨.plain (.integer f) :: .plain (.integer (k + 1 : Nat)) :: s, d, marks⟩
      ⟨none, .plain v :: s, d, marks⟩ :=
    (Straight.arithmetic hd hv (.nil _)).evaluates (.nil _)
  exact (Straight.dup hd (straight_predecessor hd (.nil _))).evaluates (.cons hcall rfl hlast)

/-- A defined word comes to what its body comes to. -/
theorem evaluatesNode_of_body {o : Outcome} (hword : d.get? name = some (.defined name body))
    (hcopy : 2 * (Value.quotation body).depth ≤ limit)
    (h : Evaluates limit (body.map .plain) ⟨s, d, marks⟩ o) :
    EvaluatesNode limit (.plain (.symbol name)) ⟨s, d, marks⟩ o :=
  evaluates_singleton.1 ((evaluates_word hword hcopy).2 h)

/-- A word that gives `f` for its least argument, and otherwise calls itself and accumulates, gives
`f` for all arguments, if the operation that accumulates satisfies the recurrence of `f`. -/
theorem evaluatesNode_of_recurrence {f : Nat → Int} {least : Nat} (op : Arithmetic)
    (hd : d.Stocked)
    (hword : d.get? name = some (.defined name body))
    (hcopy : 2 * (Value.quotation body).depth ≤ limit)
    (hleast : ∀ s, Evaluates limit (body.map .plain) ⟨.plain (.integer least) :: s, d, marks⟩
      ⟨none, .plain (.integer (f least)) :: s, d, marks⟩)
    (hmore : ∀ k, least ≤ k → ∀ s o,
      Evaluates limit ((accumulating name op).map .plain)
        ⟨.plain (.integer (k + 1 : Nat)) :: s, d, marks⟩ o →
      Evaluates limit (body.map .plain) ⟨.plain (.integer (k + 1 : Nat)) :: s, d, marks⟩ o)
    (hf : ∀ k, least ≤ k → op.compute (k + 1 : Nat) (f k) = .ok (.integer (f (k + 1))))
    {n : Nat} (hn : least ≤ n) (s : Stack) :
    EvaluatesNode limit (.plain (.symbol name)) ⟨.plain (.integer n) :: s, d, marks⟩
      ⟨none, .plain (.integer (f n)) :: s, d, marks⟩ := by
  induction n, hn using Nat.le_induction generalizing s with
  | base => exact evaluatesNode_of_body hword hcopy (hleast s)
  | succ k hk ih =>
      -- the call in the middle finds the argument itself under the predecessor
      have hcall := ih (.plain (.integer (k + 1 : Nat)) :: s)
      exact evaluatesNode_of_body hword hcopy
        (hmore k hk s _ (evaluates_accumulating hd hcall (hf k hk)))

/-- A word that is called in last place takes the frames that its body takes in the same place. -/
theorem staysWithin_of_body {height : Nat} {below : List Frame}
    (hword : d.get? name = some (.defined name body)) (hbelow : Frames.Shaped ([] :: below))
    (hheight : below.length + 1 ≤ height)
    (h : StaysWithin limit height
      (Session.machine ⟨s, d, marks⟩ (Frame.ofNodes body :: below))) :
    StaysWithin limit height
      (Session.machine ⟨s, d, marks⟩ ([.node (.plain (.symbol name))] :: below)) := by
  by_cases hcopy : 2 * (Value.quotation body).depth ≤ limit
  · have hrun : (Operation.defined name body).run limit s d marks =
        .done ⟨s, d, marks, [Frame.ofNodes body]⟩ :=
      Operation.run_eq_done_iff.2 (.defined s (decide_eq_true hcopy))
    have hmove : Move limit
        (Session.machine ⟨s, d, marks⟩ ([.node (.plain (.symbol name))] :: below))
        (Session.machine ⟨s, d, marks⟩ (addFrame ([] :: below) (Frame.ofNodes body))) :=
      .word (Action.ofNode_of_get? hword) hrun
    -- the frame of the caller is used up, so the body takes its place
    rw [hbelow.addFrame_nil] at hmove
    exact h.of_move hmove hheight
  · have hexhausts : Exhausts limit d s (Entry.plain (.symbol name)).value s :=
      .defined hword (Nat.lt_of_not_le hcopy)
    exact Machine.staysWithin_of_stop (.failed (Machine.fails_of_exhausts hexhausts)) hheight

end Recurrence

/-! ## Three words -/

section Words

variable {limit : Nat} {d : Dictionary} {marks : Nat}

theorem sumTo_succ (k : Nat) : (k + 1) * (k + 1 + 1) / 2 = k + 1 + k * (k + 1) / 2 := by
  have hproduct : (k + 1) * (k + 1 + 1) = k * (k + 1) + 2 * (k + 1) := by ring
  omega

theorem greater_zero : Arithmetic.greater.Answers "0" (0 : Nat) false :=
  ⟨0, rfl, rfl, rfl⟩

theorem greater_succ (k : Nat) : Arithmetic.greater.Answers "0" (k + 1 : Nat) true := by
  refine ⟨0, rfl, rfl, ?_⟩
  simp [Arithmetic.compute]

theorem evaluatesNode_sumTo (hd : d.Stocked)
    (hword : d.get? "sumto" = some (.defined "sumto" sumToBody)) (hlimit : 6 ≤ limit) (n : Nat)
    (s : Stack) :
    EvaluatesNode limit (.plain (.symbol "sumto")) ⟨.plain (.integer n) :: s, d, marks⟩
      ⟨none, .plain (.integer (n * (n + 1) / 2 : Nat)) :: s, d, marks⟩ := by
  refine evaluatesNode_of_recurrence (f := fun n => (n * (n + 1) / 2 : Nat)) .plus hd hword
    hlimit ?_ ?_ ?_ (Nat.zero_le n) s
  · intro s
    exact evaluates_branching hd greater_zero (.nil _)
  · intro k _ s o h
    exact evaluates_branching hd (greater_succ k) h
  · intro k _
    rw [Arithmetic.compute, sumTo_succ]
    rfl

theorem evaluatesNode_factorial (hd : d.Stocked)
    (hword : d.get? "fact" = some (.defined "fact" factorialBody)) (hlimit : 6 ≤ limit) {n : Nat}
    (hn : 1 ≤ n) (s : Stack) :
    EvaluatesNode limit (.plain (.symbol "fact")) ⟨.plain (.integer n) :: s, d, marks⟩
      ⟨none, .plain (.integer n.factorial) :: s, d, marks⟩ := by
  refine evaluatesNode_of_recurrence (f := fun n => n.factorial) .times hd hword
    hlimit ?_ ?_ ?_ hn s
  · intro s
    have htest : Arithmetic.atMost.Answers "1" (1 : Nat) true := ⟨1, rfl, rfl, rfl⟩
    exact evaluates_branching hd htest (.nil _)
  · intro k hk s o h
    have htest : Arithmetic.atMost.Answers "1" (k + 1 : Nat) false := by
      have hmore : ¬ ((k + 1 : Nat) : Int) ≤ 1 := by omega
      refine ⟨1, rfl, rfl, ?_⟩
      simp only [Arithmetic.compute, hmore, decide_false]
    exact evaluates_branching hd htest h
  · intro k _
    rw [Arithmetic.compute, Nat.factorial_succ]
    rfl

theorem evaluatesNode_countdown (hd : d.Stocked)
    (hword : d.get? "count" = some (.defined "count" countdownBody)) (hlimit : 6 ≤ limit) (n : Nat)
    (s : Stack) :
    EvaluatesNode limit (.plain (.symbol "count")) ⟨.plain (.integer n) :: s, d, marks⟩
      ⟨none, .plain (.integer 0) :: s, d, marks⟩ := by
  induction n with
  | zero =>
      exact evaluatesNode_of_body hword hlimit
        (evaluates_branching hd greater_zero (.nil _))
  | succ k ih =>
      have hbranch : Evaluates limit
          [.plain (.symbol "1"), .plain (.symbol "-"), .plain (.symbol "count")]
          ⟨.plain (.integer (k + 1 : Nat)) :: s, d, marks⟩
          ⟨none, .plain (.integer 0) :: s, d, marks⟩ :=
        (straight_predecessor hd (.nil _)).evaluates (evaluates_singleton.2 ih)
      exact evaluatesNode_of_body hword hlimit
        (evaluates_branching hd (greater_succ k) hbranch)

/-- Counting down takes three frames at most, also if the word cannot be called at all. -/
theorem staysWithin_countdown (hd : d.Stocked)
    (hword : d.get? "count" = some (.defined "count" countdownBody)) (n : Nat) (s : Stack) :
    StaysWithin limit 3 (Session.machine ⟨.plain (.integer n) :: s, d, marks⟩
      [[.node (.plain (.symbol "count"))]]) := by
  have hnone : Frames.Shaped [[]] :=
    Frames.shaped_cons_iff.2 ⟨Frame.sole_nil, List.forall_mem_nil _⟩
  -- no frame is left over from one call to the next, so one height serves the whole induction
  induction n with
  | zero =>
      have hend : StaysWithin limit 3
          (Session.machine ⟨.plain (.integer 0) :: s, d, marks⟩ [[]]) :=
        (Machine.staysWithin_of_stop .finished (Nat.zero_le 3)).of_move .drop (Nat.le_add_left 1 2)
      exact staysWithin_of_body hword hnone (by decide)
        (staysWithin_branching hd greater_zero hnone (by decide) hend)
  | succ k ih =>
      have hbranch : StaysWithin limit 3
          (Session.machine ⟨.plain (.integer (k + 1 : Nat)) :: s, d, marks⟩
            [Frame.ofNodes [.symbol "1", .symbol "-", .symbol "count"]]) :=
        (straight_predecessor hd (.nil _)).staysWithin (by decide) ih
      exact staysWithin_of_body hword hnone (by decide)
        (staysWithin_branching hd (greater_succ k) hnone (by decide) hbranch)

end Words

/-! ## The words applied to a number -/

/-- A session with the built-in words and a stack. -/
def Session.holding (s : Stack) : Session :=
  ⟨s, Dictionary.builtins, 0⟩

namespace Program.Introduces

variable {limit : Nat} {definition name : String} {body : List Value}

theorem read_applied (h : Introduces definition name body) (n : Nat) :
    Program.read (applied definition name n) =
      .ok [.quotation body, .symbol name, .symbol "def", .symbol (toString n), .symbol name] := by
  have hnumber : Program.read (toString n) = .ok [.symbol (toString n)] :=
    Program.read_of_isToken (Value.isToken_of_isNumeral (Value.isNumeral_toString n))
  exact Program.read_append_space (Program.read_append_space h.read hnumber)
    (Program.read_of_isToken h.token)

theorem stocked (h : Introduces definition name body) :
    (Session.fresh.withWord name body).words.Stocked :=
  Dictionary.stocked_builtins.insert h.free h.not_numeral

/-- The definition binds the word and leaves an empty stack. -/
theorem straight (h : Introduces definition name body) :
    Straight limit [.plain (.quotation body), .plain (.symbol name), .plain (.symbol "def")]
      Session.fresh (Session.fresh.withWord name body) := by
  have hsymbol : Action.ofNode Dictionary.builtins (.symbol name) = .ok (.push (.symbol name)) := by
    refine Action.ofNode_eq_push_iff.2 (Or.inl ⟨rfl, ?_⟩)
    intro called hcalled
    cases hcalled
    exact ⟨h.free, h.not_numeral⟩
  have hdefine : Builtin.Does limit Dictionary.builtins 0 .define
      [.plain (.symbol name), .plain (.quotation body)]
      ⟨[], Dictionary.builtins.insert name
        (.defined name ((body.map Entry.plain).map (·.value))), 0, []⟩ :=
    .define rfl rfl
  have hbody : (body.map Entry.plain).map (·.value) = body := by
    simp [Entry.plain, Function.comp_def]
  rw [hbody] at hdefine
  exact .quotation (.push hsymbol (.builtin Dictionary.stocked_builtins hdefine (.nil _)))

theorem straight_number {n : Nat} (h : Introduces definition name body)
    (hdigits : (toString n).length ≤ digitLimit) :
    Straight limit [.plain (.symbol (toString n))] (Session.fresh.withWord name body)
      ((Session.holding [.plain (.integer n)]).withWord name body) :=
  .numeral h.stocked (Value.isNumeral_toString n) (Value.readNumeral_toString hdigits) (.nil _)

/-- The program ends as the word does on the number. -/
theorem ends_applied {n : Nat} {o : Outcome} (h : Introduces definition name body)
    (hdigits : (toString n).length ≤ digitLimit)
    (hnode : EvaluatesNode limit (.plain (.symbol name))
      ((Session.holding [.plain (.integer n)]).withWord name body) o) :
    Session.fresh.Ends limit (applied definition name n) o.session
      (o.failure.map Failure.surface) := by
  rw [Session.ends_iff_evaluates (h.read_applied n)]
  refine ⟨o, h.straight.evaluates ?_, rfl, rfl⟩
  exact (h.straight_number hdigits).evaluates (evaluates_singleton.2 hnode)

/-- Under a nesting limit that does not allow the body to be copied, the program fails at the word,
with the number on the stack. -/
theorem ends_applied_tooDeep {n : Nat} (h : Introduces definition name body)
    (hdigits : (toString n).length ≤ digitLimit)
    (hdeep : limit < 2 * (Value.quotation body).depth) :
    Session.fresh.Ends limit (applied definition name n)
      ((Session.holding [.plain (.integer n)]).withWord name body) (some (.error .tooDeep)) := by
  have hexhausts : Exhausts limit (Session.fresh.withWord name body).words [.plain (.integer n)]
      (Entry.plain (.symbol name)).value [.plain (.integer n)] :=
    .defined (Dictionary.get?_insert_self _ _ _) hdeep
  exact h.ends_applied hdigits (.fail (Machine.fails_of_exhausts hexhausts))

/-- The program stays within the frames that the word takes on the number, called in last place. A
number that is too long to be read takes no more than the frame it stands in. -/
theorem staysWithin_applied {height n : Nat} (h : Introduces definition name body)
    (hheight : 1 ≤ height)
    (hnode : StaysWithin limit height
      (((Session.holding [.plain (.integer n)]).withWord name body).machine
        [[.node (.plain (.symbol name))]])) :
    StaysWithin limit height (Session.fresh.machine [Frame.ofNodes
      [.quotation body, .symbol name, .symbol "def", .symbol (toString n), .symbol name]]) := by
  refine h.straight.staysWithin hheight ?_
  by_cases hdigits : (toString n).length ≤ digitLimit
  · exact (h.straight_number hdigits).staysWithin hheight hnode
  · have hnumeral := Value.isNumeral_toString n
    have hoverlong : Overlong (Session.fresh.withWord name body).words []
        (Entry.plain (.symbol (toString n))).value (.numeralTooLong (toString n).length) :=
      .numeral (h.stocked.numeral _ hnumeral) hnumeral (Nat.lt_of_not_le hdigits)
    exact Machine.staysWithin_of_stop (.failed (Machine.fails_of_overlong hoverlong)) hheight

end Program.Introduces

namespace Session

/-- The programs that define the words and apply them to a number that can be read, run in a fresh
session. If the nesting limit is at least six, they end normally with one value on the stack. If it
is less, the body of the word cannot be copied, and they all fail for that reason. -/
theorem ends_of_recursion {nesting n : Nat} (hdigits : (toString n).length ≤ digitLimit) :
    (6 ≤ nesting →
      fresh.Ends nesting (applied sumTo "sumto" n)
        ((holding [.plain (.integer (n * (n + 1) / 2 : Nat))]).withWord "sumto" sumToBody) none ∧
      (1 ≤ n → fresh.Ends nesting (applied factorial "fact" n)
        ((holding [.plain (.integer n.factorial)]).withWord "fact" factorialBody) none) ∧
      fresh.Ends nesting (applied countdown "count" n)
        ((holding [.plain (.integer 0)]).withWord "count" countdownBody) none) ∧
    (nesting < 6 →
      fresh.Ends nesting (applied sumTo "sumto" n)
        ((holding [.plain (.integer n)]).withWord "sumto" sumToBody) (some (.error .tooDeep)) ∧
      fresh.Ends nesting (applied factorial "fact" n)
        ((holding [.plain (.integer n)]).withWord "fact" factorialBody) (some (.error .tooDeep)) ∧
      fresh.Ends nesting (applied countdown "count" n)
        ((holding [.plain (.integer n)]).withWord "count" countdownBody)
        (some (.error .tooDeep))) := by
  constructor
  · intro hnesting
    refine ⟨?_, ?_, ?_⟩
    · exact introduces_sumTo.ends_applied hdigits
        (evaluatesNode_sumTo introduces_sumTo.stocked (Dictionary.get?_insert_self _ _ _) hnesting
          n [])
    · intro hn
      exact introduces_factorial.ends_applied hdigits
        (evaluatesNode_factorial introduces_factorial.stocked (Dictionary.get?_insert_self _ _ _)
          hnesting hn [])
    · exact introduces_countdown.ends_applied hdigits
        (evaluatesNode_countdown introduces_countdown.stocked (Dictionary.get?_insert_self _ _ _)
          hnesting n [])
  · intro hnesting
    exact ⟨introduces_sumTo.ends_applied_tooDeep hdigits hnesting,
      introduces_factorial.ends_applied_tooDeep hdigits hnesting,
      introduces_countdown.ends_applied_tooDeep hdigits hnesting⟩

/-- The factorial of thirty. -/
theorem ends_of_recursion_of_thirty :
    fresh.Ends 1000 "[ dup 1 <= [ [ dup 1 - fact * ] [ ] ] dip if ] fact def 30 fact"
      ((holding [.plain (.integer 265252859812191058636308480000000)]).withWord "fact"
        factorialBody) none :=
  ((@ends_of_recursion 1000 30 (by decide)).1 (by decide)).2.1 (by decide)

end Session

namespace Machine

/-- In every machine that an evaluation comes to, only the top frame can be used up, and an entry
that waits to be put back is alone in its frame. So a call in last place leaves the number of frames
as it is, and counting down from any number takes three frames at most. -/
theorem frames_of_reaches (limit : Nat) :
    (∀ nodes s d marks m, Reaches limit (start nodes s d marks) m →
      (∀ frame ∈ m.frames.tail, frame ≠ []) ∧
      (∀ frame ∈ m.frames, ∀ e, Item.restore e ∈ frame → frame = [.restore e]) ∧
      (m.CallsLast → ∀ m', step limit m = .next m' → m'.frames.length = m.frames.length)) ∧
    ∀ n, ∃ nodes, Program.read (applied countdown "count" n) = .ok nodes ∧
      ∀ m, Reaches limit (start nodes [] Dictionary.builtins 0) m → m.frames.length ≤ 3 := by
  constructor
  · intro nodes s d marks m hreach
    have hshaped := hreach.shaped (shaped_start nodes s d marks)
    refine ⟨hshaped.below, hshaped.sole, ?_⟩
    intro hcalls m' hstep
    exact (step_eq_next_iff.1 hstep).length_of_callsLast hshaped hcalls
  · intro n
    refine ⟨_, introduces_countdown.read_applied n, ?_⟩
    exact introduces_countdown.staysWithin_applied (by decide)
      (staysWithin_countdown introduces_countdown.stocked (Dictionary.get?_insert_self _ _ _) n [])

/-- In `7 [ [ 1 ] apply ] dip`, the nodes of `[ 1 ]` take the place of `apply`, above the `7` that
waits to be put back. -/
theorem frames_of_reaches_of_apply_in_dip :
    ∃ m m', Reaches 1000 (start [.symbol "7", .quotation [.quotation [.symbol "1"],
        .symbol "apply"], .symbol "dip"] [] Dictionary.builtins 0) m ∧
      m.frames = [[.node (.plain (.symbol "apply"))], [.restore (.plain (.integer 7))]] ∧
      step 1000 m = .next m' ∧ m'.frames.length = 2 := by
  have hreach : Reaches 1000 (start [.symbol "7", .quotation [.quotation [.symbol "1"],
      .symbol "apply"], .symbol "dip"] [] Dictionary.builtins 0)
      ⟨[.plain (.quotation [.symbol "1"])], Dictionary.builtins, 0,
        [[.node (.plain (.symbol "apply"))], [.restore (.plain (.integer 7))]]⟩ :=
    .head (step_eq_next_iff.1 rfl) (.head (step_eq_next_iff.1 rfl)
      (.head (step_eq_next_iff.1 rfl) (.single (step_eq_next_iff.1 rfl))))
  have hcalls : CallsLast ⟨[.plain (.quotation [.symbol "1"])], Dictionary.builtins, 0,
      [[.node (.plain (.symbol "apply"))], [.restore (.plain (.integer 7))]]⟩ :=
    ⟨_, _, "apply", .builtin "apply" .apply, rfl, rfl, .apply _⟩
  exact ⟨_, _, hreach, rfl, rfl, ((frames_of_reaches 1000).1 _ _ _ _ _ hreach).2.2 hcalls _ rfl⟩

end Machine

end Catena
