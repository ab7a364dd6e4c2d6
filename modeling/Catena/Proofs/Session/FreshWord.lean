import Catena.Proofs.Session.Values
import Catena.Proofs.Value

/-!
# Words that nothing mentions

A symbol is looked up when it is evaluated as a node. Nodes come from the program, from
quotations that are taken apart and from the bodies of defined words, and no word makes a
symbol or opens a mapping. So what counts is whether a symbol occurs outside of mappings: a
value then `Exposes` it. A name that is exposed nowhere is never looked up and never bound,
and what it is bound to cannot matter.

`Machine.run_insert_of_not_exposes` says so for a word that is added under such a name. The
evaluations with and without the word go on side by side: after any number of steps both or
neither have ended, and if they have, they agree in everything but the new binding
(`Outcome.Adds`). The two other parts of the theorem say what this rests on. A symbol that
occurs nowhere, not even inside of a mapping, still does so later on, and a symbol that is not
exposed is never evaluated as a node.
-/

set_option autoImplicit false

namespace Catena

/-! ## Symbols in values -/

namespace Value

/-- A symbol occurs in a value outside of all mappings. -/
inductive Exposes (name : String) : Value → Prop
  | symbol : Exposes name (.symbol name)
  | quotation {items : List Value} {v : Value} :
      v ∈ items → Exposes name v → Exposes name (.quotation items)

/-- A symbol occurs nowhere in a value, not even inside of a mapping. -/
def Lacks (name : String) : Value → Prop :=
  EveryLeaf fun leaf => leaf ≠ .symbol name

section Exposes

variable {name : String}

@[simp] theorem exposes_symbol {called : String} :
    (Value.symbol called).Exposes name ↔ called = name := by
  constructor
  · intro h
    cases h
    rfl
  · rintro rfl
    exact .symbol

@[simp] theorem exposes_quotation {items : List Value} :
    (Value.quotation items).Exposes name ↔ ∃ v ∈ items, v.Exposes name := by
  constructor
  · intro h
    cases h with
    | quotation hv hexposes => exact ⟨_, hv, hexposes⟩
  · rintro ⟨v, hv, hexposes⟩
    exact .quotation hv hexposes

@[simp] theorem not_exposes_integer {n : Int} : ¬ (Value.integer n).Exposes name := by
  intro h
  cases h

@[simp] theorem not_exposes_boolean {b : Bool} : ¬ (Value.boolean b).Exposes name := by
  intro h
  cases h

/-- What a mapping holds is not exposed. -/
@[simp] theorem not_exposes_mapping {key value : Value} :
    ¬ (Value.mapping key value).Exposes name := by
  intro h
  cases h

end Exposes

theorem hereditary_not_exposes (name : String) : Hereditary fun v => ¬ v.Exposes name where
  integer _ := not_exposes_integer
  boolean _ := not_exposes_boolean
  quotation items := by simp

theorem hereditary_lacks (name : String) : Hereditary (Lacks name) where
  integer _ := .integer (by simp)
  boolean _ := .boolean (by simp)
  quotation _ := everyLeaf_quotation

/-- The name that a value offers to a definition is exposed by it. -/
theorem exposes_of_name? {v : Value} {name : String} (h : v.name? = some name) :
    v.Exposes name := by
  unfold name? at h
  split at h
  · cases h
    exact .symbol
  · cases h
    exact .quotation (List.mem_singleton_self _) .symbol
  · cases h

end Value

/-! ## One more binding -/

namespace Dictionary

/-- Bindings with one more among them, of a name that was not bound. The others are the same
and in the same order. -/
inductive AddsTo (name : String) (op : Operation) :
    List (String × Operation) → List (String × Operation) → Prop
  | here {rest : List (String × Operation)} :
      find? name rest = none → AddsTo name op rest ((name, op) :: rest)
  | later {bound : String} {old : Operation} {rest rest' : List (String × Operation)} :
      bound ≠ name → AddsTo name op rest rest' →
      AddsTo name op ((bound, old) :: rest) ((bound, old) :: rest')

/-- A dictionary has one more binding than another, of a name that the other does not bind. -/
def Adds (name : String) (op : Operation) (d d' : Dictionary) : Prop :=
  AddsTo name op d.bindings d'.bindings

variable {name other : String} {op : Operation} {d d' : Dictionary}

/-- The other names are bound to what they were bound to. -/
theorem Adds.get?_of_ne (h : d.Adds name op d') (hne : other ≠ name) :
    d'.get? other = d.get? other := by
  obtain ⟨bindings⟩ := d
  obtain ⟨bindings'⟩ := d'
  change AddsTo name op bindings bindings' at h
  change find? other bindings' = find? other bindings
  induction h with
  | here _ => simp [find?, hne.symm]
  | @later bound old _ _ _ _ ih =>
      by_cases hbound : bound = other
      · simp [find?, hbound]
      · simp [find?, hbound, ih]

/-- Binding another name keeps the difference between two dictionaries. -/
theorem Adds.insert (h : d.Adds name op d') (hne : other ≠ name) (value : Operation) :
    (d.insert other value).Adds name op (d'.insert other value) := by
  obtain ⟨bindings⟩ := d
  obtain ⟨bindings'⟩ := d'
  change AddsTo name op bindings bindings' at h
  change AddsTo name op (put other value bindings) (put other value bindings')
  induction h with
  | here hnone =>
      rw [put, if_neg hne.symm]
      refine .here ?_
      rw [find?_put_of_ne hne.symm]
      exact hnone
  | @later bound old rest rest' hbound hrest ih =>
      -- the name is found at this place in both lists, or later in both
      by_cases hfound : bound = other
      · simp only [put, if_pos hfound]
        exact .later hbound hrest
      · simp only [put, if_neg hfound]
        exact .later hbound ih

/-- Binding a name that is not bound adds a binding. -/
theorem adds_insert (h : d.get? name = none) : d.Adds name op (d.insert name op) := by
  obtain ⟨bindings⟩ := d
  change find? name bindings = none at h
  change AddsTo name op bindings (put name op bindings)
  induction bindings with
  | nil => exact .here rfl
  | cons binding rest ih =>
      obtain ⟨bound, old⟩ := binding
      unfold find? at h
      split at h
      · cases h
      · rename_i hbound
        rw [put, if_neg hbound]
        exact .later hbound (ih h)

end Dictionary

/-- Two outcomes agree in everything but one more binding. -/
structure Outcome.Adds (name : String) (op : Operation) (o o' : Outcome) : Prop where
  failure : o'.failure = o.failure
  stack : o'.stack = o.stack
  marks : o'.marks = o.marks
  words : o.words.Adds name op o'.words

/-! ## Two evaluations side by side -/

section SideBySide

variable {limit : Nat} {name : String} {added : Operation} {d d' : Dictionary}

/-- A node other than the symbol itself is the same with one more binding. -/
theorem Action.ofNode_of_adds (h : d.Adds name added d') {v : Value} (hv : ¬ v.Exposes name) :
    Action.ofNode d' v = Action.ofNode d v := by
  cases v with
  | symbol called =>
      have hne : called ≠ name := by
        rintro rfl
        exact hv .symbol
      simp only [Action.ofNode, h.get?_of_ne hne]
  | integer _ | boolean _ | quotation _ | emptyMapping | mapping _ _ => rfl

/-- A built-in word does the same with one more binding, unless its name is on the stack. -/
theorem Builtin.Does.adds {b : Builtin} {s : Stack} {marks : Nat} {effect : Effect}
    (h : Builtin.Does limit d marks b s effect) (hs : Stack.Carries (fun v => ¬ v.Exposes name) s)
    (hadds : d.Adds name added d') :
    ∃ words, Builtin.Does limit d' marks b s { effect with words := words } ∧
      effect.words.Adds name added words := by
  cases h with
  | arithmetic ha hb hv => exact ⟨d', .arithmetic ha hb hv, hadds⟩
  | equal hv => exact ⟨d', .equal hv, hadds⟩
  | truth t s => exact ⟨d', .truth t s, hadds⟩
  | dupQuotation hq hc => exact ⟨d', .dupQuotation hq hc, hadds⟩
  | dupOther hq => exact ⟨d', .dupOther hq, hadds⟩
  | pop e rest => exact ⟨d', .pop e rest, hadds⟩
  | swap top deeper rest => exact ⟨d', .swap top deeper rest, hadds⟩
  | clear s => exact ⟨d', .clear s, hadds⟩
  | quote e rest => exact ⟨d', .quote e rest, hadds⟩
  | apply hq => exact ⟨d', .apply hq, hadds⟩
  | dip hq => exact ⟨d', .dip hq, hadds⟩
  | choose hx hy => exact ⟨d', .choose hx hy, hadds⟩
  | @define n body called items rest hn hb =>
      -- the only word that changes the dictionary takes the name from the stack
      have hne : called ≠ name := by
        rintro rfl
        exact (Stack.carries_cons.1 hs).1 (Value.exposes_of_name? hn)
      exact ⟨_, .define hn hb, hadds.insert hne _⟩

theorem Operation.run_adds_of_done {op : Operation} {s : Stack} {marks : Nat} {effect : Effect}
    (h : op.run limit s d marks = .done effect)
    (hs : Stack.Carries (fun v => ¬ v.Exposes name) s) (hadds : d.Adds name added d') :
    ∃ words, op.run limit s d' marks = .done { effect with words := words } ∧
      effect.words.Adds name added words := by
  cases Operation.run_eq_done_iff.1 h with
  | builtin h =>
      obtain ⟨words, hdoes, hwords⟩ := h.adds hs hadds
      exact ⟨words, Operation.run_eq_done_iff.2 (.builtin hdoes), hwords⟩
  | defined s hc => exact ⟨d', Operation.run_eq_done_iff.2 (.defined s hc), hadds⟩

/-- Words that fail do so whatever the dictionary. -/
theorem Operation.run_eq_failed_of_run {op : Operation} {s left : Stack} {marks : Nat}
    {failure : Failure} (h : op.run limit s d marks = .failed failure left) :
    op.run limit s d' marks = .failed failure left := by
  rw [Operation.run_eq_failed_iff] at h ⊢
  exact h

namespace Machine

variable {m m' : Machine}

/-- A move is matched by a move with one more binding. -/
theorem Move.adds (h : Move limit m m') (hm : m.Carries fun v => ¬ v.Exposes name)
    (hadds : m.words.Adds name added d') :
    ∃ words, Move limit { m with words := d' } { m' with words := words } ∧
      m'.words.Adds name added words := by
  obtain ⟨hstack, -, hframes⟩ := hm
  cases h with
  | drop => exact ⟨d', .drop, hadds⟩
  | restore => exact ⟨d', .restore, hadds⟩
  | push hnode =>
      have hsame := Action.ofNode_of_adds hadds (Frame.carries_top.1 hframes).1
      exact ⟨d', .push (hsame.trans hnode), hadds⟩
  | word hnode hrun =>
      have hsame := Action.ofNode_of_adds hadds (Frame.carries_top.1 hframes).1
      obtain ⟨words, hrun', hwords⟩ := Operation.run_adds_of_done hrun hstack hadds
      exact ⟨words, .word (hsame.trans hnode) hrun', hwords⟩

/-- A node that fails is matched by the same failure with one more binding. -/
theorem Fails.adds {e : Entry} {s left : Stack} {marks : Nat} {failure : Failure}
    (h : Fails limit e s d marks failure left) (he : ¬ e.value.Exposes name)
    (hadds : d.Adds name added d') : Fails limit e s d' marks failure left := by
  have hsame := Action.ofNode_of_adds hadds he
  cases h with
  | unreadable hnode => exact .unreadable (hsame.trans hnode)
  | word hnode hrun => exact .word (hsame.trans hnode) (Operation.run_eq_failed_of_run hrun)

/-- The end of an evaluation is matched by the same end with one more binding. -/
theorem Stop.adds {o : Outcome} (h : Stop limit m o) (hm : m.Carries fun v => ¬ v.Exposes name)
    (hadds : m.words.Adds name added d') :
    ∃ o', Stop limit { m with words := d' } o' ∧ o.Adds name added o' := by
  cases h with
  | finished => exact ⟨_, .finished, rfl, rfl, rfl, hadds⟩
  | @failed s left d marks e failure items rest hfails =>
      have he := (Frame.carries_top.1 hm.frames).1
      refine ⟨_, .failed (hfails.adds he hadds), ?_⟩
      cases failure with
      | error _ => exact ⟨rfl, rfl, rfl, hadds⟩
      | fault _ => exact ⟨rfl, rfl, rfl, hadds⟩

/-- A run is matched, step by step, by a run with one more binding. -/
theorem run_adds (hm : m.Carries fun v => ¬ v.Exposes name)
    (hadds : m.words.Adds name added d') (fuel : Nat) :
    Option.Rel (Outcome.Adds name added) (m.run limit fuel)
      (run limit fuel { m with words := d' }) := by
  induction fuel generalizing m d' with
  | zero => exact .none
  | succ fuel ih =>
      rcases step_cases limit m with ⟨next, hstep, hmove⟩ | ⟨o, hstep, hstop⟩
      · obtain ⟨words, hmove', hwords⟩ := hmove.adds hm hadds
        have hnext := hmove.carries (Value.hereditary_not_exposes name) hm
        simp only [run, hstep, step_of_move hmove']
        exact ih hnext hwords
      · obtain ⟨o', hstop', ho⟩ := hstop.adds hm hadds
        simp only [run, hstep, step_of_stop hstop']
        exact .some ho

end Machine

end SideBySide

namespace Machine

/-- A word is added to a session under a name that is not bound in it. If the name is exposed
by no node, by no entry of the stack and by no body of a defined word, then after any number of
steps the evaluation of the nodes has ended with the word exactly when it has ended without,
and the outcomes agree in everything but the binding of the word. In general, a symbol that
occurs in none of them occurs in nothing that the evaluation comes to or leaves, and a symbol
that none of them exposes is never evaluated as a node, even if it occurs inside of mappings. -/
theorem run_insert_of_not_exposes (limit : Nat) (nodes : List Value) (σ : Session) :
    (∀ name body, (∀ v ∈ nodes, ¬ v.Exposes name) → σ.Carries (fun v => ¬ v.Exposes name) →
      σ.words.get? name = none → ∀ fuel,
        Option.Rel (Outcome.Adds name (.defined name body))
          ((start nodes σ.stack σ.words σ.marks).run limit fuel)
          ((start nodes σ.stack (σ.words.insert name (.defined name body)) σ.marks).run
            limit fuel)) ∧
    (∀ name, (∀ v ∈ nodes, v.Lacks name) → σ.Carries (Value.Lacks name) →
      (∀ m, Reaches limit (start nodes σ.stack σ.words σ.marks) m →
        m.Carries (Value.Lacks name)) ∧
      ∀ o, Halts limit (start nodes σ.stack σ.words σ.marks) o →
        o.session.Carries (Value.Lacks name)) ∧
    ∀ name, (∀ v ∈ nodes, ¬ v.Exposes name) → σ.Carries (fun v => ¬ v.Exposes name) →
      ∀ m e items rest, Reaches limit (start nodes σ.stack σ.words σ.marks) m →
        m.frames = (.node e :: items) :: rest → e.value ≠ .symbol name := by
  refine ⟨?_, ?_, ?_⟩
  · intro name body hnodes hσ hunbound fuel
    have hm := carries_start hnodes hσ
    exact run_adds hm (Dictionary.adds_insert hunbound) fuel
  · intro name hnodes hσ
    have hP := Value.hereditary_lacks name
    have hm := carries_start hnodes hσ
    exact ⟨fun m hreach => carries_of_reaches hreach hP hm, fun o h => h.carries hP hm⟩
  · rintro name hnodes hσ m e items rest hreach hframes hsymbol
    have hm := carries_of_reaches hreach (Value.hereditary_not_exposes name)
      (carries_start hnodes hσ)
    have hitems := hm.frames
    rw [hframes] at hitems
    have he : ¬ e.value.Exposes name := (Frame.carries_top.1 hitems).1
    rw [hsymbol] at he
    exact he .symbol

/-- A program that defines a word, uses it and fails. One of its nodes is a mapping with the
symbol `w` in it. -/
def squaring : List Value :=
  [.mapping (.symbol "w") (.symbol "4"), .quotation [.symbol "dup", .symbol "*"], .symbol "sq",
    .symbol "def", .symbol "3", .symbol "sq", .symbol "apply"]

/-- With a word of the name `w` in the session, `squaring` fails in the same way. -/
theorem run_insert_of_not_exposes_of_squaring :
    ∃ o o', (start squaring [] Dictionary.builtins 0).run 100 20 = some o ∧
      (start squaring [] (Dictionary.builtins.insert "w" (.defined "w" [.symbol "pop"])) 0).run
        100 20 = some o' ∧
      o.failure = some (.error (.wrongKind "apply" .quotation (.integer 9))) ∧
      o.Adds "w" (.defined "w" [.symbol "pop"]) o' := by
  have hnodes : ∀ v ∈ squaring, ¬ v.Exposes "w" := by simp [squaring]
  have hunbound : Dictionary.builtins.get? "w" = none := by decide +kernel
  have hrel := (run_insert_of_not_exposes 100 squaring Session.fresh).1 "w" [.symbol "pop"]
    hnodes Session.carries_fresh hunbound 20
  have hrun : (start squaring Session.fresh.stack Session.fresh.words Session.fresh.marks).run
      100 20 = some ⟨some (.error (.wrongKind "apply" .quotation (.integer 9))),
        [.plain (.integer 9), .plain (.mapping (.symbol "w") (.symbol "4"))],
        Dictionary.builtins.insert "sq" (.defined "sq" [.symbol "dup", .symbol "*"]), 0⟩ := by
    decide +kernel
  rw [hrun] at hrel
  -- the run without the word has ended, so the one with the word has as well
  generalize hother : run 100 20 _ = other at hrel
  cases hrel with
  | some h => exact ⟨_, _, hrun, hother, rfl, h⟩

end Machine

end Catena
