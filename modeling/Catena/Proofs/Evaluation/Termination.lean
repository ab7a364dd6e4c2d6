import Catena.Proofs.Session.Bindings
import Catena.Proofs.Session.Values
import Catena.Proofs.Value

/-!
# Programs that come to an end

A program that goes on for ever evaluates some symbol again and again, so the symbol is
copied again and again. Three kinds of word copy: `dup`, and the words that a program has
defined, which evaluate copies of their bodies and get them from `def`. Nodes and values in
which no symbol is bound to such a word are `Sparing`, and the machine halts on them
(`Machine.exists_halts_of_sparing`).

Two numbers show this, the first before the second.

* The calls that a machine holds (`Machine.calls`): the symbols outside of mappings that are
  bound. A word uses up the symbol that called it, and a word that does not copy leaves no
  more calls than it found. That `quote` makes values larger and that quotations wander
  between the stack and the frames does not matter, since both keep the symbols as they are.
* The work that is left (`Machine.work`): the pending items and their frames. A step that is
  no word makes this less and leaves the calls as they are.
-/

set_option autoImplicit false

namespace Catena

/-! ## Words that copy -/

/-- Whether an operation copies values, or stores them to be copied later. -/
def Operation.copies : Operation → Bool
  | .builtin _ .dup => true
  | .builtin _ .define => true
  | .builtin _ _ => false
  | .defined _ _ => true

/-- No symbol in a value, at any depth, is bound to an operation that copies. -/
def Value.Sparing (d : Dictionary) : Value → Prop :=
  EveryLeaf fun leaf => ∀ name op, leaf = .symbol name → d.get? name = some op →
    op.copies = false

theorem Value.hereditary_sparing (d : Dictionary) : Hereditary (Sparing d) where
  integer _ := .integer fun _ _ hname => by cases hname
  boolean _ := .boolean fun _ _ hname => by cases hname
  quotation _ := everyLeaf_quotation

theorem Value.sparing_symbol {d : Dictionary} {name : String} {op : Operation}
    (hget : d.get? name = some op) (hcopies : op.copies = false) :
    (Value.symbol name).Sparing d := by
  refine .symbol fun called found hname hfound => ?_
  cases hname
  rw [hget, Option.some.injEq] at hfound
  rw [← hfound]
  exact hcopies

/-- An operation that does not copy is a built-in word, neither `dup` nor `def`. -/
theorem Operation.eq_builtin_of_copies {op : Operation} (h : op.copies = false) :
    ∃ name b, op = .builtin name b ∧ b ≠ .dup ∧ b ≠ .define := by
  cases op with
  | defined name body => cases h
  | builtin name b =>
      refine ⟨name, b, rfl, ?_, ?_⟩
      · rintro rfl
        cases h
      · rintro rfl
        cases h

/-! ## Calls -/

mutual
/-- The number of bound symbols in a value, not counting those inside of mappings. -/
def Value.calls (d : Dictionary) : Value → Nat
  | .symbol name => if d.contains name then 1 else 0
  | .quotation items => Value.callsList d items
  | .integer _ => 0
  | .boolean _ => 0
  | .emptyMapping => 0
  | .mapping _ _ => 0
/-- The number of bound symbols in the values of a list. -/
def Value.callsList (d : Dictionary) : List Value → Nat
  | [] => 0
  | v :: vs => v.calls d + Value.callsList d vs
end

/-- The number of bound symbols in entries. -/
def Stack.calls (d : Dictionary) (entries : List Entry) : Nat :=
  Value.callsList d (entries.map (·.value))

/-- The number of bound symbols in pending items. -/
def Frame.calls (d : Dictionary) (items : List Item) : Nat :=
  Value.callsList d (items.map (·.entry.value))

section Counting

variable {d : Dictionary}

@[simp] theorem Value.callsList_nil : Value.callsList d [] = 0 := by
  rw [callsList]

@[simp] theorem Value.callsList_cons (v : Value) (vs : List Value) :
    Value.callsList d (v :: vs) = v.calls d + Value.callsList d vs := by
  rw [callsList]

theorem Value.callsList_append (vs ws : List Value) :
    Value.callsList d (vs ++ ws) = Value.callsList d vs + Value.callsList d ws := by
  induction vs with
  | nil => simp
  | cons v vs ih =>
      rw [List.cons_append, callsList_cons, callsList_cons, ih]
      omega

@[simp] theorem Stack.calls_nil : Stack.calls d [] = 0 :=
  Value.callsList_nil

@[simp] theorem Stack.calls_cons (e : Entry) (s : List Entry) :
    Stack.calls d (e :: s) = e.value.calls d + Stack.calls d s :=
  Value.callsList_cons _ _

@[simp] theorem Frame.calls_nil : Frame.calls d [] = 0 :=
  Value.callsList_nil

@[simp] theorem Frame.calls_cons (item : Item) (items : List Item) :
    Frame.calls d (item :: items) = item.entry.value.calls d + Frame.calls d items :=
  Value.callsList_cons _ _

@[simp] theorem Frame.calls_append (xs ys : List Item) :
    Frame.calls d (xs ++ ys) = Frame.calls d xs + Frame.calls d ys := by
  rw [calls, List.map_append, Value.callsList_append]
  rfl

@[simp] theorem Frame.calls_ofEntries (entries : List Entry) :
    Frame.calls d (Frame.ofEntries entries) = Stack.calls d entries := by
  rw [calls, Frame.ofEntries, List.map_map]
  rfl

/-- A quotation has the calls of its items. -/
theorem Entry.calls_of_items? {e : Entry} {items : List Entry} (h : e.items? = some items) :
    e.value.calls d = Stack.calls d items := by
  rw [Entry.value_of_items? h, Value.calls]
  rfl

theorem Entry.calls_enclosed (e : Entry) : e.enclosed.value.calls d = e.value.calls d := by
  simp [Entry.enclosed, Value.calls]

/-- Values that call nothing: integers, booleans, and quotations of such values. -/
theorem Value.hereditary_calls_eq_zero (d : Dictionary) : Hereditary fun v => v.calls d = 0 where
  integer _ := by rw [calls]
  boolean _ := by rw [calls]
  quotation items := by
    rw [calls]
    induction items with
    | nil => simp
    | cons v vs ih => rw [callsList_cons, Nat.add_eq_zero_iff, ih, List.forall_mem_cons]

/-- What a node that is data puts on the stack has the calls of the node: a numeral that is not
bound is no call, and neither is its integer. -/
theorem Value.calls_of_ofNode {v w : Value} (h : Action.ofNode d v = .ok (.push w)) :
    w.calls d = v.calls d := by
  rcases Action.ofNode_eq_push_iff.1 h with ⟨rfl, -⟩ | ⟨name, n, rfl, hfree, -, -, rfl⟩
  · rfl
  · simp [Value.calls, Dictionary.contains, hfree]

/-! ## Words that do not copy -/

section Words

variable {limit marks : Nat} {s : Stack} {b : Builtin} {effect : Effect}

/-- A built-in word other than `def` does the same with any dictionary and leaves it as it
is. -/
theorem Builtin.Does.with_words (h : Builtin.Does limit d marks b s effect) (hb : b ≠ .define)
    (d' : Dictionary) :
    effect.words = d ∧ Builtin.Does limit d' marks b s { effect with words := d' } := by
  cases h with
  | arithmetic htop hdeeper hv => exact ⟨rfl, .arithmetic htop hdeeper hv⟩
  | equal hv => exact ⟨rfl, .equal hv⟩
  | truth t s => exact ⟨rfl, .truth t s⟩
  | dupQuotation hq hc => exact ⟨rfl, .dupQuotation hq hc⟩
  | dupOther hq => exact ⟨rfl, .dupOther hq⟩
  | pop e rest => exact ⟨rfl, .pop e rest⟩
  | swap top deeper rest => exact ⟨rfl, .swap top deeper rest⟩
  | clear s => exact ⟨rfl, .clear s⟩
  | quote e rest => exact ⟨rfl, .quote e rest⟩
  | apply hq => exact ⟨rfl, .apply hq⟩
  | dip hq => exact ⟨rfl, .dip hq⟩
  | choose hx hy => exact ⟨rfl, .choose hx hy⟩
  | define _ _ => exact absurd rfl hb

/-- The calls that a word has left on the stack and scheduled. -/
def Effect.calls (d : Dictionary) (effect : Effect) : Nat :=
  Stack.calls d effect.stack + Frame.calls d effect.scheduled.reverse.flatten

@[simp] theorem Effect.calls_of_stack (t : Stack) (words : Dictionary) :
    Effect.calls d ⟨t, words, marks, []⟩ = Stack.calls d t := by
  simp [Effect.calls]

@[simp] theorem Effect.calls_of_frame (t : Stack) (words : Dictionary) (items : List Entry) :
    Effect.calls d ⟨t, words, marks, [Frame.ofEntries items]⟩ =
      Stack.calls d t + Stack.calls d items := by
  simp [Effect.calls]

/-- A built-in word other than `dup` leaves no more calls than it found on the stack. -/
theorem Builtin.Does.calls_le {words : Dictionary} (h : Builtin.Does limit words marks b s effect)
    (hb : b ≠ .dup) : effect.calls d ≤ Stack.calls d s := by
  cases h with
  | @arithmetic op _ _ _ _ v _ _ _ hv =>
      have hzero : v.calls d = 0 := (Value.hereditary_calls_eq_zero d).compute hv
      simp only [Effect.calls_of_stack, Stack.calls_cons, Entry.plain, hzero]
      omega
  | equal _ =>
      simp only [Effect.calls_of_stack, Stack.calls_cons, Entry.plain, Value.calls]
      omega
  | truth t s => simp [Entry.plain, Value.calls]
  | dupQuotation _ _ => exact absurd rfl hb
  | dupOther _ => exact absurd rfl hb
  | pop e rest => simp
  | swap top deeper rest =>
      simp only [Effect.calls_of_stack, Stack.calls_cons]
      omega
  | clear s => simp
  | quote e rest => simp [Entry.calls_enclosed]
  | apply hq =>
      rw [Effect.calls_of_frame, Stack.calls_cons, Entry.calls_of_items? hq]
      omega
  | @dip q saved items rest hq =>
      have hscheduled : Frame.calls d [[.restore saved], Frame.ofEntries items].reverse.flatten =
          Stack.calls d items + saved.value.calls d := by
        simp [Item.entry]
      simp only [Effect.calls, hscheduled, Stack.calls_cons, Entry.calls_of_items? hq]
      omega
  | choose hx hy =>
      -- one of the two branches is dropped
      rw [Effect.calls_of_frame, Stack.calls_cons, Stack.calls_cons, Stack.calls_cons,
        Entry.calls_of_items? hx, Entry.calls_of_items? hy]
      split
      · omega
      · omega
  | define hn hbody =>
      simp only [Effect.calls_of_stack, Stack.calls_cons]
      omega

end Words

end Counting

/-! ## Machines -/

namespace Machine

/-- The number of bound symbols on the stack and in the pending items. -/
def calls (m : Machine) : Nat :=
  Stack.calls m.words m.stack + Frame.calls m.words m.frames.flatten

/-- The number of pending items and of frames. -/
def work (m : Machine) : Nat :=
  m.frames.flatten.length + m.frames.length

/-- No symbol on the stack or in the pending items is bound to an operation that copies. -/
structure Sparing (m : Machine) : Prop where
  stack : Stack.Carries (Value.Sparing m.words) m.stack
  frames : Frame.Carries (Value.Sparing m.words) m.frames.flatten

section Moving

variable {limit : Nat} {m m' : Machine}

/-- A word that is called in a sparing machine does not copy. -/
theorem Sparing.eq_builtin {s : Stack} {d : Dictionary} {marks : Nat} {e : Entry} {items : Frame}
    {rest : List Frame} {name : String} {op : Operation}
    (h : Sparing ⟨s, d, marks, (.node e :: items) :: rest⟩)
    (hnode : Action.ofNode d e.value = .ok (.invoke name op)) :
    ∃ word b, op = .builtin word b ∧ b ≠ .dup ∧ b ≠ .define := by
  obtain ⟨hvalue, hget⟩ := Action.ofNode_eq_invoke_iff.1 hnode
  have hsparing : e.value.Sparing d := (Frame.carries_top.1 h.frames).1
  rw [hvalue] at hsparing
  exact Operation.eq_builtin_of_copies (Value.everyLeaf_symbol.1 hsparing name op rfl hget)

/-- A move keeps a machine sparing. -/
theorem Move.sparing (h : Move limit m m') (hm : m.Sparing) : m'.Sparing := by
  have hP := Value.hereditary_sparing m.words
  cases h with
  | drop => exact ⟨hm.stack, hm.frames⟩
  | restore =>
      obtain ⟨he, hrest⟩ := Frame.carries_top.1 hm.frames
      exact ⟨Stack.carries_cons.2 ⟨he, hm.stack⟩, hrest⟩
  | push hnode =>
      obtain ⟨he, hrest⟩ := Frame.carries_top.1 hm.frames
      exact ⟨Stack.carries_cons.2 ⟨hP.ofNode he hnode, hm.stack⟩, hrest⟩
  | @word s d marks e name op effect items rest hnode hrun =>
      obtain ⟨word, b, rfl, -, hdefine⟩ := hm.eq_builtin hnode
      obtain ⟨-, hrest⟩ := Frame.carries_top.1 hm.frames
      have hdoes : Builtin.Does limit d marks b s effect := Builtin.run_eq_done_iff.1 hrun
      -- the bodies in the dictionary may copy as they like, so it is replaced by another one
      obtain ⟨hwords, hother⟩ := hdoes.with_words hdefine Dictionary.builtins
      obtain ⟨hstack, -, hscheduled⟩ := hother.carries hP hm.stack Dictionary.carries_builtins
      refine ⟨?_, ?_⟩
      · rw [hwords]
        exact hstack
      · rw [hwords]
        exact carries_foldl_addFrame hscheduled hrest

/-- A move of a sparing machine makes its calls less, or else it leaves them as they are and
makes the work less. -/
theorem Move.calls_lt_or_work_lt (h : Move limit m m') (hm : m.Sparing) :
    m'.calls < m.calls ∨ m'.calls = m.calls ∧ m'.work < m.work := by
  cases h with
  | drop => exact Or.inr ⟨rfl, by simp [work]⟩
  | restore =>
      refine Or.inr ⟨?_, by simp [work]⟩
      simp only [calls, Stack.calls_cons, List.flatten_cons, List.cons_append, Frame.calls_cons,
        Item.entry]
      omega
  | push hnode =>
      refine Or.inr ⟨?_, by simp [work]⟩
      simp only [calls, Stack.calls_cons, List.flatten_cons, List.cons_append, Frame.calls_cons,
        Item.entry, Value.calls_of_ofNode hnode]
      omega
  | @word s d marks e name op effect items rest hnode hrun =>
      obtain ⟨word, b, rfl, hdup, hdefine⟩ := hm.eq_builtin hnode
      obtain ⟨hvalue, hget⟩ := Action.ofNode_eq_invoke_iff.1 hnode
      have hdoes : Builtin.Does limit d marks b s effect := Builtin.run_eq_done_iff.1 hrun
      have hle : effect.calls d ≤ Stack.calls d s := hdoes.calls_le hdup
      -- the symbol that called the word is gone
      have hcall : e.value.calls d = 1 := by
        simp [hvalue, Value.calls, Dictionary.contains, hget]
      left
      rw [Effect.calls] at hle
      simp only [calls, (hdoes.with_words hdefine d).1, flatten_foldl_addFrame, List.flatten_cons,
        List.cons_append, Frame.calls_append, Frame.calls_cons, Item.entry, hcall]
      omega

/-- A sparing machine halts. -/
theorem Sparing.exists_halts (limit : Nat) (m : Machine) (hm : m.Sparing) :
    ∃ outcome, Halts limit m outcome := by
  rcases step_cases limit m with ⟨m', -, hmove⟩ | ⟨outcome, -, hstop⟩
  · obtain ⟨outcome, hhalts⟩ := Sparing.exists_halts limit m' (hmove.sparing hm)
    exact ⟨outcome, .of_move hmove hhalts⟩
  · exact ⟨outcome, .of_stop hstop⟩
termination_by (m.calls, m.work)
decreasing_by exact Prod.lex_def.2 (hmove.calls_lt_or_work_lt hm)

end Moving

/-- Nodes are evaluated on a stack. If no symbol in the nodes or on the stack, at any depth, is
bound to a defined word, to `dup` or to `def`, the evaluation halts after a finite number of
steps. -/
theorem exists_halts_of_sparing (limit : Nat) {nodes : List Value} {s : Stack} {d : Dictionary}
    (marks : Nat) (hnodes : ∀ v ∈ nodes, v.Sparing d) (hs : ∀ e ∈ s, e.value.Sparing d) :
    ∃ outcome, Halts limit (start nodes s d marks) outcome := by
  refine Sparing.exists_halts limit _ ⟨hs, ?_⟩
  simpa [start, Frame.ofNodes, Stack.carries_map_plain] using hnodes

/-- A word that calls itself for ever is bound, but not mentioned. What is mentioned encloses
an integer twice, takes it out again under a saved boolean, and chooses. -/
theorem exists_halts_of_sparing_of_enclosing :
    ∃ outcome, Halts 100
      (start [.quotation [.symbol "quote", .symbol "quote", .symbol "apply"], .symbol "dip",
          .symbol "if"]
        [.plain (.boolean true), .plain (.integer 3), .plain (.quotation [.symbol "pop"])]
        (Dictionary.builtins.insert "loop" (.defined "loop" [.symbol "loop"])) 0) outcome := by
  refine exists_halts_of_sparing 100 0 ?_ ?_
  · simp only [List.forall_mem_cons]
    refine ⟨.quotation ?_, Value.sparing_symbol rfl rfl, Value.sparing_symbol rfl rfl,
      List.forall_mem_nil _⟩
    simp only [List.forall_mem_cons]
    exact ⟨Value.sparing_symbol rfl rfl, Value.sparing_symbol rfl rfl,
      Value.sparing_symbol rfl rfl, List.forall_mem_nil _⟩
  · simp only [List.forall_mem_cons]
    refine ⟨.boolean ?_, .integer ?_, .quotation ?_, List.forall_mem_nil _⟩
    · intro name op hname
      cases hname
    · intro name op hname
      cases hname
    · simp only [List.forall_mem_singleton]
      exact Value.sparing_symbol rfl rfl

end Machine

end Catena
