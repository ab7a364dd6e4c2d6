import Catena.Proofs.Session

/-!
# What words cannot break

Words make integers and booleans, enclose values in quotations and take quotations
apart. They make no symbols and no mappings, and they look into neither. So a
property of values that integers and booleans have, and that a quotation has exactly
when its items have it, survives every evaluation. Such a property is called
hereditary here.

`Carries` says that all values in reach have a property: those on the stack, those
in the bodies of defined words and those in pending work. A single move keeps this
(`Machine.Move.carries`), so a run does (`Machine.Halts.carries`), however it ends,
and so does every sequence of calls on a session whose texts are read as nodes with
the property (`Session.Reachable.carries`).
-/

set_option autoImplicit false

namespace Catena

/-- A property of values that does not depend on the numbers and the truth values in
them, and that quotations hand on to their items and take from them. -/
structure Value.Hereditary (P : Value → Prop) : Prop where
  integer : ∀ n, P (.integer n)
  boolean : ∀ b, P (.boolean b)
  quotation : ∀ items, P (.quotation items) ↔ ∀ v ∈ items, P v

/-! ## All values of a state -/

/-- All entries of a list hold values with a property. -/
def Stack.Carries (P : Value → Prop) (entries : List Entry) : Prop :=
  ∀ e ∈ entries, P e.value

/-- The body of an operation, if it has one, is made of values with a property. -/
def Operation.Carries (P : Value → Prop) : Operation → Prop
  | .builtin _ _ => True
  | .defined _ body => ∀ v ∈ body, P v

/-- The bodies of all words bound are made of values with a property. -/
def Dictionary.Carries (P : Value → Prop) (d : Dictionary) : Prop :=
  ∀ binding ∈ d.bindings, binding.2.Carries P

/-- The entry that an item evaluates or puts back. -/
def Item.entry : Item → Entry
  | .node e => e
  | .restore e => e

/-- All items of a list hold values with a property. -/
def Frame.Carries (P : Value → Prop) (items : List Item) : Prop :=
  ∀ item ∈ items, P item.entry.value

/-- All values that a word has left or scheduled have a property. -/
structure Effect.Carries (P : Value → Prop) (effect : Effect) : Prop where
  stack : Stack.Carries P effect.stack
  words : effect.words.Carries P
  scheduled : ∀ frame ∈ effect.scheduled, Frame.Carries P frame

/-- All values of a machine have a property. -/
structure Machine.Carries (P : Value → Prop) (m : Machine) : Prop where
  stack : Stack.Carries P m.stack
  words : m.words.Carries P
  frames : Frame.Carries P m.frames.flatten

/-- All values of a session have a property. -/
structure Session.Carries (P : Value → Prop) (s : Session) : Prop where
  stack : Stack.Carries P s.stack
  words : s.words.Carries P

section Carrying

variable {P : Value → Prop}

namespace Stack

@[simp] theorem carries_nil : Stack.Carries P [] :=
  List.forall_mem_nil _

@[simp] theorem carries_cons {e : Entry} {s : Stack} :
    Stack.Carries P (e :: s) ↔ P e.value ∧ Stack.Carries P s :=
  List.forall_mem_cons

theorem carries_append {s t : List Entry} :
    Stack.Carries P (s ++ t) ↔ Stack.Carries P s ∧ Stack.Carries P t :=
  List.forall_mem_append

theorem carries_map_plain {vs : List Value} :
    Stack.Carries P (vs.map .plain) ↔ ∀ v ∈ vs, P v :=
  List.forall_mem_map

end Stack

namespace Frame

theorem carries_append {xs ys : List Item} :
    Frame.Carries P (xs ++ ys) ↔ Frame.Carries P xs ∧ Frame.Carries P ys :=
  List.forall_mem_append

@[simp] theorem carries_nil : Frame.Carries P [] :=
  List.forall_mem_nil _

@[simp] theorem carries_cons {item : Item} {items : List Item} :
    Frame.Carries P (item :: items) ↔ P item.entry.value ∧ Frame.Carries P items :=
  List.forall_mem_cons

@[simp] theorem carries_ofEntries {entries : List Entry} :
    Frame.Carries P (Frame.ofEntries entries) ↔ Stack.Carries P entries :=
  List.forall_mem_map

theorem carries_flatten {frames : List Frame} :
    Frame.Carries P frames.flatten ↔ ∀ frame ∈ frames, Frame.Carries P frame := by
  constructor
  · intro h frame hframe item hitem
    exact h item (List.mem_flatten.2 ⟨frame, hframe, hitem⟩)
  · intro h item hitem
    obtain ⟨frame, hframe, hitem⟩ := List.mem_flatten.1 hitem
    exact h frame hframe item hitem

/-- The first item of the top frame, and all the others. -/
theorem carries_top {item : Item} {items : Frame} {rest : List Frame} :
    Frame.Carries P (List.flatten ((item :: items) :: rest)) ↔
      P item.entry.value ∧ Frame.Carries P (List.flatten (items :: rest)) :=
  List.forall_mem_cons

/-- What frames hold back are values of theirs. -/
theorem Carries.savedEntries {frames : List Frame} (h : Frame.Carries P frames.flatten) :
    Stack.Carries P (savedEntries frames) := by
  intro e he
  rw [savedEntries_eq, Item.savedOf, List.mem_filterMap] at he
  obtain ⟨item, hitem, hsaved⟩ := he
  cases item with
  | node _ => cases hsaved
  | restore _ =>
      cases hsaved
      exact h _ hitem

end Frame

namespace Dictionary

theorem Carries.insert {d : Dictionary} {op : Operation} (h : d.Carries P) (name : String)
    (hop : op.Carries P) : (d.insert name op).Carries P := by
  obtain ⟨bindings⟩ := d
  change ∀ binding ∈ put name op bindings, binding.2.Carries P
  induction bindings with
  | nil => simpa [put] using hop
  | cons binding rest ih =>
      obtain ⟨bound, old⟩ := binding
      obtain ⟨hold, hrest⟩ := List.forall_mem_cons.1 h
      -- the operation takes the place of an older one, or comes later
      unfold put
      split
      · exact List.forall_mem_cons.2 ⟨hop, hrest⟩
      · exact List.forall_mem_cons.2 ⟨hold, ih hrest⟩

theorem Carries.get? {d : Dictionary} {name : String} {op : Operation} (h : d.Carries P)
    (hget : d.get? name = some op) : op.Carries P := by
  obtain ⟨bindings⟩ := d
  change find? name bindings = some op at hget
  induction bindings with
  | nil => cases hget
  | cons binding rest ih =>
      obtain ⟨bound, old⟩ := binding
      obtain ⟨hold, hrest⟩ := List.forall_mem_cons.1 h
      unfold find? at hget
      split at hget
      · cases hget
        exact hold
      · exact ih hrest hget

/-- The built-in words have no bodies. -/
theorem carries_builtins : Dictionary.builtins.Carries P := by
  have hfold : ∀ (bs : List Builtin) (d : Dictionary), d.Carries P →
      (bs.foldl (fun d b => d.insert b.word (.builtin b.word b)) d).Carries P := by
    intro bs
    induction bs with
    | nil => exact fun d hd => hd
    | cons b bs ih => exact fun d hd => ih _ (hd.insert b.word trivial)
  exact hfold Builtin.all empty (List.forall_mem_nil _)

end Dictionary

/-! ## Words -/

namespace Value.Hereditary

theorem items {e : Entry} {es : List Entry} (hP : Value.Hereditary P) (he : P e.value)
    (hitems : e.items? = some es) : Stack.Carries P es := by
  obtain ⟨v, mark⟩ := e
  cases v with
  | quotation vs =>
      cases hitems
      exact List.forall_mem_map.2 ((hP.quotation vs).1 he)
  | integer _ | boolean _ | symbol _ | emptyMapping | mapping _ _ => cases hitems

theorem compute {op : Arithmetic} {a b : Int} {v : Value} (hP : Value.Hereditary P)
    (hv : op.compute b a = .ok v) : P v := by
  cases op
  case plus | minus | times =>
    cases hv
    exact hP.integer _
  case less | greater | atMost | atLeast =>
    cases hv
    exact hP.boolean _
  -- division is left, the only one that can fail
  simp only [Arithmetic.compute] at hv
  split at hv
  · cases hv
  · cases hv
    exact hP.integer _

/-- What a node that is data puts on the stack is the node or an integer. -/
theorem ofNode {d : Dictionary} {v w : Value} (hP : Value.Hereditary P) (hv : P v)
    (hnode : Action.ofNode d v = .ok (.push w)) : P w := by
  rcases Action.ofNode_eq_push_iff.1 hnode with ⟨rfl, -⟩ | ⟨name, n, -, -, -, -, rfl⟩
  · exact hv
  · exact hP.integer n

end Value.Hereditary

section Words

variable {limit : Nat} {s : Stack} {d : Dictionary} {marks : Nat} {effect : Effect}

/-- A word that schedules nothing and leaves the dictionary alone is judged by its
stack. -/
theorem Effect.carries_of_stack {t : Stack} (ht : Stack.Carries P t) (hd : d.Carries P) :
    Effect.Carries P ⟨t, d, marks, []⟩ :=
  ⟨ht, hd, List.forall_mem_nil _⟩

theorem Builtin.Does.carries {b : Builtin} (h : Builtin.Does limit d marks b s effect)
    (hP : Value.Hereditary P) (hs : Stack.Carries P s) (hd : d.Carries P) :
    effect.Carries P := by
  cases h with
  | arithmetic _ _ hv =>
      simp only [Stack.carries_cons] at hs
      exact Effect.carries_of_stack (Stack.carries_cons.2 ⟨hP.compute hv, hs.2.2⟩) hd
  | equal _ =>
      simp only [Stack.carries_cons] at hs
      exact Effect.carries_of_stack (Stack.carries_cons.2 ⟨hP.boolean _, hs.2.2⟩) hd
  | truth t _ => exact Effect.carries_of_stack (Stack.carries_cons.2 ⟨hP.boolean t, hs⟩) hd
  | dupQuotation _ _ =>
      simp only [Stack.carries_cons] at hs
      exact Effect.carries_of_stack (by simpa [Entry.plain] using hs) hd
  | dupOther _ =>
      simp only [Stack.carries_cons] at hs
      exact Effect.carries_of_stack (by simpa using hs) hd
  | pop _ _ => exact Effect.carries_of_stack (Stack.carries_cons.1 hs).2 hd
  | swap top deeper rest =>
      simp only [Stack.carries_cons] at hs
      obtain ⟨htop, hdeeper, hrest⟩ := hs
      exact Effect.carries_of_stack (by simpa using ⟨hdeeper, htop, hrest⟩) hd
  | clear _ => exact Effect.carries_of_stack Stack.carries_nil hd
  | quote e rest =>
      obtain ⟨he, hrest⟩ := Stack.carries_cons.1 hs
      have henclosed : P e.enclosed.value := (hP.quotation _).2 (by simpa using he)
      exact Effect.carries_of_stack (Stack.carries_cons.2 ⟨henclosed, hrest⟩) hd
  | apply hq =>
      obtain ⟨hquot, hrest⟩ := Stack.carries_cons.1 hs
      exact ⟨hrest, hd, by simpa using hP.items hquot hq⟩
  | dip hq =>
      simp only [Stack.carries_cons] at hs
      obtain ⟨hquot, hsaved, hrest⟩ := hs
      -- the saved entry waits in a frame of its own, under the quotation's items
      refine ⟨hrest, hd, ?_⟩
      simpa [Item.entry, hsaved] using hP.items hquot hq
  | choose hx hy =>
      simp only [Stack.carries_cons] at hs
      obtain ⟨-, hfirst, hsecond, hrest⟩ := hs
      refine ⟨hrest, hd, ?_⟩
      simp only [List.mem_singleton, forall_eq, Frame.carries_ofEntries]
      split
      · exact hP.items hfirst hx
      · exact hP.items hsecond hy
  | define _ hb =>
      simp only [Stack.carries_cons] at hs
      obtain ⟨-, hbody, hrest⟩ := hs
      -- the name leaves the stack as a key, which is no value any more
      exact ⟨hrest, hd.insert _ (List.forall_mem_map.2 (hP.items hbody hb)), List.forall_mem_nil _⟩

theorem Operation.Does.carries {op : Operation} (h : Operation.Does limit d marks op s effect)
    (hP : Value.Hereditary P) (hs : Stack.Carries P s) (hd : d.Carries P) (hop : op.Carries P) :
    effect.Carries P := by
  cases h with
  | builtin h => exact h.carries hP hs hd
  | @defined name body _ _ =>
      have hbody : ∀ v ∈ body, P v := hop
      refine ⟨hs, hd, ?_⟩
      simpa [Frame.ofNodes, Stack.carries_map_plain] using hbody

end Words

/-! ## Runs -/

namespace Machine

variable {limit : Nat} {m m' : Machine}

/-- A word's frames and those that were pending carry what the word's effect and the
pending ones carry. -/
theorem carries_foldl_addFrame {scheduled frames : List Frame}
    (hscheduled : ∀ frame ∈ scheduled, Frame.Carries P frame)
    (hframes : Frame.Carries P frames.flatten) :
    Frame.Carries P (scheduled.foldl addFrame frames).flatten := by
  rw [flatten_foldl_addFrame, Frame.carries_append]
  refine ⟨Frame.carries_flatten.2 fun frame hframe => ?_, hframes⟩
  exact hscheduled frame (List.mem_reverse.1 hframe)

/-- One move keeps what all values have. -/
theorem Move.carries (h : Move limit m m') (hP : Value.Hereditary P) (hm : m.Carries P) :
    m'.Carries P := by
  obtain ⟨hstack, hwords, hframes⟩ := hm
  cases h with
  | drop => exact ⟨hstack, hwords, hframes⟩
  | restore =>
      obtain ⟨he, hrest⟩ := Frame.carries_top.1 hframes
      exact ⟨Stack.carries_cons.2 ⟨he, hstack⟩, hwords, hrest⟩
  | push hnode =>
      obtain ⟨he, hrest⟩ := Frame.carries_top.1 hframes
      exact ⟨Stack.carries_cons.2 ⟨hP.ofNode he hnode, hstack⟩, hwords, hrest⟩
  | @word s d marks e name op effect items rest hnode hrun =>
      obtain ⟨-, hrest⟩ := Frame.carries_top.1 hframes
      have hop : op.Carries P := hwords.get? (Action.ofNode_eq_invoke_iff.1 hnode).2
      obtain ⟨hstack', hwords', hscheduled⟩ :=
        (Operation.run_eq_done_iff.1 hrun).carries hP hstack hwords hop
      exact ⟨hstack', hwords', carries_foldl_addFrame hscheduled hrest⟩

/-- A node that fails leaves nothing on the stack that was not there. -/
theorem Fails.carries {e : Entry} {s left : Stack} {d : Dictionary} {marks : Nat}
    {failure : Failure} (h : Fails limit e s d marks failure left) (hs : Stack.Carries P s) :
    Stack.Carries P left := by
  cases h with
  | unreadable _ => exact hs
  | word _ hrun =>
      rcases Operation.left_of_run_failed hrun with rfl | ⟨-, top, rfl⟩
      · exact hs
      · exact (Stack.carries_cons.1 hs).2

/-- The end of an evaluation keeps what all values have, whether it succeeds, fails
and puts entries back, or faults. -/
theorem Stop.carries {outcome : Outcome} (h : Stop limit m outcome) (hm : m.Carries P) :
    outcome.session.Carries P := by
  obtain ⟨hstack, hwords, hframes⟩ := hm
  cases h with
  | finished => exact ⟨hstack, hwords⟩
  | @failed s left d marks e failure items rest hfails =>
      have hleft : Stack.Carries P left := hfails.carries hstack
      obtain ⟨-, hrest⟩ := Frame.carries_top.1 hframes
      cases failure with
      | fault _ => exact ⟨hleft, hwords⟩
      | error _ =>
          -- what returns to the stack has been waiting in the frames
          have hsaved : Stack.Carries P (savedEntries (items :: rest)) :=
            Frame.Carries.savedEntries hrest
          refine ⟨?_, hwords⟩
          change Stack.Carries P (Stack.pushAll left (savedEntries (items :: rest)))
          rw [Stack.pushAll_eq, Stack.carries_append]
          exact ⟨fun x hx => hsaved x (List.mem_reverse.1 hx), hleft⟩

/-- A whole evaluation keeps what all values have. -/
theorem Halts.carries {outcome : Outcome} (h : Halts limit m outcome)
    (hP : Value.Hereditary P) (hm : m.Carries P) : outcome.session.Carries P := by
  revert hm
  refine Halts.induct (motive := fun m => m.Carries P → outcome.session.Carries P) ?_ ?_ h
  · intro m hstop hm
    exact hstop.carries hm
  · intro m m' hmove ih hm
    exact ih (hmove.carries hP hm)

/-- So does every machine that an evaluation comes to. -/
theorem carries_of_reaches (h : Reaches limit m m') (hP : Value.Hereditary P)
    (hm : m.Carries P) : m'.Carries P := by
  induction h with
  | refl => exact hm
  | tail _ hmove ih => exact hmove.carries hP ih

/-- The machine that is to evaluate nodes in a session has the values of both. -/
theorem carries_start {nodes : List Value} {s : Session} (hnodes : ∀ v ∈ nodes, P v)
    (hs : s.Carries P) : (start nodes s.stack s.words s.marks).Carries P := by
  refine ⟨hs.stack, hs.words, ?_⟩
  simpa [start, Frame.ofNodes, Stack.carries_map_plain] using hnodes

end Machine

/-! ## Sessions -/

namespace Session

theorem carries_fresh : Session.fresh.Carries P :=
  ⟨Stack.carries_nil, Dictionary.carries_builtins⟩

/-- Evaluating a text keeps what all values have, if its nodes have it. -/
theorem carries_of_eval {bounds : Bounds} {s : Session} {text : String}
    {evaluation : Evaluation} (hP : Value.Hereditary P)
    (hread : ∀ nodes, Program.read text = .ok nodes → ∀ v ∈ nodes, P v) (hs : s.Carries P)
    (h : s.eval bounds text = some evaluation) : evaluation.session.Carries P := by
  rcases eval_cases h with ⟨failure, -, hsame, -⟩ | ⟨nodes, o, hok, hhalts, hses, -⟩
  · rw [hsame]
    exact hs
  · rw [hses]
    exact hhalts.carries hP (Machine.carries_start (hread nodes hok) hs)

/-- What all values have that reading produces, all values of a reachable session
have. -/
theorem Reachable.carries {s : Session} (h : Reachable s) (hP : Value.Hereditary P)
    (hread : ∀ text nodes, Program.read text = .ok nodes → ∀ v ∈ nodes, P v) :
    s.Carries P := by
  refine h.preserves carries_fresh ?_ ?_
  · intro s bounds text evaluation hs heval
    exact carries_of_eval hP (hread text) hs heval
  · intro s hs
    exact ⟨Stack.carries_nil, hs.words⟩

end Session

end Carrying

end Catena
