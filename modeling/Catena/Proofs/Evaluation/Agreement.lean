import Catena.Proofs.Evaluation

/-!
# The machine computes the recursive meaning

The machine halts with an outcome exactly when the recursive meaning of its nodes
is that outcome (`run_start_eq_some_iff_evaluates`). The two directions go through
different intermediate relations.

* From the machine: `Completes` gives the items that are pending a recursive
  meaning, one item at a time. The meaning of two lists of items in a row is made
  of the meanings of the lists (`completes_append`), so the frames that a word
  schedules can be split off from those below. Every evaluation that halts has
  completed its items (`completes_of_halts`).
* To the machine: a sequence of nodes that succeeds takes the machine past these
  nodes, whatever is pending after them (`Evaluates.reaches`). One that fails does
  so at one node; `FailsInside` says which one and which entries the calls around
  it have saved, and the machine reaches that node with these entries in its
  frames (`FailsInside.reaches`).
-/

set_option autoImplicit false

namespace Catena

/-- The machine that works on a session, with the frames it has to do. -/
abbrev Session.machine (σ : Session) (frames : List Frame) : Machine :=
  ⟨σ.stack, σ.words, σ.marks, frames⟩

/-! ## Calls and the frames they schedule -/

section Calling

variable {limit : Nat} {e : Entry} {σ σ' : Session} {items saved : List Entry}

/-- A word that schedules frames calls for the evaluation of the nodes in them,
with what it saved behind these. -/
theorem calls_of_run {name : String} {op : Operation} {effect : Effect}
    (hnode : Action.ofNode σ.words e.value = .ok (.invoke name op))
    (hrun : op.run limit σ.stack σ.words σ.marks = .done effect) :
    effect.scheduled = [] ∨ ∃ items saved,
      Calls limit e σ items ⟨effect.stack, effect.words, effect.marks⟩ saved ∧
        effect.scheduled.reverse.flatten = Frame.ofEntries items ++ saved.map .restore := by
  obtain ⟨s, d, marks⟩ := σ
  -- a defined word and three of the built-in words schedule work, the others none
  cases Operation.run_eq_done_iff.1 hrun with
  | defined s hc => exact Or.inr ⟨_, [], .defined hnode hc, by simp [Frame.ofNodes]⟩
  | builtin hdoes =>
      cases hdoes with
      | apply hq => exact Or.inr ⟨_, [], .apply hnode hq, by simp⟩
      | choose hx hy => exact Or.inr ⟨_, [], .choose hnode hx hy, by simp⟩
      | dip hq => exact Or.inr ⟨_, _, .dip hnode hq, by simp⟩
      | arithmetic | equal | truth | dupQuotation | dupOther | pop | swap | clear | quote
      | define => exact Or.inl rfl

/-- A call is a word that succeeds and schedules the nodes called for, with what it
saved behind these. -/
theorem Calls.run (h : Calls limit e σ items σ' saved) :
    ∃ name op effect, Action.ofNode σ.words e.value = .ok (.invoke name op) ∧
      op.run limit σ.stack σ.words σ.marks = .done effect ∧
      σ' = ⟨effect.stack, effect.words, effect.marks⟩ ∧
      effect.scheduled.reverse.flatten = Frame.ofEntries items ++ saved.map .restore := by
  cases h with
  | apply hnode hq =>
      exact ⟨_, _, _, hnode, Operation.run_eq_done_iff.2 (.builtin (.apply hq)), rfl, by simp⟩
  | choose hnode hx hy =>
      exact ⟨_, _, _, hnode, Operation.run_eq_done_iff.2 (.builtin (.choose hx hy)), rfl, by simp⟩
  | defined hnode hc =>
      exact ⟨_, _, _, hnode, Operation.run_eq_done_iff.2 (.defined _ hc), rfl,
        by simp [Frame.ofNodes]⟩
  | dip hnode hq =>
      exact ⟨_, _, _, hnode, Operation.run_eq_done_iff.2 (.builtin (.dip hq)), rfl, by simp⟩

/-- The move of a machine that makes a call. -/
theorem Calls.move (h : Calls limit e σ items σ' saved) (frame : Frame) (rest : List Frame) :
    ∃ frames, frames.flatten =
        Frame.ofEntries items ++ (saved.map .restore ++ (frame ++ rest.flatten)) ∧
      Machine.Move limit (σ.machine ((.node e :: frame) :: rest)) (σ'.machine frames) := by
  obtain ⟨name, op, effect, hnode, hrun, rfl, hsched⟩ := h.run
  refine ⟨effect.scheduled.foldl addFrame (frame :: rest), ?_, .word hnode hrun⟩
  rw [flatten_foldl_addFrame, hsched, List.append_assoc, List.flatten_cons]

end Calling

/-! ## From the machine to the recursive meaning -/

/-- A list of pending items comes to an outcome. When a node fails, the entries of
the items after it are put back. -/
def Completes (limit : Nat) : List Item → Session → Outcome → Prop
  | [], σ, o => o = ⟨none, σ.stack, σ.words, σ.marks⟩
  | .restore e :: items, σ, o => Completes limit items ⟨e :: σ.stack, σ.words, σ.marks⟩ o
  | .node e :: items, σ, o =>
      ∃ first, EvaluatesNode limit e σ first ∧
        match first.failure with
        | none => Completes limit items first.session o
        | some _ => o = first.putBack (Item.savedOf items)

/-- After a first outcome, pending items lead to the outcome `o`: they are
completed if there was no failure, and dropped otherwise. -/
def Resumes (limit : Nat) (items : List Item) (first o : Outcome) : Prop :=
  match first.failure with
  | none => Completes limit items first.session o
  | some _ => o = first.putBack (Item.savedOf items)

section Completing

variable {limit : Nat} {items : List Item} {first o : Outcome}

theorem resumes_of_none (h : first.failure = none) :
    Resumes limit items first o ↔ Completes limit items first.session o := by
  simp only [Resumes, h]

theorem resumes_of_ne_none (h : first.failure ≠ none) :
    Resumes limit items first o ↔ o = first.putBack (Item.savedOf items) := by
  cases hf : first.failure with
  | none => exact absurd hf h
  | some failure => simp only [Resumes, hf]

theorem completes_node {e : Entry} {σ : Session} :
    Completes limit (.node e :: items) σ o ↔
      ∃ first, EvaluatesNode limit e σ first ∧ Resumes limit items first o :=
  Iff.rfl

/-- Two lists of items in a row are completed one after the other. -/
theorem completes_append (xs ys : List Item) (σ : Session) :
    Completes limit (xs ++ ys) σ o ↔
      ∃ first, Completes limit xs σ first ∧ Resumes limit ys first o := by
  induction xs generalizing σ with
  | nil =>
      constructor
      · intro h
        exact ⟨⟨none, σ.stack, σ.words, σ.marks⟩, rfl, h⟩
      · rintro ⟨first, rfl, h⟩
        exact h
  | cons item xs ih =>
      cases item with
      | restore e => exact ih ⟨e :: σ.stack, σ.words, σ.marks⟩
      | node e =>
          rw [List.cons_append, completes_node]
          constructor
          · rintro ⟨middle, hnode, h⟩
            by_cases hm : middle.failure = none
            · rw [resumes_of_none hm, ih] at h
              obtain ⟨first, hx, hy⟩ := h
              exact ⟨first, ⟨middle, hnode, (resumes_of_none hm).2 hx⟩, hy⟩
            · -- a failure drops both lists: what they hold back returns list by list
              rw [resumes_of_ne_none hm, Item.savedOf_append, ← Outcome.putBack_putBack] at h
              refine ⟨middle.putBack (Item.savedOf xs),
                ⟨middle, hnode, (resumes_of_ne_none hm).2 rfl⟩, ?_⟩
              rw [resumes_of_ne_none (by simpa using hm)]
              exact h
          · rintro ⟨first, ⟨middle, hnode, hx⟩, hy⟩
            refine ⟨middle, hnode, ?_⟩
            by_cases hm : middle.failure = none
            · change Resumes limit xs middle first at hx
              rw [resumes_of_none hm] at hx
              rw [resumes_of_none hm, ih]
              exact ⟨first, hx, hy⟩
            · change Resumes limit xs middle first at hx
              rw [resumes_of_ne_none hm] at hx
              subst hx
              rw [resumes_of_ne_none (by simpa using hm), Outcome.putBack_putBack] at hy
              rw [resumes_of_ne_none hm, Item.savedOf_append]
              exact hy

/-- Items that are all nodes are completed by evaluating the nodes. -/
theorem completes_ofEntries (es : List Entry) (σ : Session) :
    Completes limit (Frame.ofEntries es) σ o ↔ Evaluates limit es σ o := by
  induction es generalizing σ with
  | nil =>
      constructor
      · rintro rfl
        exact .nil σ
      · intro h
        cases h
        rfl
  | cons e es ih =>
      change Completes limit (.node e :: Frame.ofEntries es) σ o ↔ _
      rw [completes_node]
      constructor
      · rintro ⟨first, hnode, h⟩
        by_cases hf : first.failure = none
        · rw [resumes_of_none hf, ih] at h
          exact .cons hnode hf h
        · -- nodes hold nothing back, so the failure is the outcome as it is
          rw [resumes_of_ne_none hf, Item.savedOf_ofEntries, Outcome.putBack_nil] at h
          subst h
          exact .stop hnode hf
      · intro h
        cases h with
        | cons hnode hf hes => exact ⟨_, hnode, (resumes_of_none hf).2 ((ih _).2 hes)⟩
        | stop hnode hf =>
            refine ⟨_, hnode, (resumes_of_ne_none hf).2 ?_⟩
            rw [Item.savedOf_ofEntries, Outcome.putBack_nil]

/-- Items that all put entries back are completed by pushing the entries. -/
theorem completes_restores (saved : List Entry) (σ : Session) :
    Completes limit (saved.map .restore) σ o ↔
      o = ⟨none, σ.stack.pushAll saved, σ.words, σ.marks⟩ := by
  induction saved generalizing σ with
  | nil => exact Iff.rfl
  | cons e saved ih => exact ih ⟨e :: σ.stack, σ.words, σ.marks⟩

theorem savedOf_restores (saved : List Entry) : Item.savedOf (saved.map .restore) = saved := by
  induction saved with
  | nil => rfl
  | cons e saved ih => rw [List.map_cons, Item.savedOf_restore, ih]

/-- The items that a call schedules are completed by evaluating the nodes called
for and putting back what was saved. -/
theorem completes_call (es saved : List Entry) (σ : Session) :
    Completes limit (Frame.ofEntries es ++ saved.map .restore) σ o ↔
      ∃ first, Evaluates limit es σ first ∧ o = first.putBack saved := by
  rw [completes_append]
  refine exists_congr fun first => and_congr (completes_ofEntries es σ) ?_
  by_cases hf : first.failure = none
  · rw [resumes_of_none hf, completes_restores]
    simp only [Outcome.putBack, hf]
    exact Iff.rfl
  · rw [resumes_of_ne_none hf, savedOf_restores]

/-- A word that succeeds means what the frames it schedules come to. -/
theorem evaluatesNode_of_completes {e : Entry} {σ : Session} {name : String} {op : Operation}
    {effect : Effect} (hnode : Action.ofNode σ.words e.value = .ok (.invoke name op))
    (hrun : op.run limit σ.stack σ.words σ.marks = .done effect)
    (h : Completes limit effect.scheduled.reverse.flatten
      ⟨effect.stack, effect.words, effect.marks⟩ o) : EvaluatesNode limit e σ o := by
  rcases calls_of_run hnode hrun with hs | ⟨es, saved, hcall, hsched⟩
  · rw [hs] at h
    have ho : o = ⟨none, effect.stack, effect.words, effect.marks⟩ := h
    subst ho
    exact .word hnode hrun hs
  · rw [hsched, completes_call] at h
    obtain ⟨first, hes, rfl⟩ := h
    exact .call hcall hes

end Completing

/-- A machine that halts completes its items. -/
theorem completes_of_halts {limit : Nat} {m : Machine} {o : Outcome}
    (h : Machine.Halts limit m o) :
    Completes limit m.frames.flatten ⟨m.stack, m.words, m.marks⟩ o := by
  refine Machine.Halts.induct
    (motive := fun m => Completes limit m.frames.flatten ⟨m.stack, m.words, m.marks⟩ o) ?_ ?_ h
  · intro m hstop
    cases hstop with
    | finished => rfl
    | failed hfails =>
        refine ⟨_, .fail hfails, ?_⟩
        rw [Machine.fail_eq_putBack, savedEntries_eq]
        rfl
  · intro m m' hmove ih
    cases hmove with
    | drop => exact ih
    | restore => exact ih
    | push hnode => exact ⟨_, .push hnode, ih⟩
    | word hnode hrun =>
        -- the items scheduled by the word come first; the rest resumes after them
        rw [flatten_foldl_addFrame, completes_append] at ih
        obtain ⟨first, hsched, hrest⟩ := ih
        exact ⟨first, evaluatesNode_of_completes hnode hrun hsched, hrest⟩

/-! ## From the recursive meaning to the machine -/

section Reaching

variable {limit : Nat}

open Machine (Reaches Move Stop Fails Halts)

/-- The machine drops empty frames until the next item is on top. -/
theorem reaches_top (limit : Nat) (σ : Session) {item : Item} {items : List Item} :
    ∀ frames : List Frame, frames.flatten = item :: items →
      ∃ frame rest, items = frame ++ rest.flatten ∧
        Reaches limit (σ.machine frames) (σ.machine ((item :: frame) :: rest))
  | [], h => by cases h
  | [] :: frames, h => by
      obtain ⟨frame, rest, hitems, hreach⟩ := reaches_top limit σ frames h
      exact ⟨frame, rest, hitems, hreach.head .drop⟩
  | (top :: frame) :: frames, h => by
      rw [List.flatten_cons, List.cons_append, List.cons.injEq] at h
      obtain ⟨rfl, rfl⟩ := h
      exact ⟨frame, frames, rfl, .refl⟩

/-- Without items, the machine drops all its frames. -/
theorem reaches_end (limit : Nat) (σ : Session) :
    ∀ frames : List Frame, frames.flatten = [] →
      Reaches limit (σ.machine frames) (σ.machine [])
  | [], _ => .refl
  | [] :: frames, h => (reaches_end limit σ frames h).head .drop
  | (item :: frame) :: frames, h => by cases h

/-- The machine puts back the entries of the items on top. -/
theorem reaches_restores (limit : Nat) (saved : List Entry) (rest : List Item) (σ : Session)
    (frames : List Frame) (hframes : frames.flatten = saved.map .restore ++ rest) :
    ∃ frames', frames'.flatten = rest ∧ Reaches limit (σ.machine frames)
      (Session.machine ⟨σ.stack.pushAll saved, σ.words, σ.marks⟩ frames') := by
  induction saved generalizing σ frames with
  | nil => exact ⟨frames, hframes, .refl⟩
  | cons e saved ih =>
      obtain ⟨frame, below, hitems, htop⟩ := reaches_top limit σ frames hframes
      obtain ⟨frames', hrest, hreach⟩ :=
        ih ⟨e :: σ.stack, σ.words, σ.marks⟩ (frame :: below) hitems.symm
      exact ⟨frames', hrest, htop.trans (hreach.head .restore)⟩

mutual
/-- Nodes whose evaluation succeeds take the machine past them, whatever is
pending after them. -/
theorem Evaluates.reaches : ∀ {es : List Entry} {σ : Session} {o : Outcome},
    Evaluates limit es σ o → o.failure = none → ∀ {frames : List Frame} {rest : List Item},
      frames.flatten = Frame.ofEntries es ++ rest →
        ∃ frames', frames'.flatten = rest ∧
          Reaches limit (σ.machine frames) (o.session.machine frames')
  | _, _, _, .nil σ, _, frames, rest, hframes => ⟨frames, hframes, .refl⟩
  | _, _, _, .cons hnode hfirst hes, hlast, frames, rest, hframes => by
      obtain ⟨frame, below, hitems, htop⟩ := reaches_top limit _ frames hframes
      -- whatever frames the first node leaves, the items in them are those after it
      obtain ⟨frames₁, hframes₁, hreach₁⟩ := hnode.reaches hfirst frame below
      obtain ⟨frames₂, hframes₂, hreach₂⟩ := hes.reaches hlast (hframes₁.trans hitems.symm)
      exact ⟨frames₂, hframes₂, htop.trans (hreach₁.trans hreach₂)⟩
  | _, _, _, .stop _ hne, hnone, _, _, _ => absurd hnone hne
/-- A node whose evaluation succeeds takes the machine past it. -/
theorem EvaluatesNode.reaches : ∀ {e : Entry} {σ : Session} {o : Outcome},
    EvaluatesNode limit e σ o → o.failure = none → ∀ (frame : Frame) (rest : List Frame),
      ∃ frames', frames'.flatten = frame ++ rest.flatten ∧
        Reaches limit (σ.machine ((.node e :: frame) :: rest)) (o.session.machine frames')
  | _, _, _, .push hnode, _, frame, rest => ⟨frame :: rest, rfl, .single (.push hnode)⟩
  | _, _, _, .word hnode hrun hs, _, frame, rest => by
      refine ⟨frame :: rest, rfl, .single ?_⟩
      have hmove := @Move.word limit _ _ _ _ _ _ _ frame rest hnode hrun
      rw [hs] at hmove
      exact hmove
  | _, _, _, .fail _, hnone, _, _ => by cases hnone
  | _, _, _, @EvaluatesNode.call _ _ _ _ _ saved o hcall hes, hnone, frame, rest => by
      rw [Outcome.putBack_failure] at hnone
      -- the call itself, then the nodes it calls for, then the entries it saved
      obtain ⟨frames₁, hframes₁, hmove⟩ := hcall.move frame rest
      obtain ⟨frames₂, hframes₂, hreach₂⟩ := hes.reaches hnone hframes₁
      obtain ⟨frames₃, hframes₃, hreach₃⟩ := reaches_restores limit saved _ _ frames₂ hframes₂
      refine ⟨frames₃, hframes₃, (hreach₂.head hmove).trans ?_⟩
      have hback : (o.putBack saved).session = ⟨o.stack.pushAll saved, o.words, o.marks⟩ := by
        simp only [Outcome.putBack, hnone, Outcome.session]
      rw [hback]
      exact hreach₃
end

mutual
/-- Nodes whose evaluation fails do so at one place. What the calls around it saved
is put back on what the failing node left. -/
theorem Evaluates.failsInside : ∀ {es : List Entry} {σ : Session} {o : Outcome},
    Evaluates limit es σ o → o.failure ≠ none →
      ∃ bad τ saved failure left, FailsInside limit es σ bad τ saved ∧
        Fails limit bad τ.stack τ.words τ.marks failure left ∧
        o = Outcome.putBack saved ⟨some failure, left, τ.words, τ.marks⟩
  | _, _, _, .nil σ, hne => absurd rfl hne
  | _, _, _, .cons hnode hfirst hes, hne => by
      obtain ⟨bad, τ, saved, failure, left, hinside, hfails, ho⟩ := hes.failsInside hne
      exact ⟨bad, τ, saved, failure, left, .later hnode hfirst hinside, hfails, ho⟩
  | _, _, _, .stop hnode hne, _ => hnode.failsInside hne _
/-- A node whose evaluation fails does so at one place. -/
theorem EvaluatesNode.failsInside : ∀ {e : Entry} {σ : Session} {o : Outcome},
    EvaluatesNode limit e σ o → o.failure ≠ none → ∀ es : List Entry,
      ∃ bad τ saved failure left, FailsInside limit (e :: es) σ bad τ saved ∧
        Fails limit bad τ.stack τ.words τ.marks failure left ∧
        o = Outcome.putBack saved ⟨some failure, left, τ.words, τ.marks⟩
  | _, _, _, .push _, hne, _ => absurd rfl hne
  | _, _, _, .word _ _ _, hne, _ => absurd rfl hne
  | e, σ, _, @EvaluatesNode.fail _ _ _ failure left hfails, _, _ =>
      ⟨e, σ, [], failure, left, .here hfails, hfails, (Outcome.putBack_nil _).symm⟩
  | _, _, _, @EvaluatesNode.call _ _ _ _ _ own o hcall hes, hne, _ => by
      rw [Outcome.putBack_failure] at hne
      obtain ⟨bad, τ, saved, failure, left, hinside, hfails, ho⟩ := hes.failsInside hne
      refine ⟨bad, τ, saved ++ own, failure, left, .call hcall hinside, hfails, ?_⟩
      rw [ho, Outcome.putBack_putBack]
end

/-- The machine reaches the node that fails, and its frames then hold what the
calls around the node saved, in front of what they held before. -/
theorem FailsInside.reaches {es saved : List Entry} {σ τ : Session} {bad : Entry}
    (h : FailsInside limit es σ bad τ saved) {frames : List Frame} {rest : List Item}
    (hframes : frames.flatten = Frame.ofEntries es ++ rest) :
    ∃ frame below, Reaches limit (σ.machine frames) (τ.machine ((.node bad :: frame) :: below)) ∧
      savedEntries (frame :: below) = saved ++ Item.savedOf rest := by
  -- along the way to the failing node, for all frames that begin with the nodes at hand
  induction h generalizing frames rest with
  | @here e es σ failure left hfails =>
      obtain ⟨frame, below, hitems, htop⟩ := reaches_top limit σ frames hframes
      refine ⟨frame, below, htop, ?_⟩
      rw [savedEntries_eq, List.flatten_cons, ← hitems]
      change Item.savedOf (Frame.ofEntries es ++ rest) = _
      rw [Item.savedOf_append, Item.savedOf_ofEntries]
  | later hnode hfirst _ ih =>
      obtain ⟨frame, below, hitems, htop⟩ := reaches_top limit _ frames hframes
      obtain ⟨frames₁, hframes₁, hreach₁⟩ := hnode.reaches hfirst frame below
      obtain ⟨frame', below', hreach₂, hsaved⟩ := ih (hframes₁.trans hitems.symm)
      exact ⟨frame', below', htop.trans (hreach₁.trans hreach₂), hsaved⟩
  | @call e bad es items saved own σ σ' τ hcall _ ih =>
      obtain ⟨frame, below, hitems, htop⟩ := reaches_top limit _ frames hframes
      obtain ⟨frames₁, hframes₁, hmove⟩ := hcall.move frame below
      obtain ⟨frame', below', hreach, hsaved⟩ := ih hframes₁
      refine ⟨frame', below', htop.trans (hreach.head hmove), ?_⟩
      -- behind the nodes called for lie the entries saved by the call itself
      have hrest : frame ++ below.flatten = Frame.ofEntries es ++ rest := hitems.symm
      rw [hsaved, Item.savedOf_append, savedOf_restores, hrest, Item.savedOf_append,
        Item.savedOf_ofEntries, List.nil_append, List.append_assoc]

end Reaching

/-! ## Agreement -/

/-- A machine that starts with nodes and halts has the outcome that they have
recursively. -/
theorem evaluates_of_halts {limit : Nat} {nodes : List Value} {s : Stack} {d : Dictionary}
    {marks : Nat} {o : Outcome} (h : Machine.Halts limit (Machine.start nodes s d marks) o) :
    Evaluates limit (nodes.map .plain) ⟨s, d, marks⟩ o := by
  have hitems := completes_of_halts h
  have hframes : (Machine.start nodes s d marks).frames.flatten =
      Frame.ofEntries (nodes.map .plain) := by
    simp [Machine.start, Frame.ofNodes]
  rw [hframes] at hitems
  exact (completes_ofEntries _ _).1 hitems

/-- The machine that evaluates nodes stops with the outcome that they have
recursively. -/
theorem halts_of_evaluates {limit : Nat} {es : List Entry} {σ : Session} {o : Outcome}
    (h : Evaluates limit es σ o) : Machine.Halts limit (σ.machine [Frame.ofEntries es]) o := by
  have hframes : [Frame.ofEntries es].flatten = Frame.ofEntries es ++ [] := by simp
  rw [Machine.halts_iff]
  by_cases ho : o.failure = none
  · -- nothing is pending after the nodes, so the machine finishes there
    obtain ⟨frames, hempty, hreach⟩ := h.reaches ho hframes
    refine ⟨o.session.machine [], hreach.trans (reaches_end limit o.session frames hempty), ?_⟩
    have hfinal : o = ⟨none, o.stack, o.words, o.marks⟩ := by rw [← ho]
    rw [hfinal]
    exact .finished
  · -- the machine stops at the node that fails and puts back what its frames hold
    obtain ⟨bad, τ, saved, failure, left, hinside, hfails, rfl⟩ := h.failsInside ho
    obtain ⟨frame, below, hreach, hsaved⟩ := hinside.reaches hframes
    rw [Item.savedOf_nil, List.append_nil] at hsaved
    have hstop := @Machine.Stop.failed limit _ _ _ _ _ _ frame below hfails
    rw [Machine.fail_eq_putBack, hsaved] at hstop
    exact ⟨_, hreach, hstop⟩

/-- A machine that starts with nodes and fails has come to a node that fails. Its frames
then hold what the calls around that node have saved. -/
theorem Machine.Halts.failsInside {limit : Nat} {nodes : List Value} {s : Stack}
    {d : Dictionary} {marks : Nat} {o : Outcome}
    (h : Machine.Halts limit (Machine.start nodes s d marks) o) (hne : o.failure ≠ none) :
    ∃ bad τ items below failure left,
      Machine.Reaches limit (Machine.start nodes s d marks)
        (Session.machine τ ((.node bad :: items) :: below)) ∧
      Machine.Fails limit bad τ.stack τ.words τ.marks failure left ∧
      FailsInside limit (nodes.map .plain) ⟨s, d, marks⟩ bad τ (savedEntries (items :: below)) ∧
      o = Machine.fail ⟨left, τ.words, τ.marks, items :: below⟩ failure := by
  obtain ⟨bad, τ, saved, failure, left, hinside, hfails, rfl⟩ :=
    (evaluates_of_halts h).failsInside hne
  have hframes : [Frame.ofNodes nodes].flatten = Frame.ofEntries (nodes.map .plain) ++ [] := by
    simp [Frame.ofNodes]
  obtain ⟨items, below, hreach, hsaved⟩ := hinside.reaches hframes
  rw [Item.savedOf_nil, List.append_nil] at hsaved
  refine ⟨bad, τ, items, below, failure, left, hreach, hfails, ?_, ?_⟩
  · rw [hsaved]
    exact hinside
  · rw [Machine.fail_eq_putBack, hsaved]

/-- The machine, set to evaluate nodes on a stack and a dictionary, halts with an
outcome exactly when the nodes have that outcome recursively: the same failure or
none, and the same stack and dictionary at the end. -/
theorem run_start_eq_some_iff_evaluates (limit : Nat) (nodes : List Value) (s : Stack)
    (d : Dictionary) (marks : Nat) (o : Outcome) :
    (∃ fuel, (Machine.start nodes s d marks).run limit fuel = some o) ↔
      Evaluates limit (nodes.map .plain) ⟨s, d, marks⟩ o :=
  ⟨evaluates_of_halts, halts_of_evaluates⟩

end Catena
