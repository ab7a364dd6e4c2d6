import Catena.Proofs.Machine.Run

/-!
# The frames of a machine

The main loop takes items off the top frame and drops it when it is used up, and words add frames
while a step is under way. Between the two, the frames keep a shape (`Frames.Shaped`): only the top
frame can be used up, and an entry that waits to be put back waits in a frame of its own. Adding a
frame keeps the shape (`Frames.Shaped.addFrame`), hence so do one move and a whole run
(`Machine.Move.shaped`, `Machine.Reaches.shaped`).

The shape is what makes a call in last place free. The frame of the caller is used up then and no
other frame is, so the frame of the callee takes its place (`Machine.Move.length_of_callsLast`).

How many frames an evaluation needs is a statement about all machines that it comes to
(`Machine.StaysWithin`). As a machine moves in one way only, it is established backwards, move by
move, from the machine that stops.
-/

set_option autoImplicit false

namespace Catena

/-- A frame in which an entry waits to be put back holds nothing else. -/
def Frame.Sole (frame : Frame) : Prop :=
  ∀ e, Item.restore e ∈ frame → frame = [.restore e]

namespace Frame

theorem sole_nil : Sole [] := by
  intro e he
  cases he

theorem sole_restore (e : Entry) : Sole [.restore e] := by
  intro other hother
  rw [List.mem_singleton.1 hother]

theorem sole_ofEntries (entries : List Entry) : Sole (ofEntries entries) := by
  intro e he
  obtain ⟨node, -, hnode⟩ := List.mem_map.1 he
  cases hnode

variable {e : Entry} {items : Frame}

/-- Behind an entry that is put back there is nothing. -/
theorem Sole.eq_nil (h : Sole (.restore e :: items)) : items = [] := by
  have hframe := h e List.mem_cons_self
  exact (List.cons.inj hframe).2

/-- Behind a node there are nodes only. -/
theorem Sole.tail (h : Sole (.node e :: items)) : Sole items := by
  intro other hother
  cases h other (List.mem_cons_of_mem _ hother)

end Frame

/-! ## The shape -/

/-- The shape that frames have in the course of an evaluation. -/
structure Frames.Shaped (frames : List Frame) : Prop where
  /-- No frame below the top one is used up. -/
  below : ∀ frame ∈ frames.tail, frame ≠ []
  /-- An entry that waits to be put back has a frame of its own. -/
  sole : ∀ frame ∈ frames, frame.Sole

namespace Frames

variable {top : Frame} {rest frames scheduled : List Frame}

theorem shaped_cons_iff :
    Shaped (top :: rest) ↔ top.Sole ∧ ∀ frame ∈ rest, frame ≠ [] ∧ frame.Sole := by
  constructor
  · rintro ⟨hbelow, hsole⟩
    rw [List.forall_mem_cons] at hsole
    exact ⟨hsole.1, fun frame hframe => ⟨hbelow frame hframe, hsole.2 frame hframe⟩⟩
  · rintro ⟨htop, hrest⟩
    refine ⟨fun frame hframe => (hrest frame hframe).1, ?_⟩
    rw [List.forall_mem_cons]
    exact ⟨htop, fun frame hframe => (hrest frame hframe).2⟩

/-- When the top frame is used up, it is dropped and no other frame is. -/
theorem Shaped.dropWhile_isEmpty (h : Shaped ([] :: rest)) :
    ([] :: rest).dropWhile List.isEmpty = rest := by
  obtain ⟨-, hrest⟩ := shaped_cons_iff.1 h
  cases rest with
  | nil => rfl
  | cons frame rest =>
      have hframe : frame ≠ [] := (hrest frame List.mem_cons_self).1
      simp [hframe]

/-- The frames that are not dropped all have work. -/
theorem Shaped.forall_mem_dropWhile (h : Shaped frames) :
    ∀ frame ∈ frames.dropWhile List.isEmpty, frame ≠ [] ∧ Frame.Sole frame := by
  cases frames with
  | nil =>
      intro frame hframe
      cases hframe
  | cons top rest =>
      obtain ⟨htop, hrest⟩ := shaped_cons_iff.1 h
      cases top with
      | nil =>
          rw [h.dropWhile_isEmpty]
          exact hrest
      | cons item items =>
          change ∀ frame ∈ (item :: items) :: rest, _
          rw [List.forall_mem_cons]
          exact ⟨⟨List.cons_ne_nil _ _, htop⟩, hrest⟩

/-- Adding a frame keeps the shape, whether or not the top frame is used up. -/
theorem Shaped.addFrame (h : Shaped frames) (htop : top.Sole) : Shaped (addFrame frames top) :=
  shaped_cons_iff.2 ⟨htop, h.forall_mem_dropWhile⟩

/-- Adding frames one after the other keeps the shape. -/
theorem Shaped.foldl_addFrame (h : Shaped frames) (hscheduled : ∀ frame ∈ scheduled, frame.Sole) :
    Shaped (scheduled.foldl Catena.addFrame frames) := by
  induction scheduled generalizing frames with
  | nil => exact h
  | cons frame scheduled ih =>
      obtain ⟨hframe, hothers⟩ := List.forall_mem_cons.1 hscheduled
      exact ih (h.addFrame hframe) hothers

/-- A frame that is added when the top frame is used up takes its place. -/
theorem Shaped.addFrame_nil (h : Shaped ([] :: rest)) (frame : Frame) :
    Catena.addFrame ([] :: rest) frame = frame :: rest := by
  rw [Catena.addFrame, h.dropWhile_isEmpty]

end Frames

/-! ## Words -/

/-- The frames that a word schedules hold nodes, or one entry to put back. -/
theorem Operation.Does.sole {limit : Nat} {d : Dictionary} {marks : Nat} {op : Operation}
    {s : Stack} {effect : Effect} (h : Operation.Does limit d marks op s effect) :
    ∀ frame ∈ effect.scheduled, frame.Sole := by
  cases h with
  | defined s hcopy =>
      rw [List.forall_mem_singleton]
      exact Frame.sole_ofEntries _
  | builtin hdoes =>
      cases hdoes with
      | apply _ | choose _ _ =>
          rw [List.forall_mem_singleton]
          exact Frame.sole_ofEntries _
      | dip _ =>
          rw [List.forall_mem_cons, List.forall_mem_singleton]
          exact ⟨Frame.sole_restore _, Frame.sole_ofEntries _⟩
      | arithmetic | equal | truth | dupQuotation | dupOther | pop | swap | clear | quote
      | define => exact List.forall_mem_nil _

/-- The operations that have one sequence of nodes evaluated and are done with that. -/
inductive Operation.HandsOver : Operation → Prop
  | apply (name : String) : HandsOver (.builtin name .apply)
  | choose (name : String) : HandsOver (.builtin name .choose)
  | defined (name : String) (body : List Value) : HandsOver (.defined name body)

theorem Operation.HandsOver.scheduled {limit : Nat} {d : Dictionary} {marks : Nat}
    {op : Operation} {s : Stack} {effect : Effect} (h : op.HandsOver)
    (hdoes : Operation.Does limit d marks op s effect) : ∃ frame, effect.scheduled = [frame] := by
  cases h with
  | apply _ =>
      cases hdoes with
      | builtin hdoes =>
          cases hdoes with
          | apply _ => exact ⟨_, rfl⟩
  | choose _ =>
      cases hdoes with
      | builtin hdoes =>
          cases hdoes with
          | choose _ _ => exact ⟨_, rfl⟩
  | defined _ _ =>
      cases hdoes with
      | defined _ _ => exact ⟨_, rfl⟩

/-! ## Runs -/

namespace Machine

variable {limit height : Nat} {m m' : Machine}

/-- One move keeps the shape of the frames. -/
theorem Move.shaped (h : Move limit m m') (hm : Frames.Shaped m.frames) :
    Frames.Shaped m'.frames := by
  cases h with
  | drop =>
      obtain ⟨-, hrest⟩ := Frames.shaped_cons_iff.1 hm
      refine ⟨fun frame hframe => ?_, fun frame hframe => (hrest frame hframe).2⟩
      exact (hrest frame (List.mem_of_mem_tail hframe)).1
  | restore =>
      rw [Frames.shaped_cons_iff] at hm ⊢
      obtain ⟨htop, hrest⟩ := hm
      rw [htop.eq_nil]
      exact ⟨Frame.sole_nil, hrest⟩
  | push _ =>
      rw [Frames.shaped_cons_iff] at hm ⊢
      exact ⟨hm.1.tail, hm.2⟩
  | word _ hrun =>
      -- the node is off its frame before the word adds frames of its own
      obtain ⟨htop, hrest⟩ := Frames.shaped_cons_iff.1 hm
      have hconsumed := Frames.shaped_cons_iff.2 ⟨htop.tail, hrest⟩
      exact hconsumed.foldl_addFrame (Operation.run_eq_done_iff.1 hrun).sole

/-- A whole run keeps the shape of the frames. -/
theorem Reaches.shaped (h : Reaches limit m m') (hm : Frames.Shaped m.frames) :
    Frames.Shaped m'.frames := by
  induction h with
  | refl => exact hm
  | tail _ hmove ih => exact hmove.shaped ih

theorem shaped_start (nodes : List Value) (s : Stack) (d : Dictionary) (marks : Nat) :
    Frames.Shaped (start nodes s d marks).frames :=
  Frames.shaped_cons_iff.2 ⟨Frame.sole_ofEntries _, List.forall_mem_nil _⟩

/-- The next step of a machine makes a call with the last node of a frame. -/
def CallsLast (m : Machine) : Prop :=
  ∃ e rest name op, m.frames = [.node e] :: rest ∧
    Action.ofNode m.words e.value = .ok (.invoke name op) ∧ op.HandsOver

/-- A call in last place needs no frame. -/
theorem Move.length_of_callsLast (h : Move limit m m') (hm : Frames.Shaped m.frames)
    (hcalls : m.CallsLast) : m'.frames.length = m.frames.length := by
  obtain ⟨e, rest, name, op, hframes, hnode, hop⟩ := hcalls
  cases h with
  | drop | restore => cases hframes
  | push hpush =>
      cases hframes
      rw [hnode] at hpush
      cases hpush
  | word hword hrun =>
      cases hframes
      rw [hnode] at hword
      cases hword
      obtain ⟨frame, hscheduled⟩ := hop.scheduled (Operation.run_eq_done_iff.1 hrun)
      obtain ⟨htop, hrest⟩ := Frames.shaped_cons_iff.1 hm
      have hconsumed := Frames.shaped_cons_iff.2 ⟨htop.tail, hrest⟩
      simp only [hscheduled, List.foldl_cons, List.foldl_nil]
      rw [hconsumed.addFrame_nil]
      rfl

/-! ## Height -/

/-- From a machine on, an evaluation never holds more than so many frames. -/
def StaysWithin (limit height : Nat) (m : Machine) : Prop :=
  ∀ m', Reaches limit m m' → m'.frames.length ≤ height

/-- A machine moves in one way only. -/
theorem Move.unique {m'' : Machine} (h : Move limit m m') (h' : Move limit m m'') : m' = m'' := by
  have hstep := step_of_move h
  rw [step_of_move h'] at hstep
  cases hstep
  rfl

theorem StaysWithin.of_move (h : StaysWithin limit height m') (hmove : Move limit m m')
    (hm : m.frames.length ≤ height) : StaysWithin limit height m := by
  intro last hreach
  rcases hreach.cases_head with rfl | ⟨next, hnext, hrest⟩
  · exact hm
  · rw [hnext.unique hmove] at hrest
    exact h last hrest

theorem staysWithin_of_stop {o : Outcome} (hstop : Stop limit m o)
    (hm : m.frames.length ≤ height) : StaysWithin limit height m := by
  intro last hreach
  rcases hreach.cases_head with rfl | ⟨next, hnext, -⟩
  · exact hm
  · have hstep := step_of_stop hstop
    rw [step_of_move hnext] at hstep
    cases hstep

end Machine

end Catena
