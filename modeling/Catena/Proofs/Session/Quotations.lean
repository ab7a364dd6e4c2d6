import Catena.Proofs.Evaluation.Calls
import Catena.Proofs.Session.Bindings
import Catena.Proofs.Session.Faults
import Catena.Proofs.Session.FreshWord
import Catena.Proofs.Session.Sequence

/-!
# Running a quotation is running its contents

A text can be evaluated as it stands. It can also be put between brackets and applied, be the
branch that a conditional chooses, or be the body of a word that is called. All of these come to
the same (`Session.ends_quoted`).

* Nodes that are data only push a value (`evaluates_cons_of_push`), so what remains of each form is
  one node that calls for the contents, on the stack that was there before. Whatever the contents do
  afterwards, to the stack or to the words that have launched them, they do it from the same session
  (`evaluates_quoted_apply`, `evaluates_quoted_choose`).
* A word is called in a session that binds it, and this is one binding more than the contents would
  find without it. As nothing mentions its name, the two evaluations go on side by side and leave
  sessions that differ in this binding only (`Session.Adds`).

The body of a word is copied before it is evaluated. This is the one step that can fail where the
contents would not: if the body goes too deep for the nesting limit (`Session.ends_word_of_lt`).
-/

set_option autoImplicit false

namespace Catena

/-! ## Reading a text between brackets -/

namespace Program

/-- A text between brackets. -/
def quoted (text : String) : String :=
  "[ " ++ text ++ " ]"

variable {a b : String} {xs ys nodes : List Value}

theorem read_append_space (ha : read a = .ok xs) (hb : read b = .ok ys) :
    read (a ++ " " ++ b) = .ok (xs ++ ys) := by
  have hspace : " ".toList = [' '] := rfl
  exact read_append_blank hspace (by decide) ha hb

/-- A text between brackets is read as one quotation. -/
theorem read_quoted (h : read a = .ok nodes) : read (quoted a) = .ok [.quotation nodes] := by
  obtain ⟨hnodes, hwords⟩ := read_eq_ok_iff.1 h
  have hspace : " ".toList = [' '] := rfl
  have hsplit : quoted a = "[" ++ " " ++ a ++ " " ++ "]" := by
    have hclose : " ]" = " " ++ "]" := rfl
    rw [quoted, hclose, ← String.append_assoc]
    rfl
  refine read_eq_ok_iff.2 ⟨?_, ?_⟩
  · intro v hv
    rw [List.mem_singleton] at hv
    subst hv
    exact .quotation hnodes
  · rw [hsplit, Text.words_append_blank hspace (by decide),
      Text.words_append_blank hspace (by decide), ← hwords, List.flatMap_singleton,
      Value.tokens_quotation]
    rfl

end Program

/-! ## Launching the contents of a quotation -/

section Launching

variable {limit : Nat} {s : Stack} {d : Dictionary} {marks : Nat} {o : Outcome}

/-- A node that is data pushes a value, and the nodes after it are evaluated on that. -/
theorem evaluates_cons_of_push {node v : Value} {es : List Entry}
    (h : Action.ofNode d node = .ok (.push v)) :
    Evaluates limit (.plain node :: es) ⟨s, d, marks⟩ o ↔
      Evaluates limit es ⟨.plain v :: s, d, marks⟩ o := by
  constructor
  · intro he
    -- the machine pushes the value first, and what it halts with has completed the rest
    have hmove : Machine.Move limit ⟨s, d, marks, [Frame.ofEntries (.plain node :: es)]⟩
        ⟨.plain v :: s, d, marks, [Frame.ofEntries es]⟩ := .push h
    have hrest := completes_of_halts ((Machine.halts_iff_of_move hmove).1 (halts_of_evaluates he))
    rw [List.flatten_singleton, completes_ofEntries] at hrest
    exact hrest
  · intro hes
    exact .cons (.push h) rfl hes

theorem evaluates_cons_quotation {items : List Value} {es : List Entry} :
    Evaluates limit (.plain (.quotation items) :: es) ⟨s, d, marks⟩ o ↔
      Evaluates limit es ⟨.plain (.quotation items) :: s, d, marks⟩ o :=
  evaluates_cons_of_push (Action.ofNode_of_isQuotation rfl)

/-- Applying a quotation is evaluating its contents. -/
theorem evaluates_quoted_apply {nodes : List Value} (happly : d.Keeps .apply) :
    Evaluates limit [.plain (.quotation nodes), .plain (.symbol "apply")] ⟨s, d, marks⟩ o ↔
      Evaluates limit (nodes.map .plain) ⟨s, d, marks⟩ o := by
  obtain ⟨name, hget⟩ := happly
  have hcall : Calls limit (.plain (.symbol "apply")) ⟨.plain (.quotation nodes) :: s, d, marks⟩
      (nodes.map .plain) ⟨s, d, marks⟩ [] :=
    .apply (Action.ofNode_of_get? hget) rfl
  rw [evaluates_cons_quotation, hcall.evaluates_iff_of_nil]

/-- A conditional on a number is evaluating the contents of the quotation it chooses: of the lower
one if the number is zero, and of the upper one otherwise. -/
theorem evaluates_quoted_choose {lower upper : List Value} {numeral : String} {n : Int}
    (hchoose : d.Keeps .choose)
    (hn : Action.ofNode d (.symbol numeral) = .ok (.push (.integer n))) :
    Evaluates limit [.plain (.quotation lower), .plain (.quotation upper),
        .plain (.symbol numeral), .plain (.symbol "if")] ⟨s, d, marks⟩ o ↔
      Evaluates limit ((if n = 0 then lower else upper).map .plain) ⟨s, d, marks⟩ o := by
  obtain ⟨name, hget⟩ := hchoose
  have hcall : Calls limit (.plain (.symbol "if"))
      ⟨.plain (.integer n) :: .plain (.quotation upper) :: .plain (.quotation lower) :: s, d, marks⟩
      (if (Value.integer n).countsAsTrue then upper.map .plain else lower.map .plain)
      ⟨s, d, marks⟩ [] :=
    .choose (Action.ofNode_of_get? hget) rfl rfl
  have hchosen : (if (Value.integer n).countsAsTrue then upper.map Entry.plain
      else lower.map .plain) = (if n = 0 then lower else upper).map .plain := by
    by_cases hzero : n = 0
    · simp [Value.countsAsTrue, hzero]
    · simp [Value.countsAsTrue, hzero]
  -- the quotations and the number are pushed, and the call takes them off again
  rw [evaluates_cons_quotation, evaluates_cons_quotation, evaluates_cons_of_push hn,
    hcall.evaluates_iff_of_nil, hchosen]

/-- Calling a word is evaluating its body, unless the body goes too deep to be copied. -/
theorem evaluates_word {name word : String} {body : List Value}
    (hget : d.get? name = some (.defined word body))
    (hcopy : 2 * (Value.quotation body).depth ≤ limit) :
    Evaluates limit [.plain (.symbol name)] ⟨s, d, marks⟩ o ↔
      Evaluates limit (body.map .plain) ⟨s, d, marks⟩ o := by
  have hcall : Calls limit (.plain (.symbol name)) ⟨s, d, marks⟩ (body.map .plain) ⟨s, d, marks⟩
      [] :=
    .defined (Action.ofNode_of_get? hget) (decide_eq_true hcopy)
  exact hcall.evaluates_iff_of_nil

end Launching

/-! ## With one binding more -/

namespace Machine

variable {limit : Nat} {m : Machine} {name : String} {added : Operation} {d : Dictionary}

/-- A machine that halts does so with one more binding, and the outcomes agree in everything but
this binding. -/
theorem Halts.adds {o : Outcome} (h : Halts limit m o) (hm : m.Carries fun v => ¬ v.Exposes name)
    (hadds : m.words.Adds name added d) :
    ∃ o', Halts limit { m with words := d } o' ∧ o.Adds name added o' := by
  obtain ⟨fuel, hrun⟩ := h
  -- the same number of steps suffices
  have hrel : Option.Rel (Outcome.Adds name added) (m.run limit fuel)
      (run limit fuel { m with words := d }) := run_adds hm hadds fuel
  rw [hrun] at hrel
  generalize hrun' : run limit fuel { m with words := d } = result at hrel
  cases hrel with
  | some ho => exact ⟨_, ⟨fuel, hrun'⟩, ho⟩

/-- A machine that halts with one more binding halts without it. -/
theorem Halts.of_adds {o' : Outcome} (h : Halts limit { m with words := d } o')
    (hm : m.Carries fun v => ¬ v.Exposes name) (hadds : m.words.Adds name added d) :
    ∃ o, Halts limit m o ∧ o.Adds name added o' := by
  obtain ⟨fuel, hrun⟩ := h
  have hrel : Option.Rel (Outcome.Adds name added) (m.run limit fuel)
      (run limit fuel { m with words := d }) := run_adds hm hadds fuel
  rw [hrun] at hrel
  generalize hrun' : run limit fuel m = result at hrel
  cases hrel with
  | some ho => exact ⟨_, ⟨fuel, hrun'⟩, ho⟩

end Machine

/-! ## Sessions -/

namespace Session

open Program (quoted read_append_space read_quoted)

/-- Two sessions agree in everything but one more binding. -/
structure Adds (name : String) (op : Operation) (s s' : Session) : Prop where
  stack : s'.stack = s.stack
  marks : s'.marks = s.marks
  words : s.words.Adds name op s'.words

/-- The session in which a word is bound to a body. -/
def withWord (s : Session) (name : String) (body : List Value) : Session :=
  { s with words := s.words.insert name (.defined name body) }

section Texts

variable {nesting : Nat} {s s' : Session} {failure : Option Failure} {p : String}
  {nodes : List Value}

/-- Texts with the same meaning end alike. -/
theorem ends_congr {a b : String} {xs ys : List Value} (ha : Program.read a = .ok xs)
    (hb : Program.read b = .ok ys)
    (h : ∀ o, Evaluates nesting (xs.map .plain) s o ↔ Evaluates nesting (ys.map .plain) s o) :
    s.Ends nesting a s' failure ↔ s.Ends nesting b s' failure := by
  rw [ends_iff_evaluates ha, ends_iff_evaluates hb]
  exact exists_congr fun o => and_congr_left fun _ => h o

theorem ends_quoted_apply (hread : Program.read p = .ok nodes) (happly : s.words.Keeps .apply) :
    s.Ends nesting (quoted p ++ " apply") s' failure ↔ s.Ends nesting p s' failure := by
  have htext : Program.read (quoted p ++ " apply") =
      .ok [.quotation nodes, .symbol "apply"] := by
    have hsplit : quoted p ++ " apply" = quoted p ++ " " ++ "apply" := by
      rw [String.append_assoc]
      rfl
    rw [hsplit]
    exact read_append_space (read_quoted hread) rfl
  exact ends_congr htext hread fun o => evaluates_quoted_apply happly

theorem ends_quoted_if_one (hread : Program.read p = .ok nodes) (hif : s.words.Keeps .choose)
    (hone : s.words.get? "1" = none) :
    s.Ends nesting ("[ ] " ++ quoted p ++ " 1 if") s' failure ↔ s.Ends nesting p s' failure := by
  have htext : Program.read ("[ ] " ++ quoted p ++ " 1 if") =
      .ok [.quotation [], .quotation nodes, .symbol "1", .symbol "if"] := by
    have hsplit : "[ ] " ++ quoted p ++ " 1 if" = "[ ]" ++ " " ++ quoted p ++ " " ++ "1 if" := by
      have hafter : " 1 if" = " " ++ "1 if" := rfl
      rw [hafter, ← String.append_assoc]
      rfl
    have hempty : Program.read "[ ]" = .ok [.quotation []] := rfl
    rw [hsplit]
    exact read_append_space (read_append_space hempty (read_quoted hread)) rfl
  have hn : Action.ofNode s.words (.symbol "1") = .ok (.push (.integer 1)) :=
    Action.ofNode_eq_push_iff.2 (Or.inr ⟨"1", 1, rfl, hone, rfl, rfl, rfl⟩)
  exact ends_congr htext hread fun o => evaluates_quoted_choose hif hn

theorem ends_quoted_if_zero (hread : Program.read p = .ok nodes) (hif : s.words.Keeps .choose)
    (hzero : s.words.get? "0" = none) :
    s.Ends nesting (quoted p ++ " [ ] 0 if") s' failure ↔ s.Ends nesting p s' failure := by
  have htext : Program.read (quoted p ++ " [ ] 0 if") =
      .ok [.quotation nodes, .quotation [], .symbol "0", .symbol "if"] := by
    have hsplit : quoted p ++ " [ ] 0 if" = quoted p ++ " " ++ "[ ] 0 if" := by
      rw [String.append_assoc]
      rfl
    rw [hsplit]
    exact read_append_space (read_quoted hread) rfl
  have hn : Action.ofNode s.words (.symbol "0") = .ok (.push (.integer 0)) :=
    Action.ofNode_eq_push_iff.2 (Or.inr ⟨"0", 0, rfl, hzero, rfl, rfl, rfl⟩)
  exact ends_congr htext hread fun o => evaluates_quoted_choose hif hn

end Texts

section Words

variable {nesting : Nat} {s s' t' : Session} {failure : Option Failure} {p w : String}
  {nodes : List Value}

theorem adds_of_outcome {name : String} {op : Operation} {o o' : Outcome}
    (h : o.Adds name op o') : o.session.Adds name op o'.session :=
  ⟨h.stack, h.marks, h.words⟩

/-- A word ends as its body does, in the session that binds the word. -/
theorem ends_word_iff (hw : Text.IsToken w) (hcopy : 2 * (Value.quotation nodes).depth ≤ nesting) :
    (s.withWord w nodes).Ends nesting w t' failure ↔
      ∃ o, Machine.Halts nesting
          (Machine.start nodes s.stack (s.words.insert w (.defined w nodes)) s.marks) o ∧
        o.session = t' ∧ o.failure.map Failure.surface = failure := by
  rw [ends_iff_evaluates (Program.read_of_isToken hw)]
  refine exists_congr fun o => and_congr_left fun _ => ?_
  have hget : (s.words.insert w (.defined w nodes)).get? w = some (.defined w nodes) :=
    Dictionary.get?_insert_self _ _ _
  exact (evaluates_word hget hcopy).trans ⟨halts_of_evaluates, evaluates_of_halts⟩

/-- A word that is bound to the nodes of a text, under a name that nothing mentions, ends as the
text does without it, and the sessions that are left differ in the binding of the word only. -/
theorem ends_word (hread : Program.read p = .ok nodes) (hw : Text.IsToken w)
    (hfree : s.words.get? w = none) (hnodes : ∀ v ∈ nodes, ¬ v.Exposes w)
    (hs : s.Carries fun v => ¬ v.Exposes w)
    (hcopy : 2 * (Value.quotation nodes).depth ≤ nesting) :
    (∀ s' failure, s.Ends nesting p s' failure →
      ∃ t', (s.withWord w nodes).Ends nesting w t' failure ∧ s'.Adds w (.defined w nodes) t') ∧
    ∀ t' failure, (s.withWord w nodes).Ends nesting w t' failure →
      ∃ s', s.Ends nesting p s' failure ∧ s'.Adds w (.defined w nodes) t' := by
  -- the machine that evaluates the body differs from that of the text in one binding
  have hm := Machine.carries_start hnodes hs
  have hadds : s.words.Adds w (.defined w nodes) (s.words.insert w (.defined w nodes)) :=
    Dictionary.adds_insert hfree
  refine ⟨?_, ?_⟩
  · intro s' failure hends
    obtain ⟨o, hhalts, rfl, rfl⟩ := (ends_iff_halts hread).1 hends
    obtain ⟨o', hhalts', ho⟩ := hhalts.adds hm hadds
    refine ⟨o'.session, (ends_word_iff hw hcopy).2 ⟨o', hhalts', rfl, ?_⟩, adds_of_outcome ho⟩
    rw [ho.failure]
  · intro t' failure hends
    obtain ⟨o', hhalts', rfl, rfl⟩ := (ends_word_iff hw hcopy).1 hends
    obtain ⟨o, hhalts, ho⟩ := hhalts'.of_adds hm hadds
    refine ⟨o.session, (ends_iff_halts hread).2 ⟨o, hhalts, rfl, ?_⟩, adds_of_outcome ho⟩
    rw [ho.failure]

/-- A word whose body goes too deep to be copied fails before anything is evaluated. -/
theorem ends_word_of_lt (hw : Text.IsToken w)
    (hdeep : nesting < 2 * (Value.quotation nodes).depth) :
    (s.withWord w nodes).Ends nesting w (s.withWord w nodes) (some (.error .tooDeep)) := by
  have hexhausts : Exhausts nesting (s.withWord w nodes).words s.stack
      (Entry.plain (.symbol w)).value s.stack :=
    .defined (Dictionary.get?_insert_self _ _ _) hdeep
  rw [ends_iff_evaluates (Program.read_of_isToken hw)]
  exact ⟨_, .stop (.fail (Machine.fails_of_exhausts hexhausts)) (Option.some_ne_none _), rfl, rfl⟩

end Words

/-- Running a quotation is running its contents. In a session where `apply` and `if` are the
built-in words and the numerals `0` and `1` are not bound, a text that can be read ends as it does
between brackets and applied, and as it does as the branch that a conditional chooses: with the same
session and the same failure or none, or not at all.

It also ends as a word that was bound to its nodes before, under a name that is not bound and that
is exposed by no node of the text, by no entry of the stack and by no body of a word. The sessions
then differ in the binding of the word only. The one exception is a body that goes too deep to be
copied: the word then fails at the nesting limit. -/
theorem ends_quoted {nesting : Nat} {s : Session} {p w : String} {nodes : List Value}
    (hread : Program.read p = .ok nodes) (happly : s.words.Keeps .apply)
    (hif : s.words.Keeps .choose) (hzero : s.words.get? "0" = none)
    (hone : s.words.get? "1" = none) (hw : Text.IsToken w) (hfree : s.words.get? w = none)
    (hnodes : ∀ v ∈ nodes, ¬ v.Exposes w) (hs : s.Carries fun v => ¬ v.Exposes w) :
    (∀ text ∈ [quoted p ++ " apply", "[ ] " ++ quoted p ++ " 1 if", quoted p ++ " [ ] 0 if"],
      ∀ s' failure, s.Ends nesting text s' failure ↔ s.Ends nesting p s' failure) ∧
    (2 * (Value.quotation nodes).depth ≤ nesting →
      (∀ s' failure, s.Ends nesting p s' failure →
        ∃ t', (s.withWord w nodes).Ends nesting w t' failure ∧ s'.Adds w (.defined w nodes) t') ∧
      ∀ t' failure, (s.withWord w nodes).Ends nesting w t' failure →
        ∃ s', s.Ends nesting p s' failure ∧ s'.Adds w (.defined w nodes) t') ∧
    (nesting < 2 * (Value.quotation nodes).depth →
      (s.withWord w nodes).Ends nesting w (s.withWord w nodes) (some (.error .tooDeep))) := by
  refine ⟨?_, ends_word hread hw hfree hnodes hs, ends_word_of_lt hw⟩
  intro text htext s' failure
  simp only [List.mem_cons, List.not_mem_nil, or_false] at htext
  rcases htext with rfl | rfl | rfl
  · exact ends_quoted_apply hread happly
  · exact ends_quoted_if_one hread hif hone
  · exact ends_quoted_if_zero hread hif hzero

/-- A text that takes the meaning of `apply` away and then fails does so when it is applied itself,
and when it is called as a word. -/
theorem ends_quoted_of_redefinition :
    ∃ s t, fresh.Ends 100 (quoted "[ pop ] [ apply ] def 1 0 /" ++ " apply") s
        (some (.error (.divisionByZero 1))) ∧
      (fresh.withWord "w" [.quotation [.symbol "pop"], .quotation [.symbol "apply"],
        .symbol "def", .symbol "1", .symbol "0", .symbol "/"]).Ends 100 "w" t
        (some (.error (.divisionByZero 1))) ∧
      s.stack = [.plain (.integer 0), .plain (.integer 1)] ∧ t.stack = s.stack := by
  have heval : fresh.eval ⟨100, 20, 100⟩ "[ pop ] [ apply ] def 1 0 /" =
      some ⟨⟨[.plain (.integer 0), .plain (.integer 1)],
        Dictionary.builtins.insert "apply" (.defined "apply" [.symbol "pop"]), 0⟩,
        some (.error (.divisionByZero 1)), []⟩ := by
    decide +kernel
  have hread : Program.read "[ pop ] [ apply ] def 1 0 /" =
      .ok [.quotation [.symbol "pop"], .quotation [.symbol "apply"], .symbol "def", .symbol "1",
        .symbol "0", .symbol "/"] := rfl
  obtain ⟨hforms, hword, -⟩ := @ends_quoted 100 fresh _ "w" _ hread ⟨"apply", rfl⟩ ⟨"if", rfl⟩ rfl
    rfl (by decide) rfl (by simp) carries_fresh
  have hends : fresh.Ends 100 "[ pop ] [ apply ] def 1 0 /" _ _ := ⟨20, 100, [], heval⟩
  obtain ⟨t, hcalled, hsame⟩ := (hword (by decide)).1 _ _ hends
  exact ⟨_, t, (hforms _ List.mem_cons_self _ _).2 hends, hcalled, rfl, hsame.stack⟩

end Session

end Catena
