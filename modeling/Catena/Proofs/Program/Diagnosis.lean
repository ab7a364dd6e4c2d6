import Catena.Proofs.Program.Grammar
import Mathlib.Data.List.Induction

/-!
# What is wrong with a program

A token list that is cut off somewhere inside of groups is written by a `Draft`: the nodes at
top level, and for each group that is still open its bracket and the nodes in it so far. A
token list has one draft at most (`Draft.Writes.unique`), and a beginning of a token list that
has a draft has one as well (`Drafted.of_concat`).

So there is one way for reading to fail on a token list (`parse_error_iff_draft`). If the list
has a draft with an open group, the innermost open group is reported as unterminated.
Otherwise there is exactly one token at which the list ceases to have a draft. This token is a
closing bracket, and the draft of the tokens before it says what is wrong with it: no group is
open, or the innermost one is of the other kind, or it is a mapping with a wrong number of
elements.

Drafts are the states of the reader, turned around: `Draft.reading` is the state that the
tokens of a draft lead to, and what the reader does with one token is taken from
`Reading.Accepts` and `Reading.Refuses`.
-/

set_option autoImplicit false

namespace Catena.Program

open Value (Syntactic)

/-! ## States and the tokens that lead to them -/

/-- A value as reading produces it is a symbol or a group that can be closed. -/
theorem symbol_or_close_of_syntactic {v : Value} (h : Syntactic v) :
    (∃ name, v = .symbol name ∧ name ∉ Bracket.tokens) ∨
      ∃ b items, close b items = .ok v ∧ ∀ w ∈ items, Syntactic w := by
  cases h using Syntactic.induct with
  | symbol name hname => exact Or.inl ⟨name, rfl, hname⟩
  | quotation items hitems _ => exact Or.inr ⟨.square, items, rfl, hitems⟩
  | emptyMapping => exact Or.inr ⟨.curly, [], rfl, List.forall_mem_nil _⟩
  | mapping key value hkey hvalue _ _ =>
      refine Or.inr ⟨.curly, [key, value], rfl, ?_⟩
      intro w hw
      simp only [List.mem_cons, List.not_mem_nil, or_false] at hw
      rcases hw with rfl | rfl
      · exact hkey
      · exact hvalue

namespace Reading

/-- The last token that leads to a state was accepted in a state that the tokens before it
lead to. -/
theorem exists_accepts_of_consumed {r' : Reading} {ts : List String} {token : String}
    (hr' : r'.Sound) (h : r'.consumed = ts ++ [token]) :
    ∃ r : Reading, r.Sound ∧ r.consumed = ts ∧ r.Accepts token r' := by
  obtain ⟨nodes, enclosing⟩ := r'
  obtain ⟨hnodes, houter⟩ := hr'
  cases nodes with
  | nil =>
      -- the innermost group is empty, so the last token has opened it
      rcases enclosing with - | ⟨⟨b, before⟩, outer⟩
      · simp [consumed, consumedBefore] at h
      · simp only [consumed, consumedBefore, List.reverse_nil, List.flatMap_nil,
          List.append_nil] at h
        obtain ⟨rfl, hlast⟩ := List.append_inj' h rfl
        cases hlast
        have hbefore : ∀ v ∈ before, Syntactic v := houter (b, before) List.mem_cons_self
        refine ⟨⟨before, outer⟩, ⟨hbefore, ?_⟩, rfl, .opener b ⟨before, outer⟩⟩
        intro group hgroup
        exact houter group (List.mem_cons_of_mem _ hgroup)
  | cons v nodes =>
      -- the last token is the last one of the last node
      have hrest : ∀ w ∈ nodes, Syntactic w := fun w hw => hnodes w (List.mem_cons_of_mem _ hw)
      simp only [consumed, List.reverse_cons, List.flatMap_append, List.flatMap_singleton,
        ← List.append_assoc] at h
      rcases symbol_or_close_of_syntactic (hnodes v List.mem_cons_self) with
        ⟨name, rfl, hname⟩ | ⟨b, items, hclose, hitems⟩
      · rw [Value.tokens_symbol] at h
        obtain ⟨rfl, hlast⟩ := List.append_inj' h rfl
        cases hlast
        exact ⟨⟨nodes, enclosing⟩, ⟨hrest, houter⟩, rfl, .symbol ⟨nodes, enclosing⟩ hname⟩
      · rw [tokens_of_close hclose, ← List.cons_append, ← List.append_assoc] at h
        obtain ⟨rfl, hlast⟩ := List.append_inj' h rfl
        cases hlast
        have hback : close b items.reverse.reverse = .ok v := by
          rw [List.reverse_reverse]
          exact hclose
        refine ⟨⟨items.reverse, (b, nodes) :: enclosing⟩, ⟨?_, ?_⟩, ?_, .closer hback⟩
        · intro w hw
          exact hitems w (List.mem_reverse.1 hw)
        · intro group hgroup
          rcases List.mem_cons.1 hgroup with rfl | hgroup
          · exact hrest
          · exact houter group hgroup
        · simp [consumed, consumedBefore]

/-- No tokens lead to the state at the beginning only. -/
theorem eq_start_of_consumed {r : Reading} (hr : r.Sound) (h : r.consumed = []) : r = start := by
  obtain ⟨nodes, enclosing⟩ := r
  simp only [consumed, List.append_eq_nil_iff] at h
  obtain ⟨henclosing, hnodes⟩ := h
  have hnil : nodes = [] := by
    cases nodes with
    | nil => rfl
    | cons v nodes =>
        -- every node is written with at least one token
        rcases symbol_or_close_of_syntactic (hr.1 v List.mem_cons_self) with
          ⟨name, rfl, -⟩ | ⟨b, items, hclose, -⟩
        · simp at hnodes
        · simp [tokens_of_close hclose] at hnodes
  subst hnil
  rcases enclosing with - | ⟨⟨b, before⟩, outer⟩
  · rfl
  · simp [consumedBefore] at henclosing

/-- A token leads from a state to one other state at most. -/
theorem Accepts.unique {token : String} {r r₁ r₂ : Reading} (h₁ : r.Accepts token r₁)
    (h₂ : r.Accepts token r₂) : r₁ = r₂ := by
  -- a token opens a group, closes one, or does neither, and the bracket is told by the token
  cases h₁ with
  | opener b =>
      generalize htoken : b.opener = token at h₂
      have hb : Bracket.ofOpener? token = some b := by rw [← htoken, Bracket.ofOpener?_opener]
      cases h₂ with
      | opener b' =>
          rw [Bracket.ofOpener?_opener, Option.some.injEq] at hb
          rw [hb]
      | closer _ =>
          rw [Bracket.ofOpener?_closer] at hb
          cases hb
      | symbol _ hname =>
          rw [(Bracket.not_mem_tokens_iff.1 hname).1] at hb
          cases hb
  | @closer b nodes before outer v hclose =>
      generalize htoken : b.closer = token at h₂
      have hb : Bracket.ofCloser? token = some b := by rw [← htoken, Bracket.ofCloser?_closer]
      have ho : Bracket.ofOpener? token = none := by rw [← htoken, Bracket.ofOpener?_closer]
      cases h₂ with
      | opener b' =>
          rw [Bracket.ofOpener?_opener] at ho
          cases ho
      | closer hclose' =>
          rw [hclose, Except.ok.injEq] at hclose'
          rw [hclose']
      | symbol _ hname =>
          rw [(Bracket.not_mem_tokens_iff.1 hname).2] at hb
          cases hb
  | symbol _ hname =>
      obtain ⟨hopener, hcloser⟩ := Bracket.not_mem_tokens_iff.1 hname
      cases h₂ with
      | opener b =>
          rw [Bracket.ofOpener?_opener] at hopener
          cases hopener
      | closer _ =>
          rw [Bracket.ofCloser?_closer] at hcloser
          cases hcloser
      | symbol _ _ => rfl

/-- Tokens lead to one state at most. -/
theorem eq_of_consumed_eq {r₁ r₂ : Reading} (hr₁ : r₁.Sound) (hr₂ : r₂.Sound)
    (h : r₁.consumed = r₂.consumed) : r₁ = r₂ := by
  generalize hts : r₂.consumed = ts at h
  induction ts using List.reverseRecOn generalizing r₁ r₂ with
  | nil => rw [eq_start_of_consumed hr₁ h, eq_start_of_consumed hr₂ hts]
  | append_singleton ts token ih =>
      obtain ⟨before₁, hbefore₁, hconsumed₁, haccepts₁⟩ := exists_accepts_of_consumed hr₁ h
      obtain ⟨before₂, hbefore₂, hconsumed₂, haccepts₂⟩ := exists_accepts_of_consumed hr₂ hts
      obtain rfl := ih hbefore₁ hbefore₂ hconsumed₂ hconsumed₁
      exact haccepts₁.unique haccepts₂

/-- The reader goes from the beginning to the state that the tokens lead to. -/
theorem readOn_consumed {r : Reading} (hr : r.Sound) (rest : List String) :
    readOn none (r.consumed ++ rest) 0 start = readOn none rest r.consumed.length r := by
  generalize hts : r.consumed = ts
  induction ts using List.reverseRecOn generalizing r rest with
  | nil =>
      rw [eq_start_of_consumed hr hts]
      rfl
  | append_singleton ts token ih =>
      obtain ⟨before, hbefore, hconsumed, haccepts⟩ := exists_accepts_of_consumed hr hts
      rw [List.append_assoc, List.singleton_append, ih hbefore (token :: rest) hconsumed,
        readOn_of_accepts haccepts, List.length_append]
      rfl

end Reading

/-! ## Drafts -/

/-- A program as far as it is written, with groups that may still be open. -/
inductive Draft where
  /-- No group is open. -/
  | closed (nodes : List Value)
  /-- A group was opened after `outer`, and `nodes` are in it so far. -/
  | within (outer : Draft) (b : Bracket) (nodes : List Value)

namespace Draft

/-- The tokens of a draft: the nodes at top level, and for each open group its opening bracket
and its nodes. -/
def tokens : Draft → List String
  | .closed nodes => nodes.flatMap Value.tokens
  | .within outer b nodes => outer.tokens ++ b.opener :: nodes.flatMap Value.tokens

/-- All nodes of a draft are values as reading produces them. -/
def Sound : Draft → Prop
  | .closed nodes => ∀ v ∈ nodes, Syntactic v
  | .within outer _ nodes => outer.Sound ∧ ∀ v ∈ nodes, Syntactic v

/-- A draft is that of a token list. -/
structure Writes (d : Draft) (ts : List String) : Prop where
  sound : d.Sound
  tokens_eq : d.tokens = ts

/-- The state of the reader after the tokens of a draft. -/
def reading : Draft → Reading
  | .closed nodes => ⟨nodes.reverse, []⟩
  | .within outer b nodes => ⟨nodes.reverse, (b, outer.reading.nodes) :: outer.reading.enclosing⟩

theorem consumed_reading (d : Draft) : d.reading.consumed = d.tokens := by
  induction d with
  | closed nodes => simp [reading, tokens, Reading.consumed, Reading.consumedBefore]
  | within outer b nodes ih =>
      rw [tokens, ← ih]
      simp [reading, Reading.consumed, Reading.consumedBefore]

theorem sound_reading {d : Draft} : d.reading.Sound ↔ d.Sound := by
  induction d with
  | closed nodes => simp [reading, Sound, Reading.Sound]
  | within outer b nodes ih =>
      rw [Sound, ← ih]
      simp only [reading, Reading.Sound, List.mem_reverse, List.forall_mem_cons]
      exact and_comm

theorem reading_injective {d d' : Draft} (h : d.reading = d'.reading) : d = d' := by
  induction d generalizing d' with
  | closed nodes =>
      cases d' with
      | closed nodes' => simpa [reading] using h
      | within outer b nodes' => simp [reading] at h
  | within outer b nodes ih =>
      cases d' with
      | closed nodes' => simp [reading] at h
      | within outer' b' nodes' =>
          simp only [reading, Reading.mk.injEq, List.reverse_inj, List.cons.injEq,
            Prod.mk.injEq] at h
          obtain ⟨rfl, ⟨rfl, hnodes⟩, henclosing⟩ := h
          have houter : outer.reading = outer'.reading := by
            cases h₁ : outer.reading
            cases h₂ : outer'.reading
            simp_all
          rw [ih houter]

/-- Every state is the one after some draft. -/
theorem exists_reading (r : Reading) : ∃ d : Draft, d.reading = r := by
  obtain ⟨nodes, enclosing⟩ := r
  induction enclosing generalizing nodes with
  | nil => exact ⟨.closed nodes.reverse, by simp [reading]⟩
  | cons group outer ih =>
      obtain ⟨b, before⟩ := group
      obtain ⟨d, hd⟩ := ih before
      exact ⟨.within d b nodes.reverse, by simp [reading, hd]⟩

/-- A token list has one draft at most. -/
theorem Writes.unique {d d' : Draft} {ts : List String} (h : d.Writes ts) (h' : d'.Writes ts) :
    d = d' := by
  apply reading_injective
  apply Reading.eq_of_consumed_eq (sound_reading.2 h.sound) (sound_reading.2 h'.sound)
  rw [consumed_reading, consumed_reading, h.tokens_eq, h'.tokens_eq]

/-- After the tokens of a draft the reader is in the state of the draft. -/
theorem Writes.readOn {d : Draft} {ts : List String} (h : d.Writes ts) (rest : List String) :
    Program.readOn none (ts ++ rest) 0 .start = Program.readOn none rest ts.length d.reading := by
  have hread := Reading.readOn_consumed (sound_reading.2 h.sound) rest
  rw [consumed_reading, h.tokens_eq] at hread
  exact hread

/-- What is wrong with a closing bracket that stands at `position` behind a draft. -/
inductive Rejects (b : Bracket) (position : Int) : Draft → Error → Prop
  /-- No group is open. -/
  | unopened (nodes : List Value) :
      Rejects b position (.closed nodes) (.unexpectedCloser b position)
  /-- The innermost group is of the other kind. -/
  | mismatched {outer : Draft} {opened : Bracket} {nodes : List Value} : opened ≠ b →
      Rejects b position (.within outer opened nodes) (.mismatchedGroup opened b position)
  /-- The innermost group is a mapping with neither none nor two elements. -/
  | malformed {outer : Draft} {nodes : List Value} : b = .curly → nodes.length ≠ 0 →
      nodes.length ≠ 2 →
      Rejects b position (.within outer .curly nodes) (.malformedMapping nodes.length)

section Rejects

variable {d : Draft} {b : Bracket} {position : Int} {e : Error}

theorem Rejects.eq_unexpectedCloser_iff (h : d.Rejects b position e) :
    e = .unexpectedCloser b position ↔ ∃ nodes, d = .closed nodes := by
  cases h <;> simp

theorem Rejects.eq_mismatchedGroup_iff (h : d.Rejects b position e) (opened : Bracket) :
    e = .mismatchedGroup opened b position ↔
      opened ≠ b ∧ ∃ outer nodes, d = .within outer opened nodes := by
  cases h with
  | unopened nodes => simp
  | mismatched hne =>
      constructor
      · intro h
        cases h
        exact ⟨hne, _, _, rfl⟩
      · rintro ⟨-, outer, nodes, h⟩
        cases h
        rfl
  | malformed hb _ _ =>
      constructor
      · intro h
        cases h
      · rintro ⟨hne, outer, nodes, h⟩
        cases h
        exact absurd hb.symm hne

theorem Rejects.eq_malformedMapping_iff (h : d.Rejects b position e) (count : Nat) :
    e = .malformedMapping count ↔ b = .curly ∧ count ≠ 0 ∧ count ≠ 2 ∧
      ∃ outer nodes, d = .within outer .curly nodes ∧ nodes.length = count := by
  cases h with
  | unopened nodes => simp
  | mismatched hne =>
      constructor
      · intro h
        cases h
      · rintro ⟨hb, -, -, outer, nodes, h, -⟩
        cases h
        exact absurd hb.symm hne
  | malformed hb hzero htwo =>
      constructor
      · intro h
        cases h
        exact ⟨hb, hzero, htwo, _, _, rfl, rfl⟩
      · rintro ⟨-, -, -, outer, nodes, h, hcount⟩
        cases h
        rw [hcount]

end Rejects

end Draft

/-- A group that cannot be closed is a mapping with neither none nor two elements. -/
theorem close_eq_error_iff {b : Bracket} {items : List Value} {e : Error} :
    close b items = .error e ↔
      b = .curly ∧ items.length ≠ 0 ∧ items.length ≠ 2 ∧ .malformedMapping items.length = e := by
  cases b with
  | square => simp [close]
  | curly =>
      -- none, one, two or more elements
      rcases items with - | ⟨key, - | ⟨value, - | ⟨third, rest⟩⟩⟩
      · simp [close]
      · simp [close]
      · simp [close]
      · simp [close]

/-- A token that the reader refuses after a draft is a closing bracket that the draft
rejects. -/
theorem Draft.rejects_of_refuses {d : Draft} {token : String} {position : Int} {e : Error}
    (h : d.reading.Refuses token position e) :
    ∃ b : Bracket, token = b.closer ∧ d.Rejects b position e := by
  cases d with
  | closed nodes =>
      cases h with
      | unexpected b _ => exact ⟨b, rfl, .unopened nodes⟩
  | within outer opened nodes =>
      cases h with
      | @mismatched _ b _ _ _ _ hne => exact ⟨b, rfl, .mismatched (Ne.symm hne)⟩
      | malformed hclose =>
          rw [List.reverse_reverse, close_eq_error_iff] at hclose
          obtain ⟨rfl, hzero, htwo, rfl⟩ := hclose
          exact ⟨.curly, rfl, .malformed rfl hzero htwo⟩

/-! ## Token lists that have drafts -/

/-- A token list has a draft. -/
def Drafted (ts : List String) : Prop :=
  ∃ d : Draft, d.Writes ts

theorem drafted_nil : Drafted [] :=
  ⟨.closed [], List.forall_mem_nil _, rfl⟩

/-- A token list has a draft exactly when it leads the reader to a state. -/
theorem drafted_iff {ts : List String} :
    Drafted ts ↔ ∃ r : Reading, r.Sound ∧ r.consumed = ts := by
  constructor
  · rintro ⟨d, hsound, rfl⟩
    exact ⟨d.reading, Draft.sound_reading.2 hsound, d.consumed_reading⟩
  · rintro ⟨r, hsound, rfl⟩
    obtain ⟨d, rfl⟩ := Draft.exists_reading r
    exact ⟨d, Draft.sound_reading.1 hsound, d.consumed_reading.symm⟩

/-- Without its last token, a token list still has a draft. -/
theorem Drafted.of_concat {ts : List String} {token : String} (h : Drafted (ts ++ [token])) :
    Drafted ts := by
  obtain ⟨r', hr', hconsumed'⟩ := drafted_iff.1 h
  obtain ⟨r, hr, hconsumed, -⟩ := Reading.exists_accepts_of_consumed hr' hconsumed'
  exact drafted_iff.2 ⟨r, hr, hconsumed⟩

/-- The beginnings of a token list that has a draft have drafts. -/
theorem Drafted.of_append {ts us : List String} (h : Drafted (ts ++ us)) : Drafted ts := by
  induction us using List.reverseRecOn with
  | nil =>
      rw [List.append_nil] at h
      exact h
  | append_singleton us token ih =>
      apply ih
      apply Drafted.of_concat
      rw [List.append_assoc]
      exact h

/-- A token list without a draft ceases to have one at some token. -/
theorem exists_undrafted_token {ts : List String} (h : ¬ Drafted ts) :
    ∃ before token after, ts = before ++ token :: after ∧ Drafted before ∧
      ¬ Drafted (before ++ [token]) := by
  induction ts using List.reverseRecOn with
  | nil => exact absurd drafted_nil h
  | append_singleton ts last ih =>
      by_cases hts : Drafted ts
      · exact ⟨ts, last, [], rfl, hts, h⟩
      · obtain ⟨before, token, after, rfl, hbefore, htoken⟩ := ih hts
        refine ⟨before, token, after ++ [last], ?_, hbefore, htoken⟩
        rw [List.append_assoc, List.cons_append]

/-- It ceases to have one at a single token. -/
theorem drafted_take_iff {before after : List String} {token : String} (hbefore : Drafted before)
    (htoken : ¬ Drafted (before ++ [token])) (j : Nat) :
    (Drafted ((before ++ token :: after).take j) ∧
      ¬ Drafted ((before ++ token :: after).take (j + 1))) ↔ j = before.length := by
  have hsplit : before ++ token :: after = (before ++ [token]) ++ after := by simp
  constructor
  · rintro ⟨hdrafted, hundrafted⟩
    rcases Nat.lt_trichotomy j before.length with hlt | heq | hgt
    · -- the tokens up to `j` and the next one all stand in front
      exfalso
      apply hundrafted
      rw [List.take_append_of_le_length hlt]
      have hwhole : Drafted (before.take (j + 1) ++ before.drop (j + 1)) := by
        rw [List.take_append_drop]
        exact hbefore
      exact hwhole.of_append
    · exact heq
    · -- the token itself is among those up to `j`
      exfalso
      apply htoken
      have hle : (before ++ [token]).length ≤ j := by
        rw [List.length_append, List.length_singleton]
        omega
      rw [hsplit, List.take_append, List.take_of_length_le hle] at hdrafted
      exact hdrafted.of_append
  · rintro rfl
    constructor
    · rw [List.take_left]
      exact hbefore
    · have hlength : before.length + 1 = (before ++ [token]).length := by
        rw [List.length_append, List.length_singleton]
      rw [hsplit, hlength, List.take_left]
      exact htoken

/-! ## Errors -/

section Errors

variable {tokens : List String}

/-- A token list with a draft that has no open group is a program. -/
theorem parse_of_closed {nodes : List Value} (h : (Draft.closed nodes).Writes tokens) :
    parse tokens = .ok (nodes, (tokens.length : Int)) := by
  have hparse := parse_flatMap_tokens h.sound
  have htokens : nodes.flatMap Value.tokens = tokens := h.tokens_eq
  rw [htokens] at hparse
  exact hparse

/-- A token list that is cut off inside of a group is reported by that group. -/
theorem parse_of_within {outer : Draft} {b : Bracket} {nodes : List Value}
    (h : (Draft.within outer b nodes).Writes tokens) :
    parse tokens = .error (.error (.unterminatedGroup b.opener)) := by
  have hread := h.readOn []
  rw [List.append_nil] at hread
  exact hread

/-- A token list that ceases to have a draft at some token is reported by what the draft in
front rejects there. -/
theorem parse_of_undrafted {before : List String} {token : String} {d : Draft}
    (hd : d.Writes before) (htoken : ¬ Drafted (before ++ [token])) (after : List String) :
    ∃ b e, token = b.closer ∧ d.Rejects b before.length e ∧
      parse (before ++ token :: after) = .error (.error e) := by
  have hsound : d.reading.Sound := Draft.sound_reading.2 hd.sound
  rcases d.reading.accepts_or_refuses token before.length with ⟨r', haccepts⟩ | ⟨e, hrefuses⟩
  · -- a token that is accepted goes on with the draft
    exfalso
    apply htoken
    refine drafted_iff.2 ⟨r', haccepts.sound hsound, ?_⟩
    rw [haccepts.consumed_eq, d.consumed_reading, hd.tokens_eq]
  · obtain ⟨b, rfl, hrejects⟩ := Draft.rejects_of_refuses hrefuses
    refine ⟨b, e, rfl, hrejects, ?_⟩
    have hread := hd.readOn (b.closer :: after)
    rw [readOn_of_refuses hrefuses] at hread
    exact hread

/-- Reading reports an unterminated group exactly when the token list is cut off inside of
one. -/
theorem parse_eq_unterminatedGroup_iff {opener : String} :
    parse tokens = .error (.error (.unterminatedGroup opener)) ↔
      ∃ outer b nodes, (Draft.within outer b nodes).Writes tokens ∧ b.opener = opener := by
  constructor
  · intro h
    by_cases hdrafted : Drafted tokens
    · obtain ⟨d, hd⟩ := hdrafted
      cases d with
      | closed nodes =>
          rw [parse_of_closed hd] at h
          cases h
      | within outer b nodes =>
          rw [parse_of_within hd] at h
          cases h
          exact ⟨outer, b, nodes, hd, rfl⟩
    · -- what a draft rejects is never an unterminated group
      obtain ⟨before, token, after, rfl, ⟨d, hd⟩, htoken⟩ := exists_undrafted_token hdrafted
      obtain ⟨b, e, -, hrejects, hparse⟩ := parse_of_undrafted hd htoken after
      rw [hparse] at h
      cases h
      cases hrejects
  · rintro ⟨outer, b, nodes, hd, rfl⟩
    exact parse_of_within hd

end Errors

/-- A token list has one draft at most. Reading reports an unterminated group exactly when the
draft of the list has an open group, and the group is then the innermost one. If reading fails
otherwise, there is exactly one position at which the list ceases to have a draft. A closing
bracket stands there, and the error is told by the draft of the tokens before it. If no group
is open, the bracket is unexpected. If the innermost group is of the other kind, it is
mismatched. If it is a mapping with a number of elements other than none and two, it is
malformed. There are no other errors. -/
theorem parse_error_iff_draft (tokens : List String) :
    (∀ d d' : Draft, d.Writes tokens → d'.Writes tokens → d = d') ∧
    (∀ opener, parse tokens = .error (.error (.unterminatedGroup opener)) ↔
      ∃ outer b nodes, (Draft.within outer b nodes).Writes tokens ∧ b.opener = opener) ∧
    ∀ failure, parse tokens = .error failure →
      (∀ outer b nodes, ¬ (Draft.within outer b nodes).Writes tokens) →
      ∃ (i : Nat) (b : Bracket) (d : Draft) (e : Error),
        (∀ j, Drafted (tokens.take j) ∧ ¬ Drafted (tokens.take (j + 1)) ↔ j = i) ∧
        tokens[i]? = some b.closer ∧ d.Writes (tokens.take i) ∧
        failure = .error e ∧ d.Rejects b i e ∧
        (e = .unexpectedCloser b i ↔ ∃ nodes, d = .closed nodes) ∧
        (∀ opened, e = .mismatchedGroup opened b i ↔
          opened ≠ b ∧ ∃ outer nodes, d = .within outer opened nodes) ∧
        ∀ count, e = .malformedMapping count ↔
          b = .curly ∧ count ≠ 0 ∧ count ≠ 2 ∧
            ∃ outer nodes, d = .within outer .curly nodes ∧ nodes.length = count := by
  refine ⟨fun d d' => Draft.Writes.unique, fun opener => parse_eq_unterminatedGroup_iff, ?_⟩
  intro failure hparse hwithin
  have hundrafted : ¬ Drafted tokens := by
    rintro ⟨d, hd⟩
    cases d with
    | closed nodes =>
        rw [parse_of_closed hd] at hparse
        cases hparse
    | within outer b nodes => exact hwithin outer b nodes hd
  obtain ⟨before, token, after, rfl, ⟨d, hd⟩, htoken⟩ := exists_undrafted_token hundrafted
  obtain ⟨b, e, rfl, hrejects, herror⟩ := parse_of_undrafted hd htoken after
  rw [hparse, Except.error.injEq] at herror
  refine ⟨before.length, b, d, e, drafted_take_iff ⟨d, hd⟩ htoken, ?_, ?_, herror, hrejects,
    hrejects.eq_unexpectedCloser_iff, hrejects.eq_mismatchedGroup_iff,
    hrejects.eq_malformedMapping_iff⟩
  · simp
  · rw [List.take_left]
    exact hd

/-- A quotation and a mapping in it are closed in the wrong order. The error names the mapping
and the position of the first closing bracket, and the mapping is open in front of it. -/
theorem parse_error_iff_draft_of_crossed_brackets :
    parse ["[", "\x7b", "a", "]", "\x7d"] =
      .error (.error (.mismatchedGroup .curly .square 3)) ∧
    ∃ outer nodes, (Draft.within outer .curly nodes).Writes ["[", "\x7b", "a"] := by
  have hparse : parse ["[", "\x7b", "a", "]", "\x7d"] =
      .error (.error (.mismatchedGroup .curly .square 3)) := by
    rfl
  have hwithin : ∀ outer b nodes,
      ¬ (Draft.within outer b nodes).Writes ["[", "\x7b", "a", "]", "\x7d"] := by
    intro outer b nodes hd
    rw [parse_of_within hd] at hparse
    cases hparse
  obtain ⟨i, b, d, e, -, -, hd, he, hrejects, -⟩ :=
    (parse_error_iff_draft ["[", "\x7b", "a", "]", "\x7d"]).2.2 _ hparse hwithin
  cases hrejects with
  | @mismatched outer opened nodes hne =>
      simp only [Failure.error.injEq, Error.mismatchedGroup.injEq] at he
      obtain ⟨rfl, -, hi⟩ := he
      obtain rfl : i = 3 := by omega
      exact ⟨hparse, outer, nodes, hd⟩
  | unopened | malformed => cases he

end Catena.Program
