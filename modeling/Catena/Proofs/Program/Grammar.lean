import Catena.Program
import Catena.Proofs.Value

/-!
# The grammar of programs

Reading a token list at top level succeeds exactly when the list is what writing
some syntactic values one after the other gives, and the answer is then these
values (`Program.parse_eq_ok_iff`). So each token list has at most one reading, and
writing undoes it.

The reader keeps the groups under way in a list of its own. `Reading.consumed`
writes such a state out again as the tokens that led to it, and
`Reading.Accepts` is what one token does to a state; an accepted token is the one
added to what was consumed (`Reading.Accepts.consumed_eq`). Both directions of the
main result follow the reader token by token along this relation. A token that is not
accepted is refused (`Reading.Refuses`) and ends the reading with an error of syntax
(`accepts_or_refuses`).
-/

set_option autoImplicit false

namespace Catena

/-! ## Brackets -/

namespace Bracket

@[simp] theorem ofOpener?_opener (b : Bracket) : ofOpener? b.opener = some b := by
  cases b <;> rfl

@[simp] theorem ofOpener?_closer (b : Bracket) : ofOpener? b.closer = none := by
  cases b <;> decide

@[simp] theorem ofCloser?_closer (b : Bracket) : ofCloser? b.closer = some b := by
  cases b <;> rfl

theorem opener_of_ofOpener? {token : String} {b : Bracket} (h : ofOpener? token = some b) :
    token = b.opener := by
  unfold ofOpener? at h
  split at h
  · cases h
    assumption
  · split at h
    · cases h
      assumption
    · cases h

theorem closer_of_ofCloser? {token : String} {b : Bracket} (h : ofCloser? token = some b) :
    token = b.closer := by
  unfold ofCloser? at h
  split at h
  · cases h
    assumption
  · split at h
    · cases h
      assumption
    · cases h

/-- A token is no bracket exactly when it neither opens nor closes a group. -/
theorem not_mem_tokens_iff {token : String} :
    token ∉ tokens ↔ ofOpener? token = none ∧ ofCloser? token = none := by
  simp only [tokens, List.mem_cons, List.not_mem_nil, or_false, not_or]
  constructor
  · rintro ⟨h₁, h₂, h₃, h₄⟩
    simp only [ofOpener?, ofCloser?, if_neg h₁, if_neg h₂, if_neg h₃, if_neg h₄, and_self]
  · rintro ⟨ho, hc⟩
    refine ⟨?_, ?_, ?_, ?_⟩
    · rintro rfl
      cases ho
    · rintro rfl
      cases hc
    · rintro rfl
      cases ho
    · rintro rfl
      cases hc

end Bracket

/-- The errors of syntax: those that say how a program is not made of groups. -/
def Error.isSyntax : Error → Bool
  | .unexpectedCloser _ _ => true
  | .mismatchedGroup _ _ _ => true
  | .unterminatedGroup _ => true
  | .malformedMapping _ => true
  | _ => false

namespace Program

open Value (Syntactic)

/-! ## One token -/

namespace Reading

/-- What reading one token makes of a state: it opens a group, closes the innermost
group, or is a symbol. -/
inductive Accepts : String → Reading → Reading → Prop
  | opener (b : Bracket) (r : Reading) : Accepts b.opener r (r.enter b)
  | closer {b : Bracket} {nodes before : List Value} {outer : List (Bracket × List Value)}
      {v : Value} : close b nodes.reverse = .ok v →
      Accepts b.closer ⟨nodes, (b, before) :: outer⟩ ⟨v :: before, outer⟩
  | symbol {token : String} (r : Reading) : token ∉ Bracket.tokens →
      Accepts token r (r.add (.symbol token))

/-- Why a token that stands at `position` cannot be read in a state: it closes no group, or
the innermost group is of the other kind, or that group cannot be closed. -/
inductive Refuses : String → Int → Reading → Error → Prop
  | unexpected {position : Int} (b : Bracket) (nodes : List Value) :
      Refuses b.closer position ⟨nodes, []⟩ (.unexpectedCloser b position)
  | mismatched {position : Int} {b opened : Bracket} {nodes before : List Value}
      {outer : List (Bracket × List Value)} : b ≠ opened →
      Refuses b.closer position ⟨nodes, (opened, before) :: outer⟩
        (.mismatchedGroup opened b position)
  | malformed {position : Int} {b : Bracket} {nodes before : List Value}
      {outer : List (Bracket × List Value)} {e : Error} : close b nodes.reverse = .error e →
      Refuses b.closer position ⟨nodes, (b, before) :: outer⟩ e

/-- The tokens that opened the groups under way, each with the tokens before it. -/
def consumedBefore : List (Bracket × List Value) → List String
  | [] => []
  | (b, before) :: outer =>
      consumedBefore outer ++ before.reverse.flatMap Value.tokens ++ [b.opener]

/-- The tokens that lead to a state. -/
def consumed (r : Reading) : List String :=
  consumedBefore r.enclosing ++ r.nodes.reverse.flatMap Value.tokens

/-- All nodes read so far are syntactic. -/
def Sound (r : Reading) : Prop :=
  (∀ v ∈ r.nodes, Syntactic v) ∧ ∀ group ∈ r.enclosing, ∀ v ∈ group.2, Syntactic v

theorem sound_start : Sound start := by
  constructor
  · intro v hv
    cases hv
  · intro group hgroup
    cases hgroup

end Reading

/-- Closing a group gives a value that is written as the group between its
brackets. -/
theorem tokens_of_close {b : Bracket} {items : List Value} {v : Value}
    (h : close b items = .ok v) :
    v.tokens = b.opener :: (items.flatMap Value.tokens ++ [b.closer]) := by
  unfold close at h
  split at h
  · cases h
    exact Value.tokens_quotation _
  · cases h
    exact Value.tokens_emptyMapping
  · cases h
    simp [Bracket.opener, Bracket.closer]
  · cases h

theorem isSyntax_of_close {b : Bracket} {items : List Value} {e : Error}
    (h : close b items = .error e) : e.isSyntax = true := by
  unfold close at h
  split at h
  · cases h
  · cases h
  · cases h
  · cases h
    rfl

theorem syntactic_of_close {b : Bracket} {items : List Value} {v : Value}
    (h : close b items = .ok v) (hitems : ∀ w ∈ items, Syntactic w) : Syntactic v := by
  unfold close at h
  split at h
  · cases h
    exact .quotation hitems
  · cases h
    exact .emptyMapping
  · cases h
    exact .mapping (hitems _ (by simp)) (hitems _ (by simp))
  · cases h

namespace Reading

variable {token : String} {r r' : Reading}

theorem Refuses.isSyntax {position : Int} {e : Error} (h : Refuses token position r e) :
    e.isSyntax = true := by
  cases h with
  | unexpected | mismatched => rfl
  | malformed hclose => exact isSyntax_of_close hclose

/-- An accepted token is added to those consumed. -/
theorem Accepts.consumed_eq (h : Accepts token r r') : r'.consumed = r.consumed ++ [token] := by
  cases h with
  | opener b => simp [consumed, consumedBefore, enter]
  | closer hclose => simp [consumed, consumedBefore, tokens_of_close hclose]
  | symbol _ _ => simp [consumed, add]

theorem Accepts.sound (h : Accepts token r r') (hr : r.Sound) : r'.Sound := by
  obtain ⟨hnodes, houter⟩ := hr
  cases h with
  | opener b =>
      refine ⟨fun v hv => absurd hv List.not_mem_nil, fun group hgroup => ?_⟩
      rcases List.mem_cons.1 hgroup with rfl | hgroup
      · exact hnodes
      · exact houter group hgroup
  | @closer b nodes before outer v hclose =>
      refine ⟨fun w hw => ?_, fun group hgroup => houter group (List.mem_cons_of_mem _ hgroup)⟩
      rcases List.mem_cons.1 hw with rfl | hw
      · exact syntactic_of_close hclose fun w hw => hnodes w (List.mem_reverse.1 hw)
      · exact houter (b, before) List.mem_cons_self w hw
  | symbol _ hname =>
      refine ⟨fun w hw => ?_, houter⟩
      rcases List.mem_cons.1 hw with rfl | hw
      · exact .symbol ⟨token, rfl, hname⟩
      · exact hnodes w hw

end Reading

/-! ## The reader, token by token -/

/-- The reader follows the tokens that it accepts. -/
theorem readOn_of_accepts {token : String} {r r' : Reading} (h : Reading.Accepts token r r')
    (opener : Option String) (rest : List String) (position : Int) :
    readOn opener (token :: rest) position r = readOn opener rest (position + 1) r' := by
  cases h with
  | opener b => simp only [readOn, Bracket.ofOpener?_opener]
  | closer hclose =>
      simp only [readOn, Bracket.ofOpener?_closer, Bracket.ofCloser?_closer, if_true, hclose]
  | symbol _ hname =>
      obtain ⟨hopener, hcloser⟩ := Bracket.not_mem_tokens_iff.1 hname
      simp only [readOn, hopener, hcloser]

/-- At top level, the reader reports a token that it refuses. -/
theorem readOn_of_refuses {token : String} {position : Int} {r : Reading} {e : Error}
    (h : Reading.Refuses token position r e) (rest : List String) :
    readOn none (token :: rest) position r = .error (.error e) := by
  cases h with
  | unexpected b nodes =>
      simp only [readOn, Bracket.ofOpener?_closer, Bracket.ofCloser?_closer, leaveBase]
  | mismatched hne =>
      simp only [readOn, Bracket.ofOpener?_closer, Bracket.ofCloser?_closer, if_neg hne]
  | malformed hclose =>
      simp only [readOn, Bracket.ofOpener?_closer, Bracket.ofCloser?_closer, if_true, hclose]

/-- Every token is accepted or refused. -/
theorem Reading.accepts_or_refuses (token : String) (position : Int) (r : Reading) :
    (∃ r', r.Accepts token r') ∨ ∃ e, r.Refuses token position e := by
  cases hopener : Bracket.ofOpener? token with
  | some b =>
      obtain rfl := Bracket.opener_of_ofOpener? hopener
      exact Or.inl ⟨_, .opener b r⟩
  | none =>
      cases hcloser : Bracket.ofCloser? token with
      | none =>
          have hname : token ∉ Bracket.tokens :=
            Bracket.not_mem_tokens_iff.2 ⟨hopener, hcloser⟩
          exact Or.inl ⟨_, .symbol r hname⟩
      | some b =>
          obtain rfl := Bracket.closer_of_ofCloser? hcloser
          obtain ⟨nodes, enclosing⟩ := r
          -- a closing bracket needs a group of its own kind, and one that can be closed
          rcases enclosing with - | ⟨⟨opened, before⟩, outer⟩
          · exact Or.inr ⟨_, .unexpected b nodes⟩
          by_cases hb : b = opened
          · subst hb
            cases hclose : close b nodes.reverse with
            | error e => exact Or.inr ⟨e, .malformed hclose⟩
            | ok v => exact Or.inl ⟨_, .closer hclose⟩
          · exact Or.inr ⟨_, .mismatched hb⟩

/-- At top level, a token is accepted, or the reading ends with an error of syntax. -/
theorem accepts_or_refuses (token : String) (rest : List String) (position : Int) (r : Reading) :
    (∃ r', r.Accepts token r') ∨
      ∃ e, e.isSyntax = true ∧ readOn none (token :: rest) position r = .error (.error e) := by
  rcases r.accepts_or_refuses token position with haccepts | ⟨e, hrefuses⟩
  · exact Or.inl haccepts
  · exact Or.inr ⟨e, hrefuses.isSyntax, readOn_of_refuses hrefuses rest⟩

/-- At top level, a reading that succeeds has accepted its first token. -/
theorem accepts_of_readOn_ok {token : String} {rest : List String} {position : Int}
    {r : Reading} {result : List Value × Int}
    (h : readOn none (token :: rest) position r = .ok result) :
    ∃ r', r.Accepts token r' ∧ readOn none rest (position + 1) r' = .ok result := by
  rcases accepts_or_refuses token rest position r with ⟨r', haccepts⟩ | ⟨e, -, herror⟩
  · rw [readOn_of_accepts haccepts] at h
    exact ⟨r', haccepts, h⟩
  · rw [h] at herror
    cases herror

/-- At top level, a reading that fails reports an error of syntax. -/
theorem isSyntax_of_readOn_error {tokens : List String} {position : Int} {r : Reading}
    {failure : Failure} (h : readOn none tokens position r = .error failure) :
    ∃ e, failure = .error e ∧ e.isSyntax = true := by
  induction tokens generalizing position r with
  | nil =>
      obtain ⟨nodes, enclosing⟩ := r
      cases enclosing with
      | nil => cases h
      | cons group outer =>
          cases h
          exact ⟨_, rfl, rfl⟩
  | cons token rest ih =>
      rcases accepts_or_refuses token rest position r with ⟨r', haccepts⟩ | ⟨e, he, herror⟩
      · rw [readOn_of_accepts haccepts] at h
        exact ih h
      · rw [h, Except.error.injEq] at herror
        exact ⟨e, herror, he⟩

/-- A reading that succeeds has read everything: its nodes are syntactic, and their
tokens are those consumed before and those that were left. -/
theorem tokens_of_readOn_ok {tokens : List String} {position n : Int} {r : Reading}
    {nodes : List Value} (h : readOn none tokens position r = .ok (nodes, n)) (hr : r.Sound) :
    n = position + tokens.length ∧ (∀ v ∈ nodes, Syntactic v) ∧
      nodes.flatMap Value.tokens = r.consumed ++ tokens := by
  induction tokens generalizing position r with
  | nil =>
      obtain ⟨read, enclosing⟩ := r
      cases enclosing with
      | cons group outer => cases h
      | nil =>
          simp only [readOn, finish, Except.ok.injEq, Prod.mk.injEq] at h
          obtain ⟨rfl, rfl⟩ := h
          refine ⟨by simp, fun v hv => hr.1 v (List.mem_reverse.1 hv), ?_⟩
          simp [Reading.consumed, Reading.consumedBefore]
  | cons token rest ih =>
      obtain ⟨r', haccepts, hrest⟩ := accepts_of_readOn_ok h
      obtain ⟨hn, hnodes, htokens⟩ := ih hrest (haccepts.sound hr)
      refine ⟨?_, hnodes, ?_⟩
      · rw [hn, List.length_cons]
        push_cast
        omega
      · rw [htokens, haccepts.consumed_eq, List.append_assoc]
        rfl

/-- The reader turns the tokens of a value into the value. -/
def Reads (v : Value) : Prop :=
  ∀ (opener : Option String) (rest : List String) (position : Int) (r : Reading),
    readOn opener (v.tokens ++ rest) position r =
      readOn opener rest (position + v.tokens.length) (r.add v)

/-- The reader turns the tokens of values that it reads one by one into these
values, in order. -/
theorem readOn_flatMap_tokens {vs : List Value} (h : ∀ v ∈ vs, Reads v)
    (opener : Option String) (rest : List String) (position : Int) (r : Reading) :
    readOn opener (vs.flatMap Value.tokens ++ rest) position r =
      readOn opener rest (position + (vs.flatMap Value.tokens).length)
        ⟨vs.reverse ++ r.nodes, r.enclosing⟩ := by
  induction vs generalizing position r with
  | nil => simp
  | cons v vs ih =>
      have hv : Reads v := h v List.mem_cons_self
      have hvs : ∀ w ∈ vs, Reads w := fun w hw => h w (List.mem_cons_of_mem _ hw)
      have hlength : position + (v.tokens.length : Int) + ((vs.flatMap Value.tokens).length : Int) =
          position + ((v.tokens.length + (vs.flatMap Value.tokens).length : Nat) : Int) := by
        push_cast
        omega
      rw [List.flatMap_cons, List.append_assoc, hv, ih hvs, List.length_append, hlength]
      simp [Reading.add]

/-- A group whose elements the reader reads is read as its value. -/
theorem reads_of_close (b : Bracket) (items : List Value) {v : Value}
    (hclose : close b items = .ok v) (h : ∀ w ∈ items, Reads w) : Reads v := by
  intro opener rest position r
  have hback : close b (items.reverse ++ []).reverse = .ok v := by simpa using hclose
  have hlength : position + 1 + ((items.flatMap Value.tokens).length : Int) + 1 =
      position + ((items.flatMap Value.tokens).length + 1 + 1 : Nat) := by
    push_cast
    omega
  -- the opener starts a new group, its elements fill it, and the closer ends it
  rw [tokens_of_close hclose, List.cons_append, readOn_of_accepts (.opener b r),
    List.append_assoc, readOn_flatMap_tokens h, List.singleton_append]
  simp only [Reading.enter]
  rw [readOn_of_accepts (.closer hback), hlength]
  simp [Reading.add]

theorem reads_of_syntactic {v : Value} (h : Syntactic v) : Reads v := by
  induction h using Syntactic.induct with
  | symbol name hbracket =>
      intro opener rest position r
      simpa using readOn_of_accepts (.symbol r hbracket) opener rest position
  | quotation items _ ih => exact reads_of_close .square items rfl ih
  | emptyMapping => exact reads_of_close .curly [] rfl (by simp)
  | mapping key value _ _ hkey hvalue =>
      refine reads_of_close .curly [key, value] rfl ?_
      intro w hw
      simp only [List.mem_cons, List.not_mem_nil, or_false] at hw
      rcases hw with rfl | rfl
      · exact hkey
      · exact hvalue

/-! ## Whole programs -/

/-- What reading accepts is what writing syntactic values gives. -/
theorem tokens_of_parse_ok {tokens : List String} {nodes : List Value} {n : Int}
    (h : parse tokens = .ok (nodes, n)) :
    n = tokens.length ∧ (∀ v ∈ nodes, Syntactic v) ∧ nodes.flatMap Value.tokens = tokens := by
  have hread : readOn none tokens 0 .start = .ok (nodes, n) := h
  obtain ⟨hn, hnodes, htokens⟩ := tokens_of_readOn_ok hread Reading.sound_start
  refine ⟨by simpa using hn, hnodes, ?_⟩
  simpa [Reading.consumed, Reading.consumedBefore, Reading.start] using htokens

/-- The tokens of syntactic values are read as these values. -/
theorem parse_flatMap_tokens {nodes : List Value} (h : ∀ v ∈ nodes, Syntactic v) :
    parse (nodes.flatMap Value.tokens) =
      .ok (nodes, ((nodes.flatMap Value.tokens).length : Int)) := by
  have hread := readOn_flatMap_tokens (fun v hv => reads_of_syntactic (h v hv)) none [] 0 .start
  rw [List.append_nil] at hread
  change readOn none ((nodes.flatMap Value.tokens).drop 0) 0 .start = _
  rw [List.drop_zero, hread]
  simp [readOn, finish, Reading.start]

/-- A text is read as some nodes exactly when these are syntactic and writing them one
after the other gives the words of the text. -/
theorem read_eq_ok_iff {text : String} {nodes : List Value} :
    read text = .ok nodes ↔
      (∀ v ∈ nodes, Syntactic v) ∧ nodes.flatMap Value.tokens = Text.words text := by
  constructor
  · intro h
    unfold read at h
    cases hparse : parse (Text.words text) with
    | error failure =>
        rw [hparse] at h
        cases h
    | ok result =>
        rw [hparse] at h
        cases h
        exact (tokens_of_parse_ok hparse).2
  · rintro ⟨hnodes, htokens⟩
    rw [read, ← htokens, parse_flatMap_tokens hnodes]
    rfl

/-- A text that cannot be read is refused by an error of syntax. -/
theorem isSyntax_of_read_error {text : String} {failure : Failure}
    (h : read text = .error failure) : ∃ e, failure = .error e ∧ e.isSyntax = true := by
  unfold read at h
  cases hparse : parse (Text.words text) with
  | ok result =>
      rw [hparse] at h
      cases h
  | error other =>
      rw [hparse] at h
      cases h
      exact isSyntax_of_readOn_error hparse

/-- Reading a token list succeeds with some nodes and a position exactly when the
position is the end of the list, the nodes are made of groups and of symbols that
are no brackets, and writing the nodes one after the other gives the list. -/
theorem parse_eq_ok_iff (tokens : List String) (nodes : List Value) (n : Int) :
    parse tokens = .ok (nodes, n) ↔
      n = tokens.length ∧ (∀ v ∈ nodes, Syntactic v) ∧
        nodes.flatMap Value.tokens = tokens := by
  constructor
  · exact tokens_of_parse_ok
  · rintro ⟨rfl, hnodes, rfl⟩
    exact parse_flatMap_tokens hnodes

end Program

end Catena
