import Catena.Proofs.Evaluation.Calls
import Catena.Proofs.Session.Faults
import Catena.Proofs.Session.ReadBack

/-!
# Values that are programs for themselves

A value that is written, read and evaluated need not come back. A negative integer is read as a
symbol, a bound symbol is run, and inside of groups nothing is evaluated, so that an integer
there becomes the symbol that spells it. `Value.Literal` describes the values that do come back:

* natural numbers that are short enough, unless their decimal text is bound,
* the two booleans, as long as `true` and `false` are the built-in words,
* symbols that are tokens, and neither numerals nor bound,
* groups that are made of groups and tokens only.

Any number of them, written and set apart by blanks, is a program that pushes them in order and
does nothing else (`Session.ends_of_literals`).
-/

set_option autoImplicit false

namespace Catena

/-! ## Reading decimal texts -/

namespace Text

/-- The digits of a natural number denote it. -/
theorem natOfDigits_toString (n : Nat) : natOfDigits (toString n).toList = n := by
  rw [Nat.toString_eq_repr, Nat.toList_repr]
  calc
    natOfDigits (Nat.toDigits 10 n) = Nat.ofDigitChars 10 (Nat.toDigits 10 n) 0 :=
      Nat.ofDigitChars_eq_foldl.symm
    _ = n := Nat.ofDigitChars_ten_toDigits

end Text

namespace Value

theorem isNumeral_toString (n : Nat) : isNumeral (toString n) = true := by
  rw [isNumeral_iff, Nat.toString_eq_repr, Nat.toList_repr]
  refine ⟨Nat.toDigits_ne_nil, ?_⟩
  intro c hc
  exact Nat.isDigit_of_mem_toDigits (by decide) (by decide) hc

/-- The decimal text of a natural number is read as that number. -/
theorem readNumeral_toString {n : Nat} (h : (toString n).length ≤ digitLimit) :
    readNumeral (toString n) = .ok (n : Int) := by
  rw [readNumeral, String.length_toList, if_pos h, Text.natOfDigits_toString]
  rfl

/-- A number of few enough digits is less than the bound of writing. -/
theorem lt_writeBound_of_length {n : Nat} (h : (toString n).length ≤ digitLimit) :
    n < writeBound := by
  -- for all lengths, since the power for the limit itself is too large to be computed
  have hpow : ∀ k, 0 < k → (toString n).length ≤ k → n < Nat.pow 10 k := by
    intro k hk hlength
    exact (Nat.length_repr_le_iff hk).1 hlength
  unfold writeBound
  exact hpow digitLimit (by decide) h

/-! ## Literals -/

/-- Values that come back when they are written, read and evaluated with a dictionary. -/
inductive Literal (d : Dictionary) : Value → Prop
  | integer {n : Nat} :
      (toString n).length ≤ digitLimit → d.get? (toString n) = none → Literal d (.integer n)
  | boolean (b : Bool) : Literal d (.boolean b)
  | symbol {name : String} :
      Text.IsToken name → isNumeral name = false → d.get? name = none → Literal d (.symbol name)
  | group {v : Value} : v.OfTokens → (∀ name, v ≠ .symbol name) → Literal d v

/-- A text is what a value is written as, under some nesting limit. -/
def WrittenAs (v : Value) (text : String) : Prop :=
  ∃ limit, v.render limit = .ok text

namespace Literal

variable {d : Dictionary} {v : Value}

theorem tokenNamed (h : v.Literal d) : v.TokenNamed := by
  cases h with
  | integer hdigits hfree => exact hereditary_tokenNamed.integer _
  | boolean b => exact hereditary_tokenNamed.boolean b
  | symbol htoken hnumeral hfree =>
      apply EveryLeaf.symbol
      intro name hname
      cases hname
      exact htoken
  | group htokens hgroup => exact htokens.tokenNamed

theorem shortIntegers (h : v.Literal d) : v.ShortIntegers := by
  cases h with
  | @integer n hdigits hfree =>
      apply EveryLeaf.integer
      intro m hm
      cases hm
      exact lt_writeBound_of_length hdigits
  | boolean b =>
      apply EveryLeaf.boolean
      intro m hm
      cases hm
  | symbol htoken hnumeral hfree =>
      apply EveryLeaf.symbol
      intro m hm
      cases hm
  | group htokens hgroup => exact htokens.syntactic.shortIntegers

/-- Evaluating the spelling of a literal pushes the literal. -/
theorem evaluatesNode {limit : Nat} {σ : Session} (h : v.Literal σ.words)
    (htruth : ∀ b, σ.words.Keeps (.truth b)) :
    EvaluatesNode limit (.plain v.spelled) σ ⟨none, .plain v :: σ.stack, σ.words, σ.marks⟩ := by
  cases h with
  | @integer n hdigits hfree =>
      rw [spelled_integer]
      refine .push (Action.ofNode_eq_push_iff.2 (Or.inr ?_))
      exact ⟨_, n, rfl, hfree, isNumeral_toString n, readNumeral_toString hdigits, rfl⟩
  | boolean b =>
      obtain ⟨name, hget⟩ := htruth b
      have hword : (Value.boolean b).spelled = .symbol (Builtin.truth b).word := by
        cases b with
        | false => simp [Builtin.word]
        | true => simp [Builtin.word]
      rw [hword]
      exact .word (Action.ofNode_of_get? hget)
        (Operation.run_eq_done_iff.2 (.builtin (.truth b σ.stack))) rfl
  | @symbol name htoken hnumeral hfree =>
      rw [spelled_symbol]
      refine .push (Action.ofNode_eq_push_iff.2 (Or.inl ⟨rfl, ?_⟩))
      intro called hcalled
      cases hcalled
      exact ⟨hfree, hnumeral⟩
  | group htokens hgroup =>
      rw [spelled_of_syntactic htokens.syntactic]
      refine .push (Action.ofNode_eq_push_iff.2 (Or.inl ⟨rfl, ?_⟩))
      intro name hname
      exact absurd hname (hgroup name)

end Literal

end Value

/-! ## Texts of several values -/

/-- Values whose symbols are tokens are read from their texts, however these are spaced, with
the integers and booleans spelled. -/
theorem Program.read_of_spaced {vs : List Value} {texts : List String} {program : String}
    (hvs : ∀ v ∈ vs, v.TokenNamed) (htexts : List.Forall₂ Value.WrittenAs vs texts)
    (hprogram : Text.Spaced texts program) : read program = .ok (vs.map Value.spelled) := by
  have htokens : (vs.map Value.spelled).flatMap Value.tokens = texts.flatMap Text.words := by
    clear hprogram
    induction htexts with
    | nil => rfl
    | @cons v text vs texts hwritten _ ih =>
        rw [List.forall_mem_cons] at hvs
        obtain ⟨limit, hrender⟩ := hwritten
        have hfirst := (read_eq_ok_iff.1 (read_render hvs.1 hrender)).2
        rw [List.flatMap_singleton] at hfirst
        rw [List.map_cons, List.flatMap_cons, List.flatMap_cons, hfirst, ih hvs.2]
  refine read_eq_ok_iff.2 ⟨?_, ?_⟩
  · intro w hw
    obtain ⟨v, hv, rfl⟩ := List.mem_map.1 hw
    exact Value.syntactic_spelled (hvs v hv)
  · rw [htokens, Text.words_of_spaced hprogram]

/-- Evaluating the spellings of literals pushes the literals in order. -/
theorem evaluates_literals {limit : Nat} (vs : List Value) (σ : Session)
    (hvs : ∀ v ∈ vs, v.Literal σ.words) (htruth : ∀ b, σ.words.Keeps (.truth b)) :
    Evaluates limit ((vs.map Value.spelled).map .plain) σ
      ⟨none, σ.stack.pushAll (vs.map .plain), σ.words, σ.marks⟩ := by
  induction vs generalizing σ with
  | nil => exact .nil σ
  | cons v vs ih =>
      rw [List.forall_mem_cons] at hvs
      -- the first literal changes the stack only, so the others are literals still
      exact .cons (hvs.1.evaluatesNode htruth) rfl
        (ih ⟨.plain v :: σ.stack, σ.words, σ.marks⟩ hvs.2 htruth)

/-- The values of a stack on which values have been pushed. -/
theorem Stack.toList_pushAll_plain (s : Stack) (vs : List Value) :
    (s.pushAll (vs.map .plain)).toList = s.toList ++ vs := by
  simp [Stack.pushAll_eq, Stack.toList, Entry.plain, Function.comp_def]

namespace Session

/-- In a session with the built-in words `true` and `false`, literals are written, and their
texts are joined by single spaces or set apart by other blanks. Writing is stopped by deep
nesting only. Evaluating the joined text succeeds; it pushes the literals in order, and changes
neither what lies under them nor the dictionary. -/
theorem ends_of_literals {s : Session} {vs : List Value}
    (htruth : ∀ b, s.words.Keeps (.truth b)) (hvs : ∀ v ∈ vs, v.Literal s.words) :
    (∀ v ∈ vs, ∀ limit, (∃ text, v.render limit = .ok text) ↔ 2 * v.depth ≤ limit) ∧
    (s.stack.pushAll (vs.map .plain)).toList = s.stack.toList ++ vs ∧
    ∀ texts program, List.Forall₂ Value.WrittenAs vs texts →
      program = " ".intercalate texts ∨ Text.Spaced texts program →
      ∀ nesting, s.Ends nesting program
        ⟨s.stack.pushAll (vs.map .plain), s.words, s.marks⟩ none := by
  refine ⟨?_, Stack.toList_pushAll_plain s.stack vs, ?_⟩
  · intro v hv limit
    exact Value.exists_render_iff_of_shortIntegers (hvs v hv).shortIntegers limit
  · intro texts program htexts hprogram nesting
    have hspaced : Text.Spaced texts program := by
      rcases hprogram with rfl | h
      · exact Text.spaced_intercalate texts
      · exact h
    have hread : Program.read program = .ok (vs.map Value.spelled) :=
      Program.read_of_spaced (fun v hv => (hvs v hv).tokenNamed) htexts hspaced
    rw [ends_iff_evaluates hread]
    exact ⟨_, evaluates_literals vs s hvs htruth, rfl, rfl⟩

/-- On a stack with a negative integer, a number, a boolean, a symbol and a quotation are read
back. The numeral and the truth value inside of the quotation stay symbols. -/
theorem ends_of_literals_of_quoted_numeral :
    Ends 100 ⟨[.plain (.integer (-3))], Dictionary.builtins, 0⟩
      "\t12 true\n x [ 7 true \x7b k [ ] \x7d ] "
      ⟨[.plain (.quotation [.symbol "7", .symbol "true",
            .mapping (.symbol "k") (.quotation [])]),
          .plain (.symbol "x"), .plain (.boolean true), .plain (.integer 12),
          .plain (.integer (-3))], Dictionary.builtins, 0⟩ none := by
  have htruth : ∀ b, Dictionary.builtins.Keeps (.truth b) := by
    intro b
    cases b with
    | false => exact ⟨"false", rfl⟩
    | true => exact ⟨"true", rfl⟩
  have hquotation : Value.OfTokens (.quotation [.symbol "7", .symbol "true",
      .mapping (.symbol "k") (.quotation [])]) := by
    simp only [Value.OfTokens, Value.everyLeaf_quotation, List.forall_mem_cons]
    exact ⟨.symbol ⟨_, rfl, by decide⟩, .symbol ⟨_, rfl, by decide⟩,
      .mapping (.symbol ⟨_, rfl, by decide⟩) (.quotation (List.forall_mem_nil _)),
      List.forall_mem_nil _⟩
  have hvs : ∀ v ∈ [Value.integer 12, .boolean true, .symbol "x", .quotation [.symbol "7",
      .symbol "true", .mapping (.symbol "k") (.quotation [])]],
      v.Literal Dictionary.builtins := by
    simp only [List.forall_mem_cons]
    refine ⟨.integer (n := 12) (by decide) rfl, .boolean true, .symbol (by decide) rfl rfl,
      .group hquotation ?_, List.forall_mem_nil _⟩
    intro name hname
    cases hname
  have hspaced : Text.Spaced ["12", "true", "x", "[ 7 true \x7b k [ ] \x7d ]"]
      ("\t" ++ "12" ++ " " ++ ("" ++ "true" ++ "\n " ++ ("" ++ "x" ++ " " ++
        ("" ++ "[ 7 true \x7b k [ ] \x7d ]" ++ " " ++ "")))) := by
    refine .cons ?_ ?_ ?_ (.cons ?_ ?_ ?_ (.cons ?_ ?_ ?_ (.cons ?_ ?_ ?_ (.nil ?_))))
    all_goals decide
  refine (ends_of_literals (s := ⟨[.plain (.integer (-3))], Dictionary.builtins, 0⟩) htruth
    hvs).2.2 _ _ ?_ (Or.inr hspaced) 100
  refine .cons ⟨100, ?_⟩ (.cons ⟨100, ?_⟩ (.cons ⟨100, ?_⟩ (.cons ⟨100, ?_⟩ .nil)))
  all_goals decide +kernel

end Session

end Catena
