import Catena.Proofs.Value
import Mathlib.Data.List.Basic

/-!
# Spelling values with symbols

Reading gives every token that is no bracket as a symbol. So an integer or a
boolean that is written comes back as the symbol that spells it. `spelled` makes
this change at every depth and leaves the rest of a value as it is.

* The change does not show in the tokens (`tokens_spelled`), and values as reading
  produces them are not changed (`spelled_of_syntactic`).
* The decimal text of an integer is a token (`isToken_toString`), so a value whose
  symbols are tokens spells a syntactic value (`syntactic_spelled`) and is written
  with words only (`isWord_of_mem_tokens`).
* Conversely, a syntactic value that is written with words only has tokens for its
  symbols (`tokenNamed_of_syntactic`).
-/

set_option autoImplicit false

namespace Catena

/-! ## Decimal texts -/

namespace Text

/-- Digits and the minus sign are not blank. -/
theorem isBlank_of_decimal {c : Char} (h : c = '-' ∨ c.isDigit = true) : isBlank c = false := by
  have hrange : c.toNat = 45 ∨ 48 ≤ c.toNat ∧ c.toNat ≤ 57 := by
    rcases h with rfl | h
    · exact Or.inl rfl
    · simp only [Char.isDigit, Bool.and_eq_true, decide_eq_true_eq] at h
      exact Or.inr h
  simp only [isBlank, inRanges, blankRanges, List.any_cons, List.any_nil, Bool.or_false,
    Bool.or_eq_false_iff, Bool.and_eq_false_iff, decide_eq_false_iff_not]
  omega

/-- A text of digits and minus signs is a token. -/
theorem isToken_of_decimal {text : String} (hne : text.toList ≠ [])
    (h : ∀ c ∈ text.toList, c = '-' ∨ c.isDigit = true) : IsToken text := by
  refine ⟨⟨hne, fun c hc => isBlank_of_decimal (h c hc)⟩, fun hmem => ?_⟩
  simp only [Bracket.tokens, Bracket.opener, Bracket.closer, List.mem_cons, List.not_mem_nil,
    or_false] at hmem
  rcases hmem with rfl | rfl | rfl | rfl
  · exact absurd (h '[' (by decide)) (by decide)
  · exact absurd (h ']' (by decide)) (by decide)
  · exact absurd (h '\x7b' (by decide)) (by decide)
  · exact absurd (h '\x7d' (by decide)) (by decide)

/-- The decimal text of an integer is a token. -/
theorem isToken_toString (n : Int) : IsToken (toString n) := by
  have hdigit : ∀ m : Nat, ∀ c ∈ m.repr.toList, c.isDigit = true := by
    intro m c hc
    rw [Nat.toList_repr] at hc
    exact Nat.isDigit_of_mem_toDigits (by decide) (by decide) hc
  have hne : ∀ m : Nat, m.repr.toList ≠ [] := by
    intro m
    rw [Nat.toList_repr]
    exact Nat.toDigits_ne_nil
  -- a negative integer is a minus sign and the digits of its opposite
  rw [Int.toString_eq_repr, Int.repr_eq_if]
  split
  · exact isToken_of_decimal (hne _) fun c hc => Or.inr (hdigit _ c hc)
  · refine isToken_of_decimal (by simp) fun c hc => ?_
    rw [String.toList_append, List.mem_append] at hc
    rcases hc with hc | hc
    · exact Or.inl (List.mem_singleton.1 hc)
    · exact Or.inr (hdigit _ c hc)

theorem isToken_truth (b : Bool) : IsToken (if b then "true" else "false") := by
  cases b <;> decide

end Text

/-- Brackets are words like other tokens. -/
theorem Bracket.isWord_of_mem_tokens {t : String} (h : t ∈ Bracket.tokens) : Text.IsWord t := by
  simp only [Bracket.tokens, Bracket.opener, Bracket.closer, List.mem_cons, List.not_mem_nil,
    or_false] at h
  rcases h with rfl | rfl | rfl | rfl
  · decide
  · decide
  · decide
  · decide

namespace Value

/-! ## Spelling -/

mutual
/-- The value with a symbol in place of each integer and each boolean: the one that
spells it. -/
def spelled : Value → Value
  | .integer n => .symbol (toString n)
  | .boolean b => .symbol (if b then "true" else "false")
  | .symbol name => .symbol name
  | .quotation items => .quotation (spelledList items)
  | .emptyMapping => .emptyMapping
  | .mapping key value => .mapping key.spelled value.spelled
/-- The values of a list, each spelled. -/
def spelledList : List Value → List Value
  | [] => []
  | v :: vs => v.spelled :: spelledList vs
end

theorem spelledList_eq_map (vs : List Value) : spelledList vs = vs.map spelled := by
  induction vs with
  | nil => rw [spelledList, List.map_nil]
  | cons v vs ih => rw [spelledList, ih, List.map_cons]

@[simp] theorem spelled_integer (n : Int) : (Value.integer n).spelled = .symbol (toString n) := by
  rw [spelled]

@[simp] theorem spelled_boolean (b : Bool) :
    (Value.boolean b).spelled = .symbol (if b then "true" else "false") := by
  rw [spelled]

@[simp] theorem spelled_symbol (name : String) : (Value.symbol name).spelled = .symbol name := by
  rw [spelled]

@[simp] theorem spelled_quotation (items : List Value) :
    (Value.quotation items).spelled = .quotation (items.map spelled) := by
  rw [spelled, spelledList_eq_map]

@[simp] theorem spelled_emptyMapping : Value.emptyMapping.spelled = .emptyMapping := by
  rw [spelled]

@[simp] theorem spelled_mapping (key value : Value) :
    (Value.mapping key value).spelled = .mapping key.spelled value.spelled := by
  rw [spelled]

/-- Spelling does not show in the tokens. -/
theorem tokens_spelled (v : Value) : v.spelled.tokens = v.tokens := by
  induction v using Value.induct with
  | integer n => simp
  | boolean b => simp
  | symbol name => simp
  | quotation items ih =>
      have hitems : (items.map spelled).flatMap tokens = items.flatMap tokens := by
        rw [List.flatMap_map]
        exact List.flatMap_congr ih
      rw [spelled_quotation, tokens_quotation, tokens_quotation, hitems]
  | emptyMapping => simp
  | mapping key value hkey hvalue =>
      rw [spelled_mapping, tokens_mapping, tokens_mapping, hkey, hvalue]

/-- A value as reading produces it has nothing to spell. -/
theorem spelled_of_syntactic {v : Value} (h : Syntactic v) : v.spelled = v := by
  induction h using Syntactic.induct with
  | symbol name _ => rw [spelled_symbol]
  | quotation items _ ih =>
      have hitems : items.map spelled = items := (List.map_congr_left ih).trans (List.map_id items)
      rw [spelled_quotation, hitems]
  | emptyMapping => rw [spelled_emptyMapping]
  | mapping key value _ _ hkey hvalue => rw [spelled_mapping, hkey, hvalue]

/-! ## Values whose symbols are tokens -/

/-- A value whose symbols are tokens spells a value that reading can produce. -/
theorem syntactic_spelled {v : Value} (h : TokenNamed v) : Syntactic v.spelled := by
  induction h with
  | @integer n _ => exact .symbol ⟨_, rfl, (Text.isToken_toString n).not_bracket⟩
  | @boolean b _ => exact .symbol ⟨_, rfl, (Text.isToken_truth b).not_bracket⟩
  | symbol h => exact .symbol ⟨_, rfl, (h _ rfl).not_bracket⟩
  | quotation _ ih =>
      rw [spelled_quotation]
      refine .quotation fun w hw => ?_
      obtain ⟨v, hv, rfl⟩ := List.mem_map.1 hw
      exact ih v hv
  | emptyMapping => exact .emptyMapping
  | mapping _ _ hkey hvalue => exact .mapping hkey hvalue

/-- A value whose symbols are tokens is written with words only. -/
theorem isWord_of_mem_tokens {v : Value} (h : TokenNamed v) :
    ∀ t ∈ v.tokens, Text.IsWord t := by
  have hsquare : Text.IsWord "[" ∧ Text.IsWord "]" :=
    ⟨Bracket.isWord_of_mem_tokens (by decide), Bracket.isWord_of_mem_tokens (by decide)⟩
  have hcurly : Text.IsWord "\x7b" ∧ Text.IsWord "\x7d" :=
    ⟨Bracket.isWord_of_mem_tokens (by decide), Bracket.isWord_of_mem_tokens (by decide)⟩
  induction h with
  | @integer n _ => simpa using (Text.isToken_toString n).toIsWord
  | @boolean b _ => simpa using (Text.isToken_truth b).toIsWord
  | symbol h => simpa using (h _ rfl).toIsWord
  | quotation _ ih =>
      intro t ht
      rw [tokens_quotation, List.mem_cons, List.mem_append, List.mem_singleton,
        List.mem_flatMap] at ht
      rcases ht with rfl | ⟨v, hv, ht⟩ | rfl
      · exact hsquare.1
      · exact ih v hv t ht
      · exact hsquare.2
  | emptyMapping => simpa using hcurly
  | mapping _ _ hkey hvalue =>
      intro t ht
      rw [tokens_mapping, List.mem_cons, List.mem_append, List.mem_append,
        List.mem_singleton] at ht
      rcases ht with rfl | (ht | ht) | rfl
      · exact hcurly.1
      · exact hkey t ht
      · exact hvalue t ht
      · exact hcurly.2

/-- A value as reading produces it has tokens for its symbols, if it is written with
words only. -/
theorem tokenNamed_of_syntactic {v : Value} (h : Syntactic v)
    (hwords : ∀ t ∈ v.tokens, Text.IsWord t) : TokenNamed v := by
  induction h using Syntactic.induct with
  | symbol name hbracket =>
      refine .symbol fun name' hname => ?_
      cases hname
      exact ⟨hwords name (by simp), hbracket⟩
  | quotation items _ ih =>
      refine .quotation fun v hv => ih v hv fun t ht => hwords t ?_
      rw [tokens_quotation, List.mem_cons, List.mem_append, List.mem_flatMap]
      exact Or.inr (Or.inl ⟨v, hv, ht⟩)
  | emptyMapping => exact .emptyMapping
  | mapping key value _ _ hkey hvalue =>
      refine .mapping (hkey fun t ht => hwords t ?_) (hvalue fun t ht => hwords t ?_)
      · rw [tokens_mapping, List.mem_cons, List.mem_append, List.mem_append]
        exact Or.inr (Or.inl (Or.inl ht))
      · rw [tokens_mapping, List.mem_cons, List.mem_append, List.mem_append]
        exact Or.inr (Or.inl (Or.inr ht))

end Value

end Catena
