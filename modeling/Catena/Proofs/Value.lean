import Catena.Error
import Catena.Proofs.Text

/-!
# Leaves and tokens of values

A value is a tree whose leaves are integers, booleans and symbols. `EveryLeaf`
says that all leaves of a value, at every depth, have a property. Two such
properties matter to reading and writing: a value is `Syntactic` when its leaves
are symbols that are no brackets, which is what reading produces, and it is
`TokenNamed` when its symbols are tokens, whatever its other leaves are. A third one
matters to writing alone: that the integers of a value are short (`ShortIntegers`).

The tokens of a value are here given by equations on the value alone
(`tokens_quotation`, `tokens_mapping`), in place of the rest list that writing
works with. Writing a value is stopped by its nesting or by a long integer in it, and by
nothing else (`obstacle?_eq_none_iff`).
-/

set_option autoImplicit false

namespace Catena

/-- The four tokens that open or close a group. -/
def Bracket.tokens : List String :=
  [opener .square, closer .square, opener .curly, closer .curly]

/-- A text that can stand as one symbol of a program: it is a word, and no
bracket. -/
structure Text.IsToken (name : String) : Prop extends Text.IsWord name where
  not_bracket : name ∉ Bracket.tokens

instance (name : String) : Decidable (Text.IsToken name) :=
  decidable_of_iff (Text.IsWord name ∧ name ∉ Bracket.tokens)
    ⟨fun h => ⟨h.1, h.2⟩, fun h => ⟨h.toIsWord, h.not_bracket⟩⟩

theorem tooLongToWrite_iff {n : Int} : tooLongToWrite n = true ↔ writeBound ≤ n.natAbs := by
  simp only [tooLongToWrite, decide_eq_true_eq]

namespace Value

/-! ## Leaves -/

/-- All leaves of a value have a property. -/
inductive EveryLeaf (p : Value → Prop) : Value → Prop
  | integer {n : Int} : p (.integer n) → EveryLeaf p (.integer n)
  | boolean {b : Bool} : p (.boolean b) → EveryLeaf p (.boolean b)
  | symbol {name : String} : p (.symbol name) → EveryLeaf p (.symbol name)
  | quotation {items : List Value} :
      (∀ v ∈ items, EveryLeaf p v) → EveryLeaf p (.quotation items)
  | emptyMapping : EveryLeaf p .emptyMapping
  | mapping {key value : Value} :
      EveryLeaf p key → EveryLeaf p value → EveryLeaf p (.mapping key value)

section EveryLeaf

variable {p : Value → Prop}

@[simp] theorem everyLeaf_integer {n : Int} : EveryLeaf p (.integer n) ↔ p (.integer n) :=
  ⟨fun h => by cases h; assumption, .integer⟩

@[simp] theorem everyLeaf_boolean {b : Bool} : EveryLeaf p (.boolean b) ↔ p (.boolean b) :=
  ⟨fun h => by cases h; assumption, .boolean⟩

@[simp] theorem everyLeaf_symbol {name : String} :
    EveryLeaf p (.symbol name) ↔ p (.symbol name) :=
  ⟨fun h => by cases h; assumption, .symbol⟩

@[simp] theorem everyLeaf_quotation {items : List Value} :
    EveryLeaf p (.quotation items) ↔ ∀ v ∈ items, EveryLeaf p v :=
  ⟨fun h => by cases h; assumption, .quotation⟩

@[simp] theorem everyLeaf_emptyMapping : EveryLeaf p .emptyMapping :=
  .emptyMapping

@[simp] theorem everyLeaf_mapping {key value : Value} :
    EveryLeaf p (.mapping key value) ↔ EveryLeaf p key ∧ EveryLeaf p value :=
  ⟨fun h => by cases h; constructor <;> assumption, fun h => .mapping h.1 h.2⟩

/-- A weaker property holds of all leaves as well. -/
theorem EveryLeaf.mono {q : Value → Prop} {v : Value} (h : EveryLeaf p v)
    (hpq : ∀ leaf, p leaf → q leaf) : EveryLeaf q v := by
  induction h with
  | integer h => exact .integer (hpq _ h)
  | boolean h => exact .boolean (hpq _ h)
  | symbol h => exact .symbol (hpq _ h)
  | quotation _ ih => exact .quotation ih
  | emptyMapping => exact .emptyMapping
  | mapping _ _ hkey hvalue => exact .mapping hkey hvalue

end EveryLeaf

/-- A value as reading produces it: made of groups and of symbols that are no
brackets. -/
def Syntactic : Value → Prop :=
  EveryLeaf fun leaf => ∃ name, leaf = .symbol name ∧ name ∉ Bracket.tokens

/-- Induction over values as reading produces them: symbols are their only leaves. -/
@[elab_as_elim]
theorem Syntactic.induct {motive : ∀ v, Syntactic v → Prop}
    (symbol : ∀ name (h : name ∉ Bracket.tokens), motive (.symbol name) (.symbol ⟨name, rfl, h⟩))
    (quotation : ∀ items (h : ∀ v ∈ items, Syntactic v), (∀ v hv, motive v (h v hv)) →
      motive (.quotation items) (.quotation h))
    (emptyMapping : motive .emptyMapping .emptyMapping)
    (mapping : ∀ key value (hk : Syntactic key) (hv : Syntactic value), motive key hk →
      motive value hv → motive (.mapping key value) (.mapping hk hv))
    {v : Value} (h : Syntactic v) : motive v h := by
  induction h with
  | integer h =>
      obtain ⟨name, hname, -⟩ := h
      cases hname
  | boolean h =>
      obtain ⟨name, hname, -⟩ := h
      cases hname
  | @symbol called h =>
      obtain ⟨name, hname, hbracket⟩ := h
      cases hname
      exact symbol called hbracket
  | quotation h ih => exact quotation _ h ih
  | emptyMapping => exact emptyMapping
  | mapping hk hv ihk ihv => exact mapping _ _ hk hv ihk ihv

/-- A value whose symbols, at every depth, are tokens. -/
def TokenNamed : Value → Prop :=
  EveryLeaf fun leaf => ∀ name, leaf = .symbol name → Text.IsToken name

/-- A value made of groups and of symbols that are tokens. -/
def OfTokens : Value → Prop :=
  EveryLeaf fun leaf => ∃ name, leaf = .symbol name ∧ Text.IsToken name

theorem OfTokens.syntactic {v : Value} (h : OfTokens v) : Syntactic v := by
  refine EveryLeaf.mono h fun leaf hleaf => ?_
  obtain ⟨name, rfl, hname⟩ := hleaf
  exact ⟨name, rfl, hname.not_bracket⟩

theorem OfTokens.tokenNamed {v : Value} (h : OfTokens v) : TokenNamed v := by
  refine EveryLeaf.mono h fun leaf hleaf => ?_
  obtain ⟨name, rfl, hname⟩ := hleaf
  intro called hcalled
  cases hcalled
  exact hname

/-- A value whose integers, at every depth, are short enough to be written. -/
def ShortIntegers : Value → Prop :=
  EveryLeaf fun leaf => ∀ n, leaf = .integer n → n.natAbs < writeBound

/-- There are no integers in a value as reading produces it. -/
theorem Syntactic.shortIntegers {v : Value} (h : Syntactic v) : v.ShortIntegers := by
  refine EveryLeaf.mono h fun leaf hleaf => ?_
  rintro n rfl
  obtain ⟨name, hname, -⟩ := hleaf
  cases hname

/-! ## Nested quotations -/

/-- A value inside of `n` quotations, one in another. -/
def nested : Nat → Value → Value
  | 0, v => v
  | n + 1, v => .quotation [nested n v]

@[simp] theorem depth_nested (n : Nat) (v : Value) : (nested n v).depth = n + v.depth := by
  induction n with
  | zero => simp [nested]
  | succ n ih =>
      simp only [nested, depth_quotation, depthList_cons, depthList_nil, ih]
      omega

@[simp] theorem everyLeaf_nested {p : Value → Prop} (n : Nat) (v : Value) :
    EveryLeaf p (nested n v) ↔ EveryLeaf p v := by
  induction n with
  | zero => exact Iff.rfl
  | succ n ih => simp only [nested, everyLeaf_quotation, List.mem_singleton, forall_eq, ih]

theorem isQuotation_nested {n : Nat} (h : 0 < n) (v : Value) :
    (nested n v).isQuotation = true := by
  cases n with
  | zero => cases h
  | succ n => rfl

/-- A quotation 12000 levels deep. It is not to be unfolded: all that matters of it is
stated below. -/
@[irreducible] def deep : Value :=
  nested 12000 (.symbol "x")

theorem isQuotation_deep : deep.isQuotation = true := by
  rw [deep]
  exact isQuotation_nested (Nat.succ_pos _) _

theorem depth_deep : deep.depth = 12000 := by
  rw [deep, depth_nested]
  rfl

theorem ofTokens_deep : OfTokens deep := by
  rw [deep, OfTokens, everyLeaf_nested]
  exact .symbol ⟨"x", rfl, by decide⟩

/-! ## Tokens -/

mutual
/-- Writing a value in front of other tokens puts its tokens there. -/
theorem tokensOnto_eq_append : ∀ (v : Value) (rest : List String),
    v.tokensOnto rest = v.tokens ++ rest
  | .integer n, rest => by simp [tokens, tokensOnto]
  | .boolean b, rest => by simp [tokens, tokensOnto]
  | .symbol name, rest => by simp [tokens, tokensOnto]
  | .quotation items, rest => by
      simp only [tokens, tokensOnto]
      rw [tokensListOnto_eq_append items ("]" :: rest), tokensListOnto_eq_append items ["]"]]
      simp
  | .emptyMapping, rest => by simp [tokens, tokensOnto]
  | .mapping key value, rest => by
      simp only [tokens, tokensOnto]
      rw [tokensOnto_eq_append key (value.tokensOnto ("\x7d" :: rest)),
        tokensOnto_eq_append key (value.tokensOnto ["\x7d"]),
        tokensOnto_eq_append value ("\x7d" :: rest), tokensOnto_eq_append value ["\x7d"]]
      simp
/-- Writing a list of values in front of other tokens puts their tokens there, in
order. -/
theorem tokensListOnto_eq_append : ∀ (vs : List Value) (rest : List String),
    tokensListOnto vs rest = vs.flatMap tokens ++ rest
  | [], rest => by simp [tokensListOnto]
  | v :: vs, rest => by
      rw [tokensListOnto, tokensOnto_eq_append v, tokensListOnto_eq_append vs]
      simp
end

@[simp] theorem tokens_integer (n : Int) : (Value.integer n).tokens = [toString n] := by
  simp [tokens, tokensOnto]

@[simp] theorem tokens_boolean (b : Bool) :
    (Value.boolean b).tokens = [if b then "true" else "false"] := by
  simp [tokens, tokensOnto]

@[simp] theorem tokens_symbol (name : String) : (Value.symbol name).tokens = [name] := by
  simp [tokens, tokensOnto]

@[simp] theorem tokens_quotation (items : List Value) :
    (Value.quotation items).tokens = "[" :: (items.flatMap tokens ++ ["]"]) := by
  rw [tokens, tokensOnto, tokensListOnto_eq_append]

@[simp] theorem tokens_emptyMapping : Value.emptyMapping.tokens = ["\x7b", "\x7d"] := by
  simp [tokens, tokensOnto]

@[simp] theorem tokens_mapping (key value : Value) :
    (Value.mapping key value).tokens = "\x7b" :: (key.tokens ++ value.tokens ++ ["\x7d"]) := by
  rw [tokens, tokensOnto, tokensOnto_eq_append key, tokensOnto_eq_append value,
    List.append_assoc]

/-! ## Obstacles -/

theorem obstacleList?_eq_none_iff (room : Nat) (vs : List Value) :
    obstacleList? room vs = none ↔ ∀ v ∈ vs, obstacle? room v = none := by
  induction vs with
  | nil => simp [obstacleList?]
  | cons v vs ih => rw [obstacleList?, Option.or_eq_none_iff, ih, List.forall_mem_cons]

theorem two_mul_depthList_le_iff (room : Nat) (vs : List Value) :
    2 * depthList vs ≤ room ↔ ∀ v ∈ vs, 2 * v.depth ≤ room := by
  induction vs with
  | nil => simp
  | cons v vs ih =>
      rw [depthList_cons, List.forall_mem_cons, ← ih]
      omega

/-- A group is written exactly when its level fits and nothing in it is in the way. -/
theorem ite_room_eq_none_iff {room : Nat} {inside : Option Fault} :
    (if room < 2 then some Fault.nestingTooDeep else inside) = none ↔
      2 ≤ room ∧ inside = none := by
  split
  · simp only [reduceCtorEq, false_iff]
    omega
  · simp only [iff_and_self]
    omega

/-- Two things only stop the writing of a value: its nesting, each level of which takes two
units of the limit, and an integer that is too long. -/
theorem obstacle?_eq_none_iff (room : Nat) (v : Value) :
    v.obstacle? room = none ↔ 2 * v.depth ≤ room ∧ v.ShortIntegers := by
  -- what is left of the room changes with the level, so the induction is over all rooms
  induction v using Value.induct generalizing room with
  | integer n => simp [obstacle?, depth, ShortIntegers, tooLongToWrite_iff]
  | boolean b => simp [obstacle?, depth, ShortIntegers]
  | symbol name => simp [obstacle?, depth, ShortIntegers]
  | quotation items ih =>
      have hitems : obstacleList? (room - 2) items = none ↔
          2 * depthList items ≤ room - 2 ∧ ∀ v ∈ items, v.ShortIntegers := by
        rw [obstacleList?_eq_none_iff, two_mul_depthList_le_iff]
        constructor
        · intro h
          exact ⟨fun v hv => ((ih v hv _).1 (h v hv)).1, fun v hv => ((ih v hv _).1 (h v hv)).2⟩
        · rintro ⟨hdepth, hshort⟩ v hv
          exact (ih v hv _).2 ⟨hdepth v hv, hshort v hv⟩
      rw [obstacle?, depth_quotation, ite_room_eq_none_iff, hitems, ShortIntegers,
        everyLeaf_quotation, ← and_assoc]
      exact and_congr_left' (by omega)
  | emptyMapping =>
      rw [obstacle?, depth, ite_room_eq_none_iff]
      simp [ShortIntegers]
  | mapping key value hkey hvalue =>
      rw [obstacle?, depth_mapping, ite_room_eq_none_iff, Option.or_eq_none_iff, hkey, hvalue,
        ShortIntegers, everyLeaf_mapping]
      constructor
      · rintro ⟨hroom, ⟨hk, hks⟩, hv, hvs⟩
        exact ⟨by omega, hks, hvs⟩
      · rintro ⟨hdepth, hks, hvs⟩
        exact ⟨by omega, ⟨by omega, hks⟩, by omega, hvs⟩

/-- The text of a value is there exactly when nothing stops the writing. It is that of the
tokens, joined by single spaces. -/
theorem render_eq_ok_iff {limit : Nat} {v : Value} {text : String} :
    v.render limit = .ok text ↔
      (2 * v.depth ≤ limit ∧ v.ShortIntegers) ∧ " ".intercalate v.tokens = text := by
  rw [← obstacle?_eq_none_iff, render]
  cases v.obstacle? limit <;> simp

/-- A value whose integers are short can be written exactly when its nesting allows it. -/
theorem exists_render_iff_of_shortIntegers {v : Value} (h : v.ShortIntegers) (limit : Nat) :
    (∃ text, v.render limit = .ok text) ↔ 2 * v.depth ≤ limit := by
  simp only [render_eq_ok_iff, exists_and_left, exists_eq', and_true]
  exact and_iff_left h

end Value

end Catena
