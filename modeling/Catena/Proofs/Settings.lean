import Catena.Settings
import Mathlib.Data.List.Induction
import Mathlib.Data.List.TakeWhile
import Mathlib.Data.Nat.Digits.Defs
import Mathlib.Order.Bounds.Basic

/-!
# The nesting limit only rises

The environment may ask for a nesting limit by a text, and every call that applies it may see an
environment of its own.

* `Settings.Denotes` says which texts are integers and what they denote: blanks, then possibly a
  sign, then digits of any script with single underscores between them, then blanks. However
  many digits there are, a text denotes one integer at most (`Settings.Denotes.unique`).
* The reader of settings finds the integer that a text denotes if the text has at most
  `digitLimit` digits, and none otherwise (`Settings.integer?_eq_some_iff`).
* `Settings.Configures` says which limit an environment is meant to ask for: the integer, or ten
  thousand if there is no text or the text is no integer, but at least one hundred.
  `Settings.Wants` says which one it gets to ask for. The two are the same if the text has not too
  many digits, and otherwise it is ten thousand (`Settings.wants_iff_ite`).
* A call raises the limit in force to the one asked for, and a limit that is too large leaves it
  (`Settings.limitAfter_eq`). After any number of calls the limit is therefore the greatest of the
  first one and all that could be set, in whatever order they were asked for
  (`Settings.limit_rises`).
-/

set_option autoImplicit false

namespace Catena

/-! ## Blanks around a text -/

namespace Text

/-- A decimal digit of any script is not blank. -/
theorem isBlank_of_digitValue? {c : Char} {digit : Nat} (h : digitValue? c = some digit) :
    isBlank c = false := by
  have hapart : ∀ first ∈ digitZeros, ∀ range ∈ blankRanges,
      first + 10 ≤ range.1 ∨ range.2 < first := by decide
  obtain ⟨first, hfound, -⟩ := Option.map_eq_some_iff.1 h
  have hmem : first ∈ digitZeros := List.mem_of_find?_eq_some hfound
  have hin := List.find?_some hfound
  simp only [Bool.and_eq_true, decide_eq_true_eq] at hin
  rw [isBlank, inRanges, List.any_eq_false]
  intro range hrange
  have hrange := hapart first hmem range hrange
  simp only [Bool.and_eq_true, decide_eq_true_eq]
  omega

/-- Stripping takes blanks off the two ends. -/
theorem exists_append_strip (text : String) :
    ∃ front back, text.toList = front ++ strip text ++ back ∧
      (∀ c ∈ front, isBlank c = true) ∧ ∀ c ∈ back, isBlank c = true := by
  refine ⟨text.toList.takeWhile isBlank,
    ((text.toList.dropWhile isBlank).reverse.takeWhile isBlank).reverse, ?_, ?_, ?_⟩
  · rw [strip, List.append_assoc, ← List.reverse_append, List.takeWhile_append_dropWhile,
      List.reverse_reverse, List.takeWhile_append_dropWhile]
  · intro c hc
    exact List.mem_takeWhile_imp hc
  · intro c hc
    exact List.mem_takeWhile_imp (List.mem_reverse.1 hc)

/-- Characters that are not blank are what is left when the blanks around them are taken off. -/
theorem strip_of_append {text : String} {front core back : List Char}
    (h : text.toList = front ++ core ++ back) (hfront : ∀ c ∈ front, isBlank c = true)
    (hback : ∀ c ∈ back, isBlank c = true) (hne : core ≠ [])
    (hcore : ∀ c ∈ core, isBlank c = false) : strip text = core := by
  -- what begins with a character that is not blank keeps it, from either end
  have hkeep : ∀ (xs rest : List Char), xs ≠ [] → (∀ c ∈ xs, isBlank c = false) →
      (xs ++ rest).dropWhile isBlank = xs ++ rest := by
    intro xs rest hxs hnot
    cases xs with
    | nil => exact absurd rfl hxs
    | cons c xs => simp [hnot c List.mem_cons_self]
  have hback' : ∀ c ∈ back.reverse, isBlank c = true := by simpa using hback
  have hcore' : ∀ c ∈ core.reverse, isBlank c = false := by simpa using hcore
  have hne' : core.reverse ≠ [] := by simpa using hne
  have hright := hkeep core.reverse [] hne' hcore'
  rw [List.append_nil] at hright
  rw [strip, h, List.append_assoc, List.dropWhile_append_of_pos hfront, hkeep core back hne hcore,
    List.reverse_append, List.dropWhile_append_of_pos hback', hright, List.reverse_reverse]

end Text

/-! ## Texts that denote integers -/

namespace Settings

/-- Digits in which single underscores may stand between two of them, and the values of the
digits. -/
inductive DigitRun : List Char → List Nat → Prop
  | last {c : Char} {digit : Nat} : Text.digitValue? c = some digit → DigitRun [c] [digit]
  | next {c : Char} {digit : Nat} {text : List Char} {digits : List Nat} :
      Text.digitValue? c = some digit → DigitRun text digits →
      DigitRun (c :: text) (digit :: digits)
  | underscore {c : Char} {digit : Nat} {text : List Char} {digits : List Nat} :
      Text.digitValue? c = some digit → DigitRun text digits →
      DigitRun (c :: '_' :: text) (digit :: digits)

/-- Digits, and the natural number that they stand for in base ten. -/
inductive Unsigned : List Char → Nat → Prop
  | intro {text : List Char} {digits : List Nat} :
      DigitRun text digits → Unsigned text (Nat.ofDigits 10 digits.reverse)

/-- A number with or without a sign. -/
inductive Signed : List Char → Int → Prop
  | bare {text : List Char} {n : Nat} : Unsigned text n → Signed text n
  | plus {text : List Char} {n : Nat} : Unsigned text n → Signed ('+' :: text) n
  | minus {text : List Char} {n : Nat} : Unsigned text n → Signed ('-' :: text) (-n)

/-- A text denotes an integer: the integer is written in it, and all around it is blank. -/
def Denotes (text : String) (n : Int) : Prop :=
  ∃ front core back, text.toList = front ++ core ++ back ∧ Signed core n ∧
    (∀ c ∈ front, Text.isBlank c = true) ∧ ∀ c ∈ back, Text.isBlank c = true

/-- The number of digits in a text. -/
def digitCount (text : List Char) : Nat :=
  text.countP fun c => (Text.digitValue? c).isSome

/-- What may follow a digit, with the values of the digits in it. -/
def AfterDigit (text : List Char) (digits : List Nat) : Prop :=
  text = [] ∧ digits = [] ∨ DigitRun text digits ∨ ∃ rest, text = '_' :: rest ∧ DigitRun rest digits

section Digits

variable {c : Char} {text : List Char} {digits : List Nat}

theorem digitRun_cons_iff :
    DigitRun (c :: text) digits ↔
      ∃ digit others, Text.digitValue? c = some digit ∧ digits = digit :: others ∧
        AfterDigit text others := by
  constructor
  · intro h
    cases h with
    | last hc => exact ⟨_, _, hc, rfl, Or.inl ⟨rfl, rfl⟩⟩
    | next hc htext => exact ⟨_, _, hc, rfl, Or.inr (Or.inl htext)⟩
    | underscore hc htext => exact ⟨_, _, hc, rfl, Or.inr (Or.inr ⟨_, rfl, htext⟩)⟩
  · rintro ⟨digit, others, hc, rfl, ⟨rfl, rfl⟩ | htext | ⟨rest, rfl, htext⟩⟩
    · exact .last hc
    · exact .next hc htext
    · exact .underscore hc htext

theorem not_digitRun_of_digitValue? (hc : Text.digitValue? c = none) :
    ¬ DigitRun (c :: text) digits := by
  rw [digitRun_cons_iff]
  rintro ⟨digit, others, hsome, -⟩
  rw [hc] at hsome
  cases hsome

theorem DigitRun.ne_nil (h : DigitRun text digits) : text ≠ [] := by
  cases h <;> exact List.cons_ne_nil _ _

theorem DigitRun.not_blank (h : DigitRun text digits) : ∀ c ∈ text, Text.isBlank c = false := by
  induction h with
  | last hc =>
      rw [List.forall_mem_singleton]
      exact Text.isBlank_of_digitValue? hc
  | next hc _ ih =>
      rw [List.forall_mem_cons]
      exact ⟨Text.isBlank_of_digitValue? hc, ih⟩
  | underscore hc _ ih =>
      rw [List.forall_mem_cons, List.forall_mem_cons]
      exact ⟨Text.isBlank_of_digitValue? hc, by decide, ih⟩

theorem digitCount_cons {digit : Nat} (hc : Text.digitValue? c = some digit) :
    digitCount (c :: text) = digitCount text + 1 := by
  simp [digitCount, hc]

theorem digitCount_cons_of_none (hc : Text.digitValue? c = none) :
    digitCount (c :: text) = digitCount text := by
  simp [digitCount, hc]

/-- Apart from underscores there are digits only. -/
theorem DigitRun.digitCount_eq (h : DigitRun text digits) : digitCount text = digits.length := by
  induction h with
  | last hc => simp [digitCount, hc]
  | next hc _ ih => rw [digitCount_cons hc, ih, List.length_cons]
  | underscore hc _ ih =>
      rw [digitCount_cons hc, digitCount_cons_of_none (by decide), ih, List.length_cons]

/-- A first character that is no underscore between two digits has to be a digit. -/
theorem digitRun?_cons {afterDigit : Bool} (h : afterDigit = true → c ≠ '_') :
    digitRun? afterDigit (c :: text) = some digits ↔
      ∃ digit others, Text.digitValue? c = some digit ∧ digits = digit :: others ∧
        digitRun? true text = some others := by
  rw [digitRun?]
  · cases Text.digitValue? c with
    | none => simp
    | some digit => simp [eq_comm, and_comm]
  · exact h

/-- The reader of digits accepts the runs of digits and no other texts. -/
theorem digitRun?_eq_some_iff (text : List Char) :
    (∀ digits, digitRun? false text = some digits ↔ DigitRun text digits) ∧
      ∀ digits, digitRun? true text = some digits ↔ AfterDigit text digits := by
  induction text with
  | nil =>
      refine ⟨?_, ?_⟩
      · intro digits
        simp only [digitRun?, reduceCtorEq, false_iff]
        intro h
        exact h.ne_nil rfl
      · intro digits
        have hnot : ¬ DigitRun [] digits := fun h => h.ne_nil rfl
        simp [digitRun?, AfterDigit, hnot, eq_comm]
  | cons c text ih =>
      obtain ⟨hbare, hafter⟩ := ih
      have hdigit : ∀ afterDigit : Bool, (afterDigit = true → c ≠ '_') → ∀ digits,
          digitRun? afterDigit (c :: text) = some digits ↔ DigitRun (c :: text) digits := by
        intro afterDigit h digits
        rw [digitRun?_cons h, digitRun_cons_iff]
        simp only [hafter]
      refine ⟨hdigit false (by simp), ?_⟩
      intro digits
      by_cases hc : c = '_'
      · subst hc
        have hnot : ¬ DigitRun ('_' :: text) digits := not_digitRun_of_digitValue? (by decide)
        simp [digitRun?, AfterDigit, hnot, hbare]
      · rw [hdigit true (fun _ => hc)]
        simp [AfterDigit, hc]

theorem foldl_eq_ofDigits (digits : List Nat) :
    digits.foldl (fun n digit => 10 * n + digit) 0 = Nat.ofDigits 10 digits.reverse := by
  rw [Nat.ofDigits_eq_foldr, List.foldr_reverse]
  simp [Nat.add_comm]

/-- A run of digits has one value for each of them. -/
theorem DigitRun.unique {others : List Nat} (h : DigitRun text digits)
    (h' : DigitRun text others) : digits = others := by
  rw [← (digitRun?_eq_some_iff text).1] at h h'
  rw [h] at h'
  exact Option.some.inj h'

theorem natural?_eq_some_iff {n : Nat} :
    natural? text = some n ↔ Unsigned text n ∧ digitCount text ≤ digitLimit := by
  have hrun := (digitRun?_eq_some_iff text).1
  unfold natural?
  constructor
  · intro h
    cases hdigits : digitRun? false text with
    | none => simp [hdigits] at h
    | some digits =>
        simp only [hdigits, Option.ite_none_right_eq_some, Option.some.injEq] at h
        obtain ⟨hlength, rfl⟩ := h
        have hread := (hrun digits).1 hdigits
        rw [foldl_eq_ofDigits, hread.digitCount_eq]
        exact ⟨.intro hread, hlength⟩
  · rintro ⟨⟨hdigits⟩, hlength⟩
    rw [hdigits.digitCount_eq] at hlength
    simp only [(hrun _).2 hdigits, if_pos hlength, foldl_eq_ofDigits]

end Digits

/-! ## The integer of a text -/

section Integers

variable {text : List Char} {n : Int}

theorem Unsigned.ne_nil {n : Nat} (h : Unsigned text n) : text ≠ [] := by
  obtain ⟨hdigits⟩ := h
  exact hdigits.ne_nil

theorem Unsigned.not_blank {n : Nat} (h : Unsigned text n) :
    ∀ c ∈ text, Text.isBlank c = false := by
  obtain ⟨hdigits⟩ := h
  exact hdigits.not_blank

theorem Unsigned.unique {n m : Nat} (h : Unsigned text n) (h' : Unsigned text m) : n = m := by
  obtain ⟨hdigits⟩ := h
  obtain ⟨hdigits'⟩ := h'
  rw [hdigits.unique hdigits']

theorem Signed.ne_nil (h : Signed text n) : text ≠ [] := by
  cases h with
  | bare h => exact h.ne_nil
  | plus _ | minus _ => exact List.cons_ne_nil _ _

theorem Signed.not_blank (h : Signed text n) : ∀ c ∈ text, Text.isBlank c = false := by
  cases h with
  | bare h => exact h.not_blank
  | plus h | minus h =>
      rw [List.forall_mem_cons]
      exact ⟨by decide, h.not_blank⟩

/-- A number that begins with a digit begins with no sign. -/
theorem not_unsigned_of_sign {c : Char} {n : Nat} (hc : c = '+' ∨ c = '-') :
    ¬ Unsigned (c :: text) n := by
  rintro ⟨hdigits⟩
  rcases hc with rfl | rfl
  · exact not_digitRun_of_digitValue? (by decide) hdigits
  · exact not_digitRun_of_digitValue? (by decide) hdigits

/-- A number with a sign has no other reading. -/
theorem Signed.unique {m : Int} (h : Signed text n) (h' : Signed text m) : n = m := by
  -- a sign in front is seen from both sides, since no digit is a sign
  cases h with
  | bare h =>
      cases h' with
      | bare h' => rw [h.unique h']
      | plus _ => exact absurd h (not_unsigned_of_sign (Or.inl rfl))
      | minus _ => exact absurd h (not_unsigned_of_sign (Or.inr rfl))
  | plus h =>
      cases h' with
      | bare h' => exact absurd h' (not_unsigned_of_sign (Or.inl rfl))
      | plus h' => rw [h.unique h']
  | minus h =>
      cases h' with
      | bare h' => exact absurd h' (not_unsigned_of_sign (Or.inr rfl))
      | minus h' => rw [h.unique h']

/-- What denotes an integer is what is left without the blanks around it. -/
theorem denotes_iff {text : String} : Denotes text n ↔ Signed (Text.strip text) n := by
  constructor
  · rintro ⟨front, core, back, htext, h, hfront, hback⟩
    rw [Text.strip_of_append htext hfront hback h.ne_nil h.not_blank]
    exact h
  · intro h
    obtain ⟨front, back, htext, hfront, hback⟩ := Text.exists_append_strip text
    exact ⟨front, _, back, htext, h, hfront, hback⟩

/-- A text denotes one integer at most. -/
theorem Denotes.unique {text : String} {m : Int} (h : Denotes text n) (h' : Denotes text m) :
    n = m := by
  rw [denotes_iff] at h h'
  exact h.unique h'

/-- There are no digits among the blanks around a text. -/
theorem digitCount_strip (text : String) :
    digitCount (Text.strip text) = digitCount text.toList := by
  have hblank : ∀ blanks : List Char, (∀ c ∈ blanks, Text.isBlank c = true) →
      digitCount blanks = 0 := by
    intro blanks hblanks
    rw [digitCount, List.countP_eq_zero]
    intro c hc hdigit
    obtain ⟨digit, hvalue⟩ := Option.isSome_iff_exists.1 hdigit
    have hblank := hblanks c hc
    rw [Text.isBlank_of_digitValue? hvalue] at hblank
    cases hblank
  obtain ⟨front, back, htext, hfront, hback⟩ := Text.exists_append_strip text
  have hfront := hblank front hfront
  have hback := hblank back hback
  rw [digitCount] at hfront hback
  rw [htext, digitCount, digitCount, List.countP_append, List.countP_append, hfront, hback,
    Nat.zero_add, Nat.add_zero]

theorem integer?_eq_some_iff_signed {text : String} :
    integer? text = some n ↔
      Signed (Text.strip text) n ∧ digitCount (Text.strip text) ≤ digitLimit := by
  -- one case for each sign and one for none; a sign is no digit, so it does not count
  unfold integer?
  split
  · rename_i rest hstrip
    simp only [hstrip, Option.map_eq_some_iff, natural?_eq_some_iff]
    rw [digitCount_cons_of_none (by decide)]
    constructor
    · rintro ⟨m, ⟨hm, hcount⟩, rfl⟩
      exact ⟨.plus hm, hcount⟩
    · rintro ⟨h, hcount⟩
      cases h with
      | bare h => exact absurd h (not_unsigned_of_sign (Or.inl rfl))
      | plus h => exact ⟨_, ⟨h, hcount⟩, rfl⟩
  · rename_i rest hstrip
    simp only [hstrip, Option.map_eq_some_iff, natural?_eq_some_iff]
    rw [digitCount_cons_of_none (by decide)]
    constructor
    · rintro ⟨m, ⟨hm, hcount⟩, rfl⟩
      exact ⟨.minus hm, hcount⟩
    · rintro ⟨h, hcount⟩
      cases h with
      | bare h => exact absurd h (not_unsigned_of_sign (Or.inr rfl))
      | minus h => exact ⟨_, ⟨h, hcount⟩, rfl⟩
  · rename_i hplus hminus
    simp only [Option.map_eq_some_iff, natural?_eq_some_iff]
    constructor
    · rintro ⟨m, ⟨hm, hcount⟩, rfl⟩
      exact ⟨.bare hm, hcount⟩
    · generalize Text.strip text = core at hplus hminus ⊢
      rintro ⟨h, hcount⟩
      cases h with
      | bare h => exact ⟨_, ⟨h, hcount⟩, rfl⟩
      | plus _ => exact absurd rfl (hplus _)
      | minus _ => exact absurd rfl (hminus _)

/-- The integer of a text is the one that it denotes, unless the text has too many digits. -/
theorem integer?_eq_some_iff {text : String} :
    integer? text = some n ↔ Denotes text n ∧ digitCount text.toList ≤ digitLimit := by
  rw [integer?_eq_some_iff_signed, denotes_iff, digitCount_strip]

/-- A text with too many digits is given up, whatever it denotes. -/
theorem integer?_eq_none_of_lt {text : String} (h : digitLimit < digitCount text.toList) :
    integer? text = none := by
  rw [Option.eq_none_iff_forall_ne_some]
  intro n hn
  exact Nat.not_le.2 h (integer?_eq_some_iff.1 hn).2

end Integers

/-! ## The limit that is asked for -/

/-- The nesting limit that an environment is meant to ask for. -/
inductive Configures (env : Environment) : Nat → Prop
  /-- There is a text and it denotes an integer. -/
  | integer {text : String} {n : Int} :
      env.lookup "YAFT_RECURSION_LIMIT" = some text → Denotes text n →
      Configures env (max n 100).toNat
  /-- There is no text, or it denotes none. -/
  | standard :
      (∀ text n, env.lookup "YAFT_RECURSION_LIMIT" = some text → ¬ Denotes text n) →
      Configures env 10000

/-- The text of the environment, if there is one, has few enough digits to be read. -/
def Legible (env : Environment) : Prop :=
  ∀ text, env.lookup "YAFT_RECURSION_LIMIT" = some text → digitCount text.toList ≤ digitLimit

instance (env : Environment) : Decidable (Legible env) :=
  inferInstanceAs (Decidable (∀ text, env.lookup "YAFT_RECURSION_LIMIT" = some text →
    digitCount text.toList ≤ digitLimit))

/-- The nesting limit that an environment gets to ask for. -/
inductive Wants (env : Environment) : Nat → Prop
  | configured {wanted : Nat} : Legible env → Configures env wanted → Wants env wanted
  | standard : ¬ Legible env → Wants env 10000

section Limits

variable {env : Environment} {wanted current : Nat}

theorem Configures.unique {other : Nat} (h : Configures env wanted) (h' : Configures env other) :
    wanted = other := by
  cases h with
  | integer htext hn =>
      cases h' with
      | standard hnone => exact absurd hn (hnone _ _ htext)
      | integer htext' hn' =>
          rw [htext] at htext'
          cases htext'
          rw [hn.unique hn']
  | standard hnone =>
      cases h' with
      | standard _ => rfl
      | integer htext hn => exact absurd hn (hnone _ _ htext)

theorem exists_configures (env : Environment) : ∃ wanted, Configures env wanted := by
  by_cases h : ∃ text n, env.lookup "YAFT_RECURSION_LIMIT" = some text ∧ Denotes text n
  · obtain ⟨text, n, htext, hn⟩ := h
    exact ⟨_, .integer htext hn⟩
  · refine ⟨_, .standard ?_⟩
    intro text n htext hn
    exact h ⟨text, n, htext, hn⟩

/-- An environment gets to ask for what it is meant to ask for, unless its text is not legible. -/
theorem wants_iff_ite :
    Wants env wanted ↔ if Legible env then Configures env wanted else wanted = 10000 := by
  split
  · rename_i hlegible
    refine ⟨?_, .configured hlegible⟩
    intro h
    cases h with
    | configured _ hconfigured => exact hconfigured
    | standard hillegible => exact absurd hlegible hillegible
  · rename_i hillegible
    constructor
    · intro h
      cases h with
      | configured hlegible _ => exact absurd hlegible hillegible
      | standard _ => rfl
    · rintro rfl
      exact .standard hillegible

theorem Wants.unique {other : Nat} (h : Wants env wanted) (h' : Wants env other) :
    wanted = other := by
  rw [wants_iff_ite] at h h'
  by_cases hlegible : Legible env
  · rw [if_pos hlegible] at h h'
    exact h.unique h'
  · rw [if_neg hlegible] at h h'
    rw [h, h']

/-- What an environment gets to ask for is what the settings make of it. -/
theorem wants_wantedLimit (env : Environment) : Wants env (wantedLimit env) := by
  unfold wantedLimit integerOr
  cases htext : env.lookup "YAFT_RECURSION_LIMIT" with
  | none =>
      have hnone : ∀ text, env.lookup "YAFT_RECURSION_LIMIT" ≠ some text := by simp [htext]
      exact .configured (fun text hsome => absurd hsome (hnone text))
        (.standard fun text n hsome _ => hnone text hsome)
  | some text =>
      have hlegible : Legible env ↔ digitCount text.toList ≤ digitLimit := by
        simp [Legible, htext]
      by_cases hcount : digitCount text.toList ≤ digitLimit
      · refine .configured (hlegible.2 hcount) ?_
        cases hn : integer? text with
        | some n =>
            simp only [hn, Option.getD_some]
            exact .integer htext (integer?_eq_some_iff.1 hn).1
        | none =>
            -- a short text that is not read denotes no integer
            simp only [hn, Option.getD_none]
            refine .standard ?_
            intro other n hother hdenotes
            rw [htext, Option.some.injEq] at hother
            subst hother
            rw [integer?_eq_some_iff.2 ⟨hdenotes, hcount⟩] at hn
            cases hn
      · have hnone : integer? text = none := integer?_eq_none_of_lt (Nat.lt_of_not_le hcount)
        simp only [hnone, Option.getD_none]
        exact .standard (mt hlegible.1 hcount)

/-- Every environment gets to ask for one limit. -/
theorem wants_iff : Wants env wanted ↔ wantedLimit env = wanted := by
  constructor
  · intro h
    exact (wants_wantedLimit env).unique h
  · rintro rfl
    exact wants_wantedLimit env

/-! ## Calls in sequence -/

/-- The limit in force after a call that applies the environment's. A call that fails leaves the
one before. -/
def limitAfter (current : Nat) (env : Environment) : Nat :=
  match raiseLimit current env with
  | .ok limit => limit
  | .error _ => current

/-- The limit in force after calls in sequence. -/
def limitAfterAll (start : Nat) (envs : List Environment) : Nat :=
  envs.foldl limitAfter start

theorem greatestLimit_eq : greatestLimit = 2 ^ 31 - 1 :=
  rfl

/-- A limit that can be set is set, unless the one in force is greater already. -/
theorem raiseLimit_of_lt (hwanted : Wants env wanted) (h : wanted < 2 ^ 31) :
    raiseLimit current env = .ok (max current wanted) := by
  rw [wants_iff] at hwanted
  have hgreat : wanted ≤ greatestLimit := Nat.le_sub_one_of_lt h
  simp only [raiseLimit, hwanted, if_pos hgreat]
  by_cases hless : current < wanted
  · rw [if_pos hless, Nat.max_eq_right (Nat.le_of_lt hless)]
  · rw [if_neg hless, Nat.max_eq_left (Nat.le_of_not_lt hless)]

/-- A limit that is too large cannot be set. -/
theorem raiseLimit_of_le (hwanted : Wants env wanted) (h : 2 ^ 31 ≤ wanted)
    (hcurrent : current < 2 ^ 31) : raiseLimit current env = .error .limitTooLarge := by
  rw [wants_iff] at hwanted
  have hless : current < wanted := Nat.lt_of_lt_of_le hcurrent h
  have hgreat : ¬ wanted ≤ greatestLimit := by
    rw [greatestLimit_eq]
    omega
  simp only [raiseLimit, hwanted, if_pos hless, if_neg hgreat]

/-- A call makes the limit the greater of the one in force and the one asked for, if that can be
set. -/
theorem limitAfter_eq (hwanted : Wants env wanted) (hcurrent : current < 2 ^ 31) :
    limitAfter current env = if wanted < 2 ^ 31 then max current wanted else current := by
  by_cases h : wanted < 2 ^ 31
  · rw [limitAfter, raiseLimit_of_lt hwanted h, if_pos h]
  · rw [limitAfter, raiseLimit_of_le hwanted (Nat.le_of_not_lt h) hcurrent, if_neg h]

theorem limitAfter_lt (env : Environment) (hcurrent : current < 2 ^ 31) :
    limitAfter current env < 2 ^ 31 := by
  rw [limitAfter_eq (wants_wantedLimit env) hcurrent]
  split
  · rename_i h
    exact Nat.max_lt.2 ⟨hcurrent, h⟩
  · exact hcurrent

theorem limitAfterAll_lt {start : Nat} (hstart : start < 2 ^ 31) (envs : List Environment) :
    limitAfterAll start envs < 2 ^ 31 := by
  induction envs generalizing start with
  | nil => exact hstart
  | cons env envs ih => exact ih (limitAfter_lt env hstart)

theorem limitAfterAll_concat (start : Nat) (envs : List Environment) (env : Environment) :
    limitAfterAll start (envs ++ [env]) = limitAfter (limitAfterAll start envs) env := by
  rw [limitAfterAll, List.foldl_append]
  rfl

/-- The limits that can be in force after calls: the one at the start, and those that were asked
for and can be set. -/
def candidates (start : Nat) (envs : List Environment) : Set Nat :=
  insert start {wanted | wanted < 2 ^ 31 ∧ ∃ env ∈ envs, Wants env wanted}

theorem candidates_concat {start : Nat} {envs : List Environment} (hwanted : Wants env wanted) :
    candidates start (envs ++ [env]) =
      if wanted < 2 ^ 31 then insert wanted (candidates start envs)
      else candidates start envs := by
  have hlast : ∀ n, (∃ e ∈ envs ++ [env], Wants e n) ↔ (∃ e ∈ envs, Wants e n) ∨ n = wanted := by
    intro n
    simp only [List.mem_append, List.mem_singleton, or_and_right, exists_or, exists_eq_left]
    refine or_congr Iff.rfl ⟨fun h => h.unique hwanted, ?_⟩
    rintro rfl
    exact hwanted
  by_cases h : wanted < 2 ^ 31
  · rw [if_pos h]
    ext n
    simp only [candidates, Set.mem_insert_iff, Set.mem_ofPred_eq, hlast]
    grind
  · rw [if_neg h]
    ext n
    simp only [candidates, Set.mem_insert_iff, Set.mem_ofPred_eq, hlast]
    grind

/-- One more call leads from the greatest candidate to the greatest candidate. -/
theorem isGreatest_limitAfter {start : Nat} {envs : List Environment} (hcurrent : current < 2 ^ 31)
    (h : IsGreatest (candidates start envs) current) (env : Environment) :
    IsGreatest (candidates start (envs ++ [env])) (limitAfter current env) := by
  have hwanted := wants_wantedLimit env
  rw [limitAfter_eq hwanted hcurrent, candidates_concat hwanted]
  split
  · rw [Nat.max_comm]
    exact h.insert _
  · exact h

/-- After any number of calls the greatest candidate is in force. -/
theorem isGreatest_limitAfterAll {start : Nat} (hstart : start < 2 ^ 31)
    (envs : List Environment) :
    IsGreatest (candidates start envs) (limitAfterAll start envs) := by
  induction envs using List.reverseRecOn with
  | nil =>
      have hsingle : candidates start [] = {start} := by simp [candidates]
      rw [hsingle]
      exact isGreatest_singleton
  | append_singleton envs env ih =>
      rw [limitAfterAll_concat]
      exact isGreatest_limitAfter (limitAfterAll_lt hstart envs) ih env

end Limits

/-- The nesting limit only rises, and calls that raise it commute. Every environment is meant to ask
for one limit and gets to ask for one, which is the same unless its text has too many digits, and
ten thousand then. From a limit below `2 ^ 31`, any sequence of calls leads to the greatest of this
limit and of those asked for that lie below `2 ^ 31`, so that the order of the calls does not
matter. A call that asks for such a limit answers the limit in force after it; a call that asks for
a greater one fails and leaves the limit in force. -/
theorem limit_rises {start : Nat} (hstart : start < 2 ^ 31) (envs : List Environment) :
    (∀ env, (∃! configured, Configures env configured) ∧ ∃! wanted, Wants env wanted) ∧
    (∀ env wanted, Wants env wanted ↔
      if Legible env then Configures env wanted else wanted = 10000) ∧
    IsGreatest (insert start {wanted | wanted < 2 ^ 31 ∧ ∃ env ∈ envs, Wants env wanted})
      (limitAfterAll start envs) ∧
    (∀ before env after, envs = before ++ env :: after → ∀ wanted, Wants env wanted →
      (wanted < 2 ^ 31 → raiseLimit (limitAfterAll start before) env =
        .ok (limitAfterAll start (before ++ [env]))) ∧
      (2 ^ 31 ≤ wanted →
        raiseLimit (limitAfterAll start before) env = .error .limitTooLarge ∧
          limitAfterAll start (before ++ [env]) = limitAfterAll start before)) ∧
    ∀ others, envs.Perm others → limitAfterAll start others = limitAfterAll start envs := by
  refine ⟨?_, fun env wanted => wants_iff_ite, isGreatest_limitAfterAll hstart envs, ?_, ?_⟩
  · intro env
    obtain ⟨configured, hconfigured⟩ := exists_configures env
    exact ⟨⟨configured, hconfigured, fun other hother => hother.unique hconfigured⟩,
      ⟨wantedLimit env, wants_wantedLimit env, fun other hother => (wants_iff.1 hother).symm⟩⟩
  · intro before env after _ wanted hwanted
    have hbefore : limitAfterAll start before < 2 ^ 31 := limitAfterAll_lt hstart before
    rw [limitAfterAll_concat, limitAfter_eq hwanted hbefore]
    refine ⟨?_, ?_⟩
    · intro h
      rw [if_pos h]
      exact raiseLimit_of_lt hwanted h
    · intro h
      rw [if_neg (Nat.not_lt.2 h)]
      exact ⟨raiseLimit_of_le hwanted h hbefore, rfl⟩
  · intro others hperm
    -- the candidates do not depend on the order, and only one of them is the greatest
    have hsame : candidates start others = candidates start envs := by
      simp only [candidates, hperm.mem_iff]
    have hothers := isGreatest_limitAfterAll hstart others
    rw [hsame] at hothers
    exact hothers.unique (isGreatest_limitAfterAll hstart envs)

/-- Three calls ask for the limit by a text with an underscore and blanks, for one that is too
large, and for the standard one. The last is in force afterwards, whatever the order. -/
theorem limit_rises_of_three_calls :
    raiseLimit 2500 [("YAFT_RECURSION_LIMIT", "99999999999")] = .error .limitTooLarge ∧
      limitAfterAll 1000 [[], [("YAFT_RECURSION_LIMIT", "99999999999")],
        [("YAFT_RECURSION_LIMIT", " 2_500\t")]] = 10000 := by
  obtain ⟨-, -, -, hcalls, hperm⟩ := @limit_rises 1000 (by decide)
    [[("YAFT_RECURSION_LIMIT", " 2_500\t")], [("YAFT_RECURSION_LIMIT", "99999999999")], []]
  have hfirst : limitAfterAll 1000 [[("YAFT_RECURSION_LIMIT", " 2_500\t")]] = 2500 := by
    decide +kernel
  have hlast : limitAfterAll 1000 [[("YAFT_RECURSION_LIMIT", " 2_500\t")],
      [("YAFT_RECURSION_LIMIT", "99999999999")], []] = 10000 := by
    decide +kernel
  have hwanted : Wants [("YAFT_RECURSION_LIMIT", "99999999999")] 99999999999 :=
    wants_iff.2 (by decide +kernel)
  obtain ⟨hlarge, -⟩ := (hcalls [_] _ [_] rfl _ hwanted).2 (by decide)
  rw [hfirst] at hlarge
  exact ⟨hlarge, (hperm _ (List.reverse_perm _).symm).trans hlast⟩

/-- Digits that are all zeros may stand in front of others. -/
theorem DigitRun.replicate_append {text : List Char} {digits : List Nat} (h : DigitRun text digits)
    (zeros : Nat) :
    DigitRun (List.replicate zeros '0' ++ text) (List.replicate zeros 0 ++ digits) := by
  induction zeros with
  | zero => exact h
  | succ zeros ih => exact .next (by decide) ih

/-- Five thousand, written with zeros in front. -/
def paddedText (zeros : Nat) : String :=
  String.ofList (List.replicate zeros '0' ++ ['5', '0', '0', '0'])

theorem denotes_paddedText (zeros : Nat) : Denotes (paddedText zeros) 5000 := by
  have hrun : DigitRun ['5', '0', '0', '0'] [5, 0, 0, 0] :=
    .next (by decide) (.next (by decide) (.next (by decide) (.last (by decide))))
  have hvalue : Nat.ofDigits 10 (List.replicate zeros 0 ++ [5, 0, 0, 0]).reverse = 5000 := by
    rw [List.reverse_append, List.reverse_replicate, Nat.ofDigits_append_replicate_zero]
    rfl
  have hunsigned : Unsigned (List.replicate zeros '0' ++ ['5', '0', '0', '0']) 5000 := by
    rw [← hvalue]
    exact .intro (hrun.replicate_append zeros)
  refine ⟨[], _, [], ?_, .bare hunsigned, by simp, by simp⟩
  rw [paddedText, String.toList_ofList, List.nil_append, List.append_nil]

/-- A text of five thousand with so many zeros in front that it has one digit too many. The
environment is meant to ask for five thousand, and ten thousand comes into force. -/
theorem limit_of_long_text :
    Configures [("YAFT_RECURSION_LIMIT", paddedText 4297)] 5000 ∧
      raiseLimit 1000 [("YAFT_RECURSION_LIMIT", paddedText 4297)] = .ok 10000 := by
  have htext : List.lookup "YAFT_RECURSION_LIMIT" [("YAFT_RECURSION_LIMIT", paddedText 4297)] =
      some (paddedText 4297) := by simp
  refine ⟨.integer htext (denotes_paddedText 4297), ?_⟩
  have hcount : digitCount (paddedText 4297).toList = 4301 := by
    rw [paddedText, String.toList_ofList, digitCount, List.countP_append, List.countP_replicate]
    rfl
  -- so the text is given up, although it denotes an integer
  have hwanted : Wants [("YAFT_RECURSION_LIMIT", paddedText 4297)] 10000 := by
    refine .standard fun hlegible => ?_
    have hle := hlegible _ htext
    rw [hcount] at hle
    exact absurd hle (by decide)
  rw [raiseLimit_of_lt hwanted (by decide)]
  rfl

end Settings

end Catena
