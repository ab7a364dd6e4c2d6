import Catena.Proofs.Word.Failure
import Mathlib.Data.List.Forall2

/-!
# Reading and removing the top of a stack

The entries on top of a stack can be read one at a time by their depth, removed one at a time,
or removed together. The three ways agree (`Stack.peeks_iff`, `Stack.popEach_eq_done_iff`,
`Stack.popMany_eq_done_iff`): each of them comes to the top `n` entries of a stack that holds that
many, and removing leaves the entries below these.

Words look at their operands in one way and remove them in another. That no word looks at one
entry and removes another follows: the operands that a check finds are what a list of kinds reads
off the entries that `peek` answers, and removing operands is removing these very entries
(`Operands.check_eq_ok_iff_peeks`, `Operands.remove_eq_done_iff_popMany`).

Removing several entries at once, or the operands of a word, is all or nothing: what fails answers
the stack that it was given (`Stack.popMany_eq_failed_iff`, `Operands.remove_eq_failed_iff_check`).
-/

set_option autoImplicit false

namespace Catena

/-! ## The top of a stack -/

namespace Stack

/-- Removes the top value `n` times and answers the values, first one first. -/
def popEach : Nat → Stack → Removal (List Entry)
  | 0, s => .done [] s
  | n + 1, s =>
      match s.pop with
      | .failed failure left => .failed failure left
      | .done e below =>
          match popEach n below with
          | .failed failure left => .failed failure left
          | .done entries rest => .done (e :: entries) rest

/-- The entries `taken` are the top ones of a stack, topmost first, and `rest` is what lies under
them. -/
structure Splits (s : Stack) (n : Nat) (taken : List Entry) (rest : Stack) : Prop where
  append : taken ++ rest = s
  length : taken.length = n

variable {s rest : Stack} {n : Nat} {taken : List Entry}

theorem splits_iff : s.Splits n taken rest ↔ n ≤ s.length ∧ s.take n = taken ∧ s.drop n = rest := by
  constructor
  · rintro ⟨rfl, rfl⟩
    simp
  · rintro ⟨hle, rfl, rfl⟩
    exact ⟨List.take_append_drop n s, List.length_take_of_le hle⟩

theorem demand_natCast (n : Nat) (s : Stack) :
    s.demand n = if n ≤ s.length then .ok () else .error (.error (.tooFewValues n s.length)) := by
  simp only [demand, Int.toNat_natCast, holds_iff]

theorem popMany_natCast (n : Nat) (s : Stack) :
    s.popMany n = if n ≤ s.length then .done (s.take n) (s.drop n)
      else .failed (.error (.tooFewValues n s.length)) s := by
  rw [popMany, demand_natCast]
  by_cases h : n ≤ s.length
  · simp only [if_pos h, if_pos (Int.natCast_nonneg n), Int.toNat_natCast]
  · simp only [if_neg h]

theorem popMany_eq_done_iff : s.popMany n = .done taken rest ↔ s.Splits n taken rest := by
  rw [popMany_natCast, splits_iff]
  by_cases h : n ≤ s.length
  · simp [h]
  · simp [h]

/-- Removing several values fails exactly when there are too few, and none is removed then. -/
theorem popMany_eq_failed_iff {failure : Failure} {left : Stack} :
    s.popMany n = .failed failure left ↔
      s.length < n ∧ .error (.tooFewValues n s.length) = failure ∧ s = left := by
  rw [popMany_natCast]
  by_cases h : n ≤ s.length
  · simp [h, Nat.not_lt.2 h]
  · simp [h, Nat.lt_of_not_le h]

/-- A value can be read exactly when it is there. -/
theorem peek_eq_ok_iff {depth : Nat} {e : Entry} : s.peek depth = .ok e ↔ s[depth]? = some e := by
  have hnext : (depth : Int) + 1 = ((depth + 1 : Nat) : Int) := rfl
  rw [peek, hnext, demand_natCast, if_pos (Int.natCast_nonneg depth), Int.toNat_natCast]
  by_cases h : depth + 1 ≤ s.length
  · have hget : s[depth]? = some s[depth] := List.getElem?_eq_getElem h
    rw [if_pos h, hget]
    simp [bind, Except.bind]
  · have hget : s[depth]? = none := List.getElem?_eq_none (Nat.le_of_not_lt h)
    rw [if_neg h, hget]
    simp [bind, Except.bind]

/-- The entries that `peek` answers for the depths from `0` up to `n`, in this order. -/
def Peeks (s : Stack) (n : Nat) (entries : List Entry) : Prop :=
  List.Forall₂ (fun (depth : Nat) e => s.peek depth = .ok e) (List.range n) entries

/-- Reading the top values one by one answers them all exactly when they are there. -/
theorem peeks_iff : s.Peeks n taken ↔ ∃ rest, s.Splits n taken rest := by
  simp only [Peeks, peek_eq_ok_iff, List.forall₂_iff_get, List.length_range, List.get_eq_getElem,
    List.getElem_range]
  constructor
  · rintro ⟨rfl, hget⟩
    refine ⟨s.drop taken.length, ?_, rfl⟩
    have htaken : taken = s.take taken.length := by
      apply List.ext_getElem?
      intro i
      by_cases hi : i < taken.length
      · rw [List.getElem?_take_of_lt hi, hget i hi hi, List.getElem?_eq_getElem hi]
      · have hle : taken.length ≤ i := Nat.le_of_not_lt hi
        rw [List.getElem?_eq_none hle, List.getElem?_take_eq_none hle]
    calc
      taken ++ s.drop taken.length = s.take taken.length ++ s.drop taken.length := by
        rw [← htaken]
      _ = s := List.take_append_drop taken.length s
  · rintro ⟨rest, rfl, rfl⟩
    refine ⟨rfl, ?_⟩
    intro i _ hi
    rw [List.getElem?_append_left hi, List.getElem?_eq_getElem hi]

theorem popEach_eq (n : Nat) (s : Stack) :
    s.popEach n = if n ≤ s.length then .done (s.take n) (s.drop n)
      else .failed (.error .emptyStack) [] := by
  induction n generalizing s with
  | zero => simp [popEach]
  | succ n ih =>
      cases s with
      | nil => rfl
      | cons e s =>
          -- the top goes first, and the rest is popped from what it leaves
          simp only [popEach, pop, ih, List.length_cons, Nat.add_le_add_iff_right]
          by_cases h : n ≤ s.length
          · simp [h]
          · simp [h]

/-- Removing values one by one comes to the same as removing them together. -/
theorem popEach_eq_done_iff : s.popEach n = .done taken rest ↔ s.Splits n taken rest := by
  rw [popEach_eq, splits_iff]
  by_cases h : n ≤ s.length
  · simp [h]
  · simp [h]

/-- Pushing what was removed, deepest first, gives the stack back. -/
theorem Splits.pushAll_reverse (h : s.Splits n taken rest) :
    rest.pushAll taken.reverse = s := by
  rw [pushAll_eq, List.reverse_reverse, h.append]

end Stack

/-! ## Operands -/

namespace Operands

variable {word : String} {kinds : List Kind} {s rest : Stack} {operands : Operands kinds}

/-- Operands that lie on top of a stack are read off as many entries. -/
theorem taken_iff_splits : ∀ {kinds : List Kind} {s rest : Stack} {operands : Operands kinds},
    Taken kinds s operands rest ↔
      ∃ taken, s.Splits kinds.length taken rest ∧ Taken kinds taken operands []
  | [], s, rest, () => by
      constructor
      · intro h
        exact ⟨[], ⟨h.symm, rfl⟩, rfl⟩
      · rintro ⟨taken, ⟨rfl, -⟩, rfl⟩
        rfl
  | kind :: kinds, s, rest, (operand, operands) => by
      constructor
      · rintro ⟨e, below, rfl, hview, hbelow⟩
        obtain ⟨taken, hsplits, htaken⟩ := taken_iff_splits.1 hbelow
        refine ⟨e :: taken, ⟨congrArg (e :: ·) hsplits.append, congrArg (· + 1) hsplits.length⟩, ?_⟩
        exact ⟨e, taken, rfl, hview, htaken⟩
      · rintro ⟨taken, hsplits, e, below, rfl, hview, htaken⟩
        have hlength : below.length = kinds.length := Nat.succ.inj hsplits.length
        have hbelow : Taken kinds (below ++ rest) operands rest :=
          taken_iff_splits.2 ⟨below, ⟨rfl, hlength⟩, htaken⟩
        exact ⟨e, below ++ rest, hsplits.append.symm, hview, hbelow⟩

theorem check_eq_ok_iff :
    check word kinds s = .ok operands ↔ ∃ rest, remove word kinds s = .done operands rest := by
  rw [remove]
  cases check word kinds s with
  | error failure => simp
  | ok found => simp

/-- Removing operands removes the entries that they are read off. -/
theorem remove_eq_done_iff_popMany :
    remove word kinds s = .done operands rest ↔
      ∃ taken, s.popMany kinds.length = .done taken rest ∧ Taken kinds taken operands [] := by
  simp only [remove_eq_done_iff, Stack.popMany_eq_done_iff]
  exact taken_iff_splits

/-- Checking operands reads them off the entries that `peek` answers. -/
theorem check_eq_ok_iff_peeks :
    check word kinds s = .ok operands ↔
      ∃ taken, s.Peeks kinds.length taken ∧ Taken kinds taken operands [] := by
  simp only [check_eq_ok_iff, remove_eq_done_iff_popMany, Stack.popMany_eq_done_iff,
    Stack.peeks_iff]
  constructor
  · rintro ⟨rest, taken, hsplits, htaken⟩
    exact ⟨taken, ⟨rest, hsplits⟩, htaken⟩
  · rintro ⟨taken, ⟨rest, hsplits⟩, htaken⟩
    exact ⟨rest, taken, hsplits, htaken⟩

end Operands

/-! ## Agreement -/

namespace Stack

/-- Checking, reading and removing agree, on every stack. Removing `n` values at once fails if
there are fewer, and only then, and it leaves the stack as it was. Otherwise it answers what `peek`
answers for the depths from `0` up to `n`, and it answers and leaves what `n` single removals do;
pushing the values again, deepest first, gives the stack back.

For every list of kinds, removing the operands of a word fails exactly when checking them does,
with the same failure, and leaves the stack as it was; so does a word that would have gone on
with the operands. Otherwise checking finds what the kinds read off the entries that `peek`
answers. Removing finds the same operands, and what it removes are the entries that they are read
off. -/
theorem removals_agree (s : Stack) :
    (∀ n : Nat,
      (∀ failure left, s.popMany n = .failed failure left ↔
        s.length < n ∧ .error (.tooFewValues n s.length) = failure ∧ s = left) ∧
      (n ≤ s.length → ∃ taken rest, s.popMany n = .done taken rest ∧ s.Peeks n taken ∧
        s.popEach n = .done taken rest ∧ rest.pushAll taken.reverse = s)) ∧
    ∀ word kinds,
      (∀ failure left, Operands.remove word kinds s = .failed failure left ↔
        Operands.check word kinds s = .error failure ∧ s = left) ∧
      (∀ failure, Operands.check word kinds s = .error failure →
        ∀ next, Attempt.after (Operands.remove word kinds s) next = .failed failure s) ∧
      ∀ operands,
        (Operands.check word kinds s = .ok operands ↔
          ∃ taken, s.Peeks kinds.length taken ∧ Operands.Taken kinds taken operands []) ∧
        ∀ rest, Operands.remove word kinds s = .done operands rest ↔
          Operands.check word kinds s = .ok operands ∧
            ∃ taken, s.popMany kinds.length = .done taken rest ∧
              Operands.Taken kinds taken operands [] := by
  refine ⟨fun n => ⟨fun failure left => popMany_eq_failed_iff, ?_⟩,
    fun word kinds => ⟨fun failure left => Operands.remove_eq_failed_iff_check, ?_,
      fun operands => ⟨Operands.check_eq_ok_iff_peeks, ?_⟩⟩⟩
  · intro hn
    have hsplits : s.Splits n (s.take n) (s.drop n) := splits_iff.2 ⟨hn, rfl, rfl⟩
    exact ⟨_, _, popMany_eq_done_iff.2 hsplits, peeks_iff.2 ⟨_, hsplits⟩,
      popEach_eq_done_iff.2 hsplits, hsplits.pushAll_reverse⟩
  · intro failure hcheck next
    have hremove := Operands.remove_eq_failed_iff_check.2 ⟨hcheck, rfl⟩
    exact Attempt.after_eq_failed_iff.2 (Or.inl hremove)
  · intro rest
    constructor
    · intro hremove
      exact ⟨Operands.check_eq_ok_iff.2 ⟨rest, hremove⟩,
        Operands.remove_eq_done_iff_popMany.1 hremove⟩
    · rintro ⟨-, htaken⟩
      exact Operands.remove_eq_done_iff_popMany.2 htaken

/-- On a stack of three values, the two operands of `dip` are read and can be removed. -/
theorem removals_agree_of_three_values :
    Stack.Peeks [.plain (.quotation [.symbol "x"]), .plain (.boolean true), .plain (.integer 7)] 2
        [.plain (.quotation [.symbol "x"]), .plain (.boolean true)] ∧
      Operands.remove "dip" [.quotation, .any] [.plain (.quotation [.symbol "x"]),
        .plain (.boolean true), .plain (.integer 7)] =
          .done ([.plain (.symbol "x")], .plain (.boolean true), ()) [.plain (.integer 7)] := by
  obtain ⟨hnumber, hkinds⟩ := removals_agree [.plain (.quotation [.symbol "x"]),
    .plain (.boolean true), .plain (.integer 7)]
  obtain ⟨taken, rest, hpop, hpeeks, -, -⟩ := (hnumber 2).2 (by decide)
  cases hpop
  obtain ⟨-, -, hoperands⟩ := hkinds "dip" [.quotation, .any]
  refine ⟨hpeeks, ((hoperands _).2 _).2 ⟨rfl, _, rfl, ?_⟩⟩
  exact ⟨_, _, rfl, rfl, _, _, rfl, rfl, rfl⟩

end Stack

end Catena
