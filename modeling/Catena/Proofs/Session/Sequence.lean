import Catena.Proofs.Program.Grammar
import Catena.Proofs.Session

/-!
# Evaluating one text after another

A program can be evaluated as a whole, or cut at line feeds and evaluated piece by
piece in one session. If every piece can be read, the two ways end alike: with the same
session and the same failure, or not at all (`Session.ends_joined_iff`).

Two facts carry this.

* Two texts with a blank between them, such as a line feed, are read as the nodes of the
  one followed by the nodes of the other (`Program.read_append_blank`).
* Nodes in a row are evaluated by evaluating the first part and, if it succeeds, the
  second part in the session that the first has left (`evaluates_append`). The frames of
  the machine do not show here: the second part waits under all that the first part
  schedules, and a failure drops it.
-/

set_option autoImplicit false

namespace Catena

/-- Evaluating nodes in a row is evaluating the first part, and then the second part
unless the first has failed. -/
theorem evaluates_append {limit : Nat} {o : Outcome} (xs ys : List Entry) (σ : Session) :
    Evaluates limit (xs ++ ys) σ o ↔
      ∃ first, Evaluates limit xs σ first ∧
        (first.failure ≠ none ∧ first = o ∨
          first.failure = none ∧ Evaluates limit ys first.session o) := by
  have hframe : Frame.ofEntries (xs ++ ys) = Frame.ofEntries xs ++ Frame.ofEntries ys :=
    List.map_append
  rw [← completes_ofEntries, hframe, completes_append]
  refine exists_congr fun first => and_congr (completes_ofEntries xs σ) ?_
  by_cases hfirst : first.failure = none
  · rw [resumes_of_none hfirst, completes_ofEntries]
    simp [hfirst]
  · -- nodes that wait hold nothing back, so a failure passes them unchanged
    rw [resumes_of_ne_none hfirst, Item.savedOf_ofEntries, Outcome.putBack_nil]
    simp [hfirst, eq_comm]

namespace Program

/-- A text that can be read. -/
def Readable (text : String) : Prop :=
  ∃ nodes, read text = .ok nodes

/-- Two texts with a blank between them are read one after the other. -/
theorem read_append_blank {a b blank : String} {c : Char} {xs ys : List Value}
    (hblank : blank.toList = [c]) (hc : Text.isBlank c = true) (ha : read a = .ok xs)
    (hb : read b = .ok ys) : read (a ++ blank ++ b) = .ok (xs ++ ys) := by
  obtain ⟨hxs, hwordsA⟩ := read_eq_ok_iff.1 ha
  obtain ⟨hys, hwordsB⟩ := read_eq_ok_iff.1 hb
  refine read_eq_ok_iff.2 ⟨?_, ?_⟩
  · intro v hv
    rcases List.mem_append.1 hv with hv | hv
    · exact hxs v hv
    · exact hys v hv
  · rw [List.flatMap_append, hwordsA, hwordsB, Text.words_append_blank hblank hc]

theorem read_joined {a b : String} {xs ys : List Value} (ha : read a = .ok xs)
    (hb : read b = .ok ys) : read (a ++ "\n" ++ b) = .ok (xs ++ ys) := by
  have hfeed : "\n".toList = ['\n'] := rfl
  exact read_append_blank hfeed (by decide) ha hb

theorem Readable.joined {a b : String} (ha : Readable a) (hb : Readable b) :
    Readable (a ++ "\n" ++ b) := by
  obtain ⟨xs, hxs⟩ := ha
  obtain ⟨ys, hys⟩ := hb
  exact ⟨xs ++ ys, read_joined hxs hys⟩

/-- Texts that can be read are read as one when they are joined by line feeds. -/
theorem Readable.intercalate {texts : List String} (h : ∀ text ∈ texts, Readable text) :
    Readable ("\n".intercalate texts) := by
  induction texts with
  | nil => exact ⟨[], rfl⟩
  | cons text texts ih =>
      have htext : Readable text := h text List.mem_cons_self
      have htexts : ∀ t ∈ texts, Readable t := fun t ht => h t (List.mem_cons_of_mem _ ht)
      cases texts with
      | nil =>
          rw [String.intercalate_singleton]
          exact htext
      | cons next others =>
          rw [String.intercalate_cons_cons]
          exact htext.joined (ih htexts)

end Program

namespace Session

open Program (Readable)

/-- Evaluating a text never ends. -/
def Diverges (nesting : Nat) (s : Session) (text : String) : Prop :=
  ∀ fuel threshold, s.eval ⟨nesting, fuel, threshold⟩ text = none

/-- Evaluating texts in turn, up to the first that fails, ends with a session and a
failure or none. -/
def EndsEach (nesting : Nat) : Session → List String → Session → Option Failure → Prop
  | s, [], s', failure => s = s' ∧ failure = none
  | s, text :: texts, s', failure =>
      failure ≠ none ∧ s.Ends nesting text s' failure ∨
        ∃ middle, s.Ends nesting text middle none ∧ EndsEach nesting middle texts s' failure

section Ending

variable {nesting : Nat} {s s' : Session} {text : String} {failure : Option Failure}

/-- An evaluation goes on for ever or ends. -/
theorem diverges_or_ends (nesting : Nat) (s : Session) (text : String) :
    s.Diverges nesting text ∨ ∃ s' failure, s.Ends nesting text s' failure := by
  by_cases h : ∃ fuel threshold, s.eval ⟨nesting, fuel, threshold⟩ text ≠ none
  · obtain ⟨fuel, threshold, hsome⟩ := h
    obtain ⟨⟨s', failure, log⟩, heval⟩ := Option.ne_none_iff_exists'.1 hsome
    exact Or.inr ⟨s', failure, fuel, threshold, log, heval⟩
  · refine Or.inl fun fuel threshold => ?_
    cases heval : s.eval ⟨nesting, fuel, threshold⟩ text with
    | none => rfl
    | some evaluation => exact absurd ⟨fuel, threshold, by simp [heval]⟩ h

theorem Diverges.not_ends (h : s.Diverges nesting text) : ¬ s.Ends nesting text s' failure := by
  rintro ⟨fuel, threshold, log, heval⟩
  rw [h fuel threshold] at heval
  cases heval

/-- Two texts with a line feed between them are evaluated one after the other, the
second only if the first has succeeded. -/
theorem ends_joined {a b : String} (ha : Readable a) (hb : Readable b) :
    s.Ends nesting (a ++ "\n" ++ b) s' failure ↔
      failure ≠ none ∧ s.Ends nesting a s' failure ∨
        ∃ middle, s.Ends nesting a middle none ∧ middle.Ends nesting b s' failure := by
  obtain ⟨xs, hxs⟩ := ha
  obtain ⟨ys, hys⟩ := hb
  rw [ends_iff_evaluates (Program.read_joined hxs hys), List.map_append]
  constructor
  · rintro ⟨o, heval, rfl, rfl⟩
    rcases (evaluates_append _ _ _).1 heval with ⟨first, hfirst, ⟨hne, rfl⟩ | ⟨hnone, hrest⟩⟩
    · refine Or.inl ⟨by simpa using hne, ?_⟩
      exact (ends_iff_evaluates hxs).2 ⟨first, hfirst, rfl, rfl⟩
    · refine Or.inr ⟨first.session, (ends_iff_evaluates hxs).2 ⟨first, hfirst, rfl, ?_⟩,
        (ends_iff_evaluates hys).2 ⟨o, hrest, rfl, rfl⟩⟩
      rw [hnone]
      rfl
  · rintro (⟨hne, hends⟩ | ⟨middle, hends, hrest⟩)
    · obtain ⟨first, hfirst, rfl, rfl⟩ := (ends_iff_evaluates hxs).1 hends
      have hfailed : first.failure ≠ none := by simpa using hne
      exact ⟨first, (evaluates_append _ _ _).2 ⟨first, hfirst, Or.inl ⟨hfailed, rfl⟩⟩, rfl, rfl⟩
    · obtain ⟨first, hfirst, rfl, hnone⟩ := (ends_iff_evaluates hxs).1 hends
      obtain ⟨o, ho, rfl, rfl⟩ := (ends_iff_evaluates hys).1 hrest
      have hfirstOk : first.failure = none := by simpa using hnone
      exact ⟨o, (evaluates_append _ _ _).2 ⟨first, hfirst, Or.inr ⟨hfirstOk, ho⟩⟩, rfl, rfl⟩

/-- Evaluating two texts as one goes on for ever exactly when the first does, or when
the first succeeds and the second goes on for ever after it. -/
theorem diverges_joined {a b : String} (ha : Readable a) (hb : Readable b) :
    s.Diverges nesting (a ++ "\n" ++ b) ↔
      s.Diverges nesting a ∨
        ∃ middle, s.Ends nesting a middle none ∧ middle.Diverges nesting b := by
  constructor
  · intro h
    rcases diverges_or_ends nesting s a with ha' | ⟨middle, failure, hends⟩
    · exact Or.inl ha'
    cases failure with
    | some failure =>
        have hjoined : s.Ends nesting (a ++ "\n" ++ b) middle (some failure) :=
          (ends_joined ha hb).2 (Or.inl ⟨Option.some_ne_none _, hends⟩)
        exact absurd hjoined h.not_ends
    | none =>
        rcases diverges_or_ends nesting middle b with hb' | ⟨s', failure, hrest⟩
        · exact Or.inr ⟨middle, hends, hb'⟩
        · have hjoined : s.Ends nesting (a ++ "\n" ++ b) s' failure :=
            (ends_joined ha hb).2 (Or.inr ⟨middle, hends, hrest⟩)
          exact absurd hjoined h.not_ends
  · intro h
    rcases diverges_or_ends nesting s (a ++ "\n" ++ b) with hjoined | ⟨s', failure, hends⟩
    · exact hjoined
    exfalso
    -- the first text ends in any case, and in one way only
    rcases (ends_joined ha hb).1 hends with ⟨hne, hfirst⟩ | ⟨middle, hfirst, hrest⟩
    · rcases h with h | ⟨middle, hok, -⟩
      · exact h.not_ends hfirst
      · exact hne (hfirst.unique hok).2
    · rcases h with h | ⟨middle', hok, h⟩
      · exact h.not_ends hfirst
      · obtain rfl : middle = middle' := (hfirst.unique hok).1
        exact h.not_ends hrest

/-- Texts joined by line feeds are evaluated in turn, up to the first that fails. -/
theorem ends_intercalate {texts : List String} (h : ∀ t ∈ texts, Readable t) :
    s.Ends nesting ("\n".intercalate texts) s' failure ↔
      s.EndsEach nesting texts s' failure := by
  induction texts generalizing s with
  | nil =>
      -- the empty text is read as no nodes
      have hread : Program.read ("\n".intercalate []) = .ok [] := rfl
      rw [ends_iff_evaluates hread]
      constructor
      · rintro ⟨o, heval, rfl, rfl⟩
        cases heval
        exact ⟨rfl, rfl⟩
      · rintro ⟨rfl, rfl⟩
        exact ⟨_, .nil s, rfl, rfl⟩
  | cons text texts ih =>
      have htext : Readable text := h text List.mem_cons_self
      have htexts : ∀ t ∈ texts, Readable t := fun t ht => h t (List.mem_cons_of_mem _ ht)
      cases texts with
      | nil =>
          rw [String.intercalate_singleton]
          constructor
          · intro hends
            by_cases hfailure : failure = none
            · subst hfailure
              exact Or.inr ⟨s', hends, rfl, rfl⟩
            · exact Or.inl ⟨hfailure, hends⟩
          · rintro (⟨-, hends⟩ | ⟨middle, hends, rfl, rfl⟩)
            · exact hends
            · exact hends
      | cons next others =>
          rw [String.intercalate_cons_cons,
            ends_joined htext (Readable.intercalate htexts)]
          refine or_congr Iff.rfl (exists_congr fun middle => and_congr Iff.rfl ?_)
          exact ih htexts

end Ending

/-- Evaluating two texts with a line feed between them comes to the same as evaluating
the first and then, if and only if it has succeeded, the second: it ends with the same
session and failure, or goes on for ever. Hence a program whose lines can be read one by
one comes to the same whether it is evaluated as a whole or line by line, up to and
including the first line that fails. -/
theorem ends_joined_iff (nesting : Nat) (s : Session) :
    (∀ a b, Readable a → Readable b →
      (∀ s' failure, s.Ends nesting (a ++ "\n" ++ b) s' failure ↔
        failure ≠ none ∧ s.Ends nesting a s' failure ∨
          ∃ middle, s.Ends nesting a middle none ∧ middle.Ends nesting b s' failure) ∧
      (s.Diverges nesting (a ++ "\n" ++ b) ↔
        s.Diverges nesting a ∨
          ∃ middle, s.Ends nesting a middle none ∧ middle.Diverges nesting b)) ∧
    ∀ lines, (∀ line ∈ lines, Readable line) → ∀ s' failure,
      s.Ends nesting ("\n".intercalate lines) s' failure ↔
        s.EndsEach nesting lines s' failure := by
  refine ⟨fun a b ha hb => ⟨fun s' failure => ends_joined ha hb, diverges_joined ha hb⟩, ?_⟩
  intro lines hlines s' failure
  exact ends_intercalate hlines

/-- Four lines that define a word, use it under a `dip`, divide by zero and push an
integer. The third fails, so neither way of evaluating them comes to the fourth. -/
theorem ends_joined_iff_of_division :
    Session.fresh.EndsEach 100
      ["[ 2 * ] twice def", "3 twice 4 [ twice ] dip", "0 /", "9"]
      ⟨[.plain (.integer 0), .plain (.integer 4), .plain (.integer 12)],
        Dictionary.builtins.insert "twice" (.defined "twice" [.symbol "2", .symbol "*"]), 0⟩
      (some (.error (.divisionByZero 4))) ∧
    Session.fresh.Ends 100
      ("\n".intercalate ["[ 2 * ] twice def", "3 twice 4 [ twice ] dip", "0 /", "9"])
      ⟨[.plain (.integer 0), .plain (.integer 4), .plain (.integer 12)],
        Dictionary.builtins.insert "twice" (.defined "twice" [.symbol "2", .symbol "*"]), 0⟩
      (some (.error (.divisionByZero 4))) := by
  have hlines : ∀ line ∈ ["[ 2 * ] twice def", "3 twice 4 [ twice ] dip", "0 /", "9"],
      Readable line := by
    simp only [List.forall_mem_cons]
    exact ⟨⟨_, rfl⟩, ⟨_, rfl⟩, ⟨_, rfl⟩, ⟨_, rfl⟩, List.forall_mem_nil _⟩
  have heach : Session.fresh.EndsEach 100
      ["[ 2 * ] twice def", "3 twice 4 [ twice ] dip", "0 /", "9"]
      ⟨[.plain (.integer 0), .plain (.integer 4), .plain (.integer 12)],
        Dictionary.builtins.insert "twice" (.defined "twice" [.symbol "2", .symbol "*"]), 0⟩
      (some (.error (.divisionByZero 4))) := by
    refine Or.inr ⟨_, ⟨20, 100, [], rfl⟩, Or.inr ⟨_, ⟨20, 100, [], rfl⟩, Or.inl ⟨?_, ?_⟩⟩⟩
    · exact Option.some_ne_none _
    · exact ⟨20, 100, [], by decide +kernel⟩
  exact ⟨heach, ((ends_joined_iff 100 Session.fresh).2 _ hlines _ _).2 heach⟩

end Session

end Catena
