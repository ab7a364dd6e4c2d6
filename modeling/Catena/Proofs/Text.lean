import Catena.Text

/-!
# Cutting and joining texts

A text with a blank between two parts has the words of the first part followed by
those of the second (`words_append_blank`). Every word of a text has characters and
none of them is blank (`isWord_of_mem_words`); conversely, texts of this kind joined
by single spaces are the words of the joined text (`words_intercalate`).

Texts can be joined by blanks in many ways (`Spaced`). The words of the joined text are
always the words of the texts in order (`words_of_spaced`).

A line holds no line feed. Lines of this kind, each ended by a line feed, are the lines of the
text that they form (`lines_ofLines`). Words are lines, and so are words joined by spaces, so
whatever is written of them fits on one line.
-/

set_option autoImplicit false

namespace Catena.Text

/-- A text that is one word: it has characters, and none of them is blank. -/
structure IsWord (text : String) : Prop where
  ne_nil : text.toList ≠ []
  not_blank : ∀ c ∈ text.toList, isBlank c = false

theorem isWord_iff {text : String} :
    (!text.toList.isEmpty && text.toList.all fun c => !isBlank c) = true ↔ IsWord text := by
  simp only [Bool.and_eq_true, Bool.not_eq_true', List.isEmpty_eq_false_iff, List.all_eq_true]
  exact ⟨fun h => ⟨h.1, h.2⟩, fun h => ⟨h.ne_nil, h.not_blank⟩⟩

instance (text : String) : Decidable (IsWord text) :=
  decidable_of_iff _ isWord_iff

/-! ## The words under way -/

theorem wordsFrom_blank {c : Char} (hc : isBlank c = true) (text word : List Char)
    (words : List String) :
    wordsFrom (c :: text) word words = wordsFrom text [] (closeWord word words) := by
  simp only [wordsFrom, hc, if_true]

theorem wordsFrom_not_blank {c : Char} (hc : isBlank c = false) (text word : List Char)
    (words : List String) :
    wordsFrom (c :: text) word words = wordsFrom text (c :: word) words := by
  simp only [wordsFrom, hc, Bool.false_eq_true, if_false]

/-- The words already closed come before the others. -/
theorem wordsFrom_eq_append (text word : List Char) (words : List String) :
    wordsFrom text word words = words.reverse ++ wordsFrom text word [] := by
  induction text generalizing word words with
  | nil => cases word <;> simp [wordsFrom, closeWord]
  | cons c text ih =>
      cases hc : isBlank c with
      | true =>
          rw [wordsFrom_blank hc, wordsFrom_blank hc, ih [] (closeWord word words),
            ih [] (closeWord word [])]
          cases word <;> simp [closeWord]
      | false => rw [wordsFrom_not_blank hc, wordsFrom_not_blank hc, ih (c :: word) words]

/-- A blank ends the word under way, and cutting begins anew behind it. -/
theorem wordsFrom_append_blank {c : Char} (hc : isBlank c = true) (xs ys word : List Char) :
    wordsFrom (xs ++ c :: ys) word [] = wordsFrom xs word [] ++ wordsFrom ys [] [] := by
  induction xs generalizing word with
  | nil =>
      rw [List.nil_append, wordsFrom_blank hc, wordsFrom_eq_append ys [] (closeWord word [])]
      rfl
  | cons x xs ih =>
      rw [List.cons_append]
      cases hx : isBlank x with
      | true =>
          -- the word before this blank is closed on both sides alike
          rw [wordsFrom_blank hx, wordsFrom_blank hx, wordsFrom_eq_append (xs ++ c :: ys),
            wordsFrom_eq_append xs, ih, List.append_assoc]
      | false => rw [wordsFrom_not_blank hx, wordsFrom_not_blank hx, ih (x :: word)]

/-- Characters that are not blank go on with the word under way. -/
theorem wordsFrom_of_not_blank {xs : List Char} (h : ∀ c ∈ xs, isBlank c = false)
    (word : List Char) : wordsFrom xs word [] = (closeWord (xs.reverse ++ word) []).reverse := by
  induction xs generalizing word with
  | nil => rfl
  | cons x xs ih =>
      have hx : isBlank x = false := h x List.mem_cons_self
      have hxs : ∀ c ∈ xs, isBlank c = false := fun c hc => h c (List.mem_cons_of_mem _ hc)
      rw [wordsFrom_not_blank hx, ih hxs, List.reverse_cons, List.append_assoc]
      rfl

/-! ## Words of texts -/

/-- The words of two texts with a blank between them are the words of the one and
then those of the other. -/
theorem words_append_blank {blank : String} {c : Char} (hblank : blank.toList = [c])
    (hc : isBlank c = true) (a b : String) :
    words (a ++ blank ++ b) = words a ++ words b := by
  unfold words
  rw [String.toList_append, String.toList_append, hblank, List.append_assoc]
  exact wordsFrom_append_blank hc a.toList b.toList []

/-- A word has itself as its only word. -/
theorem words_of_isWord {text : String} (h : IsWord text) : words text = [text] := by
  unfold words
  rw [wordsFrom_of_not_blank h.not_blank, List.append_nil]
  -- the word is built backwards, so its last character comes first
  cases hchars : text.toList.reverse with
  | nil => exact absurd (List.reverse_eq_nil_iff.1 hchars) h.ne_nil
  | cons c chars =>
      have hback : (c :: chars).reverse = text.toList := by rw [← hchars, List.reverse_reverse]
      simp only [closeWord, hback, String.ofList_toList, List.reverse_singleton]

/-- Words joined by single spaces are the words of the joined text. -/
theorem words_intercalate {ts : List String} (h : ∀ t ∈ ts, IsWord t) :
    words (" ".intercalate ts) = ts := by
  induction ts with
  | nil => rfl
  | cons t ts ih =>
      have ht : IsWord t := h t List.mem_cons_self
      have hts : ∀ u ∈ ts, IsWord u := fun u hu => h u (List.mem_cons_of_mem _ hu)
      cases ts with
      | nil => rw [String.intercalate_singleton, words_of_isWord ht]
      | cons u us =>
          have hspace : " ".toList = [' '] := rfl
          rw [String.intercalate_cons_cons, words_append_blank hspace (by decide), ih hts,
            words_of_isWord ht]
          rfl

/-- A word that is closed is a word, if it has no blank in it. -/
theorem isWord_of_mem_closeWord {word : List Char} {t : String}
    (hword : ∀ c ∈ word, isBlank c = false) (ht : t ∈ closeWord word []) : IsWord t := by
  cases word with
  | nil => cases ht
  | cons c cs =>
      rw [closeWord, List.mem_singleton] at ht
      subst ht
      refine ⟨by simp, fun x hx => hword x ?_⟩
      rwa [String.toList_ofList, List.mem_reverse] at hx

/-- Cutting gives words, if the word under way has no blank in it. -/
theorem isWord_of_mem_wordsFrom {text word : List Char} {t : String}
    (hword : ∀ c ∈ word, isBlank c = false) (ht : t ∈ wordsFrom text word []) : IsWord t := by
  induction text generalizing word with
  | nil => exact isWord_of_mem_closeWord hword (List.mem_reverse.1 ht)
  | cons c text ih =>
      cases hc : isBlank c with
      | true =>
          rw [wordsFrom_blank hc, wordsFrom_eq_append, List.mem_append, List.mem_reverse] at ht
          rcases ht with ht | ht
          · exact isWord_of_mem_closeWord hword ht
          · exact ih (fun _ hx => absurd hx List.not_mem_nil) ht
      | false =>
          rw [wordsFrom_not_blank hc] at ht
          refine ih (fun x hx => ?_) ht
          rcases List.mem_cons.1 hx with rfl | hx
          · exact hc
          · exact hword x hx

/-- Every word of a text is a word. -/
theorem isWord_of_mem_words {text t : String} (h : t ∈ words text) : IsWord t :=
  isWord_of_mem_wordsFrom (fun _ hc => absurd hc List.not_mem_nil) h

/-! ## Texts among blanks -/

/-- A text without any words: all of its characters are blank. -/
def IsGap (gap : String) : Prop :=
  ∀ c ∈ gap.toList, isBlank c = true

instance (gap : String) : Decidable (IsGap gap) :=
  decidable_of_iff (gap.toList.all isBlank = true) List.all_eq_true

/-- Texts stand in a text in order and nothing else does, save for blanks: one or more between
any two of the texts, and any number before the first and after the last of them. -/
inductive Spaced : List String → String → Prop
  | nil {gap : String} : IsGap gap → Spaced [] gap
  | last {before text : String} : IsGap before → Spaced [text] (before ++ text)
  | cons {before text gap rest : String} {texts : List String} :
      IsGap before → IsGap gap → gap ≠ "" → Spaced texts rest →
      Spaced (text :: texts) (before ++ text ++ gap ++ rest)

/-- Blanks in front of a text add no words. -/
theorem words_gap_append {gap : String} (h : IsGap gap) (text : String) :
    words (gap ++ text) = words text := by
  have hchars : ∀ xs : List Char, (∀ c ∈ xs, isBlank c = true) →
      wordsFrom (xs ++ text.toList) [] [] = wordsFrom text.toList [] [] := by
    intro xs hxs
    induction xs with
    | nil => rfl
    | cons x xs ih =>
        rw [List.forall_mem_cons] at hxs
        rw [List.cons_append, wordsFrom_blank hxs.1]
        exact ih hxs.2
  unfold words
  rw [String.toList_append]
  exact hchars gap.toList h

theorem words_gap {gap : String} (h : IsGap gap) : words gap = [] := by
  calc
    words gap = words (gap ++ "") := by rw [String.append_empty]
    _ = words "" := words_gap_append h ""
    _ = [] := rfl

/-- Texts with blanks between them have the words of the one and then those of the other. -/
theorem words_append_gap {gap : String} (h : IsGap gap) (hne : gap ≠ "") (a b : String) :
    words (a ++ gap ++ b) = words a ++ words b := by
  -- the first blank ends the last word of `a`, and the others add nothing
  have hcut : ∃ c rest, gap.toList = c :: rest := by
    cases hgap : gap.toList with
    | nil => exact absurd (String.toList_eq_nil_iff.1 hgap) hne
    | cons c rest => exact ⟨c, rest, rfl⟩
  obtain ⟨c, rest, hgap⟩ := hcut
  have hblanks : isBlank c = true ∧ IsGap (String.ofList rest) := by
    rw [IsGap, hgap, List.forall_mem_cons] at h
    simpa [IsGap] using h
  have hsplit : a ++ gap ++ b = a ++ String.ofList [c] ++ (String.ofList rest ++ b) := by
    apply String.toList_inj.1
    simp [hgap]
  rw [hsplit, words_append_blank String.toList_ofList hblanks.1, words_gap_append hblanks.2]

/-- However texts are spaced, the words are those of the texts in order. -/
theorem words_of_spaced {texts : List String} {program : String} (h : Spaced texts program) :
    words program = texts.flatMap words := by
  induction h with
  | nil hgap => exact words_gap hgap
  | last hbefore => rw [words_gap_append hbefore, List.flatMap_singleton]
  | @cons before text gap rest texts hbefore hgap hne _ ih =>
      rw [words_append_gap hgap hne, words_gap_append hbefore, ih, List.flatMap_cons]

/-- Texts joined by single spaces are spaced. -/
theorem spaced_intercalate (texts : List String) : Spaced texts (" ".intercalate texts) := by
  have hempty : IsGap "" := by decide
  induction texts with
  | nil => exact .nil hempty
  | cons text texts ih =>
      cases texts with
      | nil =>
          have hlast : Spaced [text] ("" ++ text) := .last hempty
          simpa using hlast
      | cons next others =>
          have hcons : Spaced (text :: next :: others)
              ("" ++ text ++ " " ++ " ".intercalate (next :: others)) :=
            .cons hempty (by decide) (by decide) ih
          rw [String.intercalate_cons_cons]
          simpa using hcons

/-- A text that holds no line feed. -/
def IsLine (text : String) : Prop :=
  '\n' ∉ text.toList

instance (text : String) : Decidable (IsLine text) :=
  inferInstanceAs (Decidable ('\n' ∉ text.toList))

/-! ## Texts that are lines -/

theorem IsLine.append {a b : String} (ha : IsLine a) (hb : IsLine b) : IsLine (a ++ b) := by
  intro h
  rw [String.toList_append, List.mem_append] at h
  rcases h with h | h
  · exact ha h
  · exact hb h

theorem IsLine.intercalate {sep : String} {texts : List String} (hsep : IsLine sep)
    (h : ∀ text ∈ texts, IsLine text) : IsLine (sep.intercalate texts) := by
  induction texts with
  | nil => exact List.not_mem_nil
  | cons text texts ih =>
      obtain ⟨htext, htexts⟩ := List.forall_mem_cons.1 h
      cases texts with
      | nil =>
          rw [String.intercalate_singleton]
          exact htext
      | cons next others =>
          rw [String.intercalate_cons_cons]
          exact (htext.append hsep).append (ih htexts)

/-- A line feed is blank, so no word holds one. -/
theorem IsWord.isLine {text : String} (h : IsWord text) : IsLine text := by
  intro hmem
  have hblank := h.not_blank '\n' hmem
  revert hblank
  decide

/-! ## Lines of a text -/

/-- The text in which every line of a list is ended by a line feed. -/
def ofLines (lines : List String) : String :=
  String.join (lines.map (· ++ "\n"))

@[simp] theorem ofLines_nil : ofLines [] = "" :=
  rfl

theorem ofLines_cons (line : String) (lines : List String) :
    ofLines (line :: lines) = line ++ "\n" ++ ofLines lines := by
  rw [ofLines, List.map_cons, String.join_cons, ofLines]

theorem ofLines_append (lines lines' : List String) :
    ofLines (lines ++ lines') = ofLines lines ++ ofLines lines' := by
  rw [ofLines, List.map_append, String.join_append, ofLines, ofLines]

/-- Characters other than line feeds belong to the line under way. -/
theorem linesFrom_append {text : List Char} (h : '\n' ∉ text) (rest line : List Char)
    (lines : List String) :
    linesFrom (text ++ rest) line lines = linesFrom rest (text.reverse ++ line) lines := by
  induction text generalizing line with
  | nil => rfl
  | cons c text ih =>
      have hc : c ≠ '\n' := fun heq => h (heq ▸ List.mem_cons_self)
      have htext : '\n' ∉ text := fun hmem => h (List.mem_cons_of_mem _ hmem)
      rw [List.cons_append, linesFrom, if_neg hc, ih htext]
      simp

theorem linesFrom_ofLines {texts : List String} (h : ∀ text ∈ texts, IsLine text)
    (lines : List String) :
    linesFrom (ofLines texts).toList [] lines = lines.reverse ++ texts := by
  induction texts generalizing lines with
  | nil => simp [linesFrom]
  | cons text texts ih =>
      obtain ⟨htext, htexts⟩ := List.forall_mem_cons.1 h
      have hchars : (ofLines (text :: texts)).toList =
          text.toList ++ '\n' :: (ofLines texts).toList := by
        simp [ofLines_cons]
      -- the line feed closes the line that its characters have formed
      rw [hchars, linesFrom_append htext, linesFrom, if_pos rfl, ih htexts]
      simp

/-- Lines are cut out of the text in which each is ended by a line feed. -/
theorem lines_ofLines {texts : List String} (h : ∀ text ∈ texts, IsLine text) :
    lines (ofLines texts) = texts := by
  rw [lines, linesFrom_ofLines h]
  rfl

end Catena.Text
