import Catena.Json

/-!
# Written strings are plain text

A JSON string is written with characters from the space to the tilde only, whatever text it
stands for. Such a text is called plain here. Each character of a plain text is sent as one
byte, and no byte is that of a control character. In particular there is no line feed among
them, so a line of plain text stays one line.
-/

set_option autoImplicit false

namespace Catena

namespace Text

/-- A character from the space to the tilde. -/
def PlainChar (c : Char) : Prop :=
  0x20 ≤ c.toNat ∧ c.toNat ≤ 0x7E

instance (c : Char) : Decidable (PlainChar c) :=
  inferInstanceAs (Decidable (_ ∧ _))

/-- A text whose characters lie between the space and the tilde. -/
def Plain (text : String) : Prop :=
  ∀ c ∈ text.toList, PlainChar c

instance (text : String) : Decidable (Plain text) :=
  decidable_of_iff (text.toList.all fun c => decide (PlainChar c)) (by simp [Plain])

theorem Plain.append {a b : String} (ha : Plain a) (hb : Plain b) : Plain (a ++ b) := by
  intro c hc
  rw [String.toList_append, List.mem_append] at hc
  rcases hc with hc | hc
  · exact ha c hc
  · exact hb c hc

theorem Plain.intercalate {sep : String} {texts : List String} (hsep : Plain sep)
    (h : ∀ text ∈ texts, Plain text) : Plain (sep.intercalate texts) := by
  induction texts with
  | nil => exact fun c hc => absurd hc (by simp)
  | cons text texts ih =>
      have htext : Plain text := h text List.mem_cons_self
      have htexts : ∀ t ∈ texts, Plain t := fun t ht => h t (List.mem_cons_of_mem _ ht)
      cases texts with
      | nil =>
          rw [String.intercalate_singleton]
          exact htext
      | cons next others =>
          rw [String.intercalate_cons_cons]
          exact (htext.append hsep).append (ih htexts)

/-! ## Hexadecimal digits -/

theorem plainChar_digitChar : ∀ n < 16, PlainChar n.digitChar := by
  decide

theorem plainChar_of_mem_toDigits {n : Nat} {c : Char} (h : c ∈ Nat.toDigits 16 n) :
    PlainChar c := by
  induction n using Nat.strongRecOn with
  | ind n ih =>
      rw [Nat.toDigits_eq_if (by decide)] at h
      split at h
      · rename_i hlt
        rw [List.mem_singleton.1 h]
        exact plainChar_digitChar n hlt
      · -- the last digit, after those of the quotient
        rw [List.mem_append, List.mem_singleton] at h
        rcases h with h | rfl
        · exact ih (n / 16) (by omega) h
        · exact plainChar_digitChar _ (Nat.mod_lt n (by decide))

theorem plainChar_of_mem_hexDigits {width n : Nat} {c : Char} (h : c ∈ hexDigits width n) :
    PlainChar c := by
  rw [hexDigits, List.mem_append] at h
  rcases h with h | h
  · rw [List.eq_of_mem_replicate h]
    decide
  · exact plainChar_of_mem_toDigits h

/-! ## Bytes -/

/-- The bytes that a text is sent as. -/
def bytes (text : String) : List UInt8 :=
  text.toUTF8.data.toList

/-- A text is sent character by character. -/
theorem bytes_eq_flatMap (text : String) :
    bytes text = text.toList.flatMap String.utf8EncodeChar := by
  rw [bytes, String.toUTF8_eq_toByteArray, ← String.utf8Encode_toList, List.utf8Encode,
    List.data_toByteArray]

theorem bytes_append (a b : String) : bytes (a ++ b) = bytes a ++ bytes b := by
  simp only [bytes_eq_flatMap, String.toList_append, List.flatMap_append]

theorem bytes_join (texts : List String) : bytes (String.join texts) = texts.flatMap bytes := by
  induction texts with
  | nil => rfl
  | cons text texts ih => rw [String.join_cons, bytes_append, ih, List.flatMap_cons]

/-- The bytes of a plain text lie between those of the space and the tilde. -/
theorem Plain.of_mem_bytes {text : String} (h : Plain text) {b : UInt8} (hb : b ∈ bytes text) :
    0x20 ≤ b ∧ b ≤ 0x7E := by
  rw [bytes_eq_flatMap, List.mem_flatMap] at hb
  obtain ⟨c, hc, hb⟩ := hb
  obtain ⟨hlow, hhigh⟩ : 0x20 ≤ c.val.toNat ∧ c.val.toNat ≤ 0x7E := h c hc
  -- a character below 128 is one byte, and the byte is its code point
  have hone : c.utf8Size = 1 := by
    rw [Char.utf8Size_eq_one_iff, UInt32.le_iff_toNat_le]
    exact Nat.le_trans hhigh (by decide)
  rw [String.utf8EncodeChar_eq_singleton hone, List.mem_singleton] at hb
  subst hb
  simp only [UInt8.le_iff_toNat_le, UInt32.toNat_toUInt8]
  change 0x20 ≤ c.val.toNat % 256 ∧ c.val.toNat % 256 ≤ 0x7E
  omega

end Text

namespace Json

theorem plainChar_of_mem_unitEscape {unit : Nat} {c : Char} (h : c ∈ unitEscape unit) :
    Text.PlainChar c := by
  rw [unitEscape, List.mem_cons, List.mem_cons] at h
  rcases h with rfl | rfl | h
  · decide
  · decide
  · exact Text.plainChar_of_mem_hexDigits h

/-- Whatever a character is, it is written in plain text. -/
theorem plainChar_of_mem_writtenChar {c x : Char} (h : x ∈ writtenChar c) :
    Text.PlainChar x := by
  have hpair : ∀ a b : Char, Text.PlainChar a → Text.PlainChar b → x ∈ [a, b] →
      Text.PlainChar x := by
    intro a b ha hb hx
    rw [List.mem_cons, List.mem_singleton] at hx
    rcases hx with rfl | rfl
    · exact ha
    · exact hb
  unfold writtenChar at h
  -- seven characters have escapes of a letter; the others are plain or go by code points
  iterate 7
    split at h
    · exact hpair _ _ (by decide) (by decide) h
  split at h
  · rename_i hplain
    have hc : 0x20 ≤ c.toNat ∧ c.toNat ≤ 0x7E := by simpa using hplain
    rw [List.mem_singleton.1 h]
    exact hc
  · split at h
    · exact plainChar_of_mem_unitEscape h
    · rcases List.mem_append.1 h with h | h
      · exact plainChar_of_mem_unitEscape h
      · exact plainChar_of_mem_unitEscape h

/-- A written string is plain text. -/
theorem plain_writeString (text : String) : Text.Plain (writeString text) := by
  intro c hc
  rw [writeString, String.toList_ofList, List.mem_append, List.mem_cons, List.mem_flatMap,
    List.mem_singleton] at hc
  rcases hc with (rfl | ⟨x, -, hc⟩) | rfl
  · decide
  · exact plainChar_of_mem_writtenChar hc
  · decide

end Json

end Catena
