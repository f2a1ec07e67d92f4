import Constituency.Text.Lines

/-!
# The lines of an encoded text

Cutting a text into lines and cutting its bytes into lines is the same. In UTF-8
the bytes of a line feed and of a carriage return stand for these two characters
and are part of no other, so the cuts fall at the same places, and every line
decodes to what was encoded.

## Main results

* `linesOf_encode`  — the lines of the bytes are the bytes of the lines.
* `decode_encode`   — decoding undoes encoding.
* `byteLines_encode` — the decoded lines of the bytes of a text are its lines.
-/

namespace Constituency.Text

/-- The bytes of characters in UTF-8. -/
def encode (cs : List Char) : List UInt8 :=
  cs.flatMap String.utf8EncodeChar

-- ---------------------------------------------------------------------------
-- The bytes of one character
-- ---------------------------------------------------------------------------

theorem utf8EncodeChar_feed : String.utf8EncodeChar '\n' = [10] := by decide

theorem utf8EncodeChar_return : String.utf8EncodeChar '\r' = [13] := by decide

/-- A byte below 128 stands for the character of that number. -/
theorem toNat_of_mem_utf8EncodeChar {c : Char} {b : UInt8} (hb : b ∈ String.utf8EncodeChar c)
    (hsmall : b.toNat < 128) : c.toNat = b.toNat := by
  unfold String.utf8EncodeChar at hb
  simp only at hb
  split at hb
  · next h =>
    rw [List.mem_singleton] at hb
    subst hb
    rw [UInt8.toNat_ofNat']
    exact (Nat.mod_eq_of_lt (Nat.lt_of_le_of_lt h (by decide))).symm
  · exfalso
    split at hb
    · simp only [List.mem_cons, List.not_mem_nil, or_false] at hb
      rcases hb with rfl | rfl <;> rw [UInt8.toNat_ofNat'] at hsmall <;> omega
    · split at hb
      · simp only [List.mem_cons, List.not_mem_nil, or_false] at hb
        rcases hb with rfl | rfl | rfl <;> rw [UInt8.toNat_ofNat'] at hsmall <;> omega
      · simp only [List.mem_cons, List.not_mem_nil, or_false] at hb
        rcases hb with rfl | rfl | rfl | rfl <;> rw [UInt8.toNat_ofNat'] at hsmall <;> omega

/-- A line feed among the bytes of a character is that character. -/
theorem eq_feed_of_mem {c : Char} (h : (10 : UInt8) ∈ String.utf8EncodeChar c) : c = '\n' :=
  Char.toNat_inj.1 (toNat_of_mem_utf8EncodeChar h (by decide))

/-- A carriage return among the bytes of a character is that character. -/
theorem eq_return_of_mem {c : Char} (h : (13 : UInt8) ∈ String.utf8EncodeChar c) : c = '\r' :=
  Char.toNat_inj.1 (toNat_of_mem_utf8EncodeChar h (by decide))

-- ---------------------------------------------------------------------------
-- The lines of the bytes
-- ---------------------------------------------------------------------------

/-- Units in front of the first line. -/
def extend {α : Type} (front : List α) : List (List α) → List (List α)
  | [] => [front]
  | line :: lines => (front ++ line) :: lines

/-- Units that are neither line feeds nor carriage returns stay in the line. -/
theorem linesOf_append {α : Type} [DecidableEq α] {feed ret : α} {front rest : List α}
    (hne : front ≠ []) (hplain : ∀ u ∈ front, u ≠ feed ∧ u ≠ ret) :
    linesOf feed ret (front ++ rest) = extend front (linesOf feed ret rest) := by
  induction front with
  | nil => exact absurd rfl hne
  | cons u front ih =>
    obtain ⟨hfeed, hret⟩ := hplain u List.mem_cons_self
    simp only [List.cons_append, linesOf, hfeed, hret, if_false, false_and]
    cases front with
    | nil => rw [List.nil_append]; cases linesOf feed ret rest <;> rfl
    | cons v front =>
      rw [ih (List.cons_ne_nil _ _) fun w hw => hplain w (List.mem_cons_of_mem _ hw)]
      cases linesOf feed ret rest <;> rfl

/-- A line feed comes first among the bytes when it comes first in the text. -/
theorem head?_encode_eq_feed {cs : List Char} :
    (encode cs).head? = some 10 ↔ cs.head? = some '\n' := by
  cases cs with
  | nil => simp [encode]
  | cons c cs =>
    rw [encode, List.flatMap_cons]
    constructor
    · intro h
      obtain ⟨b, bs, hbs⟩ := List.exists_cons_of_ne_nil (String.utf8EncodeChar_ne_nil (c := c))
      rw [hbs] at h
      have hb : b = 10 := Option.some.inj h
      rw [eq_feed_of_mem (c := c) (by simp [hbs, hb])]
      rfl
    · intro h
      rw [Option.some.inj h, utf8EncodeChar_feed]
      rfl

/-- The lines of the bytes of a text are the bytes of its lines. -/
theorem linesOf_encode (cs : List Char) :
    linesOf 10 13 (encode cs) = (linesOf '\n' '\r' cs).map encode := by
  induction cs with
  | nil => rfl
  | cons c cs ih =>
    have hcons : encode (c :: cs) = String.utf8EncodeChar c ++ encode cs := by
      simp [encode]
    rw [hcons]
    by_cases hfeed : c = '\n'
    · subst hfeed
      rw [utf8EncodeChar_feed]
      simp only [List.singleton_append, linesOf, if_true, ih, List.map_cons]
      rfl
    · by_cases hret : c = '\r'
      · subst hret
        rw [utf8EncodeChar_return]
        simp only [List.singleton_append, linesOf, head?_encode_eq_feed, ih]
        by_cases hnext : cs.head? = some '\n'
        · simp [hnext]
        · simp only [hnext, and_false, if_false]
          cases linesOf '\n' '\r' cs <;> simp [encode, utf8EncodeChar_return]
      · have hplain : ∀ u ∈ String.utf8EncodeChar c, u ≠ 10 ∧ u ≠ 13 := fun u hu =>
          ⟨fun h => hfeed (eq_feed_of_mem (h ▸ hu)), fun h => hret (eq_return_of_mem (h ▸ hu))⟩
        rw [linesOf_append String.utf8EncodeChar_ne_nil hplain, ih]
        simp only [linesOf, hfeed, hret, if_false, false_and]
        cases linesOf '\n' '\r' cs <;> simp [extend, encode]

/-- Decoding undoes encoding. -/
theorem decode_encode (cs : List Char) : decode (encode cs) = some (String.ofList cs) := by
  have hvalid : (encode cs).toByteArray.IsValidUTF8 := ⟨cs, rfl⟩
  unfold decode String.fromUTF8?
  rw [dif_pos hvalid, Option.some.injEq, ← String.toByteArray_inj, String.toByteArray_ofList]
  rfl

/-- The decoded lines of the bytes of a text are its lines. -/
theorem byteLines_encode (text : String) :
    byteLines (encode text.toList) = (textLines text).map some := by
  unfold byteLines textLines
  rw [linesOf_encode, List.map_map, List.map_map]
  exact List.map_congr_left fun cs _ => decode_encode cs

end Constituency.Text
