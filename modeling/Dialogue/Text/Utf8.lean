import Dialogue.Text.Basic

/-! # UTF-8

    Writing a text as bytes and reading bytes as a text. Reading accepts only
    well-formed UTF-8; where it refuses, it says how many bytes before the
    first ill-formed character were sound.
-/

namespace Dialogue.Text

/-- The text as UTF-8. -/
def encode (t : Text) : List UInt8 := t.flatMap String.utf8EncodeChar

/-- The character that begins the bytes, if a well-formed one does. No
    character takes more than four bytes. -/
def firstChar? (bytes : List UInt8) : Option Char :=
  (bytes.take 4).toByteArray.utf8DecodeChar? 0

/-- Reads bytes as a text, or answers the length of their well-formed part. -/
def decode : List UInt8 → Except Nat Text
  | [] => .ok []
  | b :: rest =>
    match firstChar? (b :: rest) with
    | none => .error 0
    | some c =>
      match decode (rest.drop (c.utf8Size - 1)) with
      | .ok t => .ok (c :: t)
      | .error n => .error (c.utf8Size + n)
termination_by bytes => bytes.length
decreasing_by simp only [List.length_drop, List.length_cons]; omega

/-! ### Reading back what was written -/

theorem firstChar?_utf8EncodeChar_append (c : Char) (rest : List UInt8) :
    firstChar? (String.utf8EncodeChar c ++ rest) = some c := by
  have h : (String.utf8EncodeChar c).length ≤ 4 := by
    rw [String.length_utf8EncodeChar]; exact Char.utf8Size_le_four c
  rw [firstChar?, List.take_append, List.take_of_length_le h, List.toByteArray_append]
  exact ByteArray.utf8DecodeChar?_utf8EncodeChar_append

/-- What was written is read back. -/
theorem decode_encode (t : Text) : decode (encode t) = .ok t := by
  induction t with
  | nil => simp [encode, decode]
  | cons c t ih =>
    obtain ⟨b, bs, h⟩ := List.exists_cons_of_ne_nil (String.utf8EncodeChar_ne_nil (c := c))
    have hl := String.length_utf8EncodeChar c
    have hf := firstChar?_utf8EncodeChar_append c (encode t)
    rw [h, List.cons_append] at hf
    rw [h, List.length_cons] at hl
    have he : encode (c :: t) = b :: (bs ++ encode t) := by
      rw [encode, List.flatMap_cons, h]; rfl
    have hd : (bs ++ encode t).drop (c.utf8Size - 1) = encode t := by
      rw [← hl]; simp
    rw [he, decode, hf]
    simp only [hd, ih]

end Dialogue.Text
