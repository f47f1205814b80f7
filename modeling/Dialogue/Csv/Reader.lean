import Dialogue.Csv.Basic

/-! # Reading comma-separated values

    A line feed or a carriage return ends a record. Between records any number of
    them is skipped, so an empty line is no record and the two of a pair count
    once.

    A field that begins with a quote is quoted: up to the next quote that is not
    doubled it may hold every byte, and a doubled quote stands for one. What
    follows the closing quote up to the end of the field is taken as it is, and
    without a closing quote the field reaches to the end of the table. In any
    other field a quote is a byte like others.

    Reading never fails. Each record keeps the position where the reader stood
    when it set out to read it, which is behind the byte that ended the record
    before.
-/

namespace Dialogue.Csv

/-! ### Fields -/

/-- A field without quotes: everything up to the next delimiter, and the rest. -/
def plainField (bytes : Bytes) : Bytes × Bytes :=
  (bytes.takeWhile fun b => !isDelimiter b, bytes.dropWhile fun b => !isDelimiter b)

/-- The content of a field behind its opening quote, and the rest. -/
def quotedField : Bytes → Bytes × Bytes
  | [] => ([], [])
  | [b] => if b == quote then ([], []) else ([b], [])
  | b :: c :: rest =>
    if b == quote then
      if c == quote then
        let r := quotedField rest
        (quote :: r.1, r.2)
      else plainField (c :: rest)
    else
      let r := quotedField (c :: rest)
      (b :: r.1, r.2)

/-- The content of the field that the bytes begin with, and the rest. -/
def field : Bytes → Bytes × Bytes
  | [] => ([], [])
  | b :: rest => if b == quote then quotedField rest else plainField (b :: rest)

theorem length_plainField_le (bytes : Bytes) : (plainField bytes).2.length ≤ bytes.length :=
  (List.dropWhile_sublist _).length_le

theorem length_quotedField_le (bytes : Bytes) :
    (quotedField bytes).2.length ≤ bytes.length := by
  fun_induction quotedField bytes with
  | case1 | case2 | case3 => simp
  | case4 b c rest _ _ r ih => simp only [r, List.length_cons]; omega
  | case5 b c rest _ _ =>
    have := length_plainField_le (c :: rest)
    simp only [List.length_cons] at this ⊢; omega
  | case6 b c rest _ r ih => simp only [r, List.length_cons] at ih ⊢; omega

theorem length_field_le (bytes : Bytes) : (field bytes).2.length ≤ bytes.length := by
  unfold field
  split
  · simp
  · split
    · next rest _ => exact Nat.le_succ_of_le (length_quotedField_le rest)
    · exact length_plainField_le _

/-! ### Records -/

/-- The fields of the record that the bytes begin with, and the rest, which is
    empty or begins with the byte that ends the record. -/
def fields (bytes : Bytes) : List Bytes × Bytes :=
  match _h : (field bytes).2 with
  | [] => ([(field bytes).1], [])
  | b :: rest =>
    if b == comma then
      let r := fields rest
      ((field bytes).1 :: r.1, r.2)
    else ([(field bytes).1], b :: rest)
termination_by bytes.length
decreasing_by
  have := length_field_le bytes
  rw [_h] at this
  exact this

theorem length_fields_le (bytes : Bytes) : (fields bytes).2.length ≤ bytes.length := by
  fun_induction fields bytes with
  | case1 => simp
  | case2 bytes b rest h _ r ih =>
    have := length_field_le bytes
    rw [h, List.length_cons] at this
    simp only [r]
    omega
  | case3 bytes b rest h _ =>
    have := length_field_le bytes
    rw [h] at this
    exact this

/-- The position behind one more record, which took these bytes. -/
def Position.advance (p : Position) (taken : Bytes) : Position where
  byte := p.byte + taken.length
  line := p.line + taken.count lineFeed
  record := p.record + 1

/-- A record and the position where reading it began. -/
structure Record where
  position : Position
  fields : List Bytes
  deriving DecidableEq

/-- The records from a position on. -/
def records (p : Position) (bytes : Bytes) : List Record :=
  match _h : bytes.dropWhile isTerminator with
  | [] => []
  | b :: rest =>
    let r := fields (b :: rest)
    let after := r.2.drop 1
    ⟨p, r.1⟩ :: records (p.advance (bytes.take (bytes.length - after.length))) after
termination_by bytes.length
decreasing_by
  have h1 := (List.dropWhile_sublist (l := bytes) isTerminator).length_le
  have h2 := length_fields_le (b :: rest)
  rw [_h] at h1
  simp only [List.length_cons, List.length_drop] at h1 h2 ⊢
  omega

/-- The records of a table, the header among them. A byte order mark in front of
    it is no part of the table. -/
def read : Bytes → List Record
  | 0xEF :: 0xBB :: 0xBF :: rest => records ⟨3, 1, 0⟩ rest
  | bytes => records ⟨0, 1, 0⟩ bytes

end Dialogue.Csv
