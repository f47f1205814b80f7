import Dialogue.Variables.Columns
import Dialogue.Variables.Dialect

/-! # The reader of tables and the dialect

    The reader that the command line uses follows the dialect, so that what is known of every
    reader of the dialect is known of it.

    It goes through bytes and stops at a delimiter. Each lemma is about something written with
    any bytes behind it that such a reader would stop at. Of the table as a whole, every record
    is sound: it has as many fields as the header, they are texts again, and both columns are
    found once.

    Main result:
    - `Csv.dialect_ofBytes`: the reader of bytes follows the dialect
-/

namespace Dialogue

namespace Csv

/-! ### Fields -/

variable {written content : Bytes} {record : List Bytes} {table : List (List Bytes)} {b : UInt8}

theorem ne_quote_of_isDelimiter (hb : isDelimiter b = true) : (b == quote) = false := by
  rw [beq_eq_false_iff_ne]
  rintro rfl
  cases hb

/-- A field that is not quoted reaches up to the delimiter. -/
theorem plainField_append (hcontent : ∀ a ∈ content, isDelimiter a = false)
    (hb : isDelimiter b = true) (rest : Bytes) :
    plainField (content ++ b :: rest) = (content, b :: rest) := by
  have hall : ∀ a ∈ content, (!isDelimiter a) = true := by
    intro a ha
    rw [hcontent a ha]
    rfl
  rw [plainField, List.takeWhile_append_of_pos hall, List.dropWhile_append_of_pos hall,
    List.takeWhile_cons, List.dropWhile_cons, hb]
  simp

/-- A quoted field ends at the quote that closes it, if a delimiter comes behind. -/
theorem quotedField_append (hwritten : IsQuoted written content) (hb : isDelimiter b = true)
    (rest : Bytes) : quotedField (written ++ quote :: b :: rest) = (content, b :: rest) := by
  induction hwritten with
  | nil =>
    have hempty : plainField (b :: rest) = ([], b :: rest) :=
      plainField_append (List.forall_mem_nil _) hb rest
    show quotedField (quote :: b :: rest) = _
    rw [quotedField, beq_self_eq_true, if_pos rfl, ne_quote_of_isDelimiter hb,
      if_neg Bool.false_ne_true, hempty]
  | @byte a written content ha hrest ih =>
    -- There is a byte behind this one, the closing quote at the latest.
    cases htail : written ++ quote :: b :: rest with
    | nil => simp at htail
    | cons c tail =>
      rw [List.cons_append, htail, quotedField, beq_eq_false_iff_ne.2 ha,
        if_neg Bool.false_ne_true, ← htail, ih]
  | @doubled written content hrest ih =>
    -- The second quote does not end the field, as it stands behind another one.
    show quotedField (quote :: quote :: (written ++ quote :: b :: rest)) = _
    rw [quotedField, beq_self_eq_true, if_pos rfl, if_pos rfl, ih]

/-- A field is read up to the delimiter behind it. -/
theorem field_append (hfield : IsField written content) (hb : isDelimiter b = true)
    (rest : Bytes) : field (written ++ b :: rest) = (content, b :: rest) := by
  cases hfield with
  | plain hcontent =>
    have hplain := plainField_append (fun a ha => (hcontent a ha).2) hb rest
    -- Neither the content nor the delimiter behind it begins with a quote.
    cases written with
    | nil =>
      rw [List.nil_append] at hplain ⊢
      rw [field, ne_quote_of_isDelimiter hb, if_neg Bool.false_ne_true, hplain]
    | cons a tail =>
      have ha : (a == quote) = false :=
        beq_eq_false_iff_ne.2 (hcontent a List.mem_cons_self).1
      rw [List.cons_append] at hplain ⊢
      rw [field, ha, if_neg Bool.false_ne_true, hplain]
  | quoted hwritten =>
    rw [List.cons_append, List.cons_append, List.append_assoc, List.singleton_append, field,
      beq_self_eq_true, if_pos rfl, quotedField_append hwritten hb]

/-! ### Records -/

theorem fields_eq (bytes : Bytes) :
    fields bytes =
      match (field bytes).2 with
      | [] => ([(field bytes).1], [])
      | b :: rest =>
        if b == comma then ((field bytes).1 :: (fields rest).1, (fields rest).2)
        else ([(field bytes).1], b :: rest) := by
  rw [fields]
  split
  · next h => rw [h]
  · next h => rw [h]

/-- The fields of a record are read up to the end of its line. -/
theorem fields_append (hfields : IsFields written record) (rest : Bytes) :
    fields (written ++ lineFeed :: rest) = (record, lineFeed :: rest) := by
  have hfeed : isDelimiter lineFeed = true := by decide
  have hcomma : isDelimiter comma = true := by decide
  induction hfields with
  | single hfield =>
    rw [fields_eq, field_append hfield hfeed]
    rfl
  | cons hfield hrest ih =>
    rw [List.append_assoc, List.cons_append, fields_eq, field_append hfield hcomma]
    dsimp only
    rw [ih]
    rfl

/-- What begins with a field begins with no line end. -/
theorem IsField.isTerminator_of_head? (hfield : IsField written content) {a : UInt8}
    (ha : written.head? = some a) : isTerminator a = false := by
  cases hfield with
  | plain hcontent =>
    have hplain := (hcontent a (List.mem_of_mem_head? ha)).2
    unfold isDelimiter at hplain
    exact (Bool.or_eq_false_iff.1 hplain).2
  | quoted hwritten =>
    obtain rfl : quote = a := Option.some.inj ha
    rfl

/-- The fields of a record begin with no line end. -/
theorem IsFields.isTerminator_of_head? (hfields : IsFields written record) {a : UInt8}
    (ha : written.head? = some a) : isTerminator a = false := by
  cases hfields with
  | single hfield => exact hfield.isTerminator_of_head? ha
  | @cons first content rest record hfield hrest =>
    by_cases hfirst : first = []
    · -- Of an empty field there is only the comma behind it.
      subst hfirst
      obtain rfl : comma = a := Option.some.inj ha
      rfl
    · apply hfield.isTerminator_of_head?
      rw [← ha, List.head?_append_of_ne_nil _ hfirst]

/-- The line that stands in front is read first. -/
theorem records_append (hline : IsLine written record) (p : Position) (rest : Bytes) :
    ∃ q, records p (written ++ rest) = ⟨p, record⟩ :: records q rest := by
  cases hline with
  | @ended written _ hfields hwritten =>
    obtain ⟨a, tail, rfl⟩ := List.exists_cons_of_ne_nil hwritten
    have ha : isTerminator a = false := hfields.isTerminator_of_head? rfl
    -- Nothing is skipped in front of the line, and its line feed goes with it.
    have hskip : (a :: tail ++ [lineFeed] ++ rest).dropWhile isTerminator =
        a :: (tail ++ lineFeed :: rest) := by
      rw [List.append_assoc, List.cons_append, List.dropWhile_cons, ha]
      rfl
    have hread : fields (a :: (tail ++ lineFeed :: rest)) = (record, lineFeed :: rest) :=
      fields_append hfields rest
    rw [records]
    split
    · next hnil =>
      rw [hskip] at hnil
      cases hnil
    · next hcons =>
      rw [hskip] at hcons
      cases hcons
      simp only [hread, List.drop_succ_cons, List.drop_zero]
      exact ⟨_, rfl⟩

theorem map_fields_records (htable : IsTable written table) (p : Position) :
    (records p written).map Record.fields = table := by
  induction htable generalizing p with
  | nil =>
    rw [records]
    rfl
  | @cons written rest record table hline hrest ih =>
    obtain ⟨q, hrecords⟩ := records_append hline p rest
    rw [hrecords, List.map_cons, ih]

/-- A table is read record by record. -/
theorem map_fields_read (htable : IsTable written table) (hmark : ¬ byteOrderMark <+: written) :
    (read written).map Record.fields = table := by
  have hread : read written = records ⟨0, 1, 0⟩ written := by
    unfold read
    split
    · next rest => exact absurd (List.prefix_append byteOrderMark rest) hmark
    · rfl
  rw [hread, map_fields_records htable]

end Csv

/-! ### Columns -/

namespace Columns

open Csv (Holds)

theorem decodeFields_encode (index : Nat) (fields : List Text) :
    decodeFields index (fields.map Text.encode) = .ok fields := by
  induction fields generalizing index with
  | nil => rfl
  | cons f fields ih =>
    rw [List.map_cons, decodeFields, Text.decode_encode]
    dsimp only
    rw [ih]
    rfl

/-- Going through the headed fields finds both columns, if each of them is there once, and
    those that were found before are not. -/
theorem pickNamed_eq_ok {name value : Option Text} {fields : List (Text × Text)} {n v : Text}
    (hname : (fields.map Prod.fst).count Column.name.heading + name.toList.length = 1)
    (hvalue : (fields.map Prod.fst).count Column.value.heading + value.toList.length = 1)
    (hn : name.or (fields.lookup Column.name.heading) = some n)
    (hv : value.or (fields.lookup Column.value.heading) = some v) :
    pickNamed name value fields = .ok (n, v) := by
  have hne : Column.name.heading ≠ Column.value.heading := by decide
  induction fields generalizing name value with
  | nil =>
    rw [List.lookup_nil, Option.or_none] at hn hv
    rw [hn, hv]
    rfl
  | cons p rest ih =>
    obtain ⟨heading, field⟩ := p
    rw [List.map_cons, List.count_cons] at hname hvalue
    dsimp only at hname hvalue
    by_cases h1 : heading = Column.name.heading
    · subst h1
      rw [if_pos (beq_self_eq_true _)] at hname
      rw [if_neg (by decide), Nat.add_zero] at hvalue
      rw [List.lookup_cons_self] at hn
      rw [List.lookup_cons, beq_eq_false_iff_ne.2 hne.symm] at hv
      cases name with
      | some n => simp at hname
      | none =>
        rw [pickNamed, if_pos rfl]
        exact ih hname hvalue hn hv
    · rw [if_neg (by simpa using h1), Nat.add_zero] at hname
      rw [List.lookup_cons, beq_eq_false_iff_ne.2 (Ne.symm h1)] at hn
      rw [pickNamed, if_neg h1]
      by_cases h2 : heading = Column.value.heading
      · subst h2
        rw [if_pos (beq_self_eq_true _)] at hvalue
        rw [List.lookup_cons_self] at hv
        cases value with
        | some v => simp at hvalue
        | none =>
          rw [if_pos rfl]
          exact ih hname hvalue hn hv
      · rw [if_neg (by simpa using h2), Nat.add_zero] at hvalue
        rw [List.lookup_cons, beq_eq_false_iff_ne.2 (Ne.symm h2)] at hv
        rw [if_neg h2]
        exact ih hname hvalue hn hv

section

variable {header : List Text} (hname : header.count Column.name.heading = 1)
  (hvalue : header.count Column.value.heading = 1)

include hname hvalue

/-- In a table with one column for the names and one for the values, every row of texts is
    sound. -/
theorem readRecord_eq_ok {row : List Text} (hrow : row.length = header.length)
    {pair : Text × Text} (hpair : Holds header row pair) (p : Csv.Position) :
    readRecord (.named header) header.length ⟨p, row.map Text.encode⟩ = .ok pair := by
  have hheadings : (header.zip row).map Prod.fst = header :=
    List.map_fst_zip (Nat.le_of_eq hrow.symm)
  have hpick : pickNamed none none (header.zip row) = .ok pair :=
    pickNamed_eq_ok (by rw [hheadings, hname]; rfl) (by rw [hheadings, hvalue]; rfl)
      hpair.name hpair.value
  have hwidth : ¬ (row.map Text.encode).length ≠ header.length := by
    rw [List.length_map]
    exact not_not_intro hrow
  rw [readRecord, if_neg hwidth]
  show Except.mapError _ (decodeFields 0 (row.map Text.encode) >>= _) = _
  rw [decodeFields_encode]
  show Except.mapError _ (pickNamed none none (header.zip row)) = _
  rw [hpick]
  rfl

theorem map_readRecord_eq {rows : List (List Text)} {pairs : List (Text × Text)}
    {records : List Csv.Record} (hrows : ∀ row ∈ rows, row.length = header.length)
    (hpairs : List.Forall₂ (Holds header) rows pairs)
    (hrecords : records.map Csv.Record.fields = rows.map (List.map Text.encode)) :
    records.map (readRecord (.named header) header.length) = pairs.map .ok := by
  induction hpairs generalizing records with
  | nil =>
    rw [List.map_nil, List.map_eq_nil_iff] at hrecords
    rw [hrecords]
    rfl
  | @cons row pair rows pairs hpair hpairs ih =>
    rw [List.map_cons, List.map_eq_cons_iff] at hrecords
    obtain ⟨⟨p, fields⟩, records, rfl, rfl, hrecords⟩ := hrecords
    have hrest := ih (fun r hr => hrows r (List.mem_cons_of_mem _ hr)) hrecords
    rw [List.map_cons, List.map_cons, hrest,
      readRecord_eq_ok hname hvalue (hrows row List.mem_cons_self) hpair]

end

end Columns

/-- The reader of bytes follows the dialect. -/
theorem Csv.dialect_ofBytes : Dialect Feed.ofBytes where
  yields := by
    intro bytes header rows pairs htable hmark hname hvalue hrows hpairs
    have hread := map_fields_read htable hmark
    rw [List.map_cons, List.map_eq_cons_iff] at hread
    obtain ⟨first, records, hbytes, hfirst, hrecords⟩ := hread
    have hcolumns : Columns.ofHeader first.fields = .named header := by
      rw [hfirst, Columns.ofHeader, Columns.decodeFields_encode]
    have hyields := Columns.map_readRecord_eq hname hvalue hrows hpairs hrecords
    rw [Feed.ofBytes, hbytes]
    dsimp only
    rw [hcolumns, hfirst, List.length_map, hyields]

/-- Fields without quotes stand for themselves. -/
example :
    Feed.ofBytes (Text.encode "name,value\nPlayer,A\nPlayer,B\n".toList) =
      [.ok ("Player".toList, ['A']), .ok ("Player".toList, ['B'])] := by decide +kernel

end Dialogue
