import Dialogue.Csv.Writer
import Dialogue.Proofs.Loading
import Dialogue.Proofs.Reading

/-! # Tables are loaded as they were written

    Variables can be kept in a table without loss, whatever their names and values hold. Its
    columns may stand in any order and among others, as long as there is one for the names and
    one for the values.

    What is written is a table of the dialect (`Csv.isTable_write`), so that every reader of
    the dialect reads it again as it was. Each row has a cell under both columns, and this is
    the pair that the row yields. What is left is which value a name gets, and that is the last
    one.

    Main result:
    - `loading_inverts_writing`: the variables that a written table gives
-/

namespace Dialogue

namespace Csv

/-! ### Writing in the dialect -/

variable {record : List Bytes} {table : List (List Bytes)}

theorem isQuoted_escape (bytes : Bytes) : IsQuoted (escape bytes) bytes := by
  induction bytes with
  | nil => exact .nil
  | cons b bytes ih =>
    rw [escape_cons]
    by_cases hb : b = quote
    · rw [if_pos hb, hb]
      exact .doubled ih
    · rw [if_neg hb]
      exact .byte hb ih

theorem isField_writeField (bytes : Bytes) : IsField (writeField bytes) bytes :=
  .quoted (isQuoted_escape bytes)

/-- A field stands in front of a comma and the fields behind it. -/
theorem intercalate_cons (f : Bytes) (hrecord : record ≠ []) :
    [comma].intercalate ((f :: record).map writeField) =
      writeField f ++ comma :: [comma].intercalate (record.map writeField) := by
  obtain ⟨g, rest, rfl⟩ := List.exists_cons_of_ne_nil hrecord
  rw [List.map_cons, List.map_cons, List.intercalate_cons_cons, List.append_assoc,
    List.singleton_append]

theorem isFields_intercalate (hrecord : record ≠ []) :
    IsFields ([comma].intercalate (record.map writeField)) record := by
  induction record with
  | nil => exact absurd rfl hrecord
  | cons f record ih =>
    by_cases hlast : record = []
    · subst hlast
      rw [List.map_singleton, List.intercalate_singleton]
      exact .single (isField_writeField f)
    · rw [intercalate_cons f hlast]
      exact .cons (isField_writeField f) (ih hlast)

/-- What is written of fields begins with the quote of the first one. -/
theorem head?_intercalate (hrecord : record ≠ []) :
    ([comma].intercalate (record.map writeField)).head? = some quote := by
  obtain ⟨f, rest, rfl⟩ := List.exists_cons_of_ne_nil hrecord
  by_cases hlast : rest = []
  · subst hlast
    rw [List.map_singleton, List.intercalate_singleton]
    rfl
  · rw [intercalate_cons f hlast]
    rfl

theorem isLine_writeRecord (hrecord : record ≠ []) : IsLine (writeRecord record) record := by
  apply IsLine.ended (isFields_intercalate hrecord)
  intro hempty
  have hhead := head?_intercalate hrecord
  rw [hempty] at hhead
  cases hhead

/-- A written table is a table of the dialect. -/
theorem isTable_write (htable : ∀ r ∈ table, r ≠ []) : IsTable (write table) table := by
  induction table with
  | nil => exact .nil
  | cons record table ih =>
    rw [write_cons]
    exact .cons (isLine_writeRecord (htable record List.mem_cons_self))
      (ih fun r hr => htable r (List.mem_cons_of_mem _ hr))

/-- No byte order mark begins with a quote. -/
theorem not_byteOrderMark_prefix_write (hrecord : record ≠ []) (table : List (List Bytes)) :
    ¬ byteOrderMark <+: write (record :: table) := by
  have hhead : (write (record :: table)).head? = some quote := by
    rw [write_cons, writeRecord, List.append_assoc, List.head?_append, head?_intercalate hrecord]
    rfl
  rintro ⟨rest, hrest⟩
  rw [← hrest] at hhead
  cases hhead

end Csv

/-! ### Cells -/

/-- Where the header has a column, a row as long as the header has a cell under it. -/
theorem Column.exists_cell?_eq_some {c : Column} {header row : List Text}
    (hc : c.heading ∈ header) (hrow : row.length = header.length) :
    ∃ t, c.cell? header row = some t := by
  refine Option.ne_none_iff_exists'.1 fun hnone => ?_
  rw [← List.map_fst_zip (Nat.le_of_eq hrow.symm), List.mem_map] at hc
  obtain ⟨p, hp, hheading⟩ := hc
  have hother := List.lookup_eq_none_iff.1 hnone p hp
  rw [hheading] at hother
  simp at hother

namespace Csv

variable {header : List Text} {rows : List (List Text)}

/-- Every row has a name and a value. -/
theorem exists_forall₂_holds (hname : header.count Column.name.heading = 1)
    (hvalue : header.count Column.value.heading = 1)
    (hrows : ∀ row ∈ rows, row.length = header.length) :
    ∃ pairs, List.Forall₂ (Holds header) rows pairs := by
  have hname : Column.name.heading ∈ header := List.count_pos_iff.1 (by omega)
  have hvalue : Column.value.heading ∈ header := List.count_pos_iff.1 (by omega)
  induction rows with
  | nil => exact ⟨[], .nil⟩
  | cons row rows ih =>
    have hrow := hrows row List.mem_cons_self
    obtain ⟨pairs, hpairs⟩ := ih fun r hr => hrows r (List.mem_cons_of_mem _ hr)
    obtain ⟨n, hn⟩ := Column.exists_cell?_eq_some hname hrow
    obtain ⟨v, hv⟩ := Column.exists_cell?_eq_some hvalue hrow
    exact ⟨(n, v) :: pairs, .cons ⟨hn, hv⟩ hpairs⟩

/-- To look for a name among the pairs is to look for it in its column. -/
theorem find?_of_holds {pairs : List (Text × Text)}
    (h : List.Forall₂ (Holds header) rows pairs) (x : Text) :
    (pairs.find? fun p => p.1 == x).map Prod.snd =
      (rows.find? fun row => Column.name.cell? header row == some x).bind
        (Column.value.cell? header ·) := by
  induction h with
  | nil => rfl
  | @cons row p rows pairs hcells _ ih =>
    have hsame : (Column.name.cell? header row == some x) = (p.1 == x) := by
      rw [hcells.name]
      rfl
    rw [List.find?_cons, List.find?_cons, hsame]
    cases p.1 == x with
    | true => exact hcells.value.symm
    | false => exact ih

/-- A written table yields the name and the value of each row, to every reader of the
    dialect. -/
theorem Dialect.yields_write {reader : TableReader} (hreader : Dialect reader)
    {pairs : List (Text × Text)} (hname : header.count Column.name.heading = 1)
    (hvalue : header.count Column.value.heading = 1)
    (hrows : ∀ row ∈ rows, row.length = header.length)
    (hpairs : List.Forall₂ (Holds header) rows pairs) :
    reader (write ((header :: rows).map (List.map Text.encode))) = pairs.map .ok := by
  have hwide : header ≠ [] := by
    rintro rfl
    cases hname
  have hfull : ∀ r ∈ (header :: rows).map (List.map Text.encode), r ≠ [] := by
    intro r hr
    obtain ⟨row, hrow, rfl⟩ := List.mem_map.1 hr
    rw [Ne, List.map_eq_nil_iff, ← List.length_eq_zero_iff]
    have hlength : row.length = header.length := by
      rcases List.mem_cons.1 hrow with rfl | hrow
      · rfl
      · exact hrows row hrow
    rw [hlength, List.length_eq_zero_iff]
    exact hwide
  refine hreader.yields (isTable_write hfull) ?_ hname hvalue hrows hpairs
  rw [List.map_cons]
  exact not_byteOrderMark_prefix_write (by rwa [Ne, List.map_eq_nil_iff]) _

end Csv

/-! ### Loading what was written -/

/-- Texts are ordered by code points, the first difference deciding. -/
theorem Text.compare_eq_lt_iff {t u : Text} : compare t u = .lt ↔ t < u := by
  rw [List.compare_eq_compareLex]
  induction t generalizing u with
  | nil =>
    cases u with
    | nil => simp [List.compareLex_nil_nil]
    | cons d u => simp [List.compareLex_nil_cons]
  | cons c t ih =>
    cases u with
    | nil => simp [List.compareLex_cons_nil]
    | cons d u =>
      have hchar : compare c d = .lt ↔ c < d := compareOfLessAndEq_eq_lt
      rw [List.compareLex_cons_cons, Ordering.then_eq_lt, ih, List.cons_lt_cons_iff, hchar,
        Std.compare_eq_iff_eq]

/-- Take any reader of the dialect, and write any table of texts field by field between quotes.
    If its header has one column for the names and one for the values, and every row is as long
    as the header, then loading it gives variables. The value of a name is what stands in the
    last row with that name, character for character, and there is none where no row has it.
    Listed, the variables come in the order of the code points of their names, each name
    once. -/
theorem loading_inverts_writing {reader : TableReader} (hreader : Csv.Dialect reader)
    {header : List Text} {rows : List (List Text)}
    (hname : header.count Column.name.heading = 1) (hvalue : header.count Column.value.heading = 1)
    (hrows : ∀ row ∈ rows, row.length = header.length) :
    let table := Csv.write ((header :: rows).map (List.map Text.encode))
    ∃ v : Variables, (Variables.ofTable reader table).1 = .ok v ∧
      (∀ x, v[x]? = (rows.reverse.find? fun row => Column.name.cell? header row == some x).bind
        (Column.value.cell? header ·)) ∧
      v.toList.Pairwise (fun p q => p.1 < q.1) ∧
      ∀ x value, (x, value) ∈ v.toList ↔ v[x]? = some value := by
  intro table
  obtain ⟨pairs, hpairs⟩ := Csv.exists_forall₂_holds hname hvalue hrows
  have hfeed : reader table = pairs.map .ok := hreader.yields_write hname hvalue hrows hpairs
  refine ⟨.ofPairs pairs, ?_, ?_, ?_, ?_⟩
  · have hload := Feed.load_append pairs []
    rw [List.append_nil] at hload
    rw [Variables.ofTable, hfeed, hload]
    rfl
  · intro x
    rw [Variables.getElem?_ofPairs_eq]
    exact Csv.find?_of_holds (List.rel_reverse hpairs) x
  · exact Std.ExtTreeMap.ordered_keys_toList.imp Text.compare_eq_lt_iff.1
  · intro x value
    exact Std.ExtTreeMap.mem_toList_iff_getElem?_eq_some

/-! A table with more columns than two, not in their order, and fields with all that ends a
    field elsewhere. -/

/-- The header of the table. -/
def thornyHeader : List Text := ["a,\"b\"".toList, "value".toList, [], "name".toList]

/-- The rows of the table. Two have the same name, and one has none. -/
def thornyRows : List (List Text) :=
  [[[], "first".toList, "\"".toList, ['P']], ["\n".toList, " \"é\",\r\n,\"\" ".toList, [], ['P']],
    [",".toList, [], [], []]]

/-- With the reader of bytes, the name that comes twice has its second value, and the empty name
    has the empty one. -/
theorem loading_thornyRows :
    Csv.Dialect Feed.ofBytes ∧
    thornyHeader.count Column.name.heading = 1 ∧ thornyHeader.count Column.value.heading = 1 ∧
    (∀ row ∈ thornyRows, row.length = thornyHeader.length) ∧
    ∃ v : Variables,
      (Variables.ofTable Feed.ofBytes
        (Csv.write ((thornyHeader :: thornyRows).map (List.map Text.encode)))).1 = .ok v ∧
      v[['P']]? = some " \"é\",\r\n,\"\" ".toList ∧ v[([] : Text)]? = some [] ∧ v[['Q']]? = none ∧
      v.toList.Pairwise fun p q => p.1 < q.1 := by
  have hname : thornyHeader.count Column.name.heading = 1 := by decide +kernel
  have hvalue : thornyHeader.count Column.value.heading = 1 := by decide +kernel
  have hrows : ∀ row ∈ thornyRows, row.length = thornyHeader.length := by decide +kernel
  obtain ⟨v, hload, hget, hsorted, -⟩ :=
    loading_inverts_writing Csv.dialect_ofBytes hname hvalue hrows
  refine ⟨Csv.dialect_ofBytes, hname, hvalue, hrows, v, hload, ?_, ?_, ?_, hsorted⟩
  · rw [hget]
    decide +kernel
  · rw [hget]
    decide +kernel
  · rw [hget]
    decide +kernel

end Dialogue
