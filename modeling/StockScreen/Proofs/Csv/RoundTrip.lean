import Mathlib.Data.List.Nodup
import StockScreen.Csv.Import
import StockScreen.Csv.Record
import StockScreen.Proofs.Lists
import StockScreen.Proofs.Text.Utf8

/-! # Records are read back

A field is read back whatever its bytes are, as quotes are written around those
that end a field or a record. So the records of a table that is written are
read with the same fields, and each record under the header is one row.
-/

namespace StockScreen.Csv

/-- In this mode the bytes are read as the fields of a record, which leaves the rest. -/
def Reads (m : Mode) (bytes : List UInt8) (fields : List (List UInt8)) (rest : List UInt8) : Prop :=
  (scan m bytes).fields = fields ∧ (scan m bytes).rest = rest

/-- The bytes end a field: further fields follow behind a comma, or the record ends. -/
inductive Closes : List UInt8 → List (List UInt8) → List UInt8 → Prop
  | comma {bytes rest : List UInt8} {more : List (List UInt8)} (h : Reads .start bytes more rest) :
    Closes (Csv.comma :: bytes) more rest
  | lineFeed (rest : List UInt8) : Closes (Csv.lineFeed :: rest) [] rest

def isSpecial (b : UInt8) : Bool := b == comma || b == quoteMark || endsLine b

variable {m next : Mode} {b : UInt8} {bytes tail rest field : List UInt8}
  {fields more : List (List UInt8)}

/-! ## One byte -/

theorem Reads.skip (hb : m.action b = .skip next) (h : Reads next bytes fields rest) :
    Reads m (b :: bytes) fields rest := by
  rw [Reads, scan, hb]
  exact h

theorem Reads.keep (hb : m.action b = .keep next) (h : Reads next bytes (field :: more) rest) :
    Reads m (b :: bytes) ((b :: field) :: more) rest := by
  obtain ⟨hfields, hrest⟩ := h
  obtain ⟨hfield, hmore⟩ := List.cons_eq_cons.mp hfields
  rw [Reads, scan, hb]
  exact ⟨by rw [← hfield, ← hmore]; rfl, hrest⟩

theorem Reads.endField (hb : m.action b = .endField) (h : Reads .start bytes fields rest) :
    Reads m (b :: bytes) ([] :: fields) rest := by
  rw [Reads, scan, hb]
  exact ⟨congrArg (List.cons []) h.1, h.2⟩

theorem Reads.endRecord (hb : m.action b = .endRecord) : Reads m (b :: bytes) [[]] bytes := by
  rw [Reads, scan, hb]
  exact ⟨rfl, rfl⟩

theorem action_comma (hm : m ≠ .inside) : m.action comma = .endField := by
  cases m with
  | inside => exact absurd rfl hm
  | start | plain | closing => rfl

theorem action_lineFeed (hm : m ≠ .inside) : m.action lineFeed = .endRecord := by
  cases m with
  | inside => exact absurd rfl hm
  | start | plain | closing => rfl

theorem Closes.reads (h : Closes tail more rest) (hm : m ≠ .inside) :
    Reads m tail ([] :: more) rest := by
  cases h with
  | comma h => exact Reads.endField (action_comma hm) h
  | lineFeed => exact Reads.endRecord (action_lineFeed hm)

/-! ## One field -/

theorem action_of_not_special (hb : isSpecial b = false) (hm : m = .start ∨ m = .plain) :
    m.action b = .keep .plain := by
  simp only [isSpecial, Bool.or_eq_false_iff, beq_eq_false_iff_ne] at hb
  rcases hm with rfl | rfl <;> simp [Mode.action, hb]

theorem reads_plain (hfield : ∀ b ∈ field, isSpecial b = false) (htail : Closes tail more rest)
    (hm : m = .start ∨ m = .plain) : Reads m (field ++ tail) (field :: more) rest := by
  induction field generalizing m with
  | nil =>
    refine htail.reads ?_
    rcases hm with rfl | rfl <;> nofun
  | cons b field ih =>
    obtain ⟨hb, hfield⟩ := List.forall_mem_cons.mp hfield
    exact Reads.keep (action_of_not_special hb hm) (ih hfield (.inr rfl))

theorem reads_inside (field : List UInt8) (htail : Closes tail more rest) :
    Reads .inside (Text.double quoteMark field ++ quoteMark :: tail) (field :: more) rest := by
  induction field with
  | nil =>
    have hclosing : Mode.closing ≠ .inside := nofun
    exact Reads.skip rfl (htail.reads hclosing)
  | cons b field ih =>
    rw [Text.double]
    split
    · next hb =>
      subst hb
      have hkeep : Mode.closing.action quoteMark = .keep .inside := rfl
      exact Reads.skip rfl (Reads.keep hkeep ih)
    · next hb => exact Reads.keep (if_neg hb) ih

theorem reads_writeField (field : List UInt8) (htail : Closes tail more rest) :
    Reads .start (writeField field ++ tail) (field :: more) rest := by
  rw [writeField]
  split
  · have hquoted : Text.quoted quoteMark field ++ tail =
        quoteMark :: (Text.double quoteMark field ++ quoteMark :: tail) := by
      simp [Text.quoted]
    rw [hquoted]
    exact Reads.skip rfl (reads_inside field htail)
  · next hplain =>
    refine reads_plain (fun b hb => ?_) htail (.inl rfl)
    exact Bool.eq_false_iff.mpr fun hspecial => hplain (List.any_eq_true.mpr ⟨b, hb, hspecial⟩)

/-! ## Records -/

theorem reads_writeFields (rest : List UInt8) (field : List UInt8) (more : List (List UInt8)) :
    Reads .start (writeFields (field :: more) ++ lineFeed :: rest) (field :: more) rest := by
  induction more generalizing field with
  | nil => exact reads_writeField field (.lineFeed rest)
  | cons next more ih =>
    rw [writeFields, List.append_assoc, List.cons_append]
    · exact reads_writeField field (.comma (ih next))
    · exact nofun

theorem exists_head_writeFields (field next : List UInt8) (more : List (List UInt8)) :
    ∃ b bytes, writeFields (field :: next :: more) = b :: bytes ∧ endsLine b = false := by
  rw [writeFields, writeField]
  · split
    · exact ⟨quoteMark, _, rfl, rfl⟩
    · next hplain =>
      cases field with
      | nil => exact ⟨comma, _, rfl, rfl⟩
      | cons b field =>
        simp only [List.any_cons, Bool.or_eq_true, not_or, Bool.not_eq_true] at hplain
        exact ⟨b, _, rfl, hplain.1.2⟩
  · exact nofun

theorem takeRecord?_writeRecord (hfields : 2 ≤ fields.length) (rest : List UInt8) :
    ∃ s, takeRecord? (writeRecord fields ++ rest) = some s ∧ s.fields = fields ∧ s.rest = rest := by
  obtain ⟨field, next, more, rfl⟩ : ∃ field next more, fields = field :: next :: more := by
    match fields, hfields with
    | field :: next :: more, _ => exact ⟨field, next, more, rfl⟩
  obtain ⟨b, bytes, hhead, hb⟩ := exists_head_writeFields field next more
  have hreads := reads_writeFields rest field (next :: more)
  rw [writeRecord, List.append_assoc, List.singleton_append]
  rw [hhead, List.cons_append] at hreads ⊢
  exact ⟨_, by rw [takeRecord?, hb]; rfl, hreads⟩

theorem fields_recordsFrom (p : Place) {records : List (List (List UInt8))}
    (h : ∀ r ∈ records, 2 ≤ r.length) :
    (recordsFrom p (records.flatMap writeRecord)).map Record.fields = records := by
  induction records generalizing p with
  | nil =>
    rw [List.flatMap_nil, recordsFrom]
    rfl
  | cons r records ih =>
    obtain ⟨hr, hrecords⟩ := List.forall_mem_cons.mp h
    obtain ⟨s, htake, hfields, hrest⟩ := takeRecord?_writeRecord hr (records.flatMap writeRecord)
    rw [List.flatMap_cons, recordsFrom]
    split
    · next hnone => cases hnone.symm.trans htake
    · next s' hsome =>
      cases hsome.symm.trans htake
      rw [List.map_cons, hrest, ih _ hrecords, hfields]

/-! ## Rows -/

def cellsUnder (header texts : List String) : Row :=
  (header.zip texts).map fun (column, text) => (column, readCell column text)

def encodeFields (texts : List String) : List (List UInt8) :=
  texts.map fun s => Utf8.encode s.toList

variable {header texts : List String}

theorem decodeFields_encodeFields (place : Place) (n : Nat) (texts : List String) :
    decodeFields place n (encodeFields texts) = .ok texts := by
  induction texts generalizing n with
  | nil => rfl
  | cons s texts ih =>
    have hdecode : Utf8.decode (Utf8.encode s.toList) = .ok s.toList := Utf8.decodeFrom_encode 0 _
    have hrest : decodeFields place (n + 1) (texts.map fun s => Utf8.encode s.toList) =
        .ok texts := ih (n + 1)
    rw [encodeFields, List.map_cons, decodeFields, hdecode]
    simp only [hrest, Except.map, String.ofList_toList]

theorem rowOf_of_nodup {cells : List (String × Cell)} (h : (cells.map Prod.fst).Nodup) :
    rowOf cells = cells := by
  induction cells with
  | nil => rfl
  | cons cell cells ih =>
    obtain ⟨hcell, hcells⟩ := List.nodup_cons.mp h
    have hrest : List.foldr (fun c row => if row.any (·.1 == c.1) then row else c :: row) [] cells =
        cells := ih hcells
    rw [rowOf, List.foldr_cons, hrest, if_neg]
    rw [List.any_eq_true]
    rintro ⟨other, hother, hname⟩
    exact hcell (beq_iff_eq.mp hname ▸ List.mem_map_of_mem hother)

theorem map_fst_cellsUnder (h : texts.length = header.length) :
    (cellsUnder header texts).map Prod.fst = header := by
  rw [cellsUnder, List.map_map]
  exact List.map_fst_zip (Nat.le_of_eq h.symm)

theorem row_of_encoded {r : Record} (hheader : header.Nodup) (hr : r.fields = encodeFields texts)
    (hlength : texts.length = header.length) : r.row header = .ok (cellsUnder header texts) := by
  have hcount : r.fields.length = header.length := by
    rw [hr, encodeFields, List.length_map, hlength]
  have hrow : rowOf (cellsUnder header texts) = cellsUnder header texts := by
    refine rowOf_of_nodup ?_
    rw [map_fst_cellsUnder hlength]
    exact hheader
  rw [Record.row, if_neg (not_not.mpr hcount), Record.texts, hr, decodeFields_encodeFields]
  exact congrArg Except.ok hrow

theorem rowsOf_encoded {records : List Record} {table : List (List String)} (hheader : header.Nodup)
    (hrecords : records.map Record.fields = table.map encodeFields)
    (hlength : ∀ texts ∈ table, texts.length = header.length) :
    rowsOf header records = .ok (table.map (cellsUnder header)) := by
  induction table generalizing records with
  | nil =>
    rw [List.map_nil, List.map_eq_nil_iff] at hrecords
    rw [hrecords]
    rfl
  | cons texts table ih =>
    obtain ⟨r, rest, rfl, hr, hrest⟩ := List.map_eq_cons_iff.mp hrecords
    obtain ⟨htexts, htable⟩ := List.forall_mem_cons.mp hlength
    rw [rowsOf, row_of_encoded hheader hr htexts, ih hrest htable]
    rfl

theorem splitMark_of_head (h : ∀ b ∈ bytes.head?, b ≠ 0xEF) : splitMark bytes = ([], bytes) := by
  unfold splitMark
  split
  · exact absurd rfl (h 0xEF rfl)
  · rfl

/-- A table that is written is read as its rows, if it has two columns at least and the names of its
columns are distinct and without blanks around them. -/
theorem readRows_table (header : List String) {table : List (List String)}
    (hheader : header.Nodup) (hcolumns : 2 ≤ header.length) (htrim : header.map Text.trim = header)
    (hmark : ∀ b ∈ (recordBytes header).head?, b ≠ 0xEF)
    (hlength : ∀ texts ∈ table, texts.length = header.length) :
    readRows ((header :: table).flatMap recordBytes) = .ok (table.map (cellsUnder header)) := by
  have hbytes : (header :: table).flatMap recordBytes =
      writeRecord (encodeFields header) ++ (table.map encodeFields).flatMap writeRecord := by
    rw [List.flatMap_cons, List.flatMap_map]
    rfl
  have hwidth : ∀ texts : List String, texts.length = header.length →
      2 ≤ (encodeFields texts).length := by
    intro texts htexts
    rwa [encodeFields, List.length_map, htexts]
  have hrecords : ∀ r ∈ table.map encodeFields, 2 ≤ r.length :=
    List.forall_mem_map.mpr fun texts htexts => hwidth texts (hlength texts htexts)
  have hhead : ∀ b ∈ ((header :: table).flatMap recordBytes).head?, b ≠ 0xEF := by
    intro b hb
    refine hmark b ?_
    rw [List.flatMap_cons, List.head?_append] at hb
    obtain ⟨first, bytes, hfirst⟩ : ∃ first bytes, recordBytes header = first :: bytes := by
      refine List.exists_cons_of_ne_nil ?_
      rw [recordBytes, writeRecord]
      exact List.append_ne_nil_of_right_ne_nil _ (List.cons_ne_nil _ _)
    rw [hfirst] at hb ⊢
    exact hb
  obtain ⟨s, htake, hfields, hrest⟩ :=
    takeRecord?_writeRecord (hwidth header rfl) ((table.map encodeFields).flatMap writeRecord)
  have hnames : Record.texts ⟨.first, s.fields⟩ = .ok header := by
    rw [Record.texts, hfields]
    exact decodeFields_encodeFields _ _ _
  rw [readRows, splitMark_of_head hhead]
  simp only [hbytes, htake, hnames, htrim, hrest]
  rw [rowsOf_encoded hheader (fields_recordsFrom _ hrecords) hlength]
  rfl

end StockScreen.Csv
