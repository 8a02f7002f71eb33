import Mathlib.Data.List.Forall2
import StockScreen.Backtest.Report
import StockScreen.Proofs.Csv.RoundTrip
import StockScreen.Proofs.Text.Blank

/-! # Reports are read back

The report of a backtest is read as one row for each closed trade and, after
these, one for each open position. The stock of a row is the text of its id,
whatever characters stand in it. A row has cells for an exit just when its
trade is closed.
-/

namespace StockScreen

namespace Csv

variable {column text : String}

theorem readCell_eq_null_iff : readCell column text = .null ↔ Text.trim text = "" := by
  simp only [readCell]
  split
  · next h => exact iff_of_true rfl h
  · next h =>
    refine iff_of_false ?_ h
    split
    · exact nofun
    · split
      · exact nofun
      · split <;> exact nofun

theorem readCell_of_text (column : String) (hcolumn : textColumns.contains column)
    (h : Text.trim text ≠ "") :
    readCell column text = .text (Text.trim text) := by
  rw [readCell, if_neg h, if_pos hcolumn]

end Csv

namespace Decimal

variable {places : Nat}

theorem point_mem_withPlaces (h : places ≠ 0) (n : Nat) : '.' ∈ withPlaces places n := by
  rw [withPlaces, if_neg h]
  exact List.mem_append_right _ List.mem_cons_self

theorem mem_signed {c : Char} {cs : List Char} (negative : Bool) (h : c ∈ cs) :
    c ∈ (signed negative cs).toList := by
  rw [signed, String.toList_ofList]
  cases negative with
  | false => exact h
  | true => exact List.mem_cons_of_mem _ h

theorem trim_formatFixed_ne_empty (h : places ≠ 0) (x : Float) :
    Text.trim (formatFixed places x) ≠ "" := by
  unfold formatFixed
  split
  · decide +kernel
  · next negative _ =>
    have hmem : 'i' ∈ (signed negative "inf".toList).toList := mem_signed negative (by decide)
    exact Text.trim_ne_empty hmem (by decide)
  · exact Text.trim_ne_empty (mem_signed _ (point_mem_withPlaces h _)) (by decide)

end Decimal

/-- A text that is not blank and has no blanks around it. -/
structure IsClear (s : String) : Prop where
  ne_empty : s ≠ ""
  trimmed : Text.Trimmed s.toList

theorem IsClear.trim_eq {s : String} (h : IsClear s) : Text.trim s = s := by
  rw [Text.trim, h.trimmed.trimChars_eq, String.ofList_toList]

theorem IsClear.trim_ne_empty {s : String} (h : IsClear s) : Text.trim s ≠ "" := by
  rw [h.trim_eq]
  exact h.ne_empty

structure Trade.IsClear (t : Trade) : Prop where
  stock : StockScreen.IsClear t.stock
  entryDate : StockScreen.IsClear t.entryDate
  exitDate : StockScreen.IsClear t.exitDate

structure Position.IsClear (p : Position) : Prop where
  stock : StockScreen.IsClear p.stock
  entryDate : StockScreen.IsClear p.entryDate

def entryColumns : List String := ["entry_date", "entry_price"]

def exitColumns : List String := ["exit_date", "exit_price", "return_pct"]

structure IsReportRow (stock : String) (closed : Bool) (row : Row) : Prop where
  columns : row.map Prod.fst = reportHeader
  stock : row.lookup entityColumn = some (.text stock)
  entry : ∀ column ∈ entryColumns, ∃ cell, row.lookup column = some cell ∧ cell ≠ .null
  exit : ∀ column ∈ exitColumns, ∃ cell,
    row.lookup column = some cell ∧ (cell = .null ↔ closed = false)

open Csv (cellsUnder readCell readCell_eq_null_iff)

theorem isReportRow_cellsUnder {stock entryDate entryPrice exitDate exitPrice gain : String}
    {closed : Bool} (hstock : IsClear stock) (hdate : Text.trim entryDate ≠ "")
    (hprice : Text.trim entryPrice ≠ "")
    (hexit : ∀ s ∈ [exitDate, exitPrice, gain], Text.trim s = "" ↔ closed = false) :
    IsReportRow stock closed
      (cellsUnder reportHeader [stock, entryDate, entryPrice, exitDate, exitPrice, gain]) where
  columns := rfl
  stock := by
    have hcell := Csv.readCell_of_text "stock_id" (by decide) hstock.trim_ne_empty
    rw [hstock.trim_eq] at hcell
    exact congrArg some hcell
  entry := by
    rw [entryColumns, List.forall_mem_cons, List.forall_mem_singleton]
    exact ⟨⟨_, rfl, mt readCell_eq_null_iff.mp hdate⟩, _, rfl, mt readCell_eq_null_iff.mp hprice⟩
  exit := by
    rw [List.forall_mem_cons, List.forall_mem_cons, List.forall_mem_singleton] at hexit
    obtain ⟨hexitDate, hexitPrice, hgain⟩ := hexit
    rw [exitColumns, List.forall_mem_cons, List.forall_mem_cons, List.forall_mem_singleton]
    exact ⟨⟨_, rfl, readCell_eq_null_iff.trans hexitDate⟩,
      ⟨_, rfl, readCell_eq_null_iff.trans hexitPrice⟩, _, rfl, readCell_eq_null_iff.trans hgain⟩

theorem Trade.IsClear.isReportRow {t : Trade} (h : t.IsClear) :
    IsReportRow t.stock true (cellsUnder reportHeader t.fields) := by
  have hnumber : ∀ (places : Nat) (x : Float), places ≠ 0 →
      Text.trim (Decimal.formatFixed places x) ≠ "" :=
    fun _ x hplaces => Decimal.trim_formatFixed_ne_empty hplaces x
  refine isReportRow_cellsUnder h.stock h.entryDate.trim_ne_empty (hnumber 4 _ (by decide)) ?_
  rw [List.forall_mem_cons, List.forall_mem_cons, List.forall_mem_singleton]
  exact ⟨iff_of_false h.exitDate.trim_ne_empty nofun,
    iff_of_false (hnumber 4 _ (by decide)) nofun, iff_of_false (hnumber 6 _ (by decide)) nofun⟩

theorem Position.IsClear.isReportRow {p : Position} (h : p.IsClear) :
    IsReportRow p.stock false (cellsUnder reportHeader p.fields) := by
  have hblank : Text.trim "" = "" := rfl
  refine isReportRow_cellsUnder h.stock h.entryDate.trim_ne_empty
    (Decimal.trim_formatFixed_ne_empty (by decide) _) ?_
  rw [List.forall_mem_cons, List.forall_mem_cons, List.forall_mem_singleton]
  exact ⟨iff_of_true hblank rfl, iff_of_true hblank rfl, iff_of_true hblank rfl⟩

theorem readRows_reportBytes (closed : List Trade) (held : List Position) :
    Csv.readRows (reportBytes closed held) =
      .ok (closed.map (fun t => cellsUnder reportHeader t.fields) ++
        held.map fun p => cellsUnder reportHeader p.fields) := by
  have hlength : ∀ texts ∈ closed.map Trade.fields ++ held.map Position.fields,
      texts.length = reportHeader.length := by
    rw [List.forall_mem_append, List.forall_mem_map, List.forall_mem_map]
    exact ⟨fun _ _ => rfl, fun _ _ => rfl⟩
  have hrows := Csv.readRows_table reportHeader (by decide) (by decide)
    (by decide +kernel) (by decide +kernel) hlength
  rw [List.map_append, List.map_map, List.map_map] at hrows
  exact hrows

/-- A report is read as one row for each closed trade and then one for each open position, in order.
The cells of the exit are null in the rows of open positions and in no others. -/
theorem report_reads_back {closed : List Trade} {held : List Position}
    (hclosed : ∀ t ∈ closed, t.IsClear) (hheld : ∀ p ∈ held, p.IsClear) :
    ∃ sold kept, Csv.readRows (reportBytes closed held) = .ok (sold ++ kept) ∧
      List.Forall₂ (fun (t : Trade) row => IsReportRow t.stock true row) closed sold ∧
      List.Forall₂ (fun (p : Position) row => IsReportRow p.stock false row) held kept := by
  refine ⟨_, _, readRows_reportBytes closed held, ?_, ?_⟩
  · rw [List.forall₂_map_right_iff, List.forall₂_same]
    exact fun t ht => (hclosed t ht).isReportRow
  · rw [List.forall₂_map_right_iff, List.forall₂_same]
    exact fun p hp => (hheld p hp).isReportRow

/-- Ids with a comma, quotes and an end of line, and a price that is no number. -/
theorem broken_ids_are_read_back :
    let closed : List Trade := [⟨"a,\"b\"\r\nc", "2024-01-02", 0, "2024-01-05", 0 / 0⟩]
    let held : List Position := [⟨"\"", "2024,01\n04", 1⟩]
    ∃ sold kept, Csv.readRows (reportBytes closed held) = .ok [sold, kept] ∧
      IsReportRow "a,\"b\"\r\nc" true sold ∧ IsReportRow "\"" false kept := by
  intro closed held
  have hclear : ∀ s : String, s ≠ "" → Text.trim s = s → IsClear s := fun s hne htrim =>
    ⟨hne, by
      rw [← htrim, Text.trim, String.toList_ofList]
      exact Text.trimmed_trimChars s.toList⟩
  have hclosed : ∀ t ∈ closed, t.IsClear := by
    rw [List.forall_mem_singleton]
    exact ⟨hclear _ (by decide) (by decide +kernel), hclear _ (by decide) (by decide +kernel),
      hclear _ (by decide) (by decide +kernel)⟩
  have hheld : ∀ p ∈ held, p.IsClear := by
    rw [List.forall_mem_singleton]
    exact ⟨hclear _ (by decide) (by decide +kernel), hclear _ (by decide) (by decide +kernel)⟩
  obtain ⟨sold, kept, hread, hallSold, hallKept⟩ := report_reads_back hclosed hheld
  obtain ⟨soldRow, _, hsold, hnil, rfl⟩ := List.forall₂_cons_left_iff.mp hallSold
  obtain ⟨keptRow, _, hkept, hnil', rfl⟩ := List.forall₂_cons_left_iff.mp hallKept
  rw [List.forall₂_nil_left_iff.mp hnil, List.forall₂_nil_left_iff.mp hnil'] at hread
  exact ⟨soldRow, keptRow, hread, hsold, hkept⟩

end StockScreen
