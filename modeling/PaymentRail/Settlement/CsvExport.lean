import PaymentRail.Settlement.SettlementExport
import PaymentRail.Strings.Csv

/-!
# CsvExport — the CSV form of the export is read back

Every cell of an exported line is a field of `Strings.Csv` for its text, where a text that a
spreadsheet would take for a formula has a single quote in front (`exportedCell`).  So the lines are
read back record by record (`csv_lines_parse_back`).
-/

namespace PaymentRail
namespace Export

open Strings Collections Settlement
open Json (Scalar)
open Csv (FieldText LineText isSpecial doubled)

variable {τ : Type}

/-- A text that no spreadsheet takes for a formula. -/
def guardedText (s : Text) : Text := if beginsFormula s = true then '\'' :: s else s

/-- What the cell of a value says. -/
def exportedCell : Scalar → Text
  | .null => []
  | .num n => Json.intText n
  | .str s => guardedText s

/-- The characters that begin a formula. -/
def formulaChars : List Char := ['=', '+', '-', '@', '\t', '\r']

theorem beginsFormula_iff {s : Text} :
    beginsFormula s = true ↔ ∃ c rest, s = c :: rest ∧ c ∈ formulaChars := by
  cases s with
  | nil => simp [beginsFormula]
  | cons c rest => simp [beginsFormula, formulaChars]

theorem beginsFormula_guardedText (s : Text) : beginsFormula (guardedText s) = false := by
  unfold guardedText
  split
  · rfl
  · rename_i h
    exact Bool.eq_false_iff.2 h

/-! ## Cells and lines -/

/-- Only a text with special characters is put in quotes. -/
theorem fieldText_csvQuote (text : Text) : FieldText text (csvQuote text) := by
  unfold csvQuote
  split
  · exact .quoted
  · rename_i h
    refine .plain ?_
    intro c hc
    refine Bool.eq_false_iff.2 ?_
    intro hspecial
    exact h (List.any_eq_true.2 ⟨c, hc, hspecial⟩)

theorem fieldText_csvCell (value : Scalar) : FieldText (exportedCell value) (csvCell value) := by
  cases value with
  | null => exact .plain fun _ hc => absurd hc List.not_mem_nil
  | num n => exact fieldText_csvQuote _
  | str s => exact fieldText_csvQuote _

/-- The cells of a record, in the order of the columns. -/
def exportedCells (record : Column → Scalar) : List Text :=
  exportColumns.map fun column => exportedCell (record column)

theorem lineText_toCsvLine (record : Column → Scalar) :
    LineText (exportedCells record) (toCsvLine record) := by
  refine ⟨exportColumns.map fun column => csvCell (record column), List.cons_ne_nil _ _, ?_, rfl⟩
  rw [exportedCells, List.forall₂_map_left_iff, List.forall₂_map_right_iff, List.forall₂_same]
  exact fun column _ => fieldText_csvCell (record column)

theorem lineTexts (records : List (Column → Scalar)) :
    List.Forall₂ LineText (records.map exportedCells) (records.map toCsvLine) := by
  rw [List.forall₂_map_left_iff, List.forall₂_map_right_iff, List.forall₂_same]
  exact fun record _ => lineText_toCsvLine record

/-- The names of the columns need no quotes. -/
theorem lineText_csvHeader : LineText (exportColumns.map Column.name) csvHeader := by
  refine ⟨exportColumns.map Column.name, List.cons_ne_nil _ _, ?_, rfl⟩
  rw [List.forall₂_same]
  intro name hname
  rcases List.mem_map.1 hname with ⟨column, _, rfl⟩
  have hplain : (column.name.all fun c => !isSpecial c) = true := by cases column <;> decide
  refine .plain ?_
  intro c hc
  simpa using List.all_eq_true.1 hplain c hc

/-- A page of the export is read back: the header if it is the first page, and a record for every
row. -/
theorem parse_pageBody (db : Timestamps τ) (first : Bool) (page : List (Row τ)) :
    Csv.parse (pageBody db .csv first page) =
      some ((if first = true then [exportColumns.map Column.name] else []) ++
        page.map fun row => exportedCells (toRecord db row)) := by
  have hlines := lineTexts (page.map (toRecord db))
  rw [List.map_map, List.map_map] at hlines
  cases first with
  | true =>
      have hpage := Csv.parse_lines (List.Forall₂.cons lineText_csvHeader hlines)
      rw [List.flatten_cons, ← List.flatMap_def] at hpage
      exact hpage
  | false =>
      have hpage := Csv.parse_lines hlines
      rw [← List.flatMap_def] at hpage
      exact hpage

/-- The exported lines are read back as one record of eleven cells for every record, in order.  A text
is read as it is or behind a single quote, so that none begins a formula.  A page of the export is such
lines, behind the header if it is the first one. -/
theorem csv_lines_parse_back (records : List (Column → Scalar)) :
    Csv.parse (records.flatMap toCsvLine) = some (records.map exportedCells) ∧
      (∀ record, exportedCells record =
        exportColumns.map fun column => exportedCell (record column)) ∧
      exportColumns.length = 11 ∧ exportColumns.Nodup ∧
      (∀ c rest, c ∈ formulaChars → exportedCell (.str (c :: rest)) = '\'' :: c :: rest) ∧
      (∀ s, (∀ c ∈ s.head?, c ∉ formulaChars) → exportedCell (.str s) = s) ∧
      (∀ n, exportedCell (.num n) = Json.intText n) ∧ exportedCell .null = [] ∧
      (∀ s, ∀ c ∈ (exportedCell (.str s)).head?, c ∉ formulaChars) ∧
      ∀ (db : Timestamps τ) (first : Bool) (page : List (Row τ)),
        Csv.parse (pageBody db .csv first page) =
          some ((if first = true then [exportColumns.map Column.name] else []) ++
            page.map fun row => exportedCells (toRecord db row)) := by
  refine ⟨?_, fun _ => rfl, rfl, by decide, ?_, ?_, fun _ => rfl, rfl, ?_, parse_pageBody⟩
  · rw [List.flatMap_def]
    exact Csv.parse_lines (lineTexts records)
  · intro c rest hmem
    exact if_pos (beginsFormula_iff.2 ⟨c, rest, rfl, hmem⟩)
  · intro s hplain
    refine if_neg ?_
    intro hbegins
    rcases beginsFormula_iff.1 hbegins with ⟨c, rest, rfl, hmem⟩
    exact hplain c rfl hmem
  · intro s c hc hmem
    have hbegins : beginsFormula (guardedText s) = true := by
      rcases List.head?_eq_some_iff.1 hc with ⟨rest, hrest⟩
      exact beginsFormula_iff.2 ⟨c, rest, hrest, hmem⟩
    rw [beginsFormula_guardedText] at hbegins
    exact Bool.false_ne_true hbegins

example : Csv.parse (toCsvLine fun _ => .str "=1,\"2\"".toList) =
    some [List.replicate 11 "'=1,\"2\"".toList] := by decide

end Export
end PaymentRail
