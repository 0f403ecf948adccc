import PaymentRail.Settlement.SettlementExport

/-!
# ExportedOnce — an export lists every row once

A client asks for the first page and follows `nextCursor` until there is none (`Follows`), while the
table changes as it likes between two requests.  Each page of the service is a page of the keyset
walk of `Collections.Keyset` (`exportPage_eq`): the cursor it hands out is read back as the key of
its last row.  From the walk follows that the export ends, that the rows of all pages increase
strictly in `(createdAt, id)`, and that a row present at every request is among them.
-/

namespace PaymentRail
namespace Export

open Strings Collections Settlement

variable {τ : Type}

/-! ## Cursors -/

theorem cursorOf_read {c : Cursor} (hid : uuidPattern c.id = true)
    (ht : cursorTimestampPattern c.createdAt = true) :
    cursorOf (.obj (Json.read [("t".toList, c.createdAt), ("id".toList, c.id)])) = some c := by
  have hgetId : Json.get (.obj (Json.read [("t".toList, c.createdAt), ("id".toList, c.id)]))
      "id".toList = some (.str c.id) := rfl
  have hgetT : Json.get (.obj (Json.read [("t".toList, c.createdAt), ("id".toList, c.id)]))
      "t".toList = some (.str c.createdAt) := rfl
  rw [cursorOf, hgetId, hgetT]
  simp [hid, ht]

/-- A cursor of the right form is read back as it was written. -/
theorem decodeCursor_encodeCursor {c : Cursor} (hid : uuidPattern c.id = true)
    (ht : cursorTimestampPattern c.createdAt = true) : decodeCursor (encodeCursor c) = .ok c := by
  have hparse : Json.parse (utf8Text (base64Bytes (encodeCursor c))) =
      some (.obj (Json.read [("t".toList, c.createdAt), ("id".toList, c.id)])) := by
    rw [encodeCursor, utf8Text_base64Bytes]
    exact Json.parse_stringify [("t".toList, c.createdAt), ("id".toList, c.id)]
  rw [decodeCursor, hparse, Option.bind_some, cursorOf_read hid ht]

/-- The cursor behind a row with the given key. -/
def cursorText (db : Timestamps τ) (key : τ ×ₗ Uuid) : Text :=
  encodeCursor ⟨db.toChar (ofLex key).1, (ofLex key).2.text⟩

theorem given_cursorText (db : Timestamps τ) (key : τ ×ₗ Uuid) :
    given (some (cursorText db key)) = some (cursorText db key) := by
  have hne : cursorText db key ≠ [] := base64url_ne_nil (List.cons_ne_nil _ _)
  simp [given, hne]

theorem bindCursor_toChar (db : Timestamps τ) (key : τ ×ₗ Uuid) :
    bindCursor db ⟨db.toChar (ofLex key).1, (ofLex key).2.text⟩ = .ok key := by
  simp [bindCursor, db.cast_toChar]

/-! ## A page of the service -/

def Query.at (query : Query) (cursor : Option Text) : Query := { query with cursor := cursor }

theorem Query.one_le_pageLimit (query : Query) : 1 ≤ query.pageLimit := by
  rw [pageLimit, le_min_iff]
  refine ⟨?_, by decide⟩
  cases hlimit : query.limit with
  | none => exact (by decide : 1 ≤ exportDefaultLimit)
  | some n => exact query.one_le_limit n hlimit

section Pages

variable [LinearOrder τ] (db : Timestamps τ) (query : Query)

/-- The rows of a page. -/
def pageRows (after : Option (τ ×ₗ Uuid)) (table : List (Row τ)) : List (Row τ) :=
  Keyset.page Row.key (query.selects db) after query.pageLimit table

/-- Where the next page begins. -/
def nextKey (after : Option (τ ×ₗ Uuid)) (table : List (Row τ)) : Option (τ ×ₗ Uuid) :=
  Keyset.next Row.key (query.selects db) after query.pageLimit table

theorem getMany_eq (after : Option (τ ×ₗ Uuid)) (table : List (Row τ)) :
    getMany db query after table =
      Keyset.fetch Row.key (query.selects db) after query.pageLimit table := rfl

/-- The cursor of a page is that of its last row. -/
theorem nextCursorOf_getMany (after : Option (τ ×ₗ Uuid)) (table : List (Row τ)) :
    nextCursorOf db query.pageLimit (getMany db query after table) =
      (nextKey db query after table).map (cursorText db) := by
  rw [nextCursorOf, getMany_eq, nextKey, Keyset.next, Keyset.page]
  generalize Keyset.fetch Row.key (query.selects db) after query.pageLimit table = rows
  split
  · rename_i hlong
    -- the last row of the page stands at the same place among all rows
    have hpos := query.one_le_pageLimit
    have hlen : (rows.take query.pageLimit).length = query.pageLimit := by
      rw [List.length_take]
      omega
    have hlast : (rows.take query.pageLimit).getLast? = rows[query.pageLimit - 1]? := by
      rw [List.getLast?_eq_getElem?, hlen, List.getElem?_take_of_lt (by omega)]
    rw [hlast, hlen, List.getElem?_map]
    cases rows[query.pageLimit - 1]? with
    | none => rfl
    | some last => rfl
  · rfl

/-- The answer to a request, `after` being where its cursor points. -/
def answer (after : Option (τ ×ₗ Uuid)) (table : List (Row τ)) : ExportPage :=
  pageOf db query after.isNone (getMany db query after table)

theorem exportPage_eq (after : Option (τ ×ₗ Uuid)) (table : List (Row τ)) :
    exportPage db table (query.at (after.map (cursorText db))) =
      .ok (answer db query after table) := by
  cases after with
  | none =>
      rfl
  | some key =>
      have hdecode : decodeCursor (cursorText db key) =
          .ok ⟨db.toChar (ofLex key).1, (ofLex key).2.text⟩ :=
        decodeCursor_encodeCursor (ofLex key).2.pattern (db.toChar_pattern _)
      have hgiven : given (query.at (some (cursorText db key))).cursor =
          some (cursorText db key) := given_cursorText db key
      simp only [Option.map_some, exportPage, hgiven, hdecode, Except.map,
        bindCursor_toChar, bind, Except.bind]
      rfl

theorem answer_nextCursor (after : Option (τ ×ₗ Uuid)) (table : List (Row τ)) :
    (answer db query after table).nextCursor =
      (nextKey db query after table).map (cursorText db) :=
  nextCursorOf_getMany db query after table

theorem answer_body (after : Option (τ ×ₗ Uuid)) (table : List (Row τ)) :
    (answer db query after table).body =
      pageBody db query.pageFormat after.isNone (pageRows db query after table) := rfl

end Pages

/-! ## Lines -/

/-- The lines of a page. -/
def pageLines (db : Timestamps τ) (format : ExportFormat) (first : Bool) (page : List (Row τ)) :
    List Text :=
  match format with
  | .ndjson => page.map fun row => toNdjsonLine (toRecord db row)
  | .csv =>
      (if first = true then [csvHeader] else []) ++ page.map fun row => toCsvLine (toRecord db row)

/-- The lines of each page from some page on. -/
def fileLines (db : Timestamps τ) (format : ExportFormat) :
    Bool → List (List (Row τ)) → List (List Text)
  | _, [] => []
  | first, page :: pages => pageLines db format first page :: fileLines db format false pages

theorem pageBody_eq (db : Timestamps τ) (format : ExportFormat) (first : Bool)
    (page : List (Row τ)) :
    pageBody db format first page = (pageLines db format first page).flatten := by
  cases format with
  | ndjson =>
      simp [pageBody, pageLines, List.flatMap]
  | csv =>
      cases first with
      | true => simp [pageBody, pageLines, List.flatMap]
      | false => simp [pageBody, pageLines, List.flatMap]

/-- An id begins with a hex digit. -/
theorem Uuid.exists_cons (id : Uuid) : ∃ c s, id.text = c :: s ∧ isHexDigit c = true := by
  have hpattern := id.pattern
  cases htext : id.text with
  | nil =>
      rw [htext] at hpattern
      cases hpattern
  | cons c s =>
      rw [htext] at hpattern
      exact ⟨c, s, rfl, (Bool.and_eq_true_iff.1 hpattern).1⟩

/-- The cell of an id begins with a digit or a quote. -/
theorem csvCell_id (id : Uuid) : ∃ c s, csvCell (.str id.text) = c :: s ∧ c ≠ 'i' := by
  rcases id.exists_cons with ⟨c, s, htext, hc⟩
  have hplain : beginsFormula (c :: s) = false ∧ c ≠ 'i' := by
    refine forall_mem_hexDigits (P := fun c => beginsFormula (c :: s) = false ∧ c ≠ 'i') ?_
      (isHexDigit_iff.1 hc)
    simp only [hexDigits, List.Forall, beginsFormula]
    decide
  have hcell : csvCell (.str id.text) = csvQuote (c :: s) := by
    simp [csvCell, htext, hplain.1]
  rw [hcell, csvQuote]
  split
  · exact ⟨'"', _, rfl, by decide⟩
  · exact ⟨c, s, rfl, hplain.2⟩

/-- The first cell of a line is an id, and an id is no column name. -/
theorem toCsvLine_ne_header (db : Timestamps τ) (row : Row τ) :
    toCsvLine (toRecord db row) ≠ csvHeader := by
  rcases csvCell_id row.id with ⟨c, s, hcell, hc⟩
  intro hEq
  have hhead : (toCsvLine (toRecord db row)).head? = some c := by
    simp [toCsvLine, exportColumns, toRecord, hcell, List.intercalate]
  have hheader : csvHeader.head? = some 'i' := rfl
  rw [hEq, hheader] at hhead
  exact hc (Option.some.inj hhead).symm

theorem header_notMem_lines (db : Timestamps τ) (page : List (Row τ)) :
    csvHeader ∉ page.map fun row => toCsvLine (toRecord db row) := by
  intro hmem
  rcases List.mem_map.1 hmem with ⟨row, _, hEq⟩
  exact toCsvLine_ne_header db row hEq

theorem header_notMem_fileLines (db : Timestamps τ) (pages : List (List (Row τ)))
    {lines : List Text} (h : lines ∈ fileLines db .csv false pages) : csvHeader ∉ lines := by
  induction pages with
  | nil =>
      cases h
  | cons page pages ih =>
      rcases List.mem_cons.1 h with rfl | hrest
      · exact header_notMem_lines db page
      · exact ih hrest

theorem fileLines_header (db : Timestamps τ) {shown : List (List (Row τ))} (h : shown ≠ []) :
    ∃ first rest, fileLines db .csv true shown = (csvHeader :: first) :: rest ∧
      csvHeader ∉ first ∧ ∀ lines ∈ rest, csvHeader ∉ lines := by
  cases shown with
  | nil =>
      exact absurd rfl h
  | cons page pages =>
      refine ⟨_, _, rfl, header_notMem_lines db page, ?_⟩
      intro lines hlines
      exact header_notMem_fileLines db pages hlines

/-! ## The export -/

/-- The settlements at some time, with their primary key. -/
structure Snapshot (τ : Type) where
  rows : List (Row τ)
  keyed : Table.Keyed Row.id rows

theorem Snapshot.nodup_key (table : Snapshot τ) : (table.rows.map Row.key).Nodup := by
  have hids : ((table.rows.map Row.key).map fun key => (ofLex key).2).Nodup := by
    rw [List.map_map]
    exact table.keyed
  exact List.Nodup.of_map _ hids

section Export

variable [LinearOrder τ] (db : Timestamps τ) (query : Query)

/-- The pages a client gets from some request on.  It asks with the cursor of the page before, until
there is none; `tables i` is what the table holds at request `i`. -/
inductive Follows (tables : Nat → Snapshot τ) : Nat → Option Text → List ExportPage → Prop where
  | last {i : Nat} {cursor : Option Text} {page : ExportPage} :
      exportPage db (tables i).rows (query.at cursor) = .ok page → page.nextCursor = none →
        Follows tables i cursor [page]
  | next {i : Nat} {cursor : Option Text} {page : ExportPage} {nextCursor : Text}
      {pages : List ExportPage} :
      exportPage db (tables i).rows (query.at cursor) = .ok page →
        page.nextCursor = some nextCursor → Follows tables (i + 1) (some nextCursor) pages →
        Follows tables i cursor (page :: pages)

variable {db query} {tables : Nat → Snapshot τ}

/-- The client walks the table by keys. -/
theorem Follows.walk {i : Nat} {cursor : Option Text} {pages : List ExportPage}
    (h : Follows db query tables i cursor pages) :
    ∀ {after : Option (τ ×ₗ Uuid)}, cursor = after.map (cursorText db) →
      ∃ shown, Keyset.Walk Row.key (query.selects db) query.pageLimit
          (fun i => (tables i).rows) i after shown ∧
        pages.length = shown.length ∧
        pages.map ExportPage.body =
          (fileLines db query.pageFormat after.isNone shown).map List.flatten := by
  induction h with
  | @last i cursor page hpage hnext =>
      rintro after rfl
      rw [exportPage_eq] at hpage
      cases hpage
      rw [answer_nextCursor, Option.map_eq_none_iff] at hnext
      refine ⟨_, Keyset.Walk.last hnext, rfl, ?_⟩
      simp only [List.map_cons, List.map_nil, answer_body, pageBody_eq, fileLines]
      rfl
  | @next i cursor page nextCursor pages hpage hnext _ ih =>
      rintro after rfl
      rw [exportPage_eq] at hpage
      cases hpage
      rw [answer_nextCursor, Option.map_eq_some_iff] at hnext
      rcases hnext with ⟨key, hkey, hcursor⟩
      rcases @ih (some key) (congrArg some hcursor.symm) with ⟨shown, hwalk, hlen, hbodies⟩
      refine ⟨_, Keyset.Walk.more hkey hwalk, congrArg Nat.succ hlen, ?_⟩
      simp only [List.map_cons, hbodies, answer_body, pageBody_eq, fileLines]
      rfl

theorem exists_follows {i : Nat} {after : Option (τ ×ₗ Uuid)} {shown : List (List (Row τ))}
    (h : Keyset.Walk Row.key (query.selects db) query.pageLimit (fun i => (tables i).rows) i after
      shown) :
    ∃ pages, Follows db query tables i (after.map (cursorText db)) pages := by
  induction h with
  | @last i after hnext =>
      refine ⟨_, Follows.last (exportPage_eq db query after _) ?_⟩
      rw [answer_nextCursor, nextKey, hnext]
      rfl
  | @more i after key shown hnext _ ih =>
      rcases ih with ⟨pages, hpages⟩
      refine ⟨_, Follows.next (exportPage_eq db query after _) ?_ hpages⟩
      rw [answer_nextCursor, nextKey, hnext]
      rfl

/-- What a finished export has shown: `shown` are the rows of each page. -/
structure Lists (db : Timestamps τ) (query : Query) (tables : Nat → Snapshot τ)
    (pages : List ExportPage) (shown : List (List (Row τ))) : Prop where
  /-- A page is the lines of its rows, in CSV after the header on the first page. -/
  bodies : pages.map ExportPage.body =
    (fileLines db query.pageFormat true shown).map List.flatten
  header : query.pageFormat = .csv → ∃ first rest,
    fileLines db query.pageFormat true shown = (csvHeader :: first) :: rest ∧
      csvHeader ∉ first ∧ ∀ lines ∈ rest, csvHeader ∉ lines
  /-- A row is listed as it stood in the table at the request for its page. -/
  stored : ∀ row ∈ shown.flatten, query.selects db row = true ∧
    ∃ i, i < pages.length ∧ row ∈ (tables i).rows
  sorted : shown.flatten.Pairwise fun a b => a.key < b.key
  once : ∀ row, (∀ i, i < pages.length → row ∈ (tables i).rows) → query.selects db row = true →
    shown.flatten.count row = 1

theorem Follows.lists {pages : List ExportPage} (h : Follows db query tables 0 none pages) :
    ∃ shown, Lists db query tables pages shown := by
  rcases @Follows.walk _ _ _ _ _ _ _ _ h none rfl with ⟨shown, hwalk, hlen, hbodies⟩
  have hkeys : ∀ i, ((tables i).rows.map Row.key).Nodup := fun i => (tables i).nodup_key
  have hsorted := hwalk.sorted hkeys
  refine ⟨shown, hbodies, ?_, ?_, hsorted, ?_⟩
  · intro hcsv
    rw [hcsv]
    refine fileLines_header db ?_
    rintro rfl
    cases hwalk
  · intro row hrow
    obtain ⟨⟨i, hi, hmem⟩, _, hselects⟩ := hwalk.mem hrow
    rw [Nat.zero_add] at hmem
    exact ⟨hselects, i, hlen ▸ hi, hmem⟩
  · intro row hrow hselects
    have hmem : row ∈ shown.flatten := by
      refine hwalk.covers query.one_le_pageLimit hkeys ?_ hselects rfl
      intro j hj
      rw [Nat.zero_add]
      exact hrow j (hlen ▸ hj)
    -- keys increase strictly, so nothing is listed twice
    have hnodup : shown.flatten.Nodup := hsorted.imp fun hlt hEq => absurd (hEq ▸ hlt) (lt_irrefl _)
    exact List.count_eq_one_of_mem hnodup hmem

/-- An export that starts without a cursor ends, whatever happens to the table meanwhile, if
finitely many rows are in it over time; and it lists every row that stays the same row throughout
exactly once, in increasing `(createdAt, id)` order. -/
theorem export_lists_rows_once (db : Timestamps τ) (query : Query) (tables : Nat → Snapshot τ)
    (hfinite : {key | ∃ i, ∃ row ∈ (tables i).rows, row.key = key}.Finite) :
    (∃ pages, Follows db query tables 0 none pages) ∧
      ∀ pages, Follows db query tables 0 none pages →
        ∃ shown, Lists db query tables pages shown := by
  refine ⟨?_, fun pages h => h.lists⟩
  have hwalk : ∃ shown, Keyset.Walk Row.key (query.selects db) query.pageLimit
      (fun i => (tables i).rows) 0 none shown := Keyset.exists_walk hfinite 0 none
  rcases hwalk with ⟨shown, hshown⟩
  exact exists_follows hshown

end Export

/-! Three rows, two of them of the same microsecond, read two at a time; a fourth row comes in after
the first request. -/

/-- The first ten microseconds of an hour. -/
def sampleTimestamps : Timestamps (Fin 10) where
  toChar t := "2026-06-01T12:00:00.00000".toList ++ [t.val.digitChar]
  cast s := (List.finRange 10).find? fun t =>
    "2026-06-01T12:00:00.00000".toList ++ [t.val.digitChar] = s
  param _ := 0
  toISOString _ := "2026-06-01T12:00:00.000Z".toList
  toChar_pattern := by decide
  cast_toChar := by decide

def sampleId (n : Fin 10) : Uuid where
  text := "00000000-0000-4000-8000-00000000000".toList ++ [n.val.digitChar]
  pattern := by revert n; decide
  lower := by revert n; decide

def sampleRow (n createdAt : Fin 10) : Row (Fin 10) where
  id := sampleId n
  escrowId := "00000000-0000-4000-8000-000000001000".toList
  status := .settled
  totalAmount := "1.500000000000000000".toList
  feeAmount := some "0.007500000000000000".toList
  receiptsHash := "0xab".toList
  receiptCount := some 3
  attempts := 1
  txHash := some "0xcd".toList
  createdAt := createdAt
  settledAt := none

def sampleTables : Nat → Snapshot (Fin 10)
  | 0 => ⟨[sampleRow 3 5, sampleRow 2 4, sampleRow 1 4], by unfold Table.Keyed; decide⟩
  | _ + 1 =>
      ⟨[sampleRow 3 5, sampleRow 2 4, sampleRow 1 4, sampleRow 4 7],
        by unfold Table.Keyed; decide⟩

def sampleQuery : Query where
  format := none
  cursor := none
  limit := some 2
  escrowId := none
  status := some .settled
  createdFrom := none
  createdTo := none
  one_le_limit := by simp

theorem export_lists_rows_once_sample :
    ∃ pages shown, Follows sampleTimestamps sampleQuery sampleTables 0 none pages ∧
      Lists sampleTimestamps sampleQuery sampleTables pages shown ∧
      shown.flatten.count (sampleRow 2 4) = 1 := by
  have hfinite : {key | ∃ i, ∃ row ∈ (sampleTables i).rows, row.key = key}.Finite := by
    refine (List.finite_toSet ((sampleTables 1).rows.map Row.key)).subset ?_
    rintro key ⟨i, row, hrow, rfl⟩
    refine List.mem_map.2 ⟨row, ?_, rfl⟩
    cases i with
    | zero => exact List.mem_append_left [sampleRow 4 7] hrow
    | succ i => exact hrow
  have hexport := export_lists_rows_once sampleTimestamps sampleQuery sampleTables hfinite
  rcases hexport.1 with ⟨pages, hpages⟩
  rcases hexport.2 pages hpages with ⟨shown, hshown⟩
  refine ⟨pages, shown, hpages, hshown, hshown.once _ ?_ rfl⟩
  intro i _
  cases i with
  | zero => exact List.mem_cons_of_mem _ List.mem_cons_self
  | succ i => exact List.mem_cons_of_mem _ List.mem_cons_self

end Export
end PaymentRail
