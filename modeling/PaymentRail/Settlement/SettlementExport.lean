import Mathlib.Data.Char
import Mathlib.Data.List.Lex
import Mathlib.Data.Prod.Lex
import PaymentRail.Collections.Keyset
import PaymentRail.Settlement.SettlementService
import PaymentRail.Strings.Json

/-!
# SettlementExport — pages of the settlements table as CSV or NDJSON

This module embeds `settlement/settlement-export.service.ts`.  A page is cut by a cursor over
`(createdAt, id)`: the cursor carries the timestamp as the database printed it, in a JSON object
written in base64url, and is checked when it comes back.

The database orders and compares `(createdAt, id)` in one total order.  What it does with
timestamps is given by `Timestamps`: printing one with microseconds and casting the text back are
inverse.  An id is a uuid in lower case, which the database compares as its text.
-/

namespace PaymentRail
namespace Export

open Strings Collections Settlement

/-! ## Patterns -/

/-- A text whose characters are of the given classes, one by one. -/
def fits : List (Char → Bool) → Text → Bool
  | [], [] => true
  | p :: shape, c :: s => p c && fits shape s
  | _, _ => false

def digits (n : Nat) : List (Char → Bool) := List.replicate n isDecDigit

def hexes (n : Nat) : List (Char → Bool) := List.replicate n isHexDigit

def literal (c : Char) : List (Char → Bool) := [fun d => d == c]

/-- `/^\d{4}-\d{2}-\d{2}T\d{2}:\d{2}:\d{2}\.\d{6}$/` -/
def cursorTimestampPattern (s : Text) : Bool :=
  fits (digits 4 ++ literal '-' ++ digits 2 ++ literal '-' ++ digits 2 ++ literal 'T' ++
    digits 2 ++ literal ':' ++ digits 2 ++ literal ':' ++ digits 2 ++ literal '.' ++ digits 6) s

/-- `/^[0-9a-f]{8}(-[0-9a-f]{4}){3}-[0-9a-f]{12}$/i` -/
def uuidPattern (s : Text) : Bool :=
  fits (hexes 8 ++ literal '-' ++ hexes 4 ++ literal '-' ++ hexes 4 ++ literal '-' ++ hexes 4 ++
    literal '-' ++ hexes 12) s

/-! ## Columns -/

/-- A uuid as the database prints it. -/
structure Uuid where
  text : Text
  pattern : uuidPattern text = true
  lower : toLowerCase text = text
  deriving DecidableEq

namespace Uuid

theorem text_injective : Function.Injective text := by
  rintro ⟨s, _, _⟩ ⟨t, _, _⟩ h
  cases h
  rfl

instance : LinearOrder Uuid := LinearOrder.lift' text text_injective

/-- `CAST(s AS uuid)`, which reads either letter case. -/
def cast (s : Text) : Option Uuid :=
  if h : uuidPattern (toLowerCase s) = true ∧ toLowerCase (toLowerCase s) = toLowerCase s then
    some ⟨toLowerCase s, h.1, h.2⟩
  else none

@[simp] theorem cast_text (id : Uuid) : cast id.text = some id := by
  have h : uuidPattern (toLowerCase id.text) = true ∧
      toLowerCase (toLowerCase id.text) = toLowerCase id.text := by
    simp only [id.lower]
    exact ⟨id.pattern, trivial⟩
  rw [cast, dif_pos h]
  exact congrArg some (text_injective id.lower)

end Uuid

/-- What the database and its driver do with a `timestamp`.  Rows are stamped by the clock of the
database when they are inserted, in a year of four digits. -/
structure Timestamps (τ : Type) where
  /-- `to_char(t, 'YYYY-MM-DD"T"HH24:MI:SS.US')` -/
  toChar : τ → Text
  /-- `CAST(s AS timestamp)` -/
  cast : Text → Option τ
  /-- `new Date(s)` as a parameter of a query. -/
  param : Text → τ
  /-- `new Date(t).toISOString()` -/
  toISOString : τ → Text
  toChar_pattern : ∀ t, cursorTimestampPattern (toChar t) = true
  cast_toChar : ∀ t, cast (toChar t) = some t

/-- The columns of a settlement that the export reads. -/
structure Row (τ : Type) where
  id : Uuid
  escrowId : Text
  status : SettlementStatus
  totalAmount : Text
  feeAmount : Option Text
  receiptsHash : Text
  receiptCount : Option Nat
  attempts : Nat
  txHash : Option Text
  createdAt : τ
  settledAt : Option τ
  deriving DecidableEq

variable {τ : Type}

/-- `(createdAt, id)` -/
def Row.key (row : Row τ) : τ ×ₗ Uuid := toLex (row.createdAt, row.id)

def statusText : SettlementStatus → Text
  | .pending => "pending".toList
  | .settled => "settled".toList
  | .rejected => "rejected".toList
  | .retrying => "retrying".toList
  | .deadLetter => "dead_letter".toList

inductive Column where
  | id
  | escrowId
  | status
  | totalAmount
  | feeAmount
  | receiptsHash
  | receiptCount
  | attempts
  | txHash
  | createdAt
  | settledAt
  deriving DecidableEq, Repr

def Column.name : Column → Text
  | .id => "id".toList
  | .escrowId => "escrowId".toList
  | .status => "status".toList
  | .totalAmount => "totalAmount".toList
  | .feeAmount => "feeAmount".toList
  | .receiptsHash => "receiptsHash".toList
  | .receiptCount => "receiptCount".toList
  | .attempts => "attempts".toList
  | .txHash => "txHash".toList
  | .createdAt => "createdAt".toList
  | .settledAt => "settledAt".toList

def exportColumns : List Column :=
  [.id, .escrowId, .status, .totalAmount, .feeAmount, .receiptsHash, .receiptCount, .attempts,
    .txHash, .createdAt, .settledAt]

open Json (Scalar)

def scalarOf (text : Option Text) : Scalar := text.elim .null .str

def toRecord (db : Timestamps τ) (row : Row τ) : Column → Scalar
  | .id => .str row.id.text
  | .escrowId => .str row.escrowId
  | .status => .str (statusText row.status)
  | .totalAmount => .str row.totalAmount
  | .feeAmount => scalarOf row.feeAmount
  | .receiptsHash => .str row.receiptsHash
  | .receiptCount => row.receiptCount.elim .null fun n => .num n
  | .attempts => .num row.attempts
  | .txHash => scalarOf row.txHash
  | .createdAt => .str (db.toISOString row.createdAt)
  | .settledAt => scalarOf (row.settledAt.map db.toISOString)

/-! ## Lines -/

/-- `/^[=+\-@\t\r]/` -/
def beginsFormula (s : Text) : Bool :=
  match s with
  | [] => false
  | c :: _ => ['=', '+', '-', '@', '\t', '\r'].contains c

def csvQuote (text : Text) : Text :=
  if text.any (fun c => ['"', ',', '\r', '\n'].contains c) = true then
    '"' :: text.flatMap (fun c => if c = '"' then ['"', '"'] else [c]) ++ ['"']
  else text

def csvCell : Scalar → Text
  | .null => []
  | .num n => csvQuote (Json.intText n)
  | .str s => csvQuote (if beginsFormula s = true then '\'' :: s else s)

def crlf : Text := ['\r', '\n']

def toCsvLine (record : Column → Scalar) : Text :=
  List.intercalate [','] (exportColumns.map fun column => csvCell (record column)) ++ crlf

def csvHeader : Text := List.intercalate [','] (exportColumns.map Column.name) ++ crlf

/-- The keys of a record stand in the order of the columns. -/
def toNdjsonLine (record : Column → Scalar) : Text :=
  Json.stringify (exportColumns.map fun column => (column.name, record column)) ++ ['\n']

/-! ## Cursors -/

structure Cursor where
  createdAt : Text
  id : Text
  deriving DecidableEq, Repr

inductive ExportError where
  | badRequest (message : String)
  /-- The database turns a cast down. -/
  | queryFailed
  deriving DecidableEq, Repr

def encodeCursor (row : Cursor) : Text :=
  base64url (utf8 (Json.stringify [("t".toList, .str row.createdAt), ("id".toList, .str row.id)]))

/-- The fields of a cursor, where both are strings of the right form. -/
def cursorOf (parsed : Json) : Option Cursor :=
  match parsed.get "id".toList, parsed.get "t".toList with
  | some (.str id), some (.str t) =>
      if uuidPattern id = true ∧ cursorTimestampPattern t = true then some ⟨t, id⟩ else none
  | _, _ => none

def decodeCursor (cursor : Text) : Except ExportError Cursor :=
  match (Json.parse (utf8Text (base64Bytes cursor))).bind cursorOf with
  | some c => .ok c
  | none => .error (.badRequest "cursor is not a value returned by a previous export page")

/-! ## Pages -/

inductive ExportFormat where
  | csv
  | ndjson
  deriving DecidableEq, Repr

/-- `ExportSettlementsQueryDto` after validation. -/
structure Query where
  format : Option ExportFormat
  cursor : Option Text
  limit : Option Nat
  escrowId : Option Text
  status : Option SettlementStatus
  createdFrom : Option Text
  createdTo : Option Text
  one_le_limit : ∀ n ∈ limit, 1 ≤ n

structure ExportPage where
  body : Text
  contentType : String
  filename : String
  count : Nat
  nextCursor : Option Text
  deriving DecidableEq, Repr

def exportDefaultLimit : Nat := 500

def exportMaxLimit : Nat := 5000

/-- A parameter that is given and not empty. -/
def given (text : Option Text) : Option Text := text.filter fun s => s ≠ []

namespace Query

def pageLimit (query : Query) : Nat := min (query.limit.getD exportDefaultLimit) exportMaxLimit

def pageFormat (query : Query) : ExportFormat := query.format.getD .csv

/-- The conditions of the filters. -/
def selects [LinearOrder τ] (query : Query) (db : Timestamps τ) (row : Row τ) : Bool :=
  (given query.escrowId).all (fun escrowId => row.escrowId = escrowId) &&
    query.status.all (fun status => row.status = status) &&
    (given query.createdFrom).all (fun s => db.param s ≤ row.createdAt) &&
    (given query.createdTo).all (fun s => row.createdAt < db.param s)

end Query

section ExportPage

variable [LinearOrder τ] (db : Timestamps τ)

/-- The row that a cursor points at, as the query compares it. -/
def bindCursor (cursor : Cursor) : Except ExportError (τ ×ₗ Uuid) :=
  match db.cast cursor.createdAt, Uuid.cast cursor.id with
  | some createdAt, some id => .ok (toLex (createdAt, id))
  | _, _ => .error .queryFailed

/-- The query: the rows behind the cursor that pass the filters, ordered by `createdAt` and `id`,
one more than the page holds. -/
def getMany (query : Query) (after : Option (τ ×ₗ Uuid)) (table : List (Row τ)) : List (Row τ) :=
  let where_ : Row τ → Bool := fun row =>
    after.all (fun bound => bound < row.key) && query.selects db row
  (Arrange.orderBy Row.key (table.filter where_)).take (query.pageLimit + 1)

/-- The text of a page: the header goes on the first one only. -/
def pageBody (format : ExportFormat) (first : Bool) (page : List (Row τ)) : Text :=
  match format with
  | .ndjson => page.flatMap fun row => toNdjsonLine (toRecord db row)
  | .csv =>
      (if first = true then csvHeader else []) ++
        page.flatMap fun row => toCsvLine (toRecord db row)

/-- The cursor behind a page of `limit` rows, where the query found one more. -/
def nextCursorOf (limit : Nat) (rows : List (Row τ)) : Option Text :=
  let raw := rows.map fun row => db.toChar row.createdAt
  let page := rows.take limit
  if limit < rows.length then
    match page.getLast?, raw[page.length - 1]? with
    | some last, some cursorTimestamp => some (encodeCursor ⟨cursorTimestamp, last.id.text⟩)
    | _, _ => none
  else none

/-- The page made of what the query found. -/
def pageOf (query : Query) (first : Bool) (rows : List (Row τ)) : ExportPage :=
  let page := rows.take query.pageLimit
  { body := pageBody db query.pageFormat first page
    contentType :=
      match query.pageFormat with
      | .ndjson => "application/x-ndjson; charset=utf-8"
      | .csv => "text/csv; charset=utf-8"
    filename :=
      match query.pageFormat with
      | .ndjson => "settlements.ndjson"
      | .csv => "settlements.csv"
    count := page.length
    nextCursor := nextCursorOf db query.pageLimit rows }

def exportPage (table : List (Row τ)) (query : Query) : Except ExportError ExportPage := do
  let cursor ← match given query.cursor with
    | some cursor => (decodeCursor cursor).map some
    | none => .ok none
  let after ← match cursor with
    | some cursor => (bindCursor db cursor).map some
    | none => .ok none
  return pageOf db query cursor.isNone (getMany db query after table)

end ExportPage

end Export
end PaymentRail
