import Mathlib.Data.Prod.Lex
import Mathlib.Algebra.Order.Ring.Rat
import StellarFlow.Lib.Base64Url
import StellarFlow.Lib.IsoDate
import StellarFlow.Lib.Json
import StellarFlow.Lib.Keyset
import StellarFlow.Lib.TextCodec

/-!
# The history of remittances

Model of `encodeCursor`, `decodeCursor` and `RemittanceService.getHistory` in `src/services/remittanceService.ts`. A
client follows the cursors from page to page, while rows may be inserted and deleted between its requests.

A page and its cursor are a page of `Keyset`, whose rows are ordered by the time descending and then by the id.
-/

namespace StellarFlow.Remittance
open IsoDate

inductive RemittanceStatus where
  | pending
  | completed
  | failed
  | reversed
  deriving DecidableEq

def RemittanceStatus.text : RemittanceStatus → String
  | .pending => "PENDING"
  | .completed => "COMPLETED"
  | .failed => "FAILED"
  | .reversed => "REVERSED"

def defaultPageSize : ℤ := 20

def maxPageSize : ℤ := 100

structure RemittanceHistoryFilters where
  userId : String
  status : Option RemittanceStatus
  asset : Option String
  from_ : Option TimeValue
  to_ : Option TimeValue
  cursor : Option String
  limit : Option ℤ

structure RemittanceCursorPayload where
  createdAt : String
  id : String
  deriving DecidableEq

/-- A row; amounts are exact. -/
structure RemittanceTransaction where
  id : String
  userId : String
  asset : String
  senderCurrency : String
  receiverCurrency : String
  amount : ℚ
  outputAmount : ℚ
  fee : ℚ
  rate : ℚ
  status : String
  provider : Option String
  stellarTxHash : Option String
  reference : Option String
  errorMessage : Option String
  createdAt : TimeValue
  updatedAt : TimeValue

structure RemittanceTransactionRecord (ν : Type) where
  id : String
  userId : String
  asset : String
  senderCurrency : String
  receiverCurrency : String
  amount : ν
  outputAmount : ν
  fee : ν
  rate : ν
  status : String
  provider : Option String
  stellarTxHash : Option String
  reference : Option String
  errorMessage : Option String
  createdAt : String
  updatedAt : String

structure RemittanceHistoryResult (ν : Type) where
  success : Bool
  data : List (RemittanceTransactionRecord ν)
  nextCursor : Option String
  limit : ℤ
  error : Option String

/-- The conditions of a query apart from the cursor. -/
structure Where where
  userId : String
  status : Option String
  asset : Option String
  gte : Option TimeValue
  lte : Option TimeValue

/-- A query: the conditions, the time and the id after which rows are wanted, and how many. -/
structure Query where
  conditions : Where
  cursorWhere : Option (TimeValue × String)
  take : ℤ

/-- `toUpperCase`, `Number` of a decimal, `Date.parse` of texts that `toISOString` does not write, and the sort keys of
the database for ids: different ids have different ones. -/
structure Runtime (ν κ : Type) where
  toUpperCase : String → String
  number : ℚ → ν
  parseDate : String → Option TimeValue
  sortKey : String ↪ κ

def encodeCursor (payload : RemittanceCursorPayload) : String :=
  Base64Url.encode (TextCodec.encodeUtf8 (Json.stringify [("createdAt", payload.createdAt), ("id", payload.id)]))

example : encodeCursor ⟨"2026-08-01T10:00:00.000Z", "uuid-1"⟩ =
    "eyJjcmVhdGVkQXQiOiIyMDI2LTA4LTAxVDEwOjAwOjAwLjAwMFoiLCJpZCI6InV1aWQtMSJ9" := by decide +kernel

def Where.selects (conditions : Where) (row : RemittanceTransaction) : Bool :=
  row.userId = conditions.userId && conditions.status.all (fun status => row.status = status) &&
    conditions.asset.all (fun asset => row.asset = asset) &&
    conditions.gte.all (fun gte => gte.ms ≤ row.createdAt.ms) &&
    conditions.lte.all (fun lte => row.createdAt.ms ≤ lte.ms)

/-- The cursor that stands for a row. -/
def cursorOf (row : RemittanceTransaction) : String := encodeCursor ⟨toISOString row.createdAt, row.id⟩

/-- The rows of the table have different ids. -/
structure Table where
  rows : List RemittanceTransaction
  distinct : (rows.map RemittanceTransaction.id).Nodup

namespace Runtime
variable {ν κ : Type} (rt : Runtime ν κ)

/-- `new Date(text)`, where it is valid. -/
def date (text : String) : Option TimeValue := (IsoDate.parse text).or (rt.parseDate text)

def decodeCursor (raw : String) : Option RemittanceCursorPayload :=
  match Json.parse (TextCodec.decodeUtf8 (Base64Url.decode raw)) with
  | some parsed =>
    match parsed.property "createdAt", parsed.property "id" with
    | .string createdAt, .string id => if rt.date createdAt = none then none else some ⟨createdAt, id⟩
    | _, _ => none
  | none => none

/-- The clauses that the filters make. -/
def conditions (filters : RemittanceHistoryFilters) : Where where
  userId := filters.userId
  status := filters.status.map RemittanceStatus.text
  asset := (filters.asset.filter fun asset => asset ≠ "").map rt.toUpperCase
  gte := filters.from_
  lte := filters.to_

/-- The clause that the cursor makes, if there is one; `none` where it cannot be decoded. -/
def cursorWhere (cursor : Option String) : Option (Option (TimeValue × String)) :=
  match cursor.filter fun cursor => cursor ≠ "" with
  | none => some none
  | some cursor => (rt.decodeCursor cursor).bind fun decoded =>
    (rt.date decoded.createdAt).map fun cursorDate => some (cursorDate, decoded.id)

/-- The rows that the filters select. -/
def matching (filters : RemittanceHistoryFilters) (table : Table) : List RemittanceTransaction :=
  table.rows.filter (rt.conditions filters).selects

def record (row : RemittanceTransaction) : RemittanceTransactionRecord ν where
  id := row.id
  userId := row.userId
  asset := row.asset
  senderCurrency := row.senderCurrency
  receiverCurrency := row.receiverCurrency
  amount := rt.number row.amount
  outputAmount := rt.number row.outputAmount
  fee := rt.number row.fee
  rate := rt.number row.rate
  status := row.status
  provider := row.provider
  stellarTxHash := row.stellarTxHash
  reference := row.reference
  errorMessage := row.errorMessage
  createdAt := toISOString row.createdAt
  updatedAt := toISOString row.updatedAt

/-- The page size of a request. -/
def pageSize (limit : Option ℤ) : ℤ := min (max (limit.getD defaultPageSize) 1) maxPageSize

/-- `getHistory`; the database answers a query with rows, or throws an error that may have a message. -/
def getHistory (findMany : Query → Except (Option String) (List RemittanceTransaction))
    (filters : RemittanceHistoryFilters) : RemittanceHistoryResult ν :=
  let limit := pageSize filters.limit
  match rt.cursorWhere filters.cursor with
  | none => ⟨false, [], none, limit, some "Invalid cursor: could not decode pagination token"⟩
  | some cursorWhere =>
    match findMany ⟨rt.conditions filters, cursorWhere, limit + 1⟩ with
    | .error message =>
      ⟨false, [], none, filters.limit.getD defaultPageSize, some (message.getD "Failed to fetch remittance history")⟩
    | .ok rows =>
      let hasMore : Bool := limit < rows.length
      let pageRows := if hasMore then rows.take limit.toNat else rows
      let nextCursor := if hasMore then pageRows.getLast?.map cursorOf else none
      ⟨true, pageRows.map rt.record, nextCursor, limit, none⟩

section
variable [LinearOrder κ]

/-- The order of the rows: newest first, and then by the id. -/
def key (row : RemittanceTransaction) : ℤᵒᵈ ×ₗ κ := toLex (OrderDual.toDual row.createdAt.ms, rt.sortKey row.id)

/-- The row comes after the time and the id. -/
def isAfter (cursor : TimeValue × String) (row : RemittanceTransaction) : Bool :=
  row.createdAt.ms < cursor.1.ms ||
    row.createdAt.ms = cursor.1.ms && rt.sortKey cursor.2 < rt.sortKey row.id

/-- `prisma.remittanceTransaction.findMany`. -/
def findMany (table : Table) (query : Query) : Except (Option String) (List RemittanceTransaction) :=
  let found := table.rows.filter fun row => query.conditions.selects row && query.cursorWhere.all (rt.isAfter · row)
  .ok ((found.mergeSort fun a b => rt.key a ≤ rt.key b).take query.take.toNat)

/-- The results of a client that follows the cursors, each request on the table as it stands then. -/
def follow (filters : RemittanceHistoryFilters) : Option String → List Table → List (RemittanceHistoryResult ν)
  | _, [] => []
  | cursor, table :: tables =>
    let result := rt.getHistory (rt.findMany table) { filters with cursor := cursor }
    result :: match result.nextCursor with
      | none => []
      | some next => follow filters (some next) tables

end

end Runtime

/-- The client has come to a page without a next cursor. -/
def Completed {ν : Type} (results : List (RemittanceHistoryResult ν)) : Prop :=
  ∃ result, results.getLast? = some result ∧ result.nextCursor = none

namespace Runtime
variable {ν κ : Type} {rt : Runtime ν κ} {filters : RemittanceHistoryFilters}

/-- A cursor of a valid date is read back. -/
lemma decodeCursor_encodeCursor {payload : RemittanceCursorPayload} (valid : rt.date payload.createdAt ≠ none) :
    rt.decodeCursor (encodeCursor payload) = some payload := by
  have names : ["createdAt", "id"].Nodup := by decide
  have read := @Json.parse_stringify [("createdAt", payload.createdAt), ("id", payload.id)] names
  rw [decodeCursor, encodeCursor, Base64Url.decode_encode_bytes, TextCodec.decodeUtf8_encodeUtf8, read]
  exact if_neg valid

/-- An ISO text is read as its date. -/
lemma date_toISOString (t : TimeValue) : rt.date (toISOString t) = some t := by
  rw [date, parse_toISOString, Option.some_or]

/-- The cursor of a row is read as its time and its id. -/
lemma cursorWhere_cursorOf (row : RemittanceTransaction) :
    rt.cursorWhere (some (cursorOf row)) = some (some (row.createdAt, row.id)) := by
  have valid : rt.date (toISOString row.createdAt) = some row.createdAt := date_toISOString row.createdAt
  have decoded : rt.decodeCursor (cursorOf row) = some ⟨toISOString row.createdAt, row.id⟩ :=
    decodeCursor_encodeCursor (by rw [valid]; exact Option.some_ne_none _)
  -- an empty cursor would be no cursor
  have nonempty : cursorOf row ≠ "" := fun empty => by
    have none : rt.decodeCursor "" = none := rfl
    rw [empty, none] at decoded
    cases decoded
  rw [cursorWhere, Option.filter_some_pos (by simpa using nonempty)]
  simp only [decoded, Option.bind_some, valid, Option.map_some]

/-- The result of a page. -/
def ofPage (rt : Runtime ν κ) (limit : ℤ) (page : Keyset.Page RemittanceTransaction) : RemittanceHistoryResult ν :=
  ⟨true, page.rows.map rt.record, page.next.map cursorOf, limit, none⟩

/-- The history is complete where the walk has ended. -/
lemma completed_iff {pages : List (Keyset.Page RemittanceTransaction)} {limit : ℤ} :
    Completed (pages.map (rt.ofPage limit)) ↔ Keyset.Ended pages := by
  rw [Completed, Keyset.Ended, List.getLast?_map]
  constructor
  · rintro ⟨result, final, done⟩
    obtain ⟨page, final', rfl⟩ := Option.map_eq_some_iff.1 final
    exact ⟨page, final', Option.map_eq_none_iff.1 done⟩
  · rintro ⟨page, final, done⟩
    exact ⟨rt.ofPage limit page, Option.map_eq_some_iff.2 ⟨page, final, rfl⟩, Option.map_eq_none_iff.2 done⟩

/-- The data of the history are the records of the rows. -/
lemma data_eq (pages : List (Keyset.Page RemittanceTransaction)) (limit : ℤ) :
    (pages.map (rt.ofPage limit)).flatMap RemittanceHistoryResult.data = (Keyset.rows pages).map rt.record := by
  rw [List.flatMap_map, Keyset.rows, List.map_flatMap]
  rfl

/-- Rows of one key have one id. -/
lemma key_injective {row row' : RemittanceTransaction} (same : rt.key row = rt.key row') : row.id = row'.id :=
  rt.sortKey.injective (congrArg (fun k => (ofLex k).2) same)

/-- The rows of a table have different keys, whatever the filters. -/
lemma distinct_matching (table : Table) : ((rt.matching filters table).map rt.key).Nodup := by
  have ids : ((rt.matching filters table).map RemittanceTransaction.id).Nodup :=
    table.distinct.sublist (List.filter_sublist.map _)
  exact List.pairwise_map.2 ((List.pairwise_map.1 ids).imp fun ne same => ne (key_injective same))

/-- The keys in a table are distinct. -/
lemma distinct_tables (tables : List Table) :
    ∀ rows ∈ tables.map (rt.matching filters), (rows.map rt.key).Nodup := by
  intro rows mem
  obtain ⟨table, -, rfl⟩ := List.mem_map.1 mem
  exact distinct_matching table

variable [LinearOrder κ]

/-- A row comes after a cursor where its key does. -/
lemma key_lt_iff {l row : RemittanceTransaction} :
    rt.key l < rt.key row ↔ rt.isAfter (l.createdAt, l.id) row = true := by
  rw [key, key, Prod.Lex.toLex_lt_toLex, isAfter, Bool.or_eq_true, Bool.and_eq_true, decide_eq_true_iff,
    decide_eq_true_iff, decide_eq_true_iff]
  exact or_congr Iff.rfl (and_congr_left fun _ => eq_comm)

/-- The database answers with the first rows after the last one. -/
lemma findMany_eq (table : Table) (last : Option RemittanceTransaction) (n : ℤ) :
    rt.findMany table ⟨rt.conditions filters, last.map fun l => (l.createdAt, l.id), n⟩ =
      .ok ((Keyset.after rt.key last (rt.matching filters table)).take n.toNat) := by
  have clause : ∀ row, (last.map fun l => (l.createdAt, l.id)).all (rt.isAfter · row) =
      last.all fun l => decide (rt.key l < rt.key row) := by
    intro row
    cases last with
    | none => rfl
    | some l => exact Bool.eq_iff_iff.2 (key_lt_iff.symm.trans decide_eq_true_iff.symm)
  rw [findMany, Keyset.after, matching, List.filter_filter]
  simp only [clause, Bool.and_comm]

/-- No page is empty by its size. -/
lemma pageSize_pos (limit : Option ℤ) : 0 < pageSize limit := by
  rw [pageSize, maxPageSize]
  omega

/-- A request is the fetch of a page. -/
lemma getHistory_eq (table : Table) (last : Option RemittanceTransaction) :
    rt.getHistory (rt.findMany table) { filters with cursor := last.map cursorOf } =
      rt.ofPage (pageSize filters.limit)
        (Keyset.fetch rt.key (pageSize filters.limit).toNat last (rt.matching filters table)) := by
  have cursor : rt.cursorWhere (last.map cursorOf) = some (last.map fun l => (l.createdAt, l.id)) := by
    cases last with
    | none => rfl
    | some l => exact cursorWhere_cursorOf l
  have pos := pageSize_pos filters.limit
  have size : (pageSize filters.limit + 1).toNat = (pageSize filters.limit).toNat + 1 := by omega
  have found : rt.findMany table ⟨rt.conditions { filters with cursor := last.map cursorOf },
      last.map fun l => (l.createdAt, l.id), pageSize filters.limit + 1⟩ =
        .ok ((Keyset.after rt.key last (rt.matching filters table)).take (pageSize filters.limit + 1).toNat) :=
    findMany_eq table last _
  rw [getHistory, Keyset.fetch, ofPage]
  simp only [cursor, found, size]
  -- `limit` is an integer here and a length there
  generalize (Keyset.after rt.key last (rt.matching filters table)).take _ = rows
  by_cases more : (pageSize filters.limit).toNat < rows.length
  · have hasMore : pageSize filters.limit < rows.length := by omega
    simp only [decide_eq_true hasMore, if_pos, if_pos more]
  · have done : ¬pageSize filters.limit < rows.length := by omega
    simp only [decide_eq_false done, Bool.false_eq_true, if_false, if_neg more, List.take_of_length_le (not_lt.1 more),
      Option.map_none]

/-- The client's requests are the walk. -/
lemma follow_eq (tables : List Table) (last : Option RemittanceTransaction) :
    rt.follow filters (last.map cursorOf) tables =
      (Keyset.walk rt.key (pageSize filters.limit).toNat last (tables.map (rt.matching filters))).map
        (rt.ofPage (pageSize filters.limit)) := by
  induction tables generalizing last with
  | nil => rfl
  | cons table tables ih =>
    rw [follow, List.map_cons, Keyset.walk, List.map_cons, getHistory_eq]
    refine congrArg (_ :: ·) ?_
    rw [ofPage]
    -- the next cursor stands for the last row of the page
    cases (Keyset.fetch rt.key (pageSize filters.limit).toNat last (rt.matching filters table)).next with
    | none => rfl
    | some l => exact ih (some l)

/-- On one table the client comes to the end. -/
lemma follow_replicate {table : Table} {requests : ℕ} (enough : table.rows.length < requests) :
    Completed (rt.follow filters none (List.replicate requests table)) ∧
      (rt.follow filters none (List.replicate requests table)).flatMap RemittanceHistoryResult.data =
        ((rt.matching filters table).mergeSort fun a b => rt.key a ≤ rt.key b).map rt.record := by
  have pos : 0 < (pageSize filters.limit).toNat := Int.lt_toNat.2 (pageSize_pos filters.limit)
  have walk : rt.follow filters none (List.replicate requests table) = _ := follow_eq _ none
  have same : ∀ rows ∈ (List.replicate requests table).map (rt.matching filters),
      rows = rt.matching filters table := by
    intro rows mem
    obtain ⟨table', mem', rfl⟩ := List.mem_map.1 mem
    rw [List.eq_of_mem_replicate mem']
  have few : (rt.matching filters table).length ≤ table.rows.length := List.length_filter_le _ _
  have ended : Keyset.Ended (Keyset.walk rt.key (pageSize filters.limit).toNat none
      ((List.replicate requests table).map (rt.matching filters))) := by
    refine Keyset.ended_walk (distinct_tables _) (fun rows mem row found => same rows mem ▸ found) ?_
    rw [List.length_map, List.length_replicate]
    omega
  rw [walk, completed_iff, data_eq, Keyset.rows_walk pos same (distinct_matching table) ended, Keyset.after_none]
  exact ⟨ended, rfl⟩

/-- For all filters: on one table, with more requests than it has rows, the client comes to the end and has got exactly
the rows that the filters select, newest first and then by the id. While the table changes between the requests, the
client gets selected rows in that order and so none twice; it comes to the end with more requests than there ever are
rows, and has then got every selected row that all requests found in the table. -/
theorem getHistory_visits_once (rt : Runtime ν κ) (filters : RemittanceHistoryFilters) :
    (∀ (table : Table) (requests : ℕ), table.rows.length < requests →
      Completed (rt.follow filters none (List.replicate requests table)) ∧
      (rt.follow filters none (List.replicate requests table)).flatMap RemittanceHistoryResult.data =
        ((rt.matching filters table).mergeSort fun a b => rt.key a ≤ rt.key b).map rt.record) ∧
    ∀ tables : List Table, ∃ rows : List RemittanceTransaction,
      (rt.follow filters none tables).flatMap RemittanceHistoryResult.data = rows.map rt.record ∧
      (∀ result ∈ rt.follow filters none tables, result.success = true) ∧
      rows.Pairwise (fun a b => rt.key a < rt.key b) ∧
      (∀ row ∈ rows, ∃ table ∈ tables, row ∈ rt.matching filters table) ∧
      (∀ everything : List RemittanceTransaction, (∀ table ∈ tables, ∀ row ∈ table.rows, row ∈ everything) →
        everything.length < tables.length → Completed (rt.follow filters none tables)) ∧
      (Completed (rt.follow filters none tables) →
        ∀ row, (∀ table ∈ tables.take (rt.follow filters none tables).length, row ∈ rt.matching filters table) →
          row ∈ rows) := by
  refine ⟨fun table requests enough => follow_replicate enough, fun tables => ?_⟩
  have pos : 0 < (pageSize filters.limit).toNat := Int.lt_toNat.2 (pageSize_pos filters.limit)
  have walk : rt.follow filters none tables = _ := follow_eq tables none
  rw [walk, completed_iff, data_eq]
  refine ⟨_, rfl, fun result mem => ?_, (Keyset.pairwise_walk (distinct_tables tables)).1, fun row found => ?_,
    fun everything among enough => ?_, fun ended row kept => ?_⟩
  · obtain ⟨page, -, rfl⟩ := List.mem_map.1 mem
    rfl
  · obtain ⟨rows, mem, found'⟩ := Keyset.mem_table_of_walk found
    obtain ⟨table, mem', rfl⟩ := List.mem_map.1 mem
    exact ⟨table, mem', found'⟩
  · have enough' : everything.length < (tables.map (rt.matching filters)).length := by rwa [List.length_map]
    refine Keyset.ended_walk (distinct_tables tables) (fun rows mem row found => ?_) enough'
    obtain ⟨table, mem', rfl⟩ := List.mem_map.1 mem
    exact among table mem' row (List.mem_of_mem_filter found)
  · refine Keyset.mem_walk pos ended (fun l none => by cases none) (distinct_tables tables) fun rows mem => ?_
    rw [← List.map_take] at mem
    obtain ⟨table, mem', rfl⟩ := List.mem_map.1 mem
    exact kept table (by rwa [List.length_map])

end Runtime

end StellarFlow.Remittance
