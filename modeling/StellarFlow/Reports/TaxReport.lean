import Mathlib.Data.List.DropRight
import Mathlib.Data.Rat.Floor
import StellarFlow.Lib.Csv
import StellarFlow.Lib.Framing
import StellarFlow.Lib.IsoDate
import StellarFlow.Lib.JavaScript

/-!
# The streamed tax export

Model of `src/services/taxReportService.ts` from the collected rows on: the two export formats, `renderCsv` and the
chunks of `streamReport`. Texts are lists of characters.

Each batch is rendered with a header, whose line is cut off at the first line feed; the header has none in it, so the
cut is right whatever line feeds the cells of the batch have, and every chunk ends with the line feed of its last row.
-/

namespace StellarFlow.Reports
open IsoDate

inductive TaxExportFormat where
  | cointracker
  | koinly

inductive TaxEventType where
  | swap
  | deposit
  | yield

structure TaxEventRow where
  date : String
  type : TaxEventType
  sentAsset : Option String
  sentAmount : Option Js.Double
  receivedAsset : Option String
  receivedAmount : Option Js.Double
  feeAmount : Option Js.Double
  feeAsset : Option String
  description : String
  txHash : Option String

/-- The dates of texts that `toISOString` does not write, and the text of a number from `1e21` on. -/
structure Runtime where
  parseDate : String → Option TimeValue
  numberText : ℚ → String

/-- The symbols of a CSV text. -/
def csv : Csv.Symbols Char where
  quote := '"'
  comma := ','
  lf := '\n'
  cr := '\r'
  distinct := by decide

/-- `COINTRACKER_HEADER`. -/
def cointrackerHeader : List (List Char) :=
  ["Date", "Received Quantity", "Received Currency", "Sent Quantity", "Sent Currency", "Fee Amount", "Fee Currency",
    "Tag", "Description"].map String.toList

/-- `KOINLY_HEADER`. -/
def koinlyHeader : List (List Char) :=
  ["Date", "Sent Amount", "Sent Currency", "Received Amount", "Received Currency", "Fee Amount", "Fee Currency",
    "Net Worth Amount", "Net Worth Currency", "Label", "Description", "TxHash"].map String.toList

/-- `toDate` of a text. -/
def Runtime.toDate (rt : Runtime) (value : String) : Option TimeValue :=
  if value = "" then none else (parse value).or (rt.parseDate value)

def Runtime.formatTaxDate (rt : Runtime) (value : String) : List Char :=
  match rt.toDate value with
  | none => []
  | some date => ((toISOString date).toList.replace 'T' ' ').take 19

/-- `value.toFixed(digits)`. -/
def Runtime.toFixed (rt : Runtime) (digits : ℕ) (value : ℚ) : List Char :=
  let text :=
    if 10 ^ 21 ≤ |value| then (rt.numberText |value|).toList
    else
      let whole := Nat.toDigits 10 ⌊|value| * 10 ^ digits + 1 / 2⌋.toNat
      let padded := List.replicate (digits + 1 - whole.length) '0' ++ whole
      padded.take (padded.length - digits) ++ '.' :: padded.drop (padded.length - digits)
  if value < 0 then '-' :: text else text

/-- `replace(/0+$/, "").replace(/\.$/, "")`. -/
def trimFraction (text : List Char) : List Char :=
  let stripped := text.rdropWhile (· = '0')
  if stripped.getLast? = some '.' then stripped.dropLast else stripped

def Runtime.formatAmount (rt : Runtime) : Option Js.Double → List Char
  | some (.finite value) =>
    let trimmed := trimFraction (rt.toFixed 12 value)
    if trimmed = [] ∨ trimmed = ['-'] ∨ trimmed = ['-', '0'] then ['0'] else trimmed
  | _ => []

def csvEscape (value : List Char) : List Char := csv.escape value

def coinTrackerTag (row : TaxEventRow) : String :=
  match row.type with
  | .yield => "Income"
  | _ => ""

def koinlyLabel (row : TaxEventRow) : String :=
  match row.type with
  | .yield => "reward"
  | .deposit => "deposit"
  | .swap => "trade"

/-- The `values` of `toCointrackerRow`. -/
def Runtime.cointrackerValues (rt : Runtime) (row : TaxEventRow) : List (List Char) :=
  [rt.formatTaxDate row.date, rt.formatAmount row.receivedAmount, (row.receivedAsset.getD "").toList,
    rt.formatAmount row.sentAmount, (row.sentAsset.getD "").toList, rt.formatAmount row.feeAmount,
    (row.feeAsset.getD "").toList, (coinTrackerTag row).toList, row.description.toList]

def Runtime.toCointrackerRow (rt : Runtime) (row : TaxEventRow) : List (List Char) :=
  (rt.cointrackerValues row).map csvEscape

/-- The `values` of `toKoinlyRow`. -/
def Runtime.koinlyValues (rt : Runtime) (row : TaxEventRow) : List (List Char) :=
  [rt.formatTaxDate row.date, rt.formatAmount row.sentAmount, (row.sentAsset.getD "").toList,
    rt.formatAmount row.receivedAmount, (row.receivedAsset.getD "").toList, rt.formatAmount row.feeAmount,
    (row.feeAsset.getD "").toList, [], [], (koinlyLabel row).toList, row.description.toList,
    (row.txHash.getD "").toList]

def Runtime.toKoinlyRow (rt : Runtime) (row : TaxEventRow) : List (List Char) := (rt.koinlyValues row).map csvEscape

def TaxExportFormat.header : TaxExportFormat → List (List Char)
  | .koinly => koinlyHeader
  | .cointracker => cointrackerHeader

/-- The `renderRow` of a format. -/
def Runtime.renderRow (rt : Runtime) (format : TaxExportFormat) (row : TaxEventRow) : List (List Char) :=
  match format with
  | .koinly => rt.toKoinlyRow row
  | .cointracker => rt.toCointrackerRow row

def Runtime.renderCsv (rt : Runtime) (rows : List TaxEventRow) (format : TaxExportFormat) : List Char :=
  let lines := [','].intercalate format.header :: rows.map fun row => [','].intercalate (rt.renderRow format row)
  ['\n'].intercalate lines ++ ['\n']

/-- `text.split("\n").slice(1).join("\n")`. -/
def cutFirstLine (text : List Char) : List Char := ['\n'].intercalate ((text.splitOn '\n').drop 1)

/-- The loop of `streamReport`. -/
def Runtime.batches (rt : Runtime) (rows : List TaxEventRow) (format : TaxExportFormat) {batchSize : ℕ}
    (pos : 1 ≤ batchSize) (index : ℕ) : List (List Char) :=
  if index < rows.length then
    cutFirstLine (rt.renderCsv ((rows.drop index).take batchSize) format) ::
      rt.batches rows format pos (index + batchSize)
  else []
termination_by rows.length - index

/-- The chunks of `streamReport`. -/
def Runtime.streamReport (rt : Runtime) (rows : List TaxEventRow) (format : TaxExportFormat) {batchSize : ℕ}
    (pos : 1 ≤ batchSize) : List (List Char) :=
  rt.renderCsv [] format :: rt.batches rows format pos 0

/-- The cells of a row before they are escaped. -/
def Runtime.values (rt : Runtime) (format : TaxExportFormat) (row : TaxEventRow) : List (List Char) :=
  match format with
  | .koinly => rt.koinlyValues row
  | .cointracker => rt.cointrackerValues row

variable {rt : Runtime} {rows : List TaxEventRow} {format : TaxExportFormat} {row : TaxEventRow} {batchSize : ℕ}

/-- A row is its values, escaped. -/
lemma renderRow_eq : rt.renderRow format row = (rt.values format row).map csvEscape := by
  cases format with
  | koinly => rfl
  | cointracker => rfl

/-- No cell of a header is escaped. -/
lemma header_escape (format : TaxExportFormat) : format.header.map csv.escape = format.header := by
  have plain : ∀ cell ∈ format.header, cell.any csv.isSpecial = false := by
    cases format with
    | koinly => decide
    | cointracker => decide
  exact (List.map_congr_left fun cell mem => if_neg (Bool.eq_false_iff.1 (plain cell mem))).trans (List.map_id _)

/-- The rows of a document, each with its line feed. -/
def Runtime.body (rt : Runtime) (rows : List TaxEventRow) (format : TaxExportFormat) : List Char :=
  csv.write (rows.map (rt.values format))

/-- The bodies of two reports stand after one another. -/
lemma body_append (first second : List TaxEventRow) :
    rt.body (first ++ second) format = rt.body first format ++ rt.body second format := by
  rw [Runtime.body, List.map_append, Csv.Symbols.write, List.flatMap_append]
  rfl

/-- A document is its header and its rows. -/
lemma renderCsv_eq : rt.renderCsv rows format = csv.line format.header ++ '\n' :: rt.body rows format := by
  have lines : ((rows.map fun row => [','].intercalate (rt.renderRow format row)).flatMap fun line => line ++ ['\n']) =
      rt.body rows format := by
    rw [Runtime.body, Csv.Symbols.write, List.flatMap_map, List.flatMap_map]
    refine congrArg rows.flatMap (funext fun row => ?_)
    rw [renderRow_eq]
    rfl
  rw [Runtime.renderCsv, Framing.intercalate_append, List.flatMap_cons, lines, List.append_assoc]
  rfl

/-- A report is written as the format has it. -/
lemma renderCsv_eq_write : rt.renderCsv rows format = csv.write (format.header :: rows.map (rt.values format)) := by
  rw [renderCsv_eq, Csv.Symbols.write, List.flatMap_cons, header_escape, List.append_assoc]
  rfl

/-- The header has no line feed. -/
lemma lf_notMem_header (format : TaxExportFormat) : '\n' ∉ csv.line format.header := by
  cases format with
  | koinly => decide
  | cointracker => decide

/-- What is cut off is the header. -/
lemma cutFirstLine_renderCsv : cutFirstLine (rt.renderCsv rows format) = rt.body rows format := by
  rw [cutFirstLine, renderCsv_eq, List.splitOn_append_cons_self, List.splitOn_eq_singleton (lf_notMem_header format),
    List.singleton_append, List.drop_one, List.tail_cons, List.intercalate_splitOn]

/-- The batches from an index on are the rows from there on, by induction along the loop. -/
lemma flatten_batches (pos : 1 ≤ batchSize) (index : ℕ) :
    (rt.batches rows format pos index).flatten = rt.body (rows.drop index) format := by
  induction index using Runtime.batches.induct rows pos with
  | case1 index more ih =>
    rw [Runtime.batches, if_pos more, List.flatten_cons, ih, cutFirstLine_renderCsv, ← body_append,
      ← List.drop_drop, List.take_append_drop]
  | case2 index over_ =>
    rw [Runtime.batches, if_neg over_, List.drop_of_length_le (Nat.not_lt.1 over_)]
    rfl

/-- The chunks of the export are one document, which reads back as the header and the cells of the rows in order. -/
theorem streamReport_well_formed (rt : Runtime) (rows : List TaxEventRow) (format : TaxExportFormat)
    (pos : 1 ≤ batchSize) :
    (rt.streamReport rows format pos).flatten = rt.renderCsv rows format ∧
    csv.read (rt.streamReport rows format pos).flatten = some (format.header :: rows.map (rt.values format)) := by
  have whole : (rt.streamReport rows format pos).flatten = rt.renderCsv rows format := by
    rw [Runtime.streamReport, List.flatten_cons, flatten_batches, List.drop_zero, renderCsv_eq, renderCsv_eq,
      List.append_assoc]
    rfl
  refine ⟨whole, ?_⟩
  rw [whole, renderCsv_eq_write]
  refine Csv.read_write (List.forall_mem_cons.2 ⟨?_, fun record mem => ?_⟩)
  · cases format with
    | koinly => exact List.cons_ne_nil _ _
    | cointracker => exact List.cons_ne_nil _ _
  · obtain ⟨row, -, rfl⟩ := List.mem_map.1 mem
    cases format with
    | koinly => exact List.cons_ne_nil _ _
    | cointracker => exact List.cons_ne_nil _ _

/-- Every date is one of `toISOString`, and no number is large. -/
def sampleRuntime : Runtime where
  parseDate := fun _ => none
  numberText := fun _ => ""

/-- A description with a comma, a quote and a line feed. -/
def sampleRow : TaxEventRow where
  date := "2026-03-02T10:00:00.000Z"
  type := .swap
  sentAsset := some "XLM"
  sentAmount := some (.finite 100)
  receivedAsset := some "USDC"
  receivedAmount := some (.finite (25 / 2))
  feeAmount := none
  feeAsset := none
  description := "Swap \"XLM\",\nUSDC"
  txHash := none

/-- Two rows, streamed one by one. -/
theorem streamReport_well_formed_sample :
    (sampleRuntime.streamReport [sampleRow, sampleRow] .koinly (le_refl 1)).flatten =
      sampleRuntime.renderCsv [sampleRow, sampleRow] .koinly ∧
    csv.read (sampleRuntime.streamReport [sampleRow, sampleRow] .koinly (le_refl 1)).flatten =
      some (koinlyHeader :: [sampleRow, sampleRow].map (sampleRuntime.values .koinly)) :=
  streamReport_well_formed sampleRuntime [sampleRow, sampleRow] .koinly (le_refl 1)

end StellarFlow.Reports
