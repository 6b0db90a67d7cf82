import Mathlib.Data.List.Nodup
import Mathlib.Data.List.Range
import Mathlib.Data.List.Sort
import StellarFlow.Lib.Machine
import StellarFlow.Lib.PyValue

/-!
# Shielded note ingestion

Model of `NoteParser.parse_batch` in `app/services/note_parser.py` over the tables of
`app/models/shielded.py`. The session flushes before every query, so a query sees the rows added before it;
the checks of the database are made when a row is added. Surrogate keys, time stamps, metrics and log lines
are left out. The encryptor is a parameter of every call.
-/

namespace StellarFlow.Shielded
open Machine Py

/-- `LedgerEvent`. -/
structure LedgerEvent where
  eventHash : String
  ledgerSequence : ℤ
  txHash : String
  eventType : String
  payload : Json

/-- A row of `shielded_commitments`. -/
structure ShieldedCommitment where
  commitment : String
  leafIndex : ℤ
  ledgerSequence : ℤ
  txHash : String
  eventHash : String
  encryptedProofInputs : Option Json

/-- A row of `spent_nullifiers`. -/
structure SpentNullifier where
  nullifier : String
  ledgerSequence : ℤ
  txHash : String
  eventHash : String
  encryptedProofInputs : Option Json

/-- The two tables, in order of insertion. -/
structure Tables where
  commitments : List ShieldedCommitment
  nullifiers : List SpentNullifier

namespace Tables

/-- The tables of a new database. -/
def empty : Tables := ⟨[], []⟩

/-- A value of a 32-bit integer column. -/
def fitsInteger (n : ℤ) : Bool := -2 ^ 31 ≤ n ∧ n < 2 ^ 31

/-- Adds a row to `shielded_commitments`, subject to its column types and unique constraints. -/
def addCommitment (db : Tables) (row : ShieldedCommitment) : Except PyError Tables :=
  if ¬ (row.commitment.length ≤ 64 ∧ fitsInteger row.leafIndex ∧ fitsInteger row.ledgerSequence ∧
      row.txHash.length ≤ 128 ∧ row.eventHash.length ≤ 64) then
    .error (.exception "DBAPIError" "value out of range for shielded_commitments")
  else if db.commitments.any (fun r => r.commitment = row.commitment || r.leafIndex = row.leafIndex ||
      r.eventHash = row.eventHash) then
    .error (.exception "IntegrityError" "duplicate key value violates unique constraint")
  else .ok { db with commitments := db.commitments ++ [row] }

/-- Adds a row to `spent_nullifiers`, subject to its column types and unique constraints. -/
def addNullifier (db : Tables) (row : SpentNullifier) : Except PyError Tables :=
  if ¬ (row.nullifier.length ≤ 64 ∧ fitsInteger row.ledgerSequence ∧ row.txHash.length ≤ 128 ∧
      row.eventHash.length ≤ 64) then
    .error (.exception "DBAPIError" "value out of range for spent_nullifiers")
  else if db.nullifiers.any (fun r => r.nullifier = row.nullifier || r.eventHash = row.eventHash) then
    .error (.exception "IntegrityError" "duplicate key value violates unique constraint")
  else .ok { db with nullifiers := db.nullifiers ++ [row] }

end Tables

/-- `scalar_one_or_none` of the rows a query selects. -/
def scalarOneOrNone {Row : Type} : List Row → Except PyError (Option Row)
  | [] => .ok none
  | [row] => .ok (some row)
  | _ => .error (.exception "MultipleResultsFound" "Multiple rows were found when one or none was required")

/-- An encryptor of private payloads with their associated data. -/
abbrev Encryptor := List (String × Json) → String → Except PyError Json

/-- `NoteParser._PRIVATE_PAYLOAD_KEYS`. -/
def privatePayloadKeys : List String :=
  ["proof", "proof_hex", "private_inputs", "witness", "contract_params", "nullifier_tree"]

/-- `NoteParser._encrypt_private_payload`. -/
def encryptPrivatePayload (encryptor : Option Encryptor) (payload : List (String × Json))
    (associatedData : String) : Except PyError (Option Json) :=
  let fields := privatePayloadKeys.filterMap fun key => (Json.get? payload key).map (key, ·)
  if fields.isEmpty then .ok none
  else match encryptor with
    | none => .error (.runtimeError
        "Private ZK payload received but PROOF_STORAGE_PROVIDER is not configured")
    | some encrypt => (encrypt fields associatedData).map some

/-- `NoteParser._validate_hex64`; the text if it is valid. -/
def validateHex64 : Option Json → Option String
  | some (.str value) =>
    if value.length = 64 ∧ value.toList.all HexText.lowerDigits.contains then some value else none
  | _ => none

/-- `NoteParser._next_leaf_index`. -/
def nextLeafIndex (db : Tables) : ℤ :=
  match (db.commitments.map ShieldedCommitment.leafIndex).max? with
  | some maxIdx => maxIdx + 1
  | none => 0

/-- The local variables of `parse_batch` and the tables. -/
structure ParserState where
  db : Tables
  currentLeafIndex : ℤ
  commitmentsIndexed : ℕ
  nullifiersIndexed : ℕ

/-- The branch of `parse_batch` for a `note_deposited` event with a valid commitment. -/
def indexCommitment (encryptor : Option Encryptor) (event : LedgerEvent) (payload : List (String × Json))
    (commitmentVal : String) (s : ParserState) : Except PyError ParserState := do
  match ← scalarOneOrNone (s.db.commitments.filter (·.eventHash = event.eventHash)) with
  | some _ => return s
  | none =>
    match ← scalarOneOrNone (s.db.commitments.filter (·.commitment = commitmentVal)) with
    | some _ => return s
    | none =>
      let encrypted ← encryptPrivatePayload encryptor payload s!"proof:{event.eventHash}"
      let db ← s.db.addCommitment
        { commitment := commitmentVal, leafIndex := s.currentLeafIndex, ledgerSequence := event.ledgerSequence
          txHash := event.txHash, eventHash := event.eventHash, encryptedProofInputs := encrypted }
      return { s with
        db, currentLeafIndex := s.currentLeafIndex + 1, commitmentsIndexed := s.commitmentsIndexed + 1 }

/-- The branch of `parse_batch` for a `nullifier_spent` event with a valid nullifier. -/
def indexNullifier (encryptor : Option Encryptor) (event : LedgerEvent) (payload : List (String × Json))
    (nullifierVal : String) (s : ParserState) : Except PyError ParserState := do
  match ← scalarOneOrNone (s.db.nullifiers.filter (·.nullifier = nullifierVal)) with
  | some _ => return s
  | none =>
    let encrypted ← encryptPrivatePayload encryptor payload s!"nullifier:{event.eventHash}"
    let db ← s.db.addNullifier
      { nullifier := nullifierVal, ledgerSequence := event.ledgerSequence, txHash := event.txHash
        eventHash := event.eventHash, encryptedProofInputs := encrypted }
    return { s with db, nullifiersIndexed := s.nullifiersIndexed + 1 }

/-- The body of the loop of `parse_batch`; what is invalid, or of another type, is skipped. -/
def indexEvent (encryptor : Option Encryptor) (s : ParserState) (event : LedgerEvent) :
    Except PyError ParserState :=
  match event.payload with
  | .dict payload =>
    if event.eventType = "note_deposited" then
      match validateHex64 (Json.get? payload "commitment") with
      | none => .ok s
      | some commitmentVal => indexCommitment encryptor event payload commitmentVal s
    else if event.eventType = "nullifier_spent" then
      match validateHex64 (Json.get? payload "nullifier") with
      | none => .ok s
      | some nullifierVal => indexNullifier encryptor event payload nullifierVal s
    else .ok s
  | _ => .ok s

/-- The sort key of `parse_batch`. -/
def sortKey (event : LedgerEvent) : Except PyError (ℤ × ℤ) :=
  match event.payload with
  | .dict payload => do
    let value := (Json.get? payload "index").getD (.int 0)
    let idx ← (if value.truthy then value else .int 0).toInt
    return (event.ledgerSequence, idx)
  | _ => .ok (event.ledgerSequence, 0)

/-- `sorted(events, key=_sort_key)`: the keys first, then a stable sort by them. -/
def sortEvents (events : List LedgerEvent) : Except PyError (List LedgerEvent) := do
  let keyed ← events.mapM fun event => do
    let key ← sortKey event
    return (key, event)
  return (keyed.insertionSort fun a b => a.1.1 < b.1.1 ∨ a.1.1 = b.1.1 ∧ a.1.2 ≤ b.1.2).map Prod.snd

/-- `NoteParser.parse_batch`, with the tables it leaves. -/
def parseBatch (encryptor : Option Encryptor) (db : Tables) (events : List LedgerEvent) :
    Except PyError ((ℕ × ℕ) × Tables) :=
  if events.isEmpty then .ok ((0, 0), db)
  else do
    let sortedEvents ← sortEvents events
    let s ← sortedEvents.foldlM (indexEvent encryptor)
      { db, currentLeafIndex := nextLeafIndex db, commitmentsIndexed := 0, nullifiersIndexed := 0 }
    return ((s.commitmentsIndexed, s.nullifiersIndexed), s.db)

/-- A batch with the encryptor of its call. -/
structure Batch where
  encryptor : Option Encryptor
  events : List LedgerEvent

/-- One call of `parse_batch` that succeeds and is committed. -/
def ingest (db : Tables) (batch : Batch) : Option Tables :=
  (parseBatch batch.encryptor db batch.events).toOption.map Prod.snd

/-- The invariant of the tables: no note, event or nullifier is stored twice, and the leaf indices count the
notes in order of insertion. -/
structure Gapless (db : Tables) : Prop where
  commitments : (db.commitments.map ShieldedCommitment.commitment).Nodup
  events : (db.commitments.map ShieldedCommitment.eventHash).Nodup
  leaves : db.commitments.map ShieldedCommitment.leafIndex = (List.range db.commitments.length).map Nat.cast
  nullifiers : (db.nullifiers.map SpentNullifier.nullifier).Nodup

/-- The tables have nothing left to take from an event. -/
def Settled (db : Tables) (event : LedgerEvent) : Prop :=
  match event.payload with
  | .dict payload =>
    if event.eventType = "note_deposited" then
      ∀ commitmentVal, validateHex64 (Json.get? payload "commitment") = some commitmentVal →
        ∃ row ∈ db.commitments, row.eventHash = event.eventHash ∨ row.commitment = commitmentVal
    else if event.eventType = "nullifier_spent" then
      ∀ nullifierVal, validateHex64 (Json.get? payload "nullifier") = some nullifierVal →
        ∃ row ∈ db.nullifiers, row.nullifier = nullifierVal
    else True
  | _ => True

/-- No row is ever lost. -/
structure Grows (db db' : Tables) : Prop where
  commitments : db.commitments ⊆ db'.commitments
  nullifiers : db.nullifiers ⊆ db'.nullifiers

/-- The tables may stay as they are. -/
lemma Grows.refl (db : Tables) : Grows db db := ⟨List.Subset.refl _, List.Subset.refl _⟩

/-- Tables that grow twice have grown. -/
lemma Grows.trans {db db' db'' : Tables} (first : Grows db db') (second : Grows db' db'') : Grows db db'' :=
  ⟨fun _ mem => second.commitments (first.commitments mem), fun _ mem => second.nullifiers (first.nullifiers mem)⟩

/-- What an event is to the parser: a note or a nullifier to store, or nothing. -/
lemma event_cases (event : LedgerEvent) :
    (∃ payload commitmentVal,
      (∀ encryptor s, indexEvent encryptor s event = indexCommitment encryptor event payload commitmentVal s) ∧
      ∀ db, Settled db event ↔
        ∃ row ∈ db.commitments, row.eventHash = event.eventHash ∨ row.commitment = commitmentVal) ∨
    (∃ payload nullifierVal,
      (∀ encryptor s, indexEvent encryptor s event = indexNullifier encryptor event payload nullifierVal s) ∧
      ∀ db, Settled db event ↔ ∃ row ∈ db.nullifiers, row.nullifier = nullifierVal) ∨
    (∀ encryptor s, indexEvent encryptor s event = .ok s) ∧ ∀ db, Settled db event := by
  unfold indexEvent Settled
  cases event.payload with
  | dict payload =>
    dsimp only
    split
    · cases valid : validateHex64 (Json.get? payload "commitment") with
      | none => exact .inr (.inr ⟨fun _ _ => rfl, fun _ _ impossible => nomatch impossible⟩)
      | some commitmentVal =>
        refine .inl ⟨payload, commitmentVal, fun _ _ => rfl, fun db => ⟨fun settled => settled _ rfl, ?_⟩⟩
        rintro found _ ⟨⟩
        exact found
    · split
      · cases valid : validateHex64 (Json.get? payload "nullifier") with
        | none => exact .inr (.inr ⟨fun _ _ => rfl, fun _ _ impossible => nomatch impossible⟩)
        | some nullifierVal =>
          refine .inr (.inl ⟨payload, nullifierVal, fun _ _ => rfl, fun db => ⟨fun settled => settled _ rfl, ?_⟩⟩)
          rintro found _ ⟨⟩
          exact found
      · exact .inr (.inr ⟨fun _ _ => rfl, fun _ => trivial⟩)
  | _ => exact .inr (.inr ⟨fun _ _ => rfl, fun _ => trivial⟩)

/-- What is settled stays so. -/
lemma Settled.mono {db db' : Tables} {event : LedgerEvent} (settled : Settled db event) (grows : Grows db db') :
    Settled db' event := by
  obtain ⟨_, _, -, iff⟩ | ⟨_, _, -, iff⟩ | ⟨-, always⟩ := event_cases event
  · obtain ⟨row, mem, found⟩ := (iff db).mp settled
    exact (iff db').mpr ⟨row, grows.commitments mem, found⟩
  · obtain ⟨row, mem, found⟩ := (iff db).mp settled
    exact (iff db').mpr ⟨row, grows.nullifiers mem, found⟩
  · exact always db'

section Queries
variable {Row : Type} {rows : List Row} {column : Row → String}

/-- A query on a unique column finds nothing or the one row there is. -/
lemma scalarOneOrNone_unique (unique : (rows.map column).Nodup) (value : String) :
    ((∀ row ∈ rows, column row ≠ value) ∧ scalarOneOrNone (rows.filter (column · = value)) = .ok none) ∨
      ∃ row ∈ rows, column row = value ∧ scalarOneOrNone (rows.filter (column · = value)) = .ok (some row) := by
  induction rows with
  | nil => exact .inl ⟨fun _ mem => absurd mem List.not_mem_nil, rfl⟩
  | cons row rows ih =>
    rw [List.map_cons, List.nodup_cons] at unique
    obtain ⟨fresh, unique⟩ := unique
    by_cases hit : column row = value
    · right
      have rest : rows.filter (column · = value) = [] := by
        rw [List.filter_eq_nil_iff]
        intro other mem same
        apply fresh
        rw [hit, ← of_decide_eq_true same]
        exact List.mem_map_of_mem mem
      refine ⟨row, List.mem_cons_self, hit, ?_⟩
      rw [List.filter_cons_of_pos (by rw [decide_eq_true_eq]; exact hit), rest]
      rfl
    · rw [List.filter_cons_of_neg (by rw [decide_eq_true_eq]; exact hit)]
      obtain ⟨none, answer⟩ | ⟨found, mem, same, answer⟩ := ih unique
      · refine .inl ⟨fun other mem => ?_, answer⟩
        rcases List.mem_cons.mp mem with rfl | mem
        · exact hit
        · exact none other mem
      · exact .inr ⟨found, List.mem_cons_of_mem _ mem, same, answer⟩

/-- A row whose column value no row has keeps the column unique. -/
lemma unique_snoc (unique : (rows.map column).Nodup) {row : Row} (fresh : ∀ r ∈ rows, column r ≠ column row) :
    ((rows ++ [row]).map column).Nodup := by
  rw [List.map_append, List.map_singleton, List.nodup_append_comm, List.singleton_append, List.nodup_cons]
  refine ⟨fun mem => ?_, unique⟩
  obtain ⟨r, mem, same⟩ := List.mem_map.mp mem
  exact fresh r mem same

end Queries

/-- A row is added at the end. -/
lemma addCommitment_ok {db db' : Tables} {row : ShieldedCommitment} (added : db.addCommitment row = .ok db') :
    db' = { db with commitments := db.commitments ++ [row] } := by
  rw [Tables.addCommitment] at added
  split at added
  · cases added
  · split at added
    · cases added
    · cases added
      rfl

/-- A nullifier is added at the end. -/
lemma addNullifier_ok {db db' : Tables} {row : SpentNullifier} (added : db.addNullifier row = .ok db') :
    db' = { db with nullifiers := db.nullifiers ++ [row] } := by
  rw [Tables.addNullifier] at added
  split at added
  · cases added
  · split at added
    · cases added
    · cases added
      rfl

section Steps
variable {encryptor : Option Encryptor} {event : LedgerEvent} {payload : List (String × Json)} {value : String}
  {s t : ParserState}

/-- A deposit is skipped because a row has its event or its commitment, or it is stored. -/
lemma indexCommitment_cases (gapless : Gapless s.db)
    (indexed : indexCommitment encryptor event payload value s = .ok t) :
    (t = s ∧ ∃ row ∈ s.db.commitments, row.eventHash = event.eventHash ∨ row.commitment = value) ∨
    ∃ row : ShieldedCommitment, row.commitment = value ∧ row.leafIndex = s.currentLeafIndex ∧
      row.eventHash = event.eventHash ∧ (∀ r ∈ s.db.commitments, r.eventHash ≠ event.eventHash) ∧
      (∀ r ∈ s.db.commitments, r.commitment ≠ value) ∧
      t = { s with
        db := { s.db with commitments := s.db.commitments ++ [row] }
        currentLeafIndex := s.currentLeafIndex + 1
        commitmentsIndexed := s.commitmentsIndexed + 1 } := by
  rw [indexCommitment] at indexed
  obtain ⟨first, query, indexed⟩ := bind_eq_ok.mp indexed
  obtain ⟨freshEvent, answer⟩ | ⟨row, mem, same, answer⟩ :=
    scalarOneOrNone_unique gapless.events event.eventHash
  · obtain rfl := Except.ok.inj (answer.symm.trans query)
    obtain ⟨second, query', indexed⟩ := bind_eq_ok.mp indexed
    obtain ⟨freshValue, answer'⟩ | ⟨row, mem, same, answer'⟩ :=
      scalarOneOrNone_unique gapless.commitments value
    · obtain rfl := Except.ok.inj (answer'.symm.trans query')
      obtain ⟨encrypted, -, indexed⟩ := bind_eq_ok.mp indexed
      obtain ⟨db, added, indexed⟩ := bind_eq_ok.mp indexed
      obtain rfl := addCommitment_ok added
      exact .inr ⟨_, rfl, rfl, rfl, freshEvent, freshValue, (Except.ok.inj indexed).symm⟩
    · obtain rfl := Except.ok.inj (answer'.symm.trans query')
      exact .inl ⟨(Except.ok.inj indexed).symm, row, mem, .inr same⟩
  · obtain rfl := Except.ok.inj (answer.symm.trans query)
    exact .inl ⟨(Except.ok.inj indexed).symm, row, mem, .inl same⟩

/-- A deposit that a row already covers changes nothing. -/
lemma indexCommitment_settled (gapless : Gapless s.db)
    (settled : ∃ row ∈ s.db.commitments, row.eventHash = event.eventHash ∨ row.commitment = value) :
    indexCommitment encryptor event payload value s = .ok s := by
  obtain ⟨row, mem, covers⟩ := settled
  rw [indexCommitment]
  obtain ⟨freshEvent, answer⟩ | ⟨found, -, -, answer⟩ := scalarOneOrNone_unique gapless.events event.eventHash
  · obtain ⟨freshValue, -⟩ | ⟨found, -, -, answer'⟩ := scalarOneOrNone_unique gapless.commitments value
    · rcases covers with same | same
      · exact absurd same (freshEvent row mem)
      · exact absurd same (freshValue row mem)
    · rw [answer]
      show (scalarOneOrNone _ >>= _) = _
      rw [answer']
      rfl
  · rw [answer]
    rfl

/-- A spent nullifier is skipped because a row has it, or it is stored. -/
lemma indexNullifier_cases (gapless : Gapless s.db)
    (indexed : indexNullifier encryptor event payload value s = .ok t) :
    (t = s ∧ ∃ row ∈ s.db.nullifiers, row.nullifier = value) ∨
    ∃ row : SpentNullifier, row.nullifier = value ∧ (∀ r ∈ s.db.nullifiers, r.nullifier ≠ value) ∧
      t = { s with
        db := { s.db with nullifiers := s.db.nullifiers ++ [row] }
        nullifiersIndexed := s.nullifiersIndexed + 1 } := by
  rw [indexNullifier] at indexed
  obtain ⟨first, query, indexed⟩ := bind_eq_ok.mp indexed
  obtain ⟨fresh, answer⟩ | ⟨row, mem, same, answer⟩ := scalarOneOrNone_unique gapless.nullifiers value
  · obtain rfl := Except.ok.inj (answer.symm.trans query)
    obtain ⟨encrypted, -, indexed⟩ := bind_eq_ok.mp indexed
    obtain ⟨db, added, indexed⟩ := bind_eq_ok.mp indexed
    obtain rfl := addNullifier_ok added
    exact .inr ⟨_, rfl, fresh, (Except.ok.inj indexed).symm⟩
  · obtain rfl := Except.ok.inj (answer.symm.trans query)
    exact .inl ⟨(Except.ok.inj indexed).symm, row, mem, same⟩

/-- A nullifier that a row already has changes nothing. -/
lemma indexNullifier_settled (gapless : Gapless s.db) (settled : ∃ row ∈ s.db.nullifiers, row.nullifier = value) :
    indexNullifier encryptor event payload value s = .ok s := by
  obtain ⟨row, mem, same⟩ := settled
  rw [indexNullifier]
  obtain ⟨fresh, -⟩ | ⟨found, -, -, answer⟩ := scalarOneOrNone_unique gapless.nullifiers value
  · exact absurd same (fresh row mem)
  · rw [answer]
    rfl

/-- The invariant of the loop: the leaf index is the number of stored notes. -/
structure Counting (s : ParserState) : Prop where
  gapless : Gapless s.db
  next : s.currentLeafIndex = s.db.commitments.length

/-- A new row with the next index keeps the count. -/
lemma Counting.addCommitment (counting : Counting s) {row : ShieldedCommitment} {count : ℕ}
    (leaf : row.leafIndex = s.currentLeafIndex)
    (freshEvent : ∀ r ∈ s.db.commitments, r.eventHash ≠ row.eventHash)
    (freshValue : ∀ r ∈ s.db.commitments, r.commitment ≠ row.commitment) :
    Counting { s with
      db := { s.db with commitments := s.db.commitments ++ [row] }
      currentLeafIndex := s.currentLeafIndex + 1
      commitmentsIndexed := count } := by
  have gapless := counting.gapless
  have length : (s.db.commitments ++ [row]).length = s.db.commitments.length + 1 := List.length_append
  refine ⟨⟨?_, ?_, ?_, gapless.nullifiers⟩, ?_⟩
  · exact unique_snoc gapless.commitments freshValue
  · exact unique_snoc gapless.events freshEvent
  · show (s.db.commitments ++ [row]).map _ = (List.range (s.db.commitments ++ [row]).length).map _
    rw [length, List.range_succ, List.map_append, List.map_append, gapless.leaves, List.map_singleton,
      List.map_singleton, leaf, counting.next]
  · show s.currentLeafIndex + 1 = ((s.db.commitments ++ [row]).length : ℤ)
    rw [length, counting.next]
    rfl

/-- A new nullifier keeps the count. -/
lemma Counting.addNullifier (counting : Counting s) {row : SpentNullifier} {count : ℕ}
    (fresh : ∀ r ∈ s.db.nullifiers, r.nullifier ≠ row.nullifier) :
    Counting { s with
      db := { s.db with nullifiers := s.db.nullifiers ++ [row] }
      nullifiersIndexed := count } := by
  have gapless := counting.gapless
  refine ⟨⟨gapless.commitments, gapless.events, gapless.leaves, ?_⟩, counting.next⟩
  exact unique_snoc gapless.nullifiers fresh

/-- One turn of the loop settles its event and keeps the count. -/
lemma indexEvent_spec (counting : Counting s) (indexed : indexEvent encryptor s event = .ok t) :
    Counting t ∧ Grows s.db t.db ∧ Settled t.db event := by
  obtain ⟨payload, value, step, iff⟩ | ⟨payload, value, step, iff⟩ | ⟨step, always⟩ := event_cases event
  · rw [step] at indexed
    rw [iff]
    obtain ⟨rfl, found⟩ | ⟨row, same, leaf, hash, freshEvent, freshValue, rfl⟩ :=
      indexCommitment_cases counting.gapless indexed
    · exact ⟨counting, .refl _, found⟩
    · refine ⟨?_, ⟨List.subset_append_left _ _, List.Subset.refl _⟩, row, ?_, .inl hash⟩
      · exact counting.addCommitment leaf (hash ▸ freshEvent) (same ▸ freshValue)
      · exact List.mem_append_right _ List.mem_cons_self
  · rw [step] at indexed
    rw [iff]
    obtain ⟨rfl, found⟩ | ⟨row, same, fresh, rfl⟩ := indexNullifier_cases counting.gapless indexed
    · exact ⟨counting, .refl _, found⟩
    · refine ⟨?_, ⟨List.Subset.refl _, List.subset_append_left _ _⟩, row, ?_, same⟩
      · exact counting.addNullifier (same ▸ fresh)
      · exact List.mem_append_right _ List.mem_cons_self
  · rw [step] at indexed
    cases indexed
    exact ⟨counting, .refl _, always _⟩

/-- A settled event is skipped. -/
lemma indexEvent_settled (gapless : Gapless s.db) (settled : Settled s.db event) :
    indexEvent encryptor s event = .ok s := by
  obtain ⟨payload, value, step, iff⟩ | ⟨payload, value, step, iff⟩ | ⟨step, -⟩ := event_cases event
  · rw [step]
    exact indexCommitment_settled gapless ((iff _).mp settled)
  · rw [step]
    exact indexNullifier_settled gapless ((iff _).mp settled)
  · exact step _ _

/-- The whole loop. -/
lemma indexEvents_spec {events : List LedgerEvent} (counting : Counting s)
    (indexed : events.foldlM (indexEvent encryptor) s = .ok t) :
    Counting t ∧ Grows s.db t.db ∧ ∀ event ∈ events, Settled t.db event := by
  induction events generalizing s with
  | nil =>
    cases indexed
    exact ⟨counting, .refl _, fun _ mem => absurd mem List.not_mem_nil⟩
  | cons event events ih =>
    rw [List.foldlM_cons] at indexed
    obtain ⟨u, first, rest⟩ := bind_eq_ok.mp indexed
    obtain ⟨counting', grows, settled⟩ := indexEvent_spec counting first
    obtain ⟨counting'', grows', later⟩ := ih counting' rest
    refine ⟨counting'', grows.trans grows', fun other mem => ?_⟩
    rcases List.mem_cons.mp mem with rfl | mem
    · exact settled.mono grows'
    · exact later other mem

/-- Events that are settled change nothing. -/
lemma indexEvents_settled {events : List LedgerEvent} (gapless : Gapless s.db)
    (settled : ∀ event ∈ events, Settled s.db event) :
    events.foldlM (indexEvent encryptor) s = .ok s := by
  induction events with
  | nil => rfl
  | cons event events ih =>
    rw [List.foldlM_cons, indexEvent_settled gapless (settled event List.mem_cons_self)]
    exact ih fun other mem => settled other (List.mem_cons_of_mem _ mem)

end Steps

/-- Keys are put beside the events. -/
lemma keyed_events {events : List LedgerEvent} {keyed : List ((ℤ × ℤ) × LedgerEvent)}
    (keys : (events.mapM fun event => do
      let key ← sortKey event
      return (key, event)) = Except.ok keyed) : keyed.map Prod.snd = events := by
  induction events generalizing keyed with
  | nil =>
    cases keys
    rfl
  | cons event events ih =>
    rw [List.mapM_cons] at keys
    obtain ⟨first, head, keys⟩ := bind_eq_ok.mp keys
    obtain ⟨rest, tail, keys⟩ := bind_eq_ok.mp keys
    obtain ⟨key, -, made⟩ := bind_eq_ok.mp head
    cases made
    cases keys
    rw [List.map_cons, ih tail]

/-- Sorting keeps the events. -/
lemma mem_sortEvents {events sortedEvents : List LedgerEvent} (sorted : sortEvents events = .ok sortedEvents)
    {event : LedgerEvent} : event ∈ sortedEvents ↔ event ∈ events := by
  rw [sortEvents] at sorted
  obtain ⟨keyed, keys, made⟩ := bind_eq_ok.mp sorted
  cases made
  rw [((List.perm_insertionSort _ keyed).map Prod.snd).mem_iff, keyed_events keys]

/-- Without gaps the next index is the number of rows. -/
lemma nextLeafIndex_gapless {db : Tables} (gapless : Gapless db) : nextLeafIndex db = db.commitments.length := by
  rw [nextLeafIndex, gapless.leaves]
  cases db.commitments.length with
  | zero => rfl
  | succ n =>
    have last : ((List.range (n + 1)).map (Nat.cast : ℕ → ℤ)).max? = some (n : ℤ) := by
      rw [List.max?_eq_some_iff]
      constructor
      · exact List.mem_map_of_mem (List.mem_range.mpr (Nat.lt_succ_self n))
      · intro m mem
        obtain ⟨i, lt, rfl⟩ := List.mem_map.mp mem
        exact_mod_cast Nat.lt_succ_iff.mp (List.mem_range.mp lt)
    rw [last]
    push_cast
    rfl

section Batches
variable {encryptor : Option Encryptor} {db db' : Tables} {events : List LedgerEvent}

/-- The batch has been processed: its events can be sorted, and the tables have what they say. -/
structure Processed (db : Tables) (events : List LedgerEvent) : Prop where
  sorts : ∃ sortedEvents, sortEvents events = .ok sortedEvents
  settled : ∀ event ∈ events, Settled db event

/-- A batch that succeeds leaves gapless tables and is processed. -/
lemma parseBatch_spec (gapless : Gapless db) {counts : ℕ × ℕ}
    (parsed : parseBatch encryptor db events = .ok (counts, db')) :
    Gapless db' ∧ Grows db db' ∧ Processed db' events := by
  rw [parseBatch] at parsed
  split at parsed
  · rename_i empty
    obtain rfl := List.isEmpty_iff.mp empty
    cases parsed
    exact ⟨gapless, .refl _, ⟨_, rfl⟩, fun _ mem => absurd mem List.not_mem_nil⟩
  · obtain ⟨sortedEvents, sorted, parsed⟩ := bind_eq_ok.mp parsed
    obtain ⟨s, indexed, parsed⟩ := bind_eq_ok.mp parsed
    cases parsed
    obtain ⟨counting, grows, settled⟩ := indexEvents_spec ⟨gapless, nextLeafIndex_gapless gapless⟩ indexed
    refine ⟨counting.gapless, grows, ⟨sortedEvents, sorted⟩, fun event mem => ?_⟩
    exact settled event ((mem_sortEvents sorted).mpr mem)

/-- A processed batch, with whatever encryptor, changes nothing. -/
lemma parseBatch_processed (gapless : Gapless db) (processed : Processed db events) :
    parseBatch encryptor db events = .ok ((0, 0), db) := by
  rw [parseBatch]
  split
  · rfl
  · obtain ⟨sortedEvents, sorted⟩ := processed.sorts
    have settled : ∀ event ∈ sortedEvents, Settled db event := fun event mem =>
      processed.settled event ((mem_sortEvents sorted).mp mem)
    rw [sorted]
    show (sortedEvents.foldlM (indexEvent encryptor) _ >>= _) = _
    rw [indexEvents_settled gapless settled]
    rfl

end Batches

/-- Empty tables have no gaps. -/
lemma gapless_empty : Gapless Tables.empty := ⟨List.nodup_nil, List.nodup_nil, rfl, List.nodup_nil⟩

/-- After any sequence of committed batches the tables are gapless and every batch of it is processed. -/
lemma ingest_run (batches : List Batch) {db : Tables} (run : exec ingest Tables.empty batches = some db) :
    Gapless db ∧ ∀ batch ∈ batches, Processed db batch.events := by
  induction batches using List.reverseRecOn generalizing db with
  | nil =>
    cases run
    exact ⟨gapless_empty, fun _ mem => absurd mem List.not_mem_nil⟩
  | append_singleton batches batch ih =>
    obtain ⟨before, first, last⟩ := exec_snoc.mp run
    obtain ⟨gapless, processed⟩ := ih first
    obtain ⟨⟨counts, after⟩, parsed, rfl⟩ := Option.map_eq_some_iff.mp last
    cases result : parseBatch batch.encryptor before batch.events with
    | error raised =>
      rw [result] at parsed
      cases parsed
    | ok value =>
      rw [result] at parsed
      cases parsed
      obtain ⟨gapless', grows, done⟩ := parseBatch_spec gapless result
      refine ⟨gapless', fun other mem => ?_⟩
      rcases List.mem_append.mp mem with earlier | now
      · have done := processed other earlier
        exact ⟨done.sorts, fun event mem => (done.settled event mem).mono grows⟩
      · rw [List.mem_singleton.mp now]
        exact done

/-- After any sequence of batches that succeed and are committed, the stored commitments are distinct, the leaf
indices are the numbers below the number of notes, the stored nullifiers are distinct, and processing any batch
of the sequence again, with whatever encryptor, succeeds and changes nothing. -/
theorem shielded_log_gapless (batches : List Batch) (db : Tables)
    (run : exec ingest Tables.empty batches = some db) :
    (db.commitments.map ShieldedCommitment.commitment).Nodup ∧
      db.commitments.map ShieldedCommitment.leafIndex =
        (List.range db.commitments.length).map (Nat.cast : ℕ → ℤ) ∧
      (db.nullifiers.map SpentNullifier.nullifier).Nodup ∧
      ∀ batch ∈ batches, ∀ encryptor, parseBatch encryptor db batch.events = .ok ((0, 0), db) := by
  obtain ⟨gapless, processed⟩ := ingest_run batches run
  refine ⟨gapless.commitments, gapless.leaves, gapless.nullifiers, fun batch mem encryptor => ?_⟩
  exact parseBatch_processed gapless (processed batch mem)

/-- Two batches, the second repeating a note of the first and adding one: the notes get the leaves 0 and 1. -/
theorem shielded_log_gapless_redelivered :
    ∃ db, exec ingest Tables.empty
        [⟨none, [⟨"e1", 7, "t1", "note_deposited", .dict [("commitment", .str
            "aaaaaaaaaaaaaaaaaaaaaaaaaaaaaaaaaaaaaaaaaaaaaaaaaaaaaaaaaaaaaaaa")]⟩]⟩,
          ⟨none, [⟨"e2", 8, "t2", "note_deposited", .dict [("commitment", .str
              "bbbbbbbbbbbbbbbbbbbbbbbbbbbbbbbbbbbbbbbbbbbbbbbbbbbbbbbbbbbbbbbb"),
              ("index", .str "3")]⟩,
            ⟨"e1", 7, "t1", "note_deposited", .dict [("commitment", .str
              "aaaaaaaaaaaaaaaaaaaaaaaaaaaaaaaaaaaaaaaaaaaaaaaaaaaaaaaaaaaaaaaa")]⟩]⟩] = some db ∧
      db.commitments.map (fun row => (row.eventHash, row.leafIndex)) = [("e1", 0), ("e2", 1)] ∧
      (db.commitments.map ShieldedCommitment.commitment).Nodup := by
  have reached : (exec ingest Tables.empty
      [⟨none, [⟨"e1", 7, "t1", "note_deposited", .dict [("commitment", .str
          "aaaaaaaaaaaaaaaaaaaaaaaaaaaaaaaaaaaaaaaaaaaaaaaaaaaaaaaaaaaaaaaa")]⟩]⟩,
        ⟨none, [⟨"e2", 8, "t2", "note_deposited", .dict [("commitment", .str
            "bbbbbbbbbbbbbbbbbbbbbbbbbbbbbbbbbbbbbbbbbbbbbbbbbbbbbbbbbbbbbbbb"),
            ("index", .str "3")]⟩,
          ⟨"e1", 7, "t1", "note_deposited", .dict [("commitment", .str
            "aaaaaaaaaaaaaaaaaaaaaaaaaaaaaaaaaaaaaaaaaaaaaaaaaaaaaaaaaaaaaaaa")]⟩]⟩]).map
        (fun db => db.commitments.map fun row => (row.eventHash, row.leafIndex)) =
      some [("e1", 0), ("e2", 1)] := by
    decide +kernel
  obtain ⟨db, run, rows⟩ := Option.map_eq_some_iff.mp reached
  exact ⟨db, run, rows, (shielded_log_gapless _ db run).1⟩

end StellarFlow.Shielded
