import StellarFlow.Shielded.NoteParser

/-!
# Leaf order and ledger order

`ShieldedCommitment` documents its leaf indices as ascending in `(ledger_sequence, event_position)`. A batch of
`NoteParser.parse_batch` is sorted by that key, and its leaves go on behind those of the earlier batches. The
stored notes are kept here together with the events they came from, in the order of their leaves.
-/

namespace StellarFlow.Shielded
open Machine Py

/-- The position of an event on the ledger: its sequence and its index, as the sort key of `parse_batch` has it. -/
def ledgerPosition (event : LedgerEvent) : ℤ × ℤ :=
  (sortKey event).toOption.getD (event.ledgerSequence, 0)

/-- One event comes before another on the ledger. -/
def Before (a b : LedgerEvent) : Prop :=
  (ledgerPosition a).1 < (ledgerPosition b).1 ∨
    (ledgerPosition a).1 = (ledgerPosition b).1 ∧ (ledgerPosition a).2 < (ledgerPosition b).2

instance (a b : LedgerEvent) : Decidable (Before a b) :=
  inferInstanceAs (Decidable (_ ∨ _))

/-- The events of a loop of `parse_batch` that store a note, in the order of their leaves. -/
def deposits (encryptor : Option Encryptor) : ParserState → List LedgerEvent → List LedgerEvent
  | _, [] => []
  | s, event :: events =>
    match indexEvent encryptor s event with
    | .error _ => []
    | .ok t =>
      if t.db.commitments.length = s.db.commitments.length then deposits encryptor t events
      else event :: deposits encryptor t events

/-- The events of a batch that store a note. -/
def storedNotes (db : Tables) (batch : Batch) : List LedgerEvent :=
  match sortEvents batch.events with
  | .error _ => []
  | .ok sortedEvents =>
    deposits batch.encryptor
      { db, currentLeafIndex := nextLeafIndex db, commitmentsIndexed := 0, nullifiersIndexed := 0 } sortedEvents

/-- The tables with the events their notes came from. -/
structure NoteLog where
  db : Tables
  notes : List LedgerEvent

/-- A new database. -/
def NoteLog.empty : NoteLog := ⟨Tables.empty, []⟩

/-- One call of `parse_batch` that succeeds and is committed. -/
def NoteLog.ingest (s : NoteLog) (batch : Batch) : Option NoteLog :=
  (Shielded.ingest s.db batch).map fun db => { db, notes := s.notes ++ storedNotes s.db batch }

/-- A note that comes before another one on the ledger has the smaller leaf index. -/
def LeafOrdered (s : NoteLog) : Prop :=
  ∀ a ∈ s.db.commitments.zip s.notes, ∀ b ∈ s.db.commitments.zip s.notes,
    Before a.2 b.2 → a.1.leafIndex < b.1.leafIndex

instance (s : NoteLog) : Decidable (LeafOrdered s) :=
  inferInstanceAs (Decidable (∀ a ∈ s.db.commitments.zip s.notes, ∀ b ∈ s.db.commitments.zip s.notes, _ → _))

/-- No new note of the batch comes before a note that is stored. -/
def ComesAfter (s : NoteLog) (batch : Batch) : Prop :=
  ∀ event ∈ batch.events, event.eventType = "note_deposited" → ¬Settled s.db event →
    ∀ note ∈ s.notes, ¬Before event note

section Steps
variable {encryptor : Option Encryptor} {event : LedgerEvent} {events : List LedgerEvent} {s t : ParserState}

/-- No event is before itself. -/
lemma before_irrefl (a : LedgerEvent) : ¬Before a a := by
  rw [Before]
  omega

/-- What is not after one is not after those behind it. -/
lemma not_before_trans {a b c : LedgerEvent} (first : ¬Before b a) (second : ¬Before c b) : ¬Before c a := by
  rw [Before] at first second ⊢
  omega

/-- An event stores a note, or it leaves the notes as they are. -/
lemma deposit_cases (counting : Counting s) (indexed : indexEvent encryptor s event = .ok t) :
    (t.db.commitments = s.db.commitments ∧ (event.eventType = "note_deposited" → Settled s.db event)) ∨
      (event.eventType = "note_deposited" ∧ ¬Settled s.db event ∧
        ∃ row : ShieldedCommitment, row.eventHash = event.eventHash ∧
          t.db.commitments = s.db.commitments ++ [row]) := by
  unfold indexEvent at indexed
  unfold Settled
  cases payload : event.payload with
  | dict fields =>
    simp only [payload] at indexed ⊢
    by_cases note : event.eventType = "note_deposited"
    · rw [if_pos note] at indexed
      rw [if_pos note]
      cases valid : validateHex64 (Json.get? fields "commitment") with
      | none =>
        rw [valid] at indexed
        cases indexed
        exact .inl ⟨rfl, fun _ _ impossible => absurd impossible (by simp)⟩
      | some value =>
        rw [valid] at indexed
        obtain ⟨rfl, found⟩ | ⟨row, -, -, hash, freshEvent, freshValue, rfl⟩ :=
          indexCommitment_cases counting.gapless indexed
        · left
          refine ⟨rfl, ?_⟩
          rintro - _ ⟨⟩
          exact found
        · right
          refine ⟨note, fun settled => ?_, row, hash, rfl⟩
          obtain ⟨other, mem, same | same⟩ := settled value rfl
          · exact freshEvent other mem same
          · exact freshValue other mem same
    · left
      rw [if_neg note] at indexed
      refine ⟨?_, fun eq => absurd eq note⟩
      split at indexed
      · split at indexed
        · cases indexed
          rfl
        · obtain ⟨rfl, -⟩ | ⟨row, -, -, rfl⟩ := indexNullifier_cases counting.gapless indexed
          · rfl
          · rfl
      · cases indexed
        rfl
  | _ =>
    simp only [payload] at indexed
    cases indexed
    exact .inl ⟨rfl, fun _ => trivial⟩

/-- Whether a note is stored depends on the stored notes only. -/
lemma settled_note_congr {db db' : Tables} (note : event.eventType = "note_deposited")
    (same : db.commitments = db'.commitments) : Settled db event ↔ Settled db' event := by
  unfold Settled
  cases event.payload with
  | dict fields =>
    dsimp only
    rw [if_pos note, if_pos note, same]
  | _ => rfl

/-- An event that stores nothing is no deposit. -/
lemma deposits_cons_same (indexed : indexEvent encryptor s event = .ok t)
    (same : t.db.commitments = s.db.commitments) :
    deposits encryptor s (event :: events) = deposits encryptor t events := by
  rw [deposits, indexed]
  exact if_pos (congrArg List.length same)

/-- One that stores a row is. -/
lemma deposits_cons_new (indexed : indexEvent encryptor s event = .ok t) {row : ShieldedCommitment}
    (stored : t.db.commitments = s.db.commitments ++ [row]) :
    deposits encryptor s (event :: events) = event :: deposits encryptor t events := by
  have longer : ¬t.db.commitments.length = s.db.commitments.length := by
    rw [stored, List.length_append, List.length_singleton]
    omega
  rw [deposits, indexed]
  exact if_neg longer

/-- The deposits of a loop are new notes among its events, and the rows it adds are theirs. -/
lemma deposits_spec (counting : Counting s) (indexed : events.foldlM (indexEvent encryptor) s = .ok t) :
    t.db.commitments.map ShieldedCommitment.eventHash =
        s.db.commitments.map ShieldedCommitment.eventHash ++
          (deposits encryptor s events).map LedgerEvent.eventHash ∧
      (deposits encryptor s events).Sublist events ∧
      ∀ d ∈ deposits encryptor s events, d.eventType = "note_deposited" ∧ ¬Settled s.db d := by
  induction events generalizing s with
  | nil =>
    cases indexed
    exact ⟨(List.append_nil _).symm, List.Sublist.refl _, fun _ mem => absurd mem List.not_mem_nil⟩
  | cons event events ih =>
    rw [List.foldlM_cons] at indexed
    obtain ⟨u, first, rest⟩ := bind_eq_ok.mp indexed
    obtain ⟨counting', grows, -⟩ := indexEvent_spec counting first
    obtain ⟨hashes, sub, new⟩ := ih counting' rest
    have new' : ∀ d ∈ deposits encryptor u events, d.eventType = "note_deposited" ∧ ¬Settled s.db d :=
      fun d mem => ⟨(new d mem).1, fun settled => (new d mem).2 (settled.mono grows)⟩
    obtain ⟨same, -⟩ | ⟨note, fresh, row, hash, stored⟩ := deposit_cases counting first
    · rw [deposits_cons_same first same, ← same]
      exact ⟨hashes, sub.cons event, new'⟩
    · rw [deposits_cons_new first stored]
      refine ⟨?_, sub.cons_cons event, List.forall_mem_cons.mpr ⟨⟨note, fresh⟩, new'⟩⟩
      rw [hashes, stored, List.map_append, List.map_singleton, hash, List.map_cons, List.append_assoc,
        List.singleton_append]

/-- A row that is new covers nothing before its own event; so every new note of a sorted list has a deposit that
does not come after it. -/
lemma exists_deposit (counting : Counting s) (indexed : events.foldlM (indexEvent encryptor) s = .ok t)
    (sorted : events.Pairwise fun a b => ¬Before b a) (mem : event ∈ events)
    (note : event.eventType = "note_deposited") (fresh : ¬Settled s.db event) :
    ∃ d ∈ deposits encryptor s events, ¬Before event d := by
  induction events generalizing s with
  | nil => exact absurd mem List.not_mem_nil
  | cons head events ih =>
    rw [List.foldlM_cons] at indexed
    obtain ⟨u, first, rest⟩ := bind_eq_ok.mp indexed
    obtain ⟨counting', -, -⟩ := indexEvent_spec counting first
    obtain ⟨ahead, sorted⟩ := List.pairwise_cons.mp sorted
    obtain ⟨same, covered⟩ | ⟨-, -, row, -, stored⟩ := deposit_cases counting first
    · rw [deposits_cons_same first same]
      rcases List.mem_cons.mp mem with rfl | later
      · exact absurd (covered note) fresh
      · have fresh' : ¬Settled u.db event := by
          rw [settled_note_congr note same]
          exact fresh
        exact ih counting' rest sorted later fresh'
    · rw [deposits_cons_new first stored]
      refine ⟨head, List.mem_cons_self, ?_⟩
      rcases List.mem_cons.mp mem with rfl | later
      · exact before_irrefl _
      · exact ahead event later

end Steps

/-- The events of a batch are sorted by their position on the ledger. -/
lemma sortEvents_sorted {events sortedEvents : List LedgerEvent} (sorted : sortEvents events = .ok sortedEvents) :
    sortedEvents.Pairwise fun a b => ¬Before b a := by
  rw [sortEvents] at sorted
  obtain ⟨keyed, keys, made⟩ := bind_eq_ok.mp sorted
  cases made
  have position : ∀ e ∈ keyed, ledgerPosition e.2 = e.1 := by
    intro e mem
    obtain ⟨event, -, made⟩ := mem_of_mapM keys mem
    obtain ⟨key, found, made⟩ := bind_eq_ok.mp made
    cases made
    rw [ledgerPosition, found]
    rfl
  have ordered : (keyed.insertionSort fun a b => a.1.1 < b.1.1 ∨ a.1.1 = b.1.1 ∧ a.1.2 ≤ b.1.2).Pairwise
      fun a b => a.1.1 < b.1.1 ∨ a.1.1 = b.1.1 ∧ a.1.2 ≤ b.1.2 := by
    have total : Std.Total fun a b : (ℤ × ℤ) × LedgerEvent => a.1.1 < b.1.1 ∨ a.1.1 = b.1.1 ∧ a.1.2 ≤ b.1.2 :=
      ⟨fun a b => by omega⟩
    have trans : IsTrans ((ℤ × ℤ) × LedgerEvent) fun a b => a.1.1 < b.1.1 ∨ a.1.1 = b.1.1 ∧ a.1.2 ≤ b.1.2 :=
      ⟨fun a b c => by omega⟩
    exact List.pairwise_insertionSort _ keyed
  rw [List.pairwise_map]
  apply ordered.imp_of_mem
  intro a b mema memb le
  rw [Before, position a ((List.mem_insertionSort _).mp mema), position b ((List.mem_insertionSort _).mp memb)]
  omega

/-- The events are those of the notes, leaf by leaf. -/
structure Attributed (s : NoteLog) : Prop where
  gapless : Gapless s.db
  sources : s.db.commitments.map ShieldedCommitment.eventHash = s.notes.map LedgerEvent.eventHash

/-- Each row has its note. -/
lemma Attributed.length {s : NoteLog} (attributed : Attributed s) : s.db.commitments.length = s.notes.length := by
  have same := congrArg List.length attributed.sources
  rw [List.length_map, List.length_map] at same
  exact same

/-- The order of the leaves is that of the list. -/
lemma leafOrdered_iff {s : NoteLog} (attributed : Attributed s) :
    LeafOrdered s ↔ s.notes.Pairwise fun a b => ¬Before b a := by
  have length := attributed.length
  have leaf : ∀ i (lt : i < s.db.commitments.length), s.db.commitments[i].leafIndex = i := by
    intro i lt
    have found := congrArg (·[i]?) attributed.gapless.leaves
    rw [List.getElem?_map, List.getElem?_map, List.getElem?_eq_getElem lt,
      List.getElem?_range lt] at found
    exact Option.some.inj found
  rw [List.pairwise_iff_getElem]
  constructor
  · intro ordered i j lti ltj lt before
    have row : ∀ k (lt : k < s.db.commitments.length) (ltk : k < s.notes.length),
        (s.db.commitments[k], s.notes[k]) ∈ s.db.commitments.zip s.notes := by
      intro k lt ltk
      rw [List.mem_iff_getElem]
      exact ⟨k, by rw [List.length_zip]; omega, List.getElem_zip⟩
    have less := ordered _ (row j (by omega) ltj) _ (row i (by omega) lti) before
    rw [leaf, leaf] at less
    omega
  · intro sorted a mema b memb before
    obtain ⟨i, lti, rfl⟩ := List.mem_iff_getElem.mp mema
    obtain ⟨j, ltj, rfl⟩ := List.mem_iff_getElem.mp memb
    rw [List.length_zip] at lti ltj
    rw [List.getElem_zip, List.getElem_zip] at before ⊢
    rw [leaf, leaf]
    rcases Nat.lt_trichotomy i j with lt | rfl | gt
    · exact_mod_cast lt
    · exact absurd before (before_irrefl _)
    · exact absurd before (sorted j i (by omega) (by omega) gt)

/-- One committed batch: the notes it stores go on in the order of the ledger. -/
lemma ingest_spec {s t : NoteLog} {batch : Batch} (attributed : Attributed s)
    (ingested : s.ingest batch = some t) :
    Attributed t ∧ t.notes = s.notes ++ storedNotes s.db batch ∧
      (storedNotes s.db batch).Pairwise (fun a b => ¬Before b a) ∧
      (∀ d ∈ storedNotes s.db batch,
        d ∈ batch.events ∧ d.eventType = "note_deposited" ∧ ¬Settled s.db d) ∧
      ∀ event ∈ batch.events, event.eventType = "note_deposited" → ¬Settled s.db event →
        ∃ d ∈ storedNotes s.db batch, ¬Before event d := by
  obtain ⟨db, stored, rfl⟩ := Option.map_eq_some_iff.mp ingested
  rw [ingest] at stored
  cases result : parseBatch batch.encryptor s.db batch.events with
  | error e =>
    rw [result] at stored
    cases stored
  | ok value =>
    rw [result] at stored
    cases stored
    obtain ⟨gapless, -, -⟩ := parseBatch_spec attributed.gapless result
    rw [parseBatch] at result
    split at result
    · rename_i empty
      have none_ : batch.events = [] := List.isEmpty_iff.mp empty
      cases result
      have nothing : storedNotes s.db batch = [] := by
        rw [storedNotes, none_]
        rfl
      rw [nothing, none_, List.append_nil]
      refine ⟨attributed, rfl, List.Pairwise.nil, fun _ mem => absurd mem List.not_mem_nil, fun _ mem => ?_⟩
      exact absurd mem List.not_mem_nil
    · obtain ⟨sortedEvents, sorted, result⟩ := bind_eq_ok.mp result
      obtain ⟨last, indexed, result⟩ := bind_eq_ok.mp result
      cases result
      have counting : Counting ⟨s.db, nextLeafIndex s.db, 0, 0⟩ :=
        ⟨attributed.gapless, nextLeafIndex_gapless attributed.gapless⟩
      have notes : storedNotes s.db batch = deposits batch.encryptor ⟨s.db, nextLeafIndex s.db, 0, 0⟩ sortedEvents := by
        rw [storedNotes, sorted]
      obtain ⟨hashes, sub, new⟩ := deposits_spec counting indexed
      have order := sortEvents_sorted sorted
      rw [notes]
      refine ⟨⟨gapless, ?_⟩, rfl, order.sublist sub, fun d mem => ?_, fun event mem note fresh => ?_⟩
      · rw [List.map_append, ← attributed.sources]
        exact hashes
      · exact ⟨(mem_sortEvents sorted).mp (sub.mem mem), new d mem⟩
      · exact exists_deposit counting indexed order ((mem_sortEvents sorted).mpr mem) note fresh

/-- In every run of committed batches, the leaves follow the order of the ledger throughout exactly when no batch
has a new note that comes before a note that is stored. -/
theorem leafOrder_iff (batches : List Batch) (s : NoteLog)
    (run : exec NoteLog.ingest NoteLog.empty batches = some s) :
    Always NoteLog.ingest LeafOrdered NoteLog.empty batches ↔
      Guarded NoteLog.ingest ComesAfter NoteLog.empty batches := by
  have fresh : Attributed NoteLog.empty := ⟨gapless_empty, rfl⟩
  have none_ : LeafOrdered NoteLog.empty := (leafOrdered_iff fresh).mpr List.Pairwise.nil
  refine always_iff_guarded fresh none_ (fun s batch t attributed _ ingested => ?_)
    (fun s batch t attributed ordered ingested => ?_) run
  · exact (ingest_spec attributed ingested).1
  · obtain ⟨attributed', notes, sorted, new, covered⟩ := ingest_spec attributed ingested
    rw [leafOrdered_iff attributed', notes, List.pairwise_append]
    constructor
    · rintro ⟨-, -, apart⟩ event mem note unsettled earlier stored
      obtain ⟨d, here, le⟩ := covered event mem note unsettled
      exact not_before_trans (apart earlier stored d here) le
    · intro after
      refine ⟨(leafOrdered_iff attributed).mp ordered, sorted, fun earlier stored d here => ?_⟩
      obtain ⟨mem, note, unsettled⟩ := new d here
      exact after d mem note unsettled earlier stored

/-- A deposit of the commitment that repeats one digit. -/
def depositOf (eventHash : String) (ledgerSequence : ℤ) (digit : Char) (index : ℤ) : LedgerEvent where
  eventHash := eventHash
  ledgerSequence := ledgerSequence
  txHash := "t"
  eventType := "note_deposited"
  payload := .dict [("commitment", .str (String.ofList (List.replicate 64 digit))), ("index", .int index)]

/-- Two batches in the order of the ledger, the first of them unsorted. -/
theorem leafOrder_iff_ascending :
    ∃ s, exec NoteLog.ingest NoteLog.empty
        [⟨none, [depositOf "e2" 7 'b' 4, depositOf "e1" 7 'a' 1]⟩, ⟨none, [depositOf "e3" 8 'c' 0]⟩] = some s ∧
      s.db.commitments.map (fun row => (row.eventHash, row.leafIndex)) = [("e1", 0), ("e2", 1), ("e3", 2)] ∧
      (Always NoteLog.ingest LeafOrdered NoteLog.empty
          [⟨none, [depositOf "e2" 7 'b' 4, depositOf "e1" 7 'a' 1]⟩, ⟨none, [depositOf "e3" 8 'c' 0]⟩] ↔
        Guarded NoteLog.ingest ComesAfter NoteLog.empty
          [⟨none, [depositOf "e2" 7 'b' 4, depositOf "e1" 7 'a' 1]⟩, ⟨none, [depositOf "e3" 8 'c' 0]⟩]) := by
  have reached : (exec NoteLog.ingest NoteLog.empty
      [⟨none, [depositOf "e2" 7 'b' 4, depositOf "e1" 7 'a' 1]⟩, ⟨none, [depositOf "e3" 8 'c' 0]⟩]).map
        (fun s => s.db.commitments.map fun row => (row.eventHash, row.leafIndex)) =
      some [("e1", 0), ("e2", 1), ("e3", 2)] := by
    decide +kernel
  obtain ⟨s, run, rows⟩ := Option.map_eq_some_iff.mp reached
  exact ⟨s, run, rows, leafOrder_iff _ s run⟩

/-- The batch of ledger 8 is committed before that of ledger 7: the later note gets the smaller leaf. -/
theorem leafOrder_reversed :
    ∃ s, exec NoteLog.ingest NoteLog.empty
        [⟨none, [depositOf "e2" 8 'b' 0]⟩, ⟨none, [depositOf "e1" 7 'a' 0]⟩] = some s ∧
      s.db.commitments.map (fun row => (row.eventHash, row.leafIndex)) = [("e2", 0), ("e1", 1)] ∧
      ¬LeafOrdered s := by
  have reached : (exec NoteLog.ingest NoteLog.empty
      [⟨none, [depositOf "e2" 8 'b' 0]⟩, ⟨none, [depositOf "e1" 7 'a' 0]⟩]).map
        (fun s => (s.db.commitments.map (fun row => (row.eventHash, row.leafIndex)), decide (LeafOrdered s))) =
      some ([("e2", 0), ("e1", 1)], false) := by
    decide +kernel
  obtain ⟨s, run, found⟩ := Option.map_eq_some_iff.mp reached
  obtain ⟨rows, unordered⟩ := Prod.mk.inj found
  exact ⟨s, run, rows, of_decide_eq_false unordered⟩

end StellarFlow.Shielded
