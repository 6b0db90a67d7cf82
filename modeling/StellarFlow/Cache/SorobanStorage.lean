import Mathlib.Data.List.Basic
import Mathlib.Algebra.Order.Ring.Int
import StellarFlow.Lib.Dict
import StellarFlow.Lib.Replay

/-!
# The cache of contract instance storage

Model of `SorobanInstanceStorageCache` and of `sync_ledger_commit` in `src/cache/soroban_storage_cache.py`. The cache
is an LMDB environment with a database of entries and one of metadata, or a dictionary that has both. A stored entry
stands for the JSON text that is read back as it; a database key is known by its text.

A commit puts the updates of a ledger first and deletes what the ledger deletes after that, so a key that is deleted
and written again within one ledger is lost.
-/

namespace StellarFlow.SorobanCache
open Replay

/-- The id of a contract, or the empty text. -/
structure ContractId where
  text : String
  noDelimiter : ':' ∉ text.toList
  notMeta : text ≠ "__meta__"
  deriving DecidableEq

structure StorageEntry (V : Type) where
  contractId : ContractId
  key : String
  value : V
  durability : String
  ledgerSequence : ℤ

/-- What is stored: an entry, or the number of the last ledger. -/
inductive Stored (V : Type) where
  | entry (entry : StorageEntry V)
  | ledger (sequence : ℤ)

/-- The two stores. -/
inductive Cache (V : Type) where
  | lmdb (db metaDb : Dict String (Stored V))
  | fallback (store : Dict String (Stored V))

/-- A change of a ledger; `key` is `str(change.get("key"))`, and a contract may be given as null. -/
structure Change (V : Type) where
  durability : Option String
  contract_id : Option (Option ContractId)
  contractId : Option (Option ContractId)
  key : String
  type : Option String
  value : Option V
  val : Option V

/-- `None`, and the case mappings of Python. -/
structure Python (V : Type) where
  none : V
  upper : String → String
  lower : String → String

variable {V : Type}

/-- `_make_key`. -/
def makeKey (contractId : ContractId) (key : String) : String := contractId.text ++ ":" ++ key

namespace Cache

/-- The value of a key in the database of entries. -/
def raw (cache : Cache V) (dbKey : String) : Option (Stored V) :=
  match cache with
  | .lmdb db _ => db.get? dbKey
  | .fallback store => store.get? dbKey

/-- `get`; the number of a ledger has no `get`. -/
def get (cache : Cache V) (contractId : ContractId) (key : String) : Except Unit (Option V) :=
  match cache.raw (makeKey contractId key) with
  | none => .ok none
  | some (.entry entry) => .ok (some entry.value)
  | some (.ledger _) => .error ()

def delete (cache : Cache V) (contractId : ContractId) (key : String) : Cache V :=
  match cache with
  | .lmdb db metaDb => .lmdb (db.pop (makeKey contractId key)) metaDb
  | .fallback store => .fallback (store.pop (makeKey contractId key))

/-- `batch_put` of entries. -/
def batchPut (cache : Cache V) (entries : List (StorageEntry V)) : Cache V :=
  let prepared := entries.map fun entry => (makeKey entry.contractId entry.key, Stored.entry entry)
  match cache with
  | .lmdb db metaDb => .lmdb (prepared.foldl (fun db e => db.set e.1 e.2) db) metaDb
  | .fallback store => .fallback (prepared.foldl (fun store e => store.set e.1 e.2) store)

def setLastSyncedLedger (cache : Cache V) (ledgerSeq : ℤ) : Cache V :=
  match cache with
  | .lmdb db metaDb => .lmdb db (metaDb.set "last_synced_ledger" (.ledger ledgerSeq))
  | .fallback store => .fallback (store.set "__meta__:last_synced_ledger" (.ledger ledgerSeq))

end Cache

/-- `change.get("contract_id", change.get("contractId"))`, where it is not falsy. -/
def Change.contract (change : Change V) : Option ContractId :=
  (change.contract_id.getD (change.contractId.getD none)).filter fun contractId => contractId.text ≠ ""

structure Sync (V : Type) where
  cache : Cache V
  allowedContracts : Option (List String)
  processedLedgers : List ℤ

/-- No contracts given, or an empty list, allow every contract. -/
def Sync.allows (s : Sync V) (contractId : ContractId) : Bool :=
  match s.allowedContracts with
  | none => true
  | some contracts => contracts = [] || contracts.contains contractId.text

variable (py : Python V)

/-- The body of the loop over the changes. -/
def Sync.collect (s : Sync V) (ledgerSequence : ℤ) (lists : List (StorageEntry V) × List (ContractId × String))
    (change : Change V) : List (StorageEntry V) × List (ContractId × String) :=
  if py.upper (change.durability.getD "INSTANCE") ≠ "INSTANCE" then lists
  else
    match change.contract with
    | none => lists
    | some contractId =>
      if !s.allows contractId then lists
      else if py.lower (change.type.getD "updated") ∈ ["deleted", "removed"] then
        (lists.1, lists.2 ++ [(contractId, change.key)])
      else
        (lists.1 ++ [⟨contractId, change.key, change.value.getD (change.val.getD py.none), "INSTANCE", ledgerSequence⟩],
          lists.2)

/-- `sync_ledger_commit`. -/
def Sync.syncLedgerCommit (s : Sync V) (ledgerSequence : ℤ) (changes : List (Change V)) : Sync V :=
  let lists := changes.foldl (s.collect py ledgerSequence) ([], [])
  let updated := if lists.1 = [] then s.cache else s.cache.batchPut lists.1
  let deleted := lists.2.foldl (fun cache e => cache.delete e.1 e.2) updated
  { s with
    cache := deleted.setLastSyncedLedger ledgerSequence
    processedLedgers := s.processedLedgers ++ [ledgerSequence] }

/-- A commit: the number of a ledger and its changes. -/
abbrev Commit (V : Type) := ℤ × List (Change V)

def Sync.syncAll (s : Sync V) (commits : List (Commit V)) : Sync V :=
  commits.foldl (fun s commit => s.syncLedgerCommit py commit.1 commit.2) s

/-- A change as a change of the map from contracts and keys to values; other changes do not count. -/
def Sync.op (s : Sync V) (change : Change V) : Option (Op (ContractId × String) V) :=
  if py.upper (change.durability.getD "INSTANCE") ≠ "INSTANCE" then none
  else
    match change.contract.filter s.allows with
    | none => none
    | some contractId =>
      if py.lower (change.type.getD "updated") ∈ ["deleted", "removed"] then some (.erase (contractId, change.key))
      else some (.set (contractId, change.key) (change.value.getD (change.val.getD py.none)))

/-- The batches of a list of commits. -/
def Sync.batches (s : Sync V) (commits : List (Commit V)) : List (List (Op (ContractId × String) V)) :=
  commits.map fun commit => commit.2.filterMap (s.op py)

/-- The cache answers as the map does. -/
def Cache.Represents (cache : Cache V) (m : ContractId × String → Option V) : Prop :=
  ∀ contractId key, cache.get contractId key = .ok (m (contractId, key))

inductive Backend where
  | lmdb
  | fallback

/-- An empty cache. -/
def Cache.new : Backend → Cache V
  | .lmdb => .lmdb Dict.empty Dict.empty
  | .fallback => .fallback Dict.empty

def Sync.new (backend : Backend) (allowedContracts : Option (List String)) : Sync V where
  cache := Cache.new backend
  allowedContracts := allowedContracts
  processedLedgers := []

/-- The first delimiter splits a text in one way. -/
lemma append_delimiter_inj {x x' y y' : List Char} (none : ':' ∉ x) (none' : ':' ∉ x')
    (eq : x ++ ':' :: y = x' ++ ':' :: y') : x = x' ∧ y = y' := by
  induction x generalizing x' with
  | nil =>
    cases x' with
    | nil => exact ⟨rfl, (List.cons.inj eq).2⟩
    | cons c x' => exact absurd ((List.cons.inj eq).1 ▸ List.mem_cons_self) none'
  | cons c x ih =>
    cases x' with
    | nil => exact absurd ((List.cons.inj eq).1 ▸ List.mem_cons_self) none
    | cons c' x' =>
      obtain ⟨same, rest⟩ := List.cons.inj eq
      obtain ⟨left, right⟩ := ih (fun mem => none (List.mem_cons_of_mem _ mem))
        (fun mem => none' (List.mem_cons_of_mem _ mem)) rest
      exact ⟨by rw [same, left], right⟩

/-- The characters of a key: the contract, a colon and the rest. -/
lemma toList_makeKey (contractId : ContractId) (key : String) :
    (makeKey contractId key).toList = contractId.text.toList ++ ':' :: key.toList := by
  rw [makeKey, String.toList_append, String.toList_append, List.append_assoc]
  rfl

/-- Contract ids have no colon, so a key tells its contract and its rest. -/
lemma makeKey_inj {contractId contractId' : ContractId} {key key' : String} :
    makeKey contractId key = makeKey contractId' key' ↔ (contractId, key) = (contractId', key') := by
  constructor
  · intro same
    have lists := congrArg String.toList same
    rw [toList_makeKey, toList_makeKey] at lists
    obtain ⟨text, key⟩ := append_delimiter_inj contractId.noDelimiter contractId'.noDelimiter lists
    refine Prod.ext ?_ (String.toList_inj.1 key)
    cases contractId
    cases contractId'
    cases String.toList_inj.1 text
    rfl
  · rintro ⟨⟩
    rfl

/-- No entry has the key of the last ledger. -/
lemma makeKey_ne_meta (contractId : ContractId) (key : String) :
    makeKey contractId key ≠ "__meta__:last_synced_ledger" := by
  intro same
  have lists := congrArg String.toList same
  rw [toList_makeKey] at lists
  have split : contractId.text.toList = "__meta__".toList :=
    (append_delimiter_inj contractId.noDelimiter (by decide) lists).1
  exact contractId.notMeta (String.toList_inj.1 split)

section Represents
variable {cache : Cache V} {m : ContractId × String → Option V}

/-- A new cache is empty. -/
lemma represents_new (backend : Backend) : (Cache.new backend : Cache V).Represents fun _ => none := by
  intro contractId key
  cases backend with
  | lmdb => rfl
  | fallback => rfl

/-- `delete` erases the key. -/
lemma represents_delete (represents : cache.Represents m) (contractId : ContractId) (key : String) :
    (cache.delete contractId key).Represents (apply m (.erase (contractId, key))) := by
  intro contractId' key'
  have raw : (cache.delete contractId key).raw (makeKey contractId' key') =
      if makeKey contractId' key' = makeKey contractId key then none else cache.raw (makeKey contractId' key') := by
    cases cache with
    | lmdb db metaDb => exact Dict.get?_pop db ..
    | fallback store => exact Dict.get?_pop store ..
  rw [apply_apply, Cache.get, raw]
  by_cases same : makeKey contractId' key' = makeKey contractId key
  · rw [if_pos same, if_pos (show Op.key (.erase (contractId, key)) = (contractId', key') from
      (makeKey_inj.1 same).symm)]
    rfl
  · rw [if_neg same, if_neg (show ¬Op.key (.erase (contractId, key)) = (contractId', key') from
      fun here => same (makeKey_inj.2 here.symm))]
    exact represents contractId' key'

/-- The sequence of the last ledger is no entry. -/
lemma represents_setLastSyncedLedger (represents : cache.Represents m) (ledgerSeq : ℤ) :
    (cache.setLastSyncedLedger ledgerSeq).Represents m := by
  intro contractId key
  have raw :
      (cache.setLastSyncedLedger ledgerSeq).raw (makeKey contractId key) = cache.raw (makeKey contractId key) := by
    cases cache with
    | lmdb db metaDb => rfl
    | fallback store => exact (Dict.get?_set store ..).trans (if_neg (makeKey_ne_meta contractId key))
  rw [Cache.get, raw]
  exact represents contractId key

/-- An entry as a change of the map. -/
def StorageEntry.op (entry : StorageEntry V) : Op (ContractId × String) V :=
  .set (entry.contractId, entry.key) entry.value

/-- A batch of one entry sets its key, or erases it. -/
lemma represents_batchPut_singleton (represents : cache.Represents m) (entry : StorageEntry V) :
    (cache.batchPut [entry]).Represents (apply m entry.op) := by
  intro contractId key
  have raw : (cache.batchPut [entry]).raw (makeKey contractId key) =
      if makeKey contractId key = makeKey entry.contractId entry.key then some (.entry entry)
      else cache.raw (makeKey contractId key) := by
    cases cache with
    | lmdb db metaDb => exact Dict.get?_set db ..
    | fallback store => exact Dict.get?_set store ..
  rw [apply_apply, Cache.get, raw]
  by_cases same : makeKey contractId key = makeKey entry.contractId entry.key
  · rw [if_pos same, if_pos (show entry.op.key = (contractId, key) from (makeKey_inj.1 same).symm)]
    rfl
  · rw [if_neg same, if_neg (show ¬entry.op.key = (contractId, key) from fun here => same (makeKey_inj.2 here.symm))]
    exact represents contractId key

/-- A batch is put entry by entry. -/
lemma batchPut_cons (entry : StorageEntry V) (entries : List (StorageEntry V)) :
    cache.batchPut (entry :: entries) = (cache.batchPut [entry]).batchPut entries := by
  cases cache with
  | lmdb db metaDb => rfl
  | fallback store => rfl

/-- An empty batch puts nothing. -/
lemma batchPut_nil : cache.batchPut [] = cache := by
  cases cache with
  | lmdb db metaDb => rfl
  | fallback store => rfl

/-- A batch is replayed in its order. -/
lemma represents_batchPut (represents : cache.Represents m) (entries : List (StorageEntry V)) :
    (cache.batchPut entries).Represents (replay (entries.map (·.op)) m) := by
  induction entries generalizing cache m with
  | nil =>
    rw [batchPut_nil]
    exact represents
  | cons entry entries ih =>
    rw [batchPut_cons]
    exact ih (represents_batchPut_singleton represents entry)

/-- The keys are erased one after the other. -/
lemma represents_deletes (represents : cache.Represents m) (keys : List (ContractId × String)) :
    (keys.foldl (fun cache e => cache.delete e.1 e.2) cache).Represents (replay (keys.map Op.erase) m) := by
  induction keys generalizing cache m with
  | nil => exact represents
  | cons e keys ih => exact ih (represents_delete represents e.1 e.2)

end Represents

variable {s : Sync V}

/-- A change that counts goes to one of the lists. -/
lemma collect_change (ledgerSequence : ℤ) (lists : List (StorageEntry V) × List (ContractId × String))
    (change : Change V) :
    (s.collect py ledgerSequence lists change).1.map (·.op) =
        lists.1.map (·.op) ++ ((s.op py change).toList.filter (!·.isErase)) ∧
      (s.collect py ledgerSequence lists change).2.map Op.erase =
        lists.2.map Op.erase ++ ((s.op py change).toList.filter (·.isErase)) := by
  rw [Sync.collect, Sync.op]
  split
  case isTrue => simp
  case isFalse =>
    cases contract : change.contract with
    | none => simp
    | some contractId =>
      cases allowed : s.allows contractId with
      | false => simp [Option.filter, allowed]
      | true =>
        by_cases deleted : py.lower (change.type.getD "updated") ∈ ["deleted", "removed"]
        · simp only [Option.filter, allowed, deleted, if_true]
          simp [Op.isErase]
        · simp only [Option.filter, allowed, deleted, if_true, if_false]
          simp [Op.isErase, StorageEntry.op]

/-- The loop sorts the changes that count into updates and deletions. -/
lemma collect_eq (ledgerSequence : ℤ) (changes : List (Change V)) :
    (changes.foldl (s.collect py ledgerSequence) ([], [])).1.map (·.op) =
        (changes.filterMap (s.op py)).filter (!·.isErase) ∧
      (changes.foldl (s.collect py ledgerSequence) ([], [])).2.map Op.erase =
        (changes.filterMap (s.op py)).filter (·.isErase) := by
  induction changes using List.reverseRecOn with
  | nil => exact ⟨rfl, rfl⟩
  | append_singleton changes change ih =>
    obtain ⟨puts, deletes⟩ := collect_change py (s := s) ledgerSequence
      (changes.foldl (s.collect py ledgerSequence) ([], [])) change
    have last : [change].filterMap (s.op py) = (s.op py change).toList := by
      cases op : s.op py change with
      | none => exact List.filterMap_cons_none op
      | some op' => exact List.filterMap_cons_some op
    rw [List.foldl_append, List.filterMap_append, List.filter_append, List.filter_append, last, ← ih.1, ← ih.2]
    exact ⟨puts, deletes⟩

/-- A commit regroups the changes of its ledger. -/
lemma represents_syncLedgerCommit {m : ContractId × String → Option V} (represents : s.cache.Represents m)
    (ledgerSequence : ℤ) (changes : List (Change V)) :
    (s.syncLedgerCommit py ledgerSequence changes).cache.Represents
      (replay (regroup (changes.filterMap (s.op py))) m) := by
  obtain ⟨puts, deletes⟩ := collect_eq py (s := s) ledgerSequence changes
  rw [regroup, ← puts, ← deletes, replay_append]
  refine represents_setLastSyncedLedger (represents_deletes ?_ _) ledgerSequence
  split
  case isTrue none =>
    rw [none]
    exact represents
  case isFalse => exact represents_batchPut represents _

/-- The operation of an entry depends on the allowed contracts alone. -/
lemma op_congr {s' : Sync V} (allowed : s'.allowedContracts = s.allowedContracts) : s'.op py = s.op py := by
  have allows : s'.allows = s.allows := by
    funext contractId
    rw [Sync.allows, Sync.allows, allowed]
  funext change
  rw [Sync.op, Sync.op, allows]

/-- Over a list of commits the cache replays what each one regroups. -/
lemma represents_syncAll {m : ContractId × String → Option V} (represents : s.cache.Represents m)
    (commits : List (Commit V)) :
    (s.syncAll py commits).cache.Represents (replay ((s.batches py commits).flatMap regroup) m) := by
  induction commits generalizing s m with
  | nil => exact represents
  | cons commit commits ih =>
    have rest := ih (represents_syncLedgerCommit py represents commit.1 commit.2)
    have op : (s.syncLedgerCommit py commit.1 commit.2).op py = s.op py := op_congr py rfl
    rw [Sync.batches, op] at rest
    rw [Sync.batches, List.map_cons, List.flatMap_cons, replay_append]
    exact rest

/-- Contracts that are allowed and have an id. -/
def Sync.Covers (s : Sync V) (contractId : ContractId) : Prop := contractId.text ≠ "" ∧ s.allows contractId = true

/-- The cache holds what the changes of all commits, one after the other, leave of every key of the contracts. -/
def Sync.ReplaysLedger (s : Sync V) (commits : List (Commit V)) : Prop :=
  ∀ contractId, s.Covers contractId → ∀ key,
    (s.syncAll py commits).cache.get contractId key =
      .ok (replay (s.batches py commits).flatten (fun _ => none) (contractId, key))

/-- For each key that is changed, the last commit that changes it does not write it after it has deleted it. -/
def Sync.Settles (s : Sync V) (commits : List (Commit V)) : Prop :=
  ∀ op ∈ (s.batches py commits).flatten, settles (s.batches py commits) op.key = true

variable {py}

/-- A key that no batch touches is settled. -/
lemma settles_of_untouched {batches : List (List (Op (ContractId × String) V))} {k : ContractId × String}
    (untouched : ∀ op ∈ batches.flatten, op.key ≠ k) : settles batches k = true := by
  have none : batches.reverse.find? (touches k) = none := by
    rw [List.find?_eq_none]
    intro ops mem touched
    obtain ⟨op, mem', here⟩ := List.any_eq_true.1 touched
    exact untouched op (List.mem_flatten.2 ⟨ops, List.mem_reverse.1 mem, mem'⟩) (of_decide_eq_true here)
  rw [settles, none]

/-- What counts is of a contract that is allowed and has an id. -/
lemma covers_of_op {change : Change V} {op : Op (ContractId × String) V} (here : s.op py change = some op) :
    s.Covers op.key.1 := by
  rw [Sync.op] at here
  split at here
  case isTrue => cases here
  case isFalse =>
    split at here
    case h_1 => cases here
    case h_2 contractId found =>
      obtain ⟨contract, allowed⟩ := Option.filter_eq_some_iff.1 found
      have named := (Option.filter_eq_some_iff.1 contract).2
      have covers : s.Covers contractId := ⟨of_decide_eq_true named, allowed⟩
      split at here
      · cases here
        exact covers
      · cases here
        exact covers

/-- The cache replays the ledger, in either store, if and only if no key is deleted and written again by the last
commit that changes it. -/
theorem replaysLedger_iff (py : Python V) (backend : Backend) (allowedContracts : Option (List String))
    (commits : List (Commit V)) :
    (Sync.new backend allowedContracts).ReplaysLedger py commits ↔
      (Sync.new backend allowedContracts).Settles py commits := by
  have represents := represents_syncAll py (s := Sync.new backend allowedContracts)
    (represents_new backend) commits
  have key_iff : ∀ contractId key, ((Sync.new backend allowedContracts).syncAll py commits).cache.get contractId key =
      .ok (replay ((Sync.new backend allowedContracts).batches py commits).flatten (fun _ => none) (contractId, key)) ↔
        settles ((Sync.new backend allowedContracts).batches py commits) (contractId, key) = true := by
    intro contractId key
    rw [represents contractId key, Except.ok.injEq]
    exact replay_regroup_iff _
  constructor
  · intro replays op mem
    obtain ⟨ops, batch, mem⟩ := List.mem_flatten.1 mem
    obtain ⟨commit, -, rfl⟩ := List.mem_map.1 batch
    obtain ⟨change, -, here⟩ := List.mem_filterMap.1 mem
    exact (key_iff op.key.1 op.key.2).1 (replays _ (covers_of_op here) _)
  · intro settled contractId covers key
    refine (key_iff contractId key).2 ?_
    by_cases touched : ∃ op ∈ ((Sync.new backend allowedContracts).batches py commits).flatten,
        op.key = (contractId, key)
    · obtain ⟨op, mem, here⟩ := touched
      rw [← here]
      exact settled op mem
    · exact settles_of_untouched fun op mem here => touched ⟨op, mem, here⟩

/-- For texts that are in the right case. -/
def samplePython : Python ℕ := ⟨0, id, id⟩

def sampleContract : ContractId := ⟨"CA", by decide, by decide⟩

/-- Ledger 7 deletes a key that is not there and writes it. -/
def recreation : List (Commit ℕ) :=
  [(7, [⟨none, some (some sampleContract), none, "counter", some "deleted", none, none⟩,
    ⟨none, some (some sampleContract), none, "counter", some "updated", some 2, none⟩])]

/-- The key is not in the cache, in neither store. -/
theorem recreated_key_lost : ¬(Sync.new .lmdb none).ReplaysLedger samplePython recreation ∧
    ¬(Sync.new .fallback none).ReplaysLedger samplePython recreation := by
  have covers : ∀ backend, (Sync.new backend none : Sync ℕ).Covers sampleContract :=
    fun _ => ⟨by decide, rfl⟩
  have expected : ∀ backend, replay ((Sync.new backend none).batches samplePython recreation).flatten (fun _ => none)
      (sampleContract, "counter") = some 2 := fun _ => rfl
  have cached : ∀ backend,
      ((Sync.new backend none).syncAll samplePython recreation).cache.get sampleContract "counter" =
      .ok none := by
    intro backend
    cases backend with
    | lmdb => rfl
    | fallback => rfl
  refine ⟨fun replays => ?_, fun replays => ?_⟩
  · have same := replays sampleContract (covers .lmdb) "counter"
    rw [expected, cached] at same
    cases same
  · have same := replays sampleContract (covers .fallback) "counter"
    rw [expected, cached] at same
    cases same

end StellarFlow.SorobanCache
