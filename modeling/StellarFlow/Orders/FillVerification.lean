import Mathlib.Algebra.BigOperators.Group.List.Basic
import Mathlib.Tactic.Linarith
import StellarFlow.Lib.Dict
import StellarFlow.Lib.HalfUp
import StellarFlow.Lib.JavaScript
import StellarFlow.Lib.Machine

/-!
# Verified order fills

Model of `verifyOrderFilledEvent` in `src/services/orderFillVerificationService.ts`. The calls are transactions at the
isolation level Read Committed: a statement reads what is committed, an insertion of a key waits for another transaction
that has inserted it, and so does an update of a row. A transaction may be rolled back at any time. Sums are rounded by
`decimal.js` to its default of 20 significant digits, and amounts by their columns of the type `numeric(38, 18)`.

A transaction reads the filled amount of an order, adds to it and writes it back without a lock, so the fill of another
one in between is lost; a fill that comes before its order never reaches the order; and a sum of more than 20 digits is
not what it should be. The filled amounts add up where an order is created before its fills, no transaction reads an
order that another one has read and not yet written, and the amounts have few enough digits.
-/

open Decimal

namespace StellarFlow.Orders

/-- Library functions: `decodeScVal` up to `@stellar/stellar-sdk`, `Number`, `String`, and the decimal of a text, which
may throw. -/
structure Runtime where
  decodeScVal : Js.Value → Js.Value
  number : Js.Value → Js.Double
  text : Js.Value → String
  decimal : String → Option ℚ

structure SorobanOrderFilledEvent where
  txHash : String
  ledger : ℤ
  index : ℕ
  topic : Js.Value
  value : Js.Value

structure OrderFilledData where
  orderId : String
  fillAmount : String

def topicNames (rt : Runtime) (topic : Js.Value) : List String :=
  match topic with
  | .string s => [rt.text (rt.decodeScVal (.string s))]
  | .array items => items.filterMap fun item =>
    match rt.decodeScVal item with
    | .string s => some s
    | _ => none
  | _ => []

/-- `Number(fillAmount)` is finite and above zero. -/
def isPositive : Js.Double → Bool
  | .finite x => 0 < x
  | _ => false

def parseOrderFilledEvent (rt : Runtime) (event : SorobanOrderFilledEvent) : Option OrderFilledData :=
  if "OrderFilled" ∉ topicNames rt event.topic then none
  else
    let value := rt.decodeScVal event.value
    match value.property "orderId" with
    | .string orderId =>
      let fillAmount := (value.property "fillAmount").coalesce (value.property "amount")
      match fillAmount with
      | .string s => if isPositive (rt.number (.string s)) then some ⟨orderId, s⟩ else none
      | .number x => if isPositive (rt.number (.number x)) then some ⟨orderId, rt.text (.number x)⟩ else none
      | _ => none
    | _ => none

inductive OrderStatus where
  | opened
  | partiallyFilled
  | filled
  deriving DecidableEq

structure OpenOrder where
  totalAmount : ℚ
  filledAmount : ℚ
  status : OrderStatus

/-- A row of `OrderFilledEvent`; its key is `(txHash, eventIndex)`. -/
structure FilledEvent where
  orderId : String
  fillAmount : ℚ
  ledgerSeq : ℤ

/-- What a transaction writes to an order. -/
structure Write where
  filledAmount : ℚ
  status : OrderStatus

/-- Where a transaction stands: the statement it makes next, with what it is going to write to the order, or that it has
ended. -/
inductive Phase where
  | reading
  | ordering
  | inserting (write : Option Write)
  | updating (write : Write)
  | committing (write : Option Write)
  | finished

structure Transaction where
  key : String × ℕ
  ledger : ℤ
  orderId : String
  fillAmount : ℚ
  phase : Phase

/-- What is committed, and the transactions. -/
structure Database where
  orders : Dict String OpenOrder
  events : Dict (String × ℕ) FilledEvent
  transactions : List Transaction

inductive Move where
  | createOrder (orderId : String) (totalAmount : ℚ)
  | verifyOrderFilledEvent (event : SorobanOrderFilledEvent)
  | readEvent (i : ℕ)
  | readOrder (i : ℕ)
  | insert (i : ℕ)
  | update (i : ℕ)
  | commit (i : ℕ)
  | rollback (i : ℕ)

/-- The default precision of `decimal.js`. -/
def precision : ℕ := 20

/-- What a column of the type `numeric(38, 18)` stores of a number. -/
def column (x : ℚ) : ℚ := toScale 18 x

/-- The number is too large for the column, and the statement fails. -/
def overflows (x : ℚ) : Bool := 10 ^ 20 ≤ |column x|

/-- The new amount and status of an order. -/
def OpenOrder.fill (order : OpenOrder) (fillAmount : ℚ) : Write :=
  let filledAmount := significant precision (order.filledAmount + fillAmount)
  ⟨filledAmount, if order.totalAmount ≤ filledAmount then .filled else .partiallyFilled⟩

def OpenOrder.write (order : OpenOrder) (write : Write) : OpenOrder :=
  { order with filledAmount := column write.filledAmount, status := write.status }

/-- The key that the transaction has inserted. -/
def Transaction.inserted (t : Transaction) : Option (String × ℕ) :=
  match t.phase with
  | .updating _ => some t.key
  | .committing _ => some t.key
  | _ => none

/-- The order that the transaction has updated. -/
def Transaction.updated (t : Transaction) : Option String :=
  match t.phase with
  | .committing (some _) => some t.orderId
  | _ => none

def Database.advance (s : Database) (i : ℕ) (t : Transaction) (phase : Phase) : Database :=
  { s with transactions := s.transactions.set i { t with phase := phase } }

/-- What a transaction has written becomes visible. -/
def Database.apply (s : Database) (t : Transaction) (write : Option Write) : Database :=
  { s with
    events := s.events.set t.key ⟨t.orderId, column t.fillAmount, t.ledger⟩
    orders :=
      match write with
      | some write => s.orders.modify t.orderId fun order => order.write write
      | none => s.orders }

/-- One move. -/
def Database.step (rt : Runtime) (s : Database) : Move → Option Database
  | .createOrder orderId totalAmount =>
    if orderId ∈ s.orders.keys ∨ overflows totalAmount then none
    else some { s with orders := s.orders.set orderId ⟨column totalAmount, 0, .opened⟩ }
  | .verifyOrderFilledEvent event =>
    match parseOrderFilledEvent rt event with
    | none => some s
    | some fill =>
      match rt.decimal fill.fillAmount with
      | none => some s
      | some fillAmount =>
        let t := ⟨(event.txHash, event.index), event.ledger, fill.orderId, fillAmount, .reading⟩
        some { s with transactions := s.transactions ++ [t] }
  | .readEvent i =>
    match s.transactions[i]? with
    | some ⟨key, ledger, orderId, fillAmount, .reading⟩ =>
      if key ∈ s.events.keys then some (s.advance i ⟨key, ledger, orderId, fillAmount, .reading⟩ .finished)
      else some (s.advance i ⟨key, ledger, orderId, fillAmount, .reading⟩ .ordering)
    | _ => none
  | .readOrder i =>
    match s.transactions[i]? with
    | some ⟨key, ledger, orderId, fillAmount, .ordering⟩ =>
      some (s.advance i ⟨key, ledger, orderId, fillAmount, .ordering⟩
        (.inserting ((s.orders.get? orderId).map fun order => order.fill fillAmount)))
    | _ => none
  | .insert i =>
    match s.transactions[i]? with
    | some ⟨key, ledger, orderId, fillAmount, .inserting write⟩ =>
      if overflows fillAmount ∨ key ∈ s.events.keys then
        some (s.advance i ⟨key, ledger, orderId, fillAmount, .inserting write⟩ .finished)
      else if key ∈ s.transactions.filterMap Transaction.inserted then none
      else
        match write with
        | some write => some (s.advance i ⟨key, ledger, orderId, fillAmount, .inserting (some write)⟩ (.updating write))
        | none => some (s.advance i ⟨key, ledger, orderId, fillAmount, .inserting none⟩ (.committing none))
    | _ => none
  | .update i =>
    match s.transactions[i]? with
    | some ⟨key, ledger, orderId, fillAmount, .updating write⟩ =>
      if overflows write.filledAmount then
        some (s.advance i ⟨key, ledger, orderId, fillAmount, .updating write⟩ .finished)
      else if orderId ∈ s.transactions.filterMap Transaction.updated then none
      else some (s.advance i ⟨key, ledger, orderId, fillAmount, .updating write⟩ (.committing (some write)))
    | _ => none
  | .commit i =>
    match s.transactions[i]? with
    | some ⟨key, ledger, orderId, fillAmount, .committing write⟩ =>
      some ((s.apply ⟨key, ledger, orderId, fillAmount, .committing write⟩ write).advance i
        ⟨key, ledger, orderId, fillAmount, .committing write⟩ .finished)
    | _ => none
  | .rollback i => (s.transactions[i]?).map fun t => s.advance i t .finished

/-- Empty tables without transactions. -/
def Database.initial : Database := ⟨.empty, .empty, []⟩

/-- The sum of the amounts of the indexed fills of an order. -/
def Database.indexedAmount (s : Database) (orderId : String) : ℚ :=
  ((s.events.entries.filter fun e => e.2.orderId = orderId).map fun e => e.2.fillAmount).sum

/-- The filled amounts add up, and an order is filled when they reach its total. -/
def Database.AddsUp (s : Database) : Prop :=
  ∀ orderId order, s.orders.get? orderId = some order → order.filledAmount = s.indexedAmount orderId ∧
    (order.status = .filled ↔ order.totalAmount ≤ s.indexedAmount orderId)

/-- The order that the transaction has read and is going to write. -/
def Transaction.held (t : Transaction) : Option String :=
  match t.phase with
  | .inserting (some _) => some t.orderId
  | .updating _ => some t.orderId
  | .committing (some _) => some t.orderId
  | _ => none

/-- The order that the transaction has not found. -/
def Transaction.missed (t : Transaction) : Option String :=
  match t.phase with
  | .inserting none => some t.orderId
  | .committing none => some t.orderId
  | _ => none

/-- The fill has no more places than the columns, and the sum with it no more digits than `decimal.js` keeps. -/
def OpenOrder.Exact (order : OpenOrder) (fillAmount : ℚ) : Prop :=
  HasScale 18 fillAmount ∧ Fits precision (order.filledAmount + fillAmount)

instance (order : OpenOrder) (fillAmount : ℚ) : Decidable (order.Exact fillAmount) :=
  inferInstanceAs (Decidable (_ ∧ Fits (19 + 1) _))

/-- An order has a positive total and comes before its fills, and a transaction reads an order only when no other one is
going to write it and the amounts have few enough digits. -/
def Database.isSerial (s : Database) : Move → Bool
  | .createOrder orderId totalAmount =>
    0 < column totalAmount && s.events.entries.all (fun e => e.2.orderId ≠ orderId) &&
      orderId ∉ s.transactions.filterMap Transaction.missed
  | .readOrder i =>
    match s.transactions[i]? with
    | some ⟨_, _, orderId, fillAmount, .ordering⟩ =>
      orderId ∉ s.transactions.filterMap Transaction.held &&
        (s.orders.get? orderId).all fun order => order.Exact fillAmount
    | _ => true
  | _ => true

/-- What the transaction is going to write to its order. -/
def Transaction.write (t : Transaction) : Option Write :=
  match t.phase with
  | .inserting write => write
  | .updating write => some write
  | .committing write => write
  | _ => none

/-- The transactions have inserted different keys, which are not committed, and are going to write different orders,
which are as they have read them. -/
structure Database.Serial (s : Database) : Prop where
  addsUp : s.AddsUp
  scaled : ∀ orderId order, s.orders.get? orderId = some order → HasScale 18 order.filledAmount
  keys : (s.transactions.filterMap Transaction.inserted).Nodup
  fresh : ∀ t ∈ s.transactions, ∀ key, t.inserted = some key → key ∉ s.events.keys
  held : (s.transactions.filterMap Transaction.held).Nodup
  read : ∀ t ∈ s.transactions, ∀ write, t.write = some write →
    ∃ order, s.orders.get? t.orderId = some order ∧ order.Exact t.fillAmount ∧ write = order.fill t.fillAmount
  missed : ∀ t ∈ s.transactions, ∀ orderId, t.missed = some orderId → orderId ∉ s.orders.keys

variable {rt : Runtime} {s s' : Database} {m : Move} {i : ℕ} {t : Transaction} {phase : Phase} {orderId : String}
  {write : Write}

/-- The moves of the database, case by case. -/
inductive Database.Step (s : Database) : Move → Database → Prop where
  | createOrder {orderId : String} {totalAmount : ℚ} (new : orderId ∉ s.orders.keys) :
      Step s (.createOrder orderId totalAmount)
        { s with orders := s.orders.set orderId ⟨column totalAmount, 0, .opened⟩ }
  | idle {m : Move} : Step s m s
  | start {m : Move} (t : Transaction) (reading : t.phase = .reading) :
      Step s m { s with transactions := s.transactions ++ [t] }
  | ended {m : Move} {i : ℕ} {t : Transaction} (found : s.transactions[i]? = some t) :
      Step s m (s.advance i t .finished)
  | readEvent {i : ℕ} {t : Transaction} (found : s.transactions[i]? = some t) :
      Step s (.readEvent i) (s.advance i t .ordering)
  | readOrder {i : ℕ} {t : Transaction} (found : s.transactions[i]? = some t) (ordering : t.phase = .ordering) :
      Step s (.readOrder i)
        (s.advance i t (.inserting ((s.orders.get? t.orderId).map fun order => order.fill t.fillAmount)))
  | insert {i : ℕ} {t : Transaction} {write : Write} (found : s.transactions[i]? = some t)
      (inserting : t.phase = .inserting (some write)) (fresh : t.key ∉ s.events.keys)
      (free : t.key ∉ s.transactions.filterMap Transaction.inserted) :
      Step s (.insert i) (s.advance i t (.updating write))
  | insertMissed {i : ℕ} {t : Transaction} (found : s.transactions[i]? = some t)
      (inserting : t.phase = .inserting none) (fresh : t.key ∉ s.events.keys)
      (free : t.key ∉ s.transactions.filterMap Transaction.inserted) :
      Step s (.insert i) (s.advance i t (.committing none))
  | update {i : ℕ} {t : Transaction} {write : Write} (found : s.transactions[i]? = some t)
      (updating : t.phase = .updating write) : Step s (.update i) (s.advance i t (.committing (some write)))
  | commit {i : ℕ} {t : Transaction} {write : Option Write} (found : s.transactions[i]? = some t)
      (committing : t.phase = .committing write) : Step s (.commit i) ((s.apply t write).advance i t .finished)

/-- Each step of the model is one of those named. -/
lemma Database.step_cases (taken : s.step rt m = some s') : Database.Step s m s' := by
  cases m with
  | createOrder orderId totalAmount =>
    rw [Database.step] at taken
    split at taken
    case isTrue => cases taken
    case isFalse new =>
      cases taken
      exact .createOrder fun known => new (.inl known)
  | verifyOrderFilledEvent event =>
    rw [Database.step] at taken
    split at taken
    case h_1 =>
      cases taken
      exact .idle
    case h_2 fill _ =>
      split at taken
      case h_1 =>
        cases taken
        exact .idle
      case h_2 fillAmount _ =>
        cases taken
        exact .start _ rfl
  | readEvent i =>
    rw [Database.step] at taken
    split at taken
    case h_1 key ledger orderId fillAmount found =>
      split at taken
      case isTrue =>
        cases taken
        exact .ended found
      case isFalse =>
        cases taken
        exact .readEvent found
    case h_2 => cases taken
  | readOrder i =>
    rw [Database.step] at taken
    split at taken
    case h_1 key ledger orderId fillAmount found =>
      cases taken
      exact .readOrder found rfl
    case h_2 => cases taken
  | insert i =>
    rw [Database.step] at taken
    split at taken
    case h_1 key ledger orderId fillAmount write found =>
      split at taken
      case isTrue =>
        cases taken
        exact .ended found
      case isFalse valid =>
        have fresh := fun known => valid (.inr known)
        split at taken
        case isTrue => cases taken
        case isFalse free =>
          cases write with
          | some write =>
            cases taken
            exact .insert found rfl fresh free
          | none =>
            cases taken
            exact .insertMissed found rfl fresh free
    case h_2 => cases taken
  | update i =>
    rw [Database.step] at taken
    split at taken
    case h_1 key ledger orderId fillAmount write found =>
      split at taken
      case isTrue =>
        cases taken
        exact .ended found
      case isFalse =>
        split at taken
        case isTrue => cases taken
        case isFalse =>
          cases taken
          exact .update found rfl
    case h_2 => cases taken
  | commit i =>
    rw [Database.step] at taken
    split at taken
    case h_1 key ledger orderId fillAmount write found =>
      cases taken
      exact .commit found rfl
    case h_2 => cases taken
  | rollback i =>
    obtain ⟨t, found, rfl⟩ := Option.map_eq_some_iff.1 taken
    exact .ended found

/-- A transaction goes on, and nothing is committed. -/
lemma Database.Serial.advance (inv : s.Serial) (found : s.transactions[i]? = some t)
    (inserted : ∀ key, Transaction.inserted { t with phase := phase } = some key → t.inserted = some key ∨
      key ∉ s.transactions.filterMap Transaction.inserted ∧ key ∉ s.events.keys)
    (held : ∀ id, Transaction.held { t with phase := phase } = some id → t.held = some id ∨
      id ∉ s.transactions.filterMap Transaction.held)
    (read : ∀ write, Transaction.write { t with phase := phase } = some write → t.write = some write ∨
      ∃ order, s.orders.get? t.orderId = some order ∧ order.Exact t.fillAmount ∧ write = order.fill t.fillAmount)
    (missed : ∀ id, Transaction.missed { t with phase := phase } = some id → t.missed = some id ∨
      id ∉ s.orders.keys) : (s.advance i t phase).Serial := by
  have mem := List.mem_of_getElem? found
  refine ⟨inv.addsUp, inv.scaled, ?_, ?_, Machine.nodup_held_set found inv.held held, ?_, ?_⟩
  · exact Machine.nodup_held_set found inv.keys fun key new => (inserted key new).imp_right And.left
  · intro u set
    rcases List.mem_or_eq_of_mem_set set with old | rfl
    · exact inv.fresh u old
    · exact fun key new => (inserted key new).elim (inv.fresh t mem key) And.right
  · intro u set
    rcases List.mem_or_eq_of_mem_set set with old | rfl
    · exact inv.read u old
    · exact fun write new => (read write new).elim (inv.read t mem write) id
  · intro u set
    rcases List.mem_or_eq_of_mem_set set with old | rfl
    · exact inv.missed u old
    · exact fun orderId new => (missed orderId new).elim (inv.missed t mem orderId) id

/-- A transaction that writes holds its order. -/
lemma Transaction.held_of_write (writes : t.write = some write) : t.held = some t.orderId := by
  obtain ⟨key, ledger, orderId, fillAmount, phase⟩ := t
  cases phase with
  | inserting =>
    cases writes
    rfl
  | updating => rfl
  | committing =>
    cases writes
    rfl
  | reading => cases writes
  | ordering => cases writes
  | finished => cases writes

/-- A fill that becomes visible counts for its order. -/
lemma Database.indexedAmount_apply (fresh : t.key ∉ s.events.keys) (write : Option Write) (orderId : String) :
    (s.apply t write).indexedAmount orderId =
      s.indexedAmount orderId + if t.orderId = orderId then column t.fillAmount else 0 := by
  have entries : (s.apply t write).events.entries =
      s.events.entries ++ [(t.key, ⟨t.orderId, column t.fillAmount, t.ledger⟩)] := Dict.entries_set_of_not_mem fresh
  rw [Database.indexedAmount, Database.indexedAmount, entries, List.filter_append, List.map_append, List.sum_append]
  congr 1
  split
  case isTrue same => simp [same]
  case isFalse other => simp [other]

/-- With few enough digits neither the sum nor the columns are rounded. -/
lemma OpenOrder.Exact.sums {order : OpenOrder} {fillAmount : ℚ} (exact' : order.Exact fillAmount)
    (scaled : HasScale 18 order.filledAmount) :
    (order.fill fillAmount).filledAmount = order.filledAmount + fillAmount ∧
      column (order.fill fillAmount).filledAmount = order.filledAmount + fillAmount ∧
        column fillAmount = fillAmount := by
  have sum : (order.fill fillAmount).filledAmount = order.filledAmount + fillAmount := significant_of_fits exact'.2
  refine ⟨sum, ?_, toScale_eq_self_iff.2 exact'.1⟩
  rw [sum]
  exact toScale_eq_self_iff.2 (scaled.add exact'.1)

/-- The order that the transaction has read gets the amount of its fill. -/
lemma Database.AddsUp.apply_write (addsUp : s.AddsUp) (fresh : t.key ∉ s.events.keys) {order : OpenOrder}
    (read : s.orders.get? t.orderId = some order) (exact' : order.Exact t.fillAmount)
    (scaled : HasScale 18 order.filledAmount) : (s.apply t (some (order.fill t.fillAmount))).AddsUp := by
  intro orderId order' row
  rw [Database.indexedAmount_apply fresh]
  have orders : (s.apply t (some (order.fill t.fillAmount))).orders =
      s.orders.modify t.orderId fun order' => order'.write (order.fill t.fillAmount) := rfl
  rw [orders, Dict.get?_modify] at row
  split at row
  case isTrue same =>
    -- the row is still the one that the transaction has read
    subst same
    rw [read] at row
    cases row
    obtain ⟨sum, -⟩ := addsUp t.orderId order read
    obtain ⟨digits, stored, indexed⟩ := exact'.sums scaled
    rw [if_pos rfl, ← sum, indexed]
    refine ⟨stored, ?_⟩
    rw [← digits]
    show (if _ then OrderStatus.filled else OrderStatus.partiallyFilled) = .filled ↔ _
    split
    case isTrue reached => exact iff_of_true rfl reached
    case isFalse short => exact iff_of_false (by decide) short
  case isFalse other =>
    rw [if_neg (Ne.symm other), add_zero]
    exact addsUp orderId order' row

/-- A fill without an order changes no order. -/
lemma Database.AddsUp.apply_none (addsUp : s.AddsUp) (fresh : t.key ∉ s.events.keys)
    (missed : t.orderId ∉ s.orders.keys) : (s.apply t none).AddsUp := by
  intro orderId order row
  have other : t.orderId ≠ orderId := fun same => missed (Dict.mem_keys_iff.2 ⟨order, same ▸ row⟩)
  rw [Database.indexedAmount_apply fresh, if_neg other, add_zero]
  exact addsUp orderId order row

/-- What a transaction commits adds up, and leaves the other ones what they have read. -/
lemma Database.Serial.commit (inv : s.Serial) (found : s.transactions[i]? = some t) {write : Option Write}
    (committing : t.phase = .committing write) : ((s.apply t write).advance i t .finished).Serial := by
  have mem := List.mem_of_getElem? found
  have inserted : t.inserted = some t.key := by rw [Transaction.inserted, committing]
  have fresh := inv.fresh t mem t.key inserted
  have others : ∀ {u}, u ∈ s.transactions.set i { t with phase := .finished } → ∀ {key}, u.inserted = some key →
      u ∈ s.transactions ∧ key ≠ t.key := by
    intro u set key other
    rcases Machine.mem_set_of_held found inv.keys inserted set with rfl | ⟨old, differs⟩
    · cases other
    · exact ⟨old, fun same => differs (same ▸ other)⟩
  refine ⟨?_, ?_, Machine.nodup_held_set found inv.keys nofun, ?_, Machine.nodup_held_set found inv.held nofun, ?_, ?_⟩
  · cases write with
    | some write =>
      obtain ⟨order, read, exact', rfl⟩ := inv.read t mem write (by rw [Transaction.write, committing])
      exact inv.addsUp.apply_write fresh read exact' (inv.scaled _ order read)
    | none => exact inv.addsUp.apply_none fresh (inv.missed t mem t.orderId (by rw [Transaction.missed, committing]))
  · intro orderId order row
    cases write with
    | none => exact inv.scaled orderId order row
    | some write =>
      -- what is stored has the scale of the column
      have row := (Dict.get?_modify _ _ _ _).symm.trans row
      split at row
      · obtain ⟨old, -, rfl⟩ := Option.map_eq_some_iff.1 row
        exact hasScale_toScale 18 _
      · exact inv.scaled orderId order row
  · intro u set key other
    obtain ⟨old, differs⟩ := others set other
    exact fun now => (Dict.mem_keys_set.1 now).elim differs (inv.fresh u old key other)
  · intro u set write' writes
    rcases List.mem_or_eq_of_mem_set set with old | rfl
    · obtain ⟨order, read, filled⟩ := inv.read u old write' writes
      refine ⟨order, ?_, filled⟩
      cases write with
      | none => exact read
      | some write =>
        -- no two transactions are going to write one order
        have held : t.held = some t.orderId := by rw [Transaction.held, committing]
        rcases Machine.mem_set_of_held found inv.held held set with rfl | ⟨-, differs⟩
        · cases writes
        have other : u.orderId ≠ t.orderId := fun same => differs (same ▸ Transaction.held_of_write writes)
        exact (Dict.get?_modify _ _ _ _).trans ((if_neg other).trans read)
    · cases writes
  · intro u set orderId misses
    rcases List.mem_or_eq_of_mem_set set with old | rfl
    · cases write with
      | none => exact inv.missed u old orderId misses
      | some write => exact fun now => inv.missed u old orderId misses (Dict.mem_keys_modify.1 now)
    · cases misses

/-- An order that comes before its fills starts with their sum. -/
lemma Database.Serial.createOrder (inv : s.Serial) {totalAmount : ℚ} (new : orderId ∉ s.orders.keys)
    (serial : s.isSerial (.createOrder orderId totalAmount) = true) :
    Database.Serial { s with orders := s.orders.set orderId ⟨column totalAmount, 0, .opened⟩ } := by
  obtain ⟨both, unmissed⟩ := Bool.and_eq_true_iff.1 serial
  obtain ⟨positive, unfilled⟩ := Bool.and_eq_true_iff.1 both
  have none : s.indexedAmount orderId = 0 := by
    have empty : (s.events.entries.filter fun e => e.2.orderId = orderId) = [] := by
      refine List.filter_eq_nil_iff.2 fun e mem same => ?_
      exact of_decide_eq_true (List.all_eq_true.1 unfilled e mem) (of_decide_eq_true same)
    rw [Database.indexedAmount, empty]
    rfl
  refine ⟨?_, ?_, inv.keys, inv.fresh, inv.held, ?_, ?_⟩
  · intro id order row
    rw [Dict.get?_set] at row
    show _ = s.indexedAmount id ∧ (_ ↔ _ ≤ s.indexedAmount id)
    split at row
    case isTrue same =>
      cases row
      rw [same, none]
      refine ⟨rfl, iff_of_false (fun filled => ?_) (not_le.2 (of_decide_eq_true positive))⟩
      cases filled
    case isFalse => exact inv.addsUp id order row
  · intro id order row
    rw [Dict.get?_set] at row
    split at row
    case isTrue =>
      cases row
      exact hasScale_zero 18
    case isFalse => exact inv.scaled id order row
  · intro t mem write writes
    obtain ⟨order, read, filled⟩ := inv.read t mem write writes
    have other : t.orderId ≠ orderId := fun same => new (same ▸ Dict.mem_keys_iff.2 ⟨order, read⟩)
    exact ⟨order, (Dict.get?_set _ _ _ _).trans ((if_neg other).trans read), filled⟩
  · intro t mem id misses now
    rcases Dict.mem_keys_set.1 now with rfl | old
    · exact of_decide_eq_true unmissed (List.mem_filterMap.2 ⟨t, mem, misses⟩)
    · exact inv.missed t mem id misses old

/-- A serial step keeps the transactions apart. -/
lemma serial_step (inv : s.Serial) (serial : s.isSerial m = true) (taken : s.step rt m = some s') : s'.Serial := by
  cases Database.step_cases taken with
  | createOrder new => exact inv.createOrder new serial
  | idle => exact inv
  | start t reading =>
    obtain ⟨key, ledger, orderId, fillAmount, phase⟩ := t
    cases reading
    refine ⟨inv.addsUp, inv.scaled, ?_, Machine.forall_snoc inv.fresh nofun, ?_, Machine.forall_snoc inv.read nofun,
      Machine.forall_snoc inv.missed nofun⟩
    · rw [Machine.held_snoc rfl]
      exact inv.keys
    · rw [Machine.held_snoc rfl]
      exact inv.held
  | ended found => exact inv.advance found nofun nofun nofun nofun
  | readEvent found => exact inv.advance found nofun nofun nofun nofun
  | @readOrder i t found ordering =>
    obtain ⟨key, ledger, orderId, fillAmount, phase⟩ := t
    cases ordering
    rw [Database.isSerial, found] at serial
    obtain ⟨unheld, exact'⟩ := Bool.and_eq_true_iff.1 serial
    have free := of_decide_eq_true unheld
    cases row : s.orders.get? orderId with
    | none =>
      refine inv.advance found nofun nofun nofun fun id misses => .inr ?_
      cases misses
      exact fun known => nomatch row.symm.trans (Dict.mem_keys_iff.1 known).choose_spec
    | some order =>
      refine inv.advance found nofun (fun id holds => .inr ?_) (fun write writes => .inr ⟨order, row, ?_, ?_⟩) nofun
      · cases holds
        exact free
      · rw [row] at exact'
        exact of_decide_eq_true exact'
      · exact (Option.some.inj writes).symm
  | insert found inserting fresh free =>
    refine inv.advance found (fun key new => .inr ?_) (fun id holds => .inl ?_) (fun write writes => .inl ?_) nofun
    · cases new
      exact ⟨free, fresh⟩
    · rw [Transaction.held, inserting]
      exact holds
    · rw [Transaction.write, inserting]
      exact writes
  | insertMissed found inserting fresh free =>
    refine inv.advance found (fun key new => .inr ?_) nofun nofun fun id misses => .inl ?_
    · cases new
      exact ⟨free, fresh⟩
    · rw [Transaction.missed, inserting]
      exact misses
  | update found updating =>
    refine inv.advance found (fun key new => .inl ?_) (fun id holds => .inl ?_) (fun write writes => .inl ?_) nofun
    · rw [Transaction.inserted, updating]
      exact new
    · rw [Transaction.held, updating]
      exact holds
    · rw [Transaction.write, updating]
      exact writes
  | commit found committing => exact inv.commit found committing

/-- In a serial run the filled amounts add up. -/
theorem filled_amounts_add_up {trace : List Move}
    (serial : Machine.Guarded (Database.step rt) (fun s m => s.isSerial m = true) Database.initial trace) :
    Machine.Always (Database.step rt) Database.AddsUp Database.initial trace := by
  have init : Database.initial.Serial :=
    ⟨nofun, nofun, List.nodup_nil, fun _ mem => absurd mem List.not_mem_nil, List.nodup_nil,
      fun _ mem => absurd mem List.not_mem_nil, fun _ mem => absurd mem List.not_mem_nil⟩
  have inv := Machine.always_of_guarded init (fun _ _ _ inv met taken => serial_step inv met taken) serial
  exact fun pre s le reached => (inv pre s le reached).addsUp

def sampleRuntime : Runtime where
  decodeScVal := id
  number := fun
    | .string s =>
      if s = "5" then .finite 5
      else if s = "3" then .finite 3
      else if s = "100.123456789012345672" then .finite (3522780958484703 / 35184372088832)
      else .nan
    | _ => .nan
  text := fun
    | .string s => s
    | _ => ""
  decimal := fun s =>
    if s = "5" then some 5
    else if s = "3" then some 3
    else if s = "100.123456789012345672" then some (100123456789012345672 / 10 ^ 18)
    else none

/-- A fill of the order `order`. -/
def sampleEvent (txHash fillAmount : String) : SorobanOrderFilledEvent where
  txHash := txHash
  ledger := 1
  index := 0
  topic := .array [.string "OrderFilled"]
  value := .object [("orderId", .string "order"), ("fillAmount", .string fillAmount)]

/-- The statements of a transaction on an order that is there. -/
def sampleTransaction (i : ℕ) : List Move := [.readEvent i, .readOrder i, .insert i, .update i, .commit i]

/-- The amount and the status of an order, and the sum of its indexed fills. -/
def Database.summary (s : Database) (orderId : String) : Option (ℚ × OrderStatus × ℚ) :=
  (s.orders.get? orderId).map fun order => (order.filledAmount, order.status, s.indexedAmount orderId)

/-- Two fills, one of them delivered twice. -/
def sampleTrace : List Move :=
  [.createOrder "order" 8, .verifyOrderFilledEvent (sampleEvent "a" "5"), .verifyOrderFilledEvent (sampleEvent "b" "3"),
    .verifyOrderFilledEvent (sampleEvent "a" "5")] ++ sampleTransaction 0 ++ sampleTransaction 1 ++ [.readEvent 2]

/-- The sums of two fills, with the general theorem. -/
theorem filled_amounts_add_up_sample :
    ∃ s, Machine.exec (Database.step sampleRuntime) Database.initial sampleTrace = some s ∧
      s.summary "order" = some (8, .filled, 8) ∧ s.AddsUp := by
  have run :
      (Machine.exec (Database.step sampleRuntime) Database.initial sampleTrace).map (fun s => s.summary "order") =
        some (some (8, .filled, 8)) := by decide +kernel
  have serial : Machine.Guarded (Database.step sampleRuntime) (fun s m => s.isSerial m = true) Database.initial
      sampleTrace := by decide +kernel
  obtain ⟨s, reached, sums⟩ := Option.map_eq_some_iff.1 run
  exact ⟨s, reached, sums, filled_amounts_add_up serial _ s (List.prefix_refl _) reached⟩

/-- A fill between the read and the write of another is lost, and one that comes before its order is; and the sum of 21
digits of the only fill of an order does not reach its total. -/
theorem filled_amounts_lost :
    (Machine.exec (Database.step sampleRuntime) Database.initial
      [.createOrder "order" 8, .verifyOrderFilledEvent (sampleEvent "a" "5"),
        .verifyOrderFilledEvent (sampleEvent "b" "3"), .readEvent 0, .readEvent 1, .readOrder 0, .readOrder 1,
        .insert 0, .insert 1, .update 0, .commit 0, .update 1, .commit 1]).map (fun s => s.summary "order") =
      some (some (3, .partiallyFilled, 8)) ∧
    (Machine.exec (Database.step sampleRuntime) Database.initial
      [.verifyOrderFilledEvent (sampleEvent "a" "5"), .readEvent 0, .readOrder 0, .insert 0, .commit 0,
        .createOrder "order" 8]).map (fun s => s.summary "order") = some (some (0, .opened, 5)) ∧
    (Machine.exec (Database.step sampleRuntime) Database.initial
      ([.createOrder "order" (100123456789012345672 / 10 ^ 18),
        .verifyOrderFilledEvent (sampleEvent "a" "100.123456789012345672")] ++ sampleTransaction 0)).map
      (fun s => s.summary "order") =
      some (some (10012345678901234567 / 10 ^ 17, .partiallyFilled, 100123456789012345672 / 10 ^ 18)) := by
  refine ⟨?_, ?_, ?_⟩
  · decide +kernel
  · decide +kernel
  · decide +kernel

end StellarFlow.Orders
