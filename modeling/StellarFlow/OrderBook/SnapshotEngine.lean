import Mathlib.Data.List.Induction
import Mathlib.Tactic.Linarith
import StellarFlow.Lib.Dict
import StellarFlow.Lib.JavaScript

/-!
# Snapshots of the order book

Model of the book of `src/services/orderBookSnapshotEngine.ts`: its updates, `captureSnapshot` and
`recoverFromLatestSnapshot` over an open Redis. A price in the book is finite, which every update checks; an amount is
any number. What `JSON.stringify` stores is modelled by the document that `JSON.parse` reads from it. The metrics, the
export and the purging of old snapshots are left out.

The updates check that an amount is not `<= 0`, which lets `NaN` and `Infinity` in; they are printed as `null`, and the
recovery drops the level. So a book is recovered exactly when all its amounts are finite.
-/

namespace StellarFlow.OrderBook

inductive OrderSide where
  | bid
  | ask
  deriving DecidableEq

structure OrderBookLevel where
  price : ℚ
  amount : Js.Double
  deriving DecidableEq

/-- `getDepth()`. -/
structure Depth where
  bids : List OrderBookLevel
  asks : List OrderBookLevel
  deriving DecidableEq

structure Engine where
  bids : Dict ℚ Js.Double
  asks : Dict ℚ Js.Double

/-- The calls that change the book. -/
inductive Update where
  | applyDepthUpdate (side : OrderSide) (price amount : Js.Double)
  | setLevel (side : OrderSide) (price amount : Js.Double)
  | removeLevel (side : OrderSide) (price : Js.Double)
  | clear

/-- A level as JSON has it, where a number that is not finite is `null`. -/
structure JsonLevel where
  price : Option ℚ
  amount : Option ℚ

/-- A stored `OrderBookSnapshot`. -/
structure Document where
  version : ℕ
  ledgerSeq : ℕ
  capturedAt : String
  bids : List JsonLevel
  asks : List JsonLevel

/-- A value in Redis: the text of a ledger number, or a snapshot. -/
inductive RedisValue where
  | text (s : String)
  | snapshot (document : Document)

def Engine.empty : Engine := ⟨Dict.empty, Dict.empty⟩

/-- The book of a side is replaced. -/
def Engine.modify (engine : Engine) (side : OrderSide) (f : Dict ℚ Js.Double → Dict ℚ Js.Double) : Engine :=
  match side with
  | .bid => { engine with bids := f engine.bids }
  | .ask => { engine with asks := f engine.asks }

/-- The shape of `applyDepthUpdate` and `setLevel`: `stored` is the amount to store, from the book of the side. -/
def Engine.store (engine : Engine) (side : OrderSide) (price amount : Js.Double)
    (stored : Dict ℚ Js.Double → ℚ → Js.Double) : Engine :=
  match price with
  | .finite p =>
    if p ≤ 0 then engine
    else if amount.isNonpositive then engine.modify side fun book => book.pop p
    else engine.modify side fun book => book.set p (stored book p)
  | _ => engine

def Engine.applyDepthUpdate (engine : Engine) (side : OrderSide) (price amount : Js.Double) : Engine :=
  engine.store side price amount fun book p => ((book.get? p).getD (.finite 0)).add amount

def Engine.setLevel (engine : Engine) (side : OrderSide) (price amount : Js.Double) : Engine :=
  engine.store side price amount fun _ _ => amount

def Engine.removeLevel (engine : Engine) (side : OrderSide) (price : Js.Double) : Engine :=
  match price with
  | .finite p => engine.modify side fun book => book.pop p
  | _ => engine

def Engine.update (engine : Engine) : Update → Engine
  | .applyDepthUpdate side price amount => engine.applyDepthUpdate side price amount
  | .setLevel side price amount => engine.setLevel side price amount
  | .removeLevel side price => engine.removeLevel side price
  | .clear => .empty

/-- The book after some updates. -/
def Engine.run (updates : List Update) : Engine := updates.foldl Engine.update .empty

def levels (book : Dict ℚ Js.Double) : List OrderBookLevel := book.entries.map fun e => ⟨e.1, e.2⟩

def Engine.getDepth (engine : Engine) : Depth where
  bids := (levels engine.bids).mergeSort fun a b => b.price ≤ a.price
  asks := (levels engine.asks).mergeSort fun a b => a.price ≤ b.price

def OrderBookLevel.json (level : OrderBookLevel) : JsonLevel := ⟨some level.price, level.amount.json⟩

/-- The loop of `applySnapshot`. -/
def applyLevels (levels : List JsonLevel) : Dict ℚ Js.Double :=
  levels.foldl (fun book level =>
    match level.price, level.amount with
    | some price, some amount => if 0 < amount then book.set price (.finite amount) else book
    | _, _ => book) .empty

def applySnapshot (snapshot : Document) : Engine := ⟨applyLevels snapshot.bids, applyLevels snapshot.asks⟩

/-- The snapshot and what Redis has after `captureSnapshot`. -/
def captureSnapshot (keyPrefix : String) (engine : Engine) (redis : Dict String RedisValue) (ledgerSeq : ℕ)
    (capturedAt : String) : Dict String RedisValue :=
  let depth := engine.getDepth
  let snapshot : Document :=
    ⟨1, ledgerSeq, capturedAt, depth.bids.map OrderBookLevel.json, depth.asks.map OrderBookLevel.json⟩
  (redis.set (keyPrefix ++ ":" ++ toString ledgerSeq) (.snapshot snapshot)).set (keyPrefix ++ ":latest")
    (.text (toString ledgerSeq))

/-- `recoverFromLatestSnapshot`; the book stays where nothing can be read. -/
def recoverFromLatestSnapshot (keyPrefix : String) (engine : Engine) (redis : Dict String RedisValue) : Engine :=
  match redis.get? (keyPrefix ++ ":latest") with
  | some (.text latestLedgerRaw) =>
    if latestLedgerRaw = "" then engine
    else
      match redis.get? (keyPrefix ++ ":" ++ latestLedgerRaw) with
      | some (.snapshot snapshot) => applySnapshot snapshot
      | _ => engine
  | _ => engine

/-- The amounts of a book have a property. -/
def AllAmounts (P : Js.Double → Prop) (book : Dict ℚ Js.Double) : Prop := ∀ e ∈ book.entries, P e.2

/-- All amounts are finite. -/
def Engine.IsFinite (engine : Engine) : Prop :=
  AllAmounts (fun amount => amount.isFinite = true) engine.bids ∧
    AllAmounts (fun amount => amount.isFinite = true) engine.asks

/-- The amount of an update, if it has one, is neither `NaN` nor `Infinity`. -/
def Update.IsFinite : Update → Prop
  | .applyDepthUpdate _ _ amount => amount.isFinite = true ∨ amount.isNonpositive = true
  | .setLevel _ _ amount => amount.isFinite = true ∨ amount.isNonpositive = true
  | _ => True

variable {engine : Engine} {book : Dict ℚ Js.Double} {price amount : Js.Double} {side : OrderSide}
  {P : Js.Double → Prop}

/-- An empty book has no amounts. -/
lemma allAmounts_empty : AllAmounts P .empty := fun _ mem => absurd mem List.not_mem_nil

/-- Popping a price adds none. -/
lemma AllAmounts.pop (all : AllAmounts P book) (p : ℚ) : AllAmounts P (book.pop p) :=
  fun e mem => all e (List.mem_of_mem_filter mem)

/-- Setting a price adds one. -/
lemma AllAmounts.set (all : AllAmounts P book) (p : ℚ) (new : P amount) : AllAmounts P (book.set p amount) := by
  intro e mem
  rcases Dict.mem_entries_set mem with rfl | ⟨before, -⟩
  · exact new
  · exact all e before

/-- A side is modified, and the other one stays. -/
lemma Engine.modify_all {f : Dict ℚ Js.Double → Dict ℚ Js.Double}
    (both : AllAmounts P engine.bids ∧ AllAmounts P engine.asks)
    (kept : ∀ book, AllAmounts P book → AllAmounts P (f book)) :
    AllAmounts P (engine.modify side f).bids ∧ AllAmounts P (engine.modify side f).asks := by
  cases side with
  | bid => exact ⟨kept _ both.1, both.2⟩
  | ask => exact ⟨both.1, kept _ both.2⟩

/-- A property of the amounts is kept by an update that stores an amount with it. -/
lemma Engine.store_all {stored : Dict ℚ Js.Double → ℚ → Js.Double}
    (both : AllAmounts P engine.bids ∧ AllAmounts P engine.asks)
    (new : amount.isNonpositive = false → ∀ book p, AllAmounts P book → P (stored book p)) :
    AllAmounts P (engine.store side price amount stored).bids ∧
      AllAmounts P (engine.store side price amount stored).asks := by
  cases price with
  | nan => exact both
  | infinite => exact both
  | finite p =>
    rw [Engine.store]
    split
    case isTrue => exact both
    case isFalse =>
      split
      case isTrue => exact Engine.modify_all both fun book all => all.pop p
      case isFalse positive =>
        exact Engine.modify_all both fun book all => all.set p (new (Bool.eq_false_iff.2 positive) book p all)

/-- Removing a level adds no amount. -/
lemma Engine.removeLevel_all (both : AllAmounts P engine.bids ∧ AllAmounts P engine.asks) :
    AllAmounts P (engine.removeLevel side price).bids ∧ AllAmounts P (engine.removeLevel side price).asks := by
  cases price with
  | nan => exact both
  | infinite => exact both
  | finite p => exact Engine.modify_all both fun book all => all.pop p

/-- A property of the amounts that the updates keep holds of the book. -/
lemma Engine.run_all {Q : Update → Prop} {updates : List Update}
    (set : ∀ side price amount, Q (.setLevel side price amount) → amount.isNonpositive = false → P amount)
    (add : ∀ side price amount, Q (.applyDepthUpdate side price amount) → amount.isNonpositive = false →
      ∀ old, P old ∨ old = .finite 0 → P (old.add amount))
    (all : ∀ update ∈ updates, Q update) :
    AllAmounts P (Engine.run updates).bids ∧ AllAmounts P (Engine.run updates).asks := by
  induction updates using List.reverseRecOn with
  | nil => exact ⟨allAmounts_empty, allAmounts_empty⟩
  | append_singleton updates update ih =>
    have before := ih fun other mem => all other (List.mem_append_left _ mem)
    have here : Q update := all update (List.mem_append_right _ (List.mem_singleton_self _))
    rw [Engine.run, List.foldl_append, List.foldl_cons, List.foldl_nil, ← Engine.run]
    cases update with
    | applyDepthUpdate side price amount =>
      refine Engine.store_all before fun positive book p old => add side price amount here positive _ ?_
      cases found : book.get? p with
      | none => exact .inr rfl
      | some amount' => exact .inl (old _ (Dict.get?_eq_some found))
    | setLevel side price amount =>
      exact Engine.store_all before fun positive _ _ _ => set side price amount here positive
    | removeLevel side price => exact Engine.removeLevel_all before
    | clear => exact ⟨allAmounts_empty, allAmounts_empty⟩

/-- Adding to a positive amount leaves it positive. -/
lemma isNonpositive_add {old : Js.Double} (positive : amount.isNonpositive = false)
    (kept : old.isNonpositive = false ∨ old = .finite 0) : (old.add amount).isNonpositive = false := by
  cases amount with
  | nan => cases old <;> rfl
  | infinite negative =>
    obtain rfl : negative = false := positive
    cases old with
    | nan => rfl
    | finite => rfl
    | infinite negative =>
      obtain rfl : negative = false := kept.resolve_right nofun
      rfl
  | finite x =>
    have above : 0 < x := not_le.1 (of_decide_eq_false positive)
    cases old with
    | nan => rfl
    | infinite => exact kept.resolve_right nofun
    | finite y =>
      have least : 0 ≤ y := by
        rcases kept with above | zero
        · exact (not_le.1 (of_decide_eq_false above)).le
        · cases zero
          exact le_refl _
      exact decide_eq_false (by linarith)

/-- Adding finite amounts leaves them finite. -/
lemma isFinite_add {old : Js.Double} (finite : amount.isFinite = true) (kept : old.isFinite = true ∨ old = .finite 0) :
    (old.add amount).isFinite = true := by
  cases amount with
  | nan => cases finite
  | infinite => cases finite
  | finite x =>
    cases old with
    | finite => rfl
    | nan => exact kept.resolve_right nofun
    | infinite => exact kept.resolve_right nofun

/-- No amount of the book is `<= 0`. -/
lemma Engine.run_positive (updates : List Update) :
    AllAmounts (fun amount => amount.isNonpositive = false) (Engine.run updates).bids ∧
      AllAmounts (fun amount => amount.isNonpositive = false) (Engine.run updates).asks :=
  Engine.run_all (Q := fun _ => True) (fun _ _ _ _ positive => positive)
    (fun _ _ _ _ positive _ kept => isNonpositive_add positive kept) fun _ _ => trivial

/-- Updates with finite amounts make a book with finite amounts. -/
lemma Engine.run_isFinite {updates : List Update} (all : ∀ update ∈ updates, update.IsFinite) :
    (Engine.run updates).IsFinite := by
  refine Engine.run_all (Q := Update.IsFinite) (fun _ _ amount finite positive => ?_)
    (fun _ _ amount finite positive old kept => ?_) all
  · exact finite.resolve_right (ne_true_of_eq_false positive)
  · exact isFinite_add (finite.resolve_right (ne_true_of_eq_false positive)) kept

/-- The levels of a book in the order of `getDepth`. -/
def sortedLevels (le : OrderBookLevel → OrderBookLevel → Bool) (book : Dict ℚ Js.Double) : List OrderBookLevel :=
  (levels book).mergeSort le

variable {le : OrderBookLevel → OrderBookLevel → Bool}

/-- The levels are the entries of the book. -/
lemma mem_sortedLevels {level : OrderBookLevel} :
    level ∈ sortedLevels le book ↔ (level.price, level.amount) ∈ book.entries := by
  rw [sortedLevels, List.mem_mergeSort, levels, List.mem_map]
  constructor
  · rintro ⟨e, mem, rfl⟩
    exact mem
  · exact fun mem => ⟨_, mem, rfl⟩

/-- The levels are finite where the amounts of the book are. -/
lemma sortedLevels_finite_iff : (∀ level ∈ sortedLevels le book, level.amount.isFinite = true) ↔
    AllAmounts (fun amount => amount.isFinite = true) book := by
  constructor
  · exact fun all e mem => all ⟨e.1, e.2⟩ (mem_sortedLevels.2 mem)
  · exact fun all level mem => all _ (mem_sortedLevels.1 mem)

/-- Each price has one level. -/
lemma nodup_sortedLevels : ((sortedLevels le book).map fun level => level.price).Nodup := by
  refine ((List.mergeSort_perm (levels book) le).map _).nodup_iff.2 ?_
  rw [levels, List.map_map]
  exact book.nodup

/-- The recovery keeps the levels whose amounts are finite. -/
lemma applyLevels_json {kept : List OrderBookLevel}
    (positive : ∀ level ∈ kept, level.amount.isNonpositive = false) :
    applyLevels (kept.map OrderBookLevel.json) =
      ((kept.filter fun level => level.amount.isFinite).map fun level => (level.price, level.amount)).foldl
        (fun book e => book.set e.1 e.2) .empty := by
  rw [applyLevels, List.foldl_map, List.foldl_map, List.foldl_filter]
  refine List.foldl_ext _ _ _ fun book level mem => ?_
  obtain ⟨price, amount⟩ := level
  cases amount with
  | nan => rfl
  | infinite => rfl
  | finite x => exact if_pos (not_le.1 (of_decide_eq_false (positive _ mem)))

/-- Of the levels that are written as JSON the finite ones come back. -/
lemma levels_applyLevels (positive : AllAmounts (fun amount => amount.isNonpositive = false) book) :
    levels (applyLevels ((sortedLevels le book).map OrderBookLevel.json)) =
      (sortedLevels le book).filter fun level => level.amount.isFinite := by
  -- the prices are distinct, so each level of the document makes a new entry at the end
  have nodup : (((sortedLevels le book).filter fun level => level.amount.isFinite).map fun level =>
      level.price).Nodup := nodup_sortedLevels.sublist (List.filter_sublist.map _)
  rw [levels, applyLevels_json fun level mem => positive _ (mem_sortedLevels.1 mem), Dict.entries_foldl_set]
  · show (([] : List (ℚ × Js.Double)) ++ _).map _ = _
    rw [List.nil_append, List.map_map]
    exact List.map_id _
  · show ((([] : List (ℚ × Js.Double)) ++ _).map Prod.fst).Nodup
    rw [List.nil_append, List.map_map]
    exact nodup

/-- A recovered side is the finite part of the captured one. -/
lemma sortedLevels_applyLevels (trans : ∀ a b c, le a b = true → le b c = true → le a c = true)
    (total : ∀ a b, (le a b || le b a) = true)
    (positive : AllAmounts (fun amount => amount.isNonpositive = false) book) :
    sortedLevels le (applyLevels ((sortedLevels le book).map OrderBookLevel.json)) =
      (sortedLevels le book).filter fun level => level.amount.isFinite := by
  have sorted : (sortedLevels le book).Pairwise fun a b => le a b = true := List.pairwise_mergeSort trans total _
  rw [sortedLevels, levels_applyLevels positive]
  exact List.mergeSort_of_pairwise (sorted.filter _)

/-- A book comes back from its levels just where all its amounts are finite. -/
lemma sortedLevels_applyLevels_eq_iff (trans : ∀ a b c, le a b = true → le b c = true → le a c = true)
    (total : ∀ a b, (le a b || le b a) = true)
    (positive : AllAmounts (fun amount => amount.isNonpositive = false) book) :
    sortedLevels le (applyLevels ((sortedLevels le book).map OrderBookLevel.json)) = sortedLevels le book ↔
      AllAmounts (fun amount => amount.isFinite = true) book := by
  rw [sortedLevels_applyLevels trans total positive, List.filter_eq_self, sortedLevels_finite_iff]

/-- A number is not written `latest`. -/
lemma toString_ne_latest (n : ℕ) : toString n ≠ "latest" := by
  intro same
  have digits : ∀ c ∈ (toString n).toList, c.isDigit = true := by
    intro c mem
    rw [Nat.toString_eq_repr, Nat.toList_repr] at mem
    exact Nat.isDigit_of_mem_toDigits (by decide) (by decide) mem
  rw [same] at digits
  exact absurd (digits 'l' (by decide)) (by decide)

/-- A number is not written as nothing. -/
lemma toString_ne_empty (n : ℕ) : toString n ≠ "" := by
  intro same
  have digits : Nat.toDigits 10 n = [] := by
    rw [← Nat.toList_repr, ← Nat.toString_eq_repr, same]
    rfl
  exact Nat.toDigits_ne_nil digits

/-- The snapshot that has just been captured is the one that is recovered. -/
lemma recover_capture (keyPrefix : String) (fresh : Engine) (redis : Dict String RedisValue) (ledgerSeq : ℕ)
    (capturedAt : String) :
    recoverFromLatestSnapshot keyPrefix fresh (captureSnapshot keyPrefix engine redis ledgerSeq capturedAt) =
      ⟨applyLevels (engine.getDepth.bids.map OrderBookLevel.json),
        applyLevels (engine.getDepth.asks.map OrderBookLevel.json)⟩ := by
  have other : keyPrefix ++ ":" ++ toString ledgerSeq ≠ keyPrefix ++ ":latest" := by
    intro same
    have texts := congrArg String.toList same
    simp only [String.toList_append, List.append_assoc] at texts
    have rest : ":".toList ++ (toString ledgerSeq).toList = ":".toList ++ "latest".toList :=
      List.append_cancel_left texts
    exact toString_ne_latest ledgerSeq (String.toList_inj.1 (List.append_cancel_left rest))
  rw [recoverFromLatestSnapshot, captureSnapshot, Dict.get?_set, if_pos rfl]
  dsimp only
  rw [if_neg (toString_ne_empty ledgerSeq), Dict.get?_set, if_neg other, Dict.get?_set, if_pos rfl]
  rfl

/-- The order of the bids is transitive. -/
lemma descending_trans (a b c : OrderBookLevel) (first : decide (b.price ≤ a.price) = true)
    (second : decide (c.price ≤ b.price) = true) : decide (c.price ≤ a.price) = true :=
  decide_eq_true ((of_decide_eq_true second).trans (of_decide_eq_true first))

/-- The order of the asks is transitive. -/
lemma ascending_trans (a b c : OrderBookLevel) (first : decide (a.price ≤ b.price) = true)
    (second : decide (b.price ≤ c.price) = true) : decide (a.price ≤ c.price) = true :=
  decide_eq_true ((of_decide_eq_true first).trans (of_decide_eq_true second))

/-- The order of the asks compares any two of them. -/
lemma ascending_total (a b : OrderBookLevel) : (decide (a.price ≤ b.price) || decide (b.price ≤ a.price)) = true := by
  rw [Bool.or_eq_true, decide_eq_true_iff, decide_eq_true_iff]
  exact le_total _ _

/-- A book that some updates made is recovered on a fresh engine exactly when its amounts are finite. It is if the
amounts of the updates are, since sums are exact here; a sum of doubles may be infinite. -/
theorem recovered_iff_isFinite (keyPrefix : String) (updates : List Update) (redis : Dict String RedisValue)
    (ledgerSeq : ℕ) (capturedAt : String) :
    ((recoverFromLatestSnapshot keyPrefix .empty
        (captureSnapshot keyPrefix (.run updates) redis ledgerSeq capturedAt)).getDepth =
      (Engine.run updates).getDepth ↔ (Engine.run updates).IsFinite) ∧
    ((∀ update ∈ updates, update.IsFinite) → (Engine.run updates).IsFinite) := by
  refine ⟨?_, Engine.run_isFinite⟩
  obtain ⟨bids, asks⟩ := Engine.run_positive updates
  rw [recover_capture, Engine.getDepth, Depth.mk.injEq]
  exact and_congr
    (sortedLevels_applyLevels_eq_iff descending_trans (fun a b => ascending_total b a) bids)
    (sortedLevels_applyLevels_eq_iff ascending_trans ascending_total asks)

/-- A level whose amount is `NaN` is lost. -/
theorem unrecovered :
    (recoverFromLatestSnapshot "book" .empty
        (captureSnapshot "book" (.run [.setLevel .bid (.finite 1) .nan]) .empty 1 "now")).getDepth ≠
      (Engine.run [.setLevel .bid (.finite 1) .nan]).getDepth := by
  decide +kernel

end StellarFlow.OrderBook
