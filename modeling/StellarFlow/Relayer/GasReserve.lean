import Mathlib.Algebra.Order.Floor.Semiring
import Mathlib.Data.Rat.Floor
import StellarFlow.Lib.Rank

/-!
# The gas reserve of the relayers

Model of `reservedWalletCount` and `partitionWallets` in `src/services/relayerGasReserveAllocator.ts`, with a rational
ratio: the wallets of the lowest ids are kept back for emergencies.

The two pools always share out the wallets. The reserve grows with the fleet, but a wallet that joins with an id below
those of the reserve takes the place of a reserved one. `partition_stable_iff`: the reserved wallets stay reserved
exactly when no more such wallets join than places are added.
-/

namespace StellarFlow.Relayer
open Rank

structure RelayerGasWallet where
  id : ℤ
  publicKey : String
  deriving DecidableEq

/-- A `reserveRatio` that the constructor of the allocator accepts. -/
structure ReserveRatio where
  value : ℚ
  pos : 0 < value
  lt_one : value < 1

/-- Number of wallets to hold back for a fleet of `total` wallets. -/
def reservedWalletCount (total : ℕ) (ratio : ReserveRatio) : ℕ :=
  if total < 2 then 0 else min ⌈total * ratio.value⌉₊ (total - 1)

/-- The result of `partitionWallets`. -/
structure Pools where
  emergency : List RelayerGasWallet
  standard : List RelayerGasWallet

/-- `[...wallets].sort((a, b) => a.id - b.id)`. -/
def ordered (wallets : List RelayerGasWallet) : List RelayerGasWallet := wallets.mergeSort fun a b => a.id ≤ b.id

def partitionWallets (wallets : List RelayerGasWallet) (ratio : ReserveRatio) : Pools where
  emergency := (ordered wallets).take (reservedWalletCount (ordered wallets).length ratio)
  standard := (ordered wallets).drop (reservedWalletCount (ordered wallets).length ratio)

/-- The pools share out the wallets, and one is left for standard operations. -/
structure Pools.Partition (pools : Pools) (wallets : List RelayerGasWallet) : Prop where
  disjoint : pools.emergency.Disjoint pools.standard
  once : (pools.emergency ++ pools.standard).Perm wallets
  standard : wallets ≠ [] → pools.standard ≠ []

/-- The wallets that join with a lower id than the last reserved one are at most the places that are added. -/
def LeavesReserve (wallets more : List RelayerGasWallet) (ratio : ReserveRatio) : Prop :=
  ∀ w ∈ wallets, rank RelayerGasWallet.id wallets w + 1 = reservedWalletCount wallets.length ratio →
    reservedWalletCount wallets.length ratio + joined RelayerGasWallet.id wallets more w ≤
      reservedWalletCount more.length ratio

variable {wallets more : List RelayerGasWallet} {ratio : ReserveRatio} {total : ℕ}

/-- Not all wallets are held back. -/
lemma reservedWalletCount_lt (pos : 0 < total) : reservedWalletCount total ratio < total := by
  rw [reservedWalletCount]
  split
  case isTrue => exact pos
  case isFalse => exact lt_of_le_of_lt (min_le_right _ _) (Nat.sub_lt pos Nat.one_pos)

/-- The reserve does not shrink when the fleet grows. -/
lemma reservedWalletCount_mono {total' : ℕ} (le : total ≤ total') :
    reservedWalletCount total ratio ≤ reservedWalletCount total' ratio := by
  rw [reservedWalletCount, reservedWalletCount]
  split
  case isTrue => exact Nat.zero_le _
  case isFalse two =>
    rw [if_neg fun small => two (le.trans_lt small)]
    refine min_le_min (Nat.ceil_mono ?_) (Nat.sub_le_sub_right le 1)
    exact mul_le_mul_of_nonneg_right (by exact_mod_cast le) ratio.pos.le

/-- Ordering keeps the wallets. -/
lemma ordered_perm (wallets : List RelayerGasWallet) : (ordered wallets).Perm wallets := List.mergeSort_perm wallets _

/-- The ids ascend after the sorting. -/
lemma ordered_ascends (distinct : (wallets.map RelayerGasWallet.id).Nodup) :
    (ordered wallets).Pairwise fun a b => a.id < b.id := by
  have sorted : (ordered wallets).Pairwise fun a b => decide (a.id ≤ b.id) = true := by
    refine List.pairwise_mergeSort (fun a b c le le' => ?_) (fun a b => ?_) wallets
    · exact decide_eq_true ((of_decide_eq_true le).trans (of_decide_eq_true le'))
    · rw [Bool.or_eq_true, decide_eq_true_iff, decide_eq_true_iff]
      exact le_total _ _
  have differ : (ordered wallets).Pairwise fun a b => a.id ≠ b.id :=
    List.pairwise_map.1 (((ordered_perm wallets).map RelayerGasWallet.id).nodup_iff.2 distinct)
  exact (sorted.and differ).imp fun both => lt_of_le_of_ne (of_decide_eq_true both.1) both.2

/-- Ordering keeps the number of the wallets. -/
lemma length_ordered (wallets : List RelayerGasWallet) : (ordered wallets).length = wallets.length :=
  (ordered_perm wallets).length_eq

/-- A wallet is reserved by its rank. -/
lemma mem_emergency_iff (distinct : (wallets.map RelayerGasWallet.id).Nodup) {w : RelayerGasWallet} :
    w ∈ (partitionWallets wallets ratio).emergency ↔
      w ∈ wallets ∧ rank RelayerGasWallet.id wallets w < reservedWalletCount wallets.length ratio := by
  rw [partitionWallets, mem_take_iff (ordered_ascends distinct), length_ordered, rank_perm (ordered_perm wallets),
    (ordered_perm wallets).mem_iff]

/-- Both parts together are the wallets, each in one of them. -/
lemma partitionWallets_partition (distinct : (wallets.map RelayerGasWallet.id).Nodup) :
    (partitionWallets wallets ratio).Partition wallets := by
  have ascends := ordered_ascends distinct
  refine ⟨?_, ?_, fun some none => ?_⟩
  · exact List.disjoint_take_drop (nodup_of_ascending ascends) le_rfl
  · rw [partitionWallets, List.take_append_drop]
    exact ordered_perm wallets
  · rw [partitionWallets, List.drop_eq_nil_iff, length_ordered] at none
    exact absurd (reservedWalletCount_lt (List.length_pos_of_ne_nil some)) (not_lt.2 none)

/-- Reserved wallets stay reserved exactly when the last one does. -/
lemma stable_iff (distinct : (wallets.map RelayerGasWallet.id).Nodup) (distinct' : (more.map RelayerGasWallet.id).Nodup)
    (subset : wallets ⊆ more) :
    (∀ w ∈ (partitionWallets wallets ratio).emergency, w ∈ (partitionWallets more ratio).emergency) ↔
      LeavesReserve wallets more ratio := by
  have grown (w : RelayerGasWallet) : rank RelayerGasWallet.id more w =
      rank RelayerGasWallet.id wallets w + joined RelayerGasWallet.id wallets more w :=
    rank_eq_add_joined (List.Nodup.of_map _ distinct) (List.Nodup.of_map _ distinct') subset w
  simp only [mem_emergency_iff distinct, mem_emergency_iff distinct', LeavesReserve]
  constructor
  · intro stable w mem last
    have low := (stable w ⟨mem, by omega⟩).2
    rw [grown] at low
    omega
  · rintro leaves w ⟨mem, low⟩
    refine ⟨subset mem, ?_⟩
    have below : reservedWalletCount wallets.length ratio - 1 < (ordered wallets).length := by
      rw [length_ordered]
      exact (Nat.sub_le _ 1).trans_lt (reservedWalletCount_lt (List.length_pos_of_mem mem))
    obtain ⟨last, mem', rank_last⟩ := exists_rank (ordered_ascends distinct) below
    rw [(ordered_perm wallets).mem_iff] at mem'
    rw [rank_perm (ordered_perm wallets)] at rank_last
    have added := leaves last mem' (by omega)
    -- the wallet is not behind the last reserved one
    have le : w.id ≤ last.id := by
      by_contra behind
      have more := rank_lt_rank mem' (not_le.1 behind)
      omega
    have rank_le : rank RelayerGasWallet.id more w ≤ rank RelayerGasWallet.id more last := rank_mono le
    rw [grown last] at rank_le
    omega

/-- Wallets of higher ids take no place of the reserve. -/
lemma leavesReserve_of_younger (distinct : wallets.Nodup) (subset : wallets ⊆ more)
    (younger : ∀ w ∈ wallets, ∀ u ∈ more, u ∉ wallets → w.id ≤ u.id) : LeavesReserve wallets more ratio := by
  intro w mem _
  have none : joined RelayerGasWallet.id wallets more w = 0 := by
    refine List.countP_eq_zero.2 fun u joins less => ?_
    obtain ⟨mem', new⟩ := List.mem_filter.1 joins
    exact not_lt.2 (younger w mem u mem' (of_decide_eq_true new)) (of_decide_eq_true less)
  rw [none]
  exact reservedWalletCount_mono (List.subperm_of_subset distinct subset).length_le

/-- The pools share out the wallets, and the reserved ones are still reserved in a greater fleet, exactly when no more
wallets of lower ids join than places are added to the reserve. -/
theorem partition_stable_iff (distinct : (wallets.map RelayerGasWallet.id).Nodup)
    (distinct' : (more.map RelayerGasWallet.id).Nodup) (subset : wallets ⊆ more) :
    ((partitionWallets wallets ratio).Partition wallets ∧
      ∀ w ∈ (partitionWallets wallets ratio).emergency, w ∈ (partitionWallets more ratio).emergency) ↔
      LeavesReserve wallets more ratio := by
  rw [stable_iff distinct distinct' subset]
  exact and_iff_right (partitionWallets_partition distinct)

/-- A fifth. -/
def sampleRatio : ReserveRatio := ⟨1 / 5, by norm_num, by norm_num⟩

/-- A third wallet joins behind two others. -/
theorem partition_stable_sample :
    (partitionWallets [⟨1, "A"⟩, ⟨2, "B"⟩] sampleRatio).Partition [⟨1, "A"⟩, ⟨2, "B"⟩] ∧
    ∀ w ∈ (partitionWallets [⟨1, "A"⟩, ⟨2, "B"⟩] sampleRatio).emergency,
      w ∈ (partitionWallets [⟨1, "A"⟩, ⟨2, "B"⟩, ⟨3, "C"⟩] sampleRatio).emergency :=
  (partition_stable_iff (by decide) (by decide) (by decide)).2
    (leavesReserve_of_younger (by decide) (by decide) (by decide))

/-- Wallet 2 is reserved, and no longer when wallet 1 joins. -/
theorem reserved_wallet_moves :
    ⟨2, "B"⟩ ∈ (partitionWallets [⟨2, "B"⟩, ⟨3, "C"⟩] sampleRatio).emergency ∧
    ⟨2, "B"⟩ ∉ (partitionWallets [⟨1, "A"⟩, ⟨2, "B"⟩, ⟨3, "C"⟩] sampleRatio).emergency := by
  have two : reservedWalletCount 2 sampleRatio = 1 := by
    have ceil : ⌈((2 : ℕ) : ℚ) * (1 / 5)⌉₊ = 1 := (Nat.ceil_eq_iff (by decide)).2 (by norm_num)
    rw [reservedWalletCount, sampleRatio, ceil]
    rfl
  have three : reservedWalletCount 3 sampleRatio = 1 := by
    have ceil : ⌈((3 : ℕ) : ℚ) * (1 / 5)⌉₊ = 1 := (Nat.ceil_eq_iff (by decide)).2 (by norm_num)
    rw [reservedWalletCount, sampleRatio, ceil]
    rfl
  rw [mem_emergency_iff (by decide), mem_emergency_iff (by decide)]
  simp only [List.length_cons, List.length_nil, Nat.zero_add, Nat.reduceAdd]
  rw [two, three]
  decide

end StellarFlow.Relayer
