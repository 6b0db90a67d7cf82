import Mathlib.Algebra.Order.Ring.Rat
import StellarFlow.Lib.Crossing

/-!
# Batch auction

Model of `simulate_batch_auction` in `src/matching/simulator.rs`, with exact numbers. The time it takes is left out, and
so are the number and the side of an order, which it does not read.
-/

namespace StellarFlow.Matching

structure Order where
  price : ℚ
  volume : ℚ

structure BatchResult where
  clearingPrice : ℚ
  executedVolume : ℚ

/-- `Vec::dedup`: of neighbours that are equal one stays. -/
def dedup : List ℚ → List ℚ
  | [] => []
  | a :: rest => if rest.head? = some a then dedup rest else a :: dedup rest

/-- `simulate_batch_auction`. -/
def simulateBatchAuction (bids asks : List Order) : BatchResult :=
  let bids := bids.mergeSort fun a b => b.price ≤ a.price
  let asks := asks.mergeSort fun a b => a.price ≤ b.price
  let candidatePrices := dedup (bids.map Order.price ++ asks.map Order.price)
  let best := candidatePrices.foldl
    (fun best price =>
      let bidVolume := ((bids.filter fun b => price ≤ b.price).map Order.volume).sum
      let askVolume := ((asks.filter fun a => a.price ≤ price).map Order.volume).sum
      let matchedVolume := min bidVolume askVolume
      if best.2 < matchedVolume then (price, matchedVolume) else best) ((0, 0) : ℚ × ℚ)
  ⟨best.1, best.2⟩

/-- The volume of the bids at a price or above. -/
def bidVolume (bids : List Order) (price : ℚ) : ℚ := Crossing.demand Order.price Order.volume bids price

/-- The volume of the asks at a price or below. -/
def askVolume (asks : List Order) (price : ℚ) : ℚ := Crossing.supply Order.price Order.volume asks price

/-- Each price stays. -/
lemma mem_dedup {x : ℚ} {prices : List ℚ} : x ∈ dedup prices ↔ x ∈ prices := by
  induction prices with
  | nil => exact Iff.rfl
  | cons a rest ih =>
    rw [dedup]
    split
    case isTrue equal =>
      rw [ih, List.mem_cons, iff_or_self]
      rintro rfl
      exact List.mem_of_head? equal
    case isFalse => rw [List.mem_cons, List.mem_cons, ih]

/-- The volumes do not depend on the order of the lists. -/
lemma bidVolume_mergeSort (bids : List Order) (le : Order → Order → Bool) (price : ℚ) :
    bidVolume (bids.mergeSort le) price = bidVolume bids price :=
  (((List.mergeSort_perm bids le).filter _).map Order.volume).sum_eq

/-- Sorting changes no volume. -/
lemma askVolume_mergeSort (asks : List Order) (le : Order → Order → Bool) (price : ℚ) :
    askVolume (asks.mergeSort le) price = askVolume asks price :=
  (((List.mergeSort_perm asks le).filter _).map Order.volume).sum_eq

/-- The prices that are tried. -/
def candidatePrices (bids asks : List Order) : List ℚ :=
  dedup ((bids.mergeSort fun a b => b.price ≤ a.price).map Order.price ++
    (asks.mergeSort fun a b => a.price ≤ b.price).map Order.price)

/-- The limits of all asks are among them. -/
lemma mem_candidatePrices {bids asks : List Order} {ask : Order} (mem : ask ∈ asks) :
    ask.price ∈ candidatePrices bids asks := by
  rw [candidatePrices, mem_dedup, List.mem_append]
  exact .inr (List.mem_map_of_mem (List.mem_mergeSort.mpr mem))

/-- The auction is a search for the greatest volume. -/
lemma simulateBatchAuction_eq (bids asks : List Order) :
    ((simulateBatchAuction bids asks).clearingPrice, (simulateBatchAuction bids asks).executedVolume) =
      Crossing.search (Crossing.matched Order.price Order.volume bids asks) (0, 0) (candidatePrices bids asks) := by
  have volumes : Crossing.matched Order.price Order.volume bids asks = fun price =>
      min (bidVolume (bids.mergeSort fun a b => b.price ≤ a.price) price)
        (askVolume (asks.mergeSort fun a b => a.price ≤ b.price) price) := by
    funext price
    rw [bidVolume_mergeSort, askVolume_mergeSort]
    rfl
  rw [volumes]
  rfl

/-- The executed volume is the greatest over all prices, candidates or not, and is traded at the clearing price. -/
theorem executedVolume_isGreatest (bids asks : List Order) (nonneg : ∀ o ∈ bids ++ asks, 0 ≤ o.volume) :
    IsGreatest (Set.range fun price => min (bidVolume bids price) (askVolume asks price))
        (simulateBatchAuction bids asks).executedVolume ∧
      (0 < (simulateBatchAuction bids asks).executedVolume →
        min (bidVolume bids (simulateBatchAuction bids asks).clearingPrice)
            (askVolume asks (simulateBatchAuction bids asks).clearingPrice) =
          (simulateBatchAuction bids asks).executedVolume) := by
  have limits : ∀ ask ∈ asks, ask.price ∈ candidatePrices bids asks := fun ask mem => mem_candidatePrices mem
  obtain ⟨greatest, attained⟩ := Crossing.isGreatest_search nonneg limits
  rw [← simulateBatchAuction_eq] at greatest attained
  exact ⟨greatest, fun _ => attained⟩

/-- Two bids and two asks, of which the lower trades. -/
def sampleBids : List Order := [⟨102, 5⟩, ⟨100, 10⟩]

def sampleAsks : List Order := [⟨99, 7⟩, ⟨101, 10⟩]

/-- Seven units trade, and no price trades more. -/
theorem executedVolume_isGreatest_sample :
    (simulateBatchAuction sampleBids sampleAsks).executedVolume = 7 ∧
      IsGreatest (Set.range fun price => min (bidVolume sampleBids price) (askVolume sampleAsks price)) 7 := by
  have bids : sampleBids.mergeSort (fun a b => b.price ≤ a.price) = sampleBids :=
    List.mergeSort_of_pairwise (by decide +kernel)
  have asks : sampleAsks.mergeSort (fun a b => a.price ≤ b.price) = sampleAsks :=
    List.mergeSort_of_pairwise (by decide +kernel)
  have executed : (simulateBatchAuction sampleBids sampleAsks).executedVolume = 7 := by
    rw [simulateBatchAuction, bids, asks]
    decide +kernel
  have greatest := (executedVolume_isGreatest sampleBids sampleAsks (by decide +kernel)).1
  rw [executed] at greatest
  exact ⟨executed, greatest⟩

end StellarFlow.Matching
