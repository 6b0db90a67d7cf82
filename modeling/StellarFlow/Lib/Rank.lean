import Mathlib.Data.List.Nodup
import Mathlib.Order.Lattice

/-!
# Ranks in a list

The rank of an element is the number of elements with a smaller key, whatever their order. Where the keys ascend the
first `k` elements are those of a rank below `k`, so a choice of the first `k` after sorting is one by rank, and ranks
say what becomes of it when elements join.
-/

namespace Rank
variable {α β : Type} [LinearOrder β] {key : α → β} {xs ys : List α} {x y : α} {k : ℕ}

/-- The number of elements with a smaller key. -/
def rank (key : α → β) (xs : List α) (x : α) : ℕ := xs.countP fun y => key y < key x

/-- The rank does not depend on the order. -/
lemma rank_perm (perm : xs.Perm ys) (x : α) : rank key xs x = rank key ys x := perm.countP_eq _

/-- A greater key has no lower rank. -/
lemma rank_mono (le : key x ≤ key y) : rank key xs x ≤ rank key xs y := by
  refine List.countP_mono_left fun z _ less => ?_
  exact decide_eq_true ((of_decide_eq_true less).trans_le le)

/-- An element counts for those with a greater key. -/
lemma rank_lt_rank (mem : x ∈ xs) (lt : key x < key y) : rank key xs x < rank key xs y := by
  obtain ⟨pre, post, rfl⟩ := List.append_of_mem mem
  rw [rank, rank, List.countP_append, List.countP_append, List.countP_cons_of_neg (by simp),
    List.countP_cons_of_pos (by simpa using lt)]
  have before : rank key pre x ≤ rank key pre y := rank_mono lt.le
  have behind : rank key post x ≤ rank key post y := rank_mono lt.le
  rw [rank, rank] at before behind
  omega

/-- Where the keys ascend, the rank is the position. -/
lemma rank_of_ascending {pre post : List α} (ascends : (pre ++ x :: post).Pairwise fun a b => key a < key b) :
    rank key (pre ++ x :: post) x = pre.length := by
  obtain ⟨-, tail, cross⟩ := List.pairwise_append.1 ascends
  have before : pre.countP (fun y => key y < key x) = pre.length :=
    List.countP_eq_length.2 fun a mem => decide_eq_true (cross a mem x (List.mem_cons_self ..))
  have behind : (x :: post).countP (fun y => key y < key x) = 0 := by
    refine List.countP_eq_zero.2 fun a mem less => ?_
    rcases List.mem_cons.1 mem with rfl | later
    · exact lt_irrefl _ (of_decide_eq_true less)
    · exact lt_asymm (of_decide_eq_true less) ((List.pairwise_cons.1 tail).1 a later)
  rw [rank, List.countP_append, before, behind, Nat.add_zero]

/-- What ascends does not repeat. -/
lemma nodup_of_ascending (ascends : xs.Pairwise fun a b => key a < key b) : xs.Nodup := by
  refine List.Pairwise.imp (fun lt => ?_) ascends
  rintro rfl
  exact lt_irrefl _ lt

/-- Where the keys ascend, the first elements are those of a low rank. -/
theorem mem_take_iff (ascends : xs.Pairwise fun a b => key a < key b) :
    x ∈ xs.take k ↔ x ∈ xs ∧ rank key xs x < k := by
  constructor
  · intro taken
    have mem := List.mem_of_mem_take taken
    obtain ⟨pre, post, rfl⟩ := List.append_of_mem mem
    refine ⟨mem, ?_⟩
    rw [rank_of_ascending ascends]
    by_contra late
    -- the element would be among the first ones and behind them
    rw [List.take_append_of_le_length (Nat.not_lt.1 late)] at taken
    exact List.disjoint_of_nodup_append (nodup_of_ascending ascends) (List.mem_of_mem_take taken)
      (List.mem_cons_self ..)
  · rintro ⟨mem, low⟩
    obtain ⟨pre, post, rfl⟩ := List.append_of_mem mem
    rw [rank_of_ascending ascends] at low
    rw [List.take_append, List.take_of_length_le (Nat.le_of_lt low)]
    refine List.mem_append_right _ ?_
    obtain ⟨n, more⟩ := Nat.exists_eq_succ_of_ne_zero (Nat.sub_ne_zero_of_lt low)
    rw [more]
    exact List.mem_cons_self ..

/-- Every rank below the length is taken. -/
lemma exists_rank (ascends : xs.Pairwise fun a b => key a < key b) (lt : k < xs.length) :
    ∃ x ∈ xs, rank key xs x = k := by
  refine ⟨xs[k], List.getElem_mem lt, ?_⟩
  have split : xs.take k ++ xs[k] :: xs.drop (k + 1) = xs := by
    rw [List.getElem_cons_drop, List.take_append_drop]
  have at_k := rank_of_ascending (split.symm ▸ ascends)
  rw [split, List.length_take, Nat.min_eq_left (Nat.le_of_lt lt)] at at_k
  exact at_k

section Join
variable [DecidableEq α]

/-- The elements of `ys` that are not in `xs`, with a smaller key. -/
def joined (key : α → β) (xs ys : List α) (x : α) : ℕ := rank key (ys.filter fun y => y ∉ xs) x

/-- The rank grows by the elements with a smaller key that join. -/
lemma rank_eq_add_joined (nodup : xs.Nodup) (nodup' : ys.Nodup) (subset : xs ⊆ ys) (x : α) :
    rank key ys x = rank key xs x + joined key xs ys x := by
  have old : (ys.filter fun y => y ∈ xs).Perm xs := by
    refine (List.perm_ext_iff_of_nodup (nodup'.filter _) nodup).2 fun y => ?_
    rw [List.mem_filter, decide_eq_true_iff]
    exact ⟨And.right, fun mem => ⟨subset mem, mem⟩⟩
  rw [← rank_perm old, joined, rank, List.countP_eq_countP_filter_add ys _ fun y => y ∈ xs]
  simp only [rank, decide_not]

end Join

end Rank
