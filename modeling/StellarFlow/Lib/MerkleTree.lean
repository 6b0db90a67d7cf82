import Mathlib.Data.Nat.Bitwise
import Mathlib.Tactic.Ring

/-!
# Incremental Merkle trees

Complete binary trees over an arbitrary node type `α` with an arbitrary combining function
`h : α → α → α`, addressed by level and index, and the frontier algorithm that maintains such a tree
under appends. A frontier is a function from levels to nodes; `Frontier leaf n f` says that for each
set bit `l` of the leaf count `n` the cell `f l` holds the completed left subtree of level `l`.

`climb` is the node the append reaches at each level and `advance` the frontier it leaves. The two
headline facts are `climb_eq` (the climbed node is the tree's own node on the path of the new leaf)
and `Frontier.advance` (the invariant moves from `n` to `n + 1`). `ascend_eq` is the dual: folding the
siblings of a leaf upwards gives the root. `levelStep` is the loop body that climbs and advances in
place, and `extend_hom` transports appends along a homomorphism of combining functions.
-/

namespace MerkleTree
variable {α β : Type*} (h : α → α → α) (z : α)

/-- Root of the subtree of a given level all of whose leaves are `z`. -/
def emptyRoot : ℕ → α
  | 0 => z
  | l + 1 => h (emptyRoot l) (emptyRoot l)

/-- The node at a level and index of the complete tree over `leaf`. -/
def node (leaf : ℕ → α) : ℕ → ℕ → α
  | 0, i => leaf i
  | l + 1, i => h (node leaf l (2 * i)) (node leaf l (2 * i + 1))

/-- The leaves below `n`, padded with `z`. -/
def cut (n : ℕ) (leaf : ℕ → α) (i : ℕ) : α :=
  if i < n then leaf i else z

/-- The node reached at a level when `x` is appended at index `n` over the frontier `f`. -/
def climb (n : ℕ) (f : ℕ → α) (x : α) : ℕ → α
  | 0 => x
  | l + 1 => if n.testBit l then h (f l) (climb n f x l) else h (climb n f x l) (emptyRoot h z l)

/-- The frontier left by appending `x` at index `n`: the cells of the clear bits are overwritten. -/
def advance (n : ℕ) (f : ℕ → α) (x : α) (l : ℕ) : α :=
  if n.testBit l then f l else climb h z n f x l

/-- One level of an append loop, on the climbed node and the frontier. -/
def levelStep (n : ℕ) (acc : α × (ℕ → α)) (l : ℕ) : α × (ℕ → α) :=
  if n.testBit l then (h (acc.2 l) acc.1, acc.2)
  else (h acc.1 (emptyRoot h z l), Function.update acc.2 l acc.1)

/-- The append loop over the levels below `l` climbs to `l` and advances the cells below it. -/
lemma foldl_levelStep (n : ℕ) (f : ℕ → α) (x : α) (l : ℕ) :
    (List.range l).foldl (levelStep h z n) (x, f) =
      (climb h z n f x l, fun k => if k < l then advance h z n f x k else f k) := by
  induction l with
  | zero => simp [climb]
  | succ l ih =>
    rw [List.range_succ, List.foldl_append, ih]
    cases bit : n.testBit l with
    | true =>
      simp only [List.foldl_cons, List.foldl_nil, levelStep, climb, bit, if_true, lt_irrefl, if_false]
      congr 1
      funext k
      by_cases eq : k = l
      · subst eq
        simp [advance, bit]
      · simp only [show k < l + 1 ↔ k < l from by omega]
    | false =>
      simp only [List.foldl_cons, List.foldl_nil, levelStep, climb, bit, Bool.false_eq_true, if_false]
      congr 1
      funext k
      by_cases eq : k = l
      · subst eq
        simp [advance, bit]
      · simp only [Function.update_of_ne eq, show k < l + 1 ↔ k < l from by omega]

/-- The frontier cells of the set bits of `n` hold completed left subtrees. -/
def Frontier (leaf : ℕ → α) (n : ℕ) (f : ℕ → α) : Prop :=
  ∀ l, n.testBit l = true → f l = node h leaf l (n / 2 ^ l - 1)

/-- A node only depends on the leaves below it. -/
lemma node_congr {leaf leaf' : ℕ → α} {l i : ℕ}
    (agree : ∀ j, i * 2 ^ l ≤ j → j < (i + 1) * 2 ^ l → leaf j = leaf' j) :
    node h leaf l i = node h leaf' l i := by
  induction l generalizing i with
  | zero => exact agree i (by simp) (by simp)
  | succ l ih =>
    have left : node h leaf l (2 * i) = node h leaf' l (2 * i) := by
      apply ih
      intro j lo hi
      apply agree j
      · calc i * 2 ^ (l + 1) = 2 * i * 2 ^ l := by ring
          _ ≤ j := lo
      · calc j < (2 * i + 1) * 2 ^ l := hi
          _ ≤ (2 * i + 2) * 2 ^ l := Nat.mul_le_mul_right _ (by omega)
          _ = (i + 1) * 2 ^ (l + 1) := by ring
    have right : node h leaf l (2 * i + 1) = node h leaf' l (2 * i + 1) := by
      apply ih
      intro j lo hi
      apply agree j
      · calc i * 2 ^ (l + 1) = 2 * i * 2 ^ l := by ring
          _ ≤ (2 * i + 1) * 2 ^ l := Nat.mul_le_mul_right _ (by omega)
          _ ≤ j := lo
      · calc j < (2 * i + 1 + 1) * 2 ^ l := hi
          _ = (i + 1) * 2 ^ (l + 1) := by ring
    simp only [node, left, right]

/-- A subtree over padding alone is an empty root. -/
lemma node_cut_empty {leaf : ℕ → α} {n l i : ℕ} (past : n ≤ i * 2 ^ l) :
    node h (cut z n leaf) l i = emptyRoot h z l := by
  induction l generalizing i with
  | zero =>
    have : ¬ i < n := by simpa using past
    simp [node, emptyRoot, cut, this]
  | succ l ih =>
    have left : n ≤ 2 * i * 2 ^ l := by
      calc n ≤ i * 2 ^ (l + 1) := past
        _ = 2 * i * 2 ^ l := by ring
    have right : n ≤ (2 * i + 1) * 2 ^ l := left.trans (Nat.mul_le_mul_right _ (by omega))
    simp only [node, emptyRoot, ih left, ih right]

/-- Cutting at `n` does not change a subtree that ends at or before `n`. -/
lemma node_cut_full {leaf : ℕ → α} {n l i : ℕ} (within : (i + 1) * 2 ^ l ≤ n) :
    node h (cut z n leaf) l i = node h leaf l i := by
  apply node_congr
  intro j _ hi
  simp [cut, hi.trans_le within]

/-- A level up the index is halved. -/
lemma div_pow_succ (n l : ℕ) : n / 2 ^ (l + 1) = n / 2 ^ l / 2 := by
  rw [pow_succ, Nat.div_div_eq_div_mul]

/-- Where its bit is set, the index of a level is odd. -/
lemma div_pow_of_bit {n l : ℕ} (bit : n.testBit l = true) :
    n / 2 ^ l = 2 * (n / 2 ^ (l + 1)) + 1 := by
  rw [Nat.testBit_eq_decide_div_mod_eq, decide_eq_true_eq] at bit
  rw [div_pow_succ]
  omega

/-- Where its bit is not set, the index of a level is even. -/
lemma div_pow_of_not_bit {n l : ℕ} (bit : n.testBit l = false) :
    n / 2 ^ l = 2 * (n / 2 ^ (l + 1)) := by
  rw [Nat.testBit_eq_decide_div_mod_eq, decide_eq_false_iff_not] at bit
  rw [div_pow_succ]
  omega

/-- The subtree left of a path node ends at or before the path's leaf. -/
lemma left_sibling_le {n l : ℕ} (bit : n.testBit l = true) :
    (n / 2 ^ l - 1 + 1) * 2 ^ l ≤ n := by
  have odd := div_pow_of_bit bit
  rw [Nat.sub_add_cancel (by omega)]
  exact Nat.div_mul_le_self n (2 ^ l)

/-- The appended path consists of the nodes of the tree cut after the new leaf. -/
lemma climb_eq {leaf : ℕ → α} {n : ℕ} {f : ℕ → α} (inv : Frontier h leaf n f) (l : ℕ) :
    climb h z n f (leaf n) l = node h (cut z (n + 1) leaf) l (n / 2 ^ l) := by
  induction l with
  | zero => simp [climb, node, cut]
  | succ l ih =>
    cases bit : n.testBit l with
    | true =>
      -- the left sibling is complete, so it is the frontier cell
      have odd := div_pow_of_bit bit
      have sibling : f l = node h (cut z (n + 1) leaf) l (2 * (n / 2 ^ (l + 1))) := by
        rw [inv l bit, node_cut_full h z]
        · congr 1; omega
        · have := left_sibling_le bit
          rw [show 2 * (n / 2 ^ (l + 1)) + 1 = n / 2 ^ l - 1 + 1 from by omega]
          omega
      simp only [climb, bit, if_true, node, ih, sibling]
      rw [odd]
    | false =>
      -- everything right of the new leaf is padding
      have even := div_pow_of_not_bit bit
      have padding : node h (cut z (n + 1) leaf) l (2 * (n / 2 ^ (l + 1)) + 1) =
          emptyRoot h z l := by
        apply node_cut_empty
        rw [← even]
        exact Nat.lt_mul_of_div_lt (Nat.lt_succ_self _) (Nat.two_pow_pos l)
      simp only [climb, bit, node, ih, padding, Bool.false_eq_true, if_false]
      rw [even]

/-- Appending moves the frontier invariant to the next leaf count. -/
lemma Frontier.advance {leaf : ℕ → α} {n : ℕ} {f : ℕ → α} (inv : Frontier h leaf n f) :
    Frontier h leaf (n + 1) (advance h z n f (leaf n)) := by
  intro l bit
  have parity : (n + 1) / 2 ^ l % 2 = 1 := by
    simpa [Nat.testBit_eq_decide_div_mod_eq] using bit
  have step := @Nat.succ_div n (2 ^ l)
  by_cases carry : 2 ^ l ∣ n + 1
  · -- the carry arrives at level `l`: the cell just written has become complete
    rw [if_pos carry] at step
    have clear : n.testBit l = false := by
      rw [Nat.testBit_eq_decide_div_mod_eq, decide_eq_false_iff_not]
      omega
    have full : (n / 2 ^ l + 1) * 2 ^ l ≤ n + 1 := by
      rw [← step]
      exact Nat.div_mul_le_self _ _
    simp only [MerkleTree.advance, clear, Bool.false_eq_true, if_false]
    rw [climb_eq h z inv, node_cut_full h z full, step, Nat.add_sub_cancel]
  · -- no carry reaches level `l`: the bit was set before and the cell is not written
    have step : (n + 1) / 2 ^ l = n / 2 ^ l := by rw [step, if_neg carry, Nat.add_zero]
    have set : n.testBit l = true := by
      rw [Nat.testBit_eq_decide_div_mod_eq, decide_eq_true_eq]
      omega
    simp only [MerkleTree.advance, set, if_true]
    rw [inv l set, step]

/-- The frontier after appending a list of leaves from index `n` on. -/
def extend (n : ℕ) (f : ℕ → α) : List α → ℕ → α
  | [] => f
  | x :: xs => extend (n + 1) (advance h z n f x) xs

/-- The root of depth `d` after appending a list of leaves, `r` when the list is empty. -/
def extendRoot (d n : ℕ) (f : ℕ → α) (r : α) : List α → α
  | [] => r
  | x :: xs => extendRoot d (n + 1) (advance h z n f x) (climb h z n f x d) xs

/-- Appending a list of consecutive leaves keeps the frontier invariant. -/
lemma Frontier.extend {leaf : ℕ → α} {n : ℕ} {f : ℕ → α} {xs : List α}
    (inv : Frontier h leaf n f) (from_n : ∀ i x, xs[i]? = some x → leaf (n + i) = x) :
    Frontier h leaf (n + xs.length) (extend h z n f xs) := by
  induction xs generalizing n f with
  | nil => exact inv
  | cons x xs ih =>
    have first : leaf n = x := from_n 0 x rfl
    have next := ih (n := n + 1) (first ▸ inv.advance h z) (fun i y hy => by
      have := from_n (i + 1) y hy
      rwa [show n + (i + 1) = n + 1 + i from by omega] at this)
    simp only [MerkleTree.extend, List.length_cons]
    rwa [show n + (xs.length + 1) = n + 1 + xs.length from by omega]

/-- Appending a non-empty list of consecutive leaves that fits returns the root of the cut tree. -/
lemma extendRoot_eq {leaf : ℕ → α} {d n : ℕ} {f : ℕ → α} {r : α} {xs : List α}
    (inv : Frontier h leaf n f) (from_n : ∀ i x, xs[i]? = some x → leaf (n + i) = x)
    (nonempty : xs ≠ []) (fits : n + xs.length ≤ 2 ^ d) :
    extendRoot h z d n f r xs = node h (cut z (n + xs.length) leaf) d 0 := by
  induction xs generalizing n f r with
  | nil => exact absurd rfl nonempty
  | cons x xs ih =>
    have first : leaf n = x := from_n 0 x rfl
    simp only [List.length_cons] at fits ⊢
    cases xs with
    | nil =>
      have top : n / 2 ^ d = 0 := Nat.div_eq_of_lt (Nat.lt_of_succ_le fits)
      simp only [extendRoot, List.length_nil, ← first, climb_eq h z inv, top]
    | cons y ys =>
      have next := ih (n := n + 1) (r := climb h z n f x d) (first ▸ inv.advance h z)
        (fun i w hw => by
          have := from_n (i + 1) w hw
          rwa [show n + (i + 1) = n + 1 + i from by omega] at this)
        (by simp) (by omega)
      rw [show n + ((y :: ys).length + 1) = n + 1 + (y :: ys).length from by omega]
      exact next

/-- The node reached at a level by hashing `x` at index `i` with the siblings `sib`. -/
def ascend (i : ℕ) (sib : ℕ → α) (x : α) : ℕ → α
  | 0 => x
  | l + 1 => if i.testBit l then h (sib l) (ascend i sib x l) else h (ascend i sib x l) (sib l)

/-- Hashing a leaf with its siblings follows the path of the leaf. -/
lemma ascend_eq (leaf : ℕ → α) {i : ℕ} {sib : ℕ → α} {d : ℕ}
    (siblings : ∀ l, l < d → sib l = node h leaf l (i / 2 ^ l ^^^ 1)) :
    ascend h i sib (leaf i) d = node h leaf d (i / 2 ^ d) := by
  induction d with
  | zero => simp [ascend, node]
  | succ d ih =>
    have below := ih (fun l lt => siblings l (by omega))
    have sibling := siblings d (by omega)
    cases bit : i.testBit d with
    | true =>
      have odd := div_pow_of_bit bit
      have left : i / 2 ^ d ^^^ 1 = 2 * (i / 2 ^ (d + 1)) := by
        rw [Nat.xor_one_of_odd ⟨_, odd⟩, odd, Nat.add_sub_cancel]
      simp only [ascend, bit, if_true, below, sibling, left, node]
      rw [odd]
    | false =>
      have even := div_pow_of_not_bit bit
      have right : i / 2 ^ d ^^^ 1 = 2 * (i / 2 ^ (d + 1)) + 1 := by
        rw [Nat.xor_one_of_even ⟨i / 2 ^ (d + 1), by omega⟩, even]
      simp only [ascend, bit, below, sibling, right, node, Bool.false_eq_true, if_false]
      rw [even]

section Hom
variable {h z} {h' : β → β → β} {z' : β} {φ : α → β} {P : α → Prop}

/-- A property that the hash keeps holds of the empty roots. -/
lemma emptyRoot_mem (closed : ∀ a b, P a → P b → P (h a b)) (zero : P z) (l : ℕ) :
    P (emptyRoot h z l) := by
  induction l with
  | zero => exact zero
  | succ l ih => exact closed _ _ ih ih

/-- A property that the hash keeps holds of what is climbed to. -/
lemma climb_mem (closed : ∀ a b, P a → P b → P (h a b)) (zero : P z) {n : ℕ} {f : ℕ → α} {x : α}
    {l : ℕ} (cells : ∀ k, k < l → P (f k)) (mem : P x) : P (climb h z n f x l) := by
  induction l with
  | zero => exact mem
  | succ l ih =>
    have below := ih (fun k lt => cells k (by omega))
    simp only [climb]
    split
    · exact closed _ _ (cells l (by omega)) below
    · exact closed _ _ below (emptyRoot_mem closed zero l)

/-- A property that the hash keeps holds of the frontier after a leaf. -/
lemma advance_mem (closed : ∀ a b, P a → P b → P (h a b)) (zero : P z) {d n : ℕ} {f : ℕ → α} {x : α}
    (cells : ∀ k, k < d → P (f k)) (mem : P x) : ∀ k, k < d → P (advance h z n f x k) := by
  intro k lt
  simp only [advance]
  split
  · exact cells k lt
  · exact climb_mem closed zero (fun j lt' => cells j (by omega)) mem

/-- A property that the hash keeps holds of the frontier after several leaves. -/
lemma extend_mem (closed : ∀ a b, P a → P b → P (h a b)) (zero : P z) {d n : ℕ} {f : ℕ → α}
    {xs : List α} (cells : ∀ k, k < d → P (f k)) (mem : ∀ x ∈ xs, P x) :
    ∀ k, k < d → P (extend h z n f xs k) := by
  induction xs generalizing n f with
  | nil => exact cells
  | cons x xs ih =>
    apply ih
    · exact advance_mem closed zero cells (mem x (by simp))
    · exact fun y memy => mem y (by simp [memy])

variable (closed : ∀ a b, P a → P b → P (h a b)) (zero : P z)
  (hom : ∀ a b, P a → P b → φ (h a b) = h' (φ a) (φ b)) (hom_zero : φ z = z')
include closed zero hom hom_zero

/-- A map that the hashes respect takes empty roots to empty roots. -/
lemma emptyRoot_hom (l : ℕ) : φ (emptyRoot h z l) = emptyRoot h' z' l := by
  induction l with
  | zero => exact hom_zero
  | succ l ih =>
    have mem := emptyRoot_mem closed zero l
    simp only [emptyRoot, hom _ _ mem mem, ih]

/-- A map that the hashes respect commutes with climbing. -/
lemma climb_hom {n : ℕ} {f : ℕ → α} {g : ℕ → β} {x : α} {l : ℕ} (cells : ∀ k, k < l → P (f k))
    (image : ∀ k, k < l → φ (f k) = g k) (mem : P x) :
    φ (climb h z n f x l) = climb h' z' n g (φ x) l := by
  induction l with
  | zero => rfl
  | succ l ih =>
    have lower : ∀ k, k < l → P (f k) := fun k lt => cells k (by omega)
    have below := ih lower (fun k lt => image k (by omega))
    have climbed := climb_mem (n := n) closed zero lower mem
    simp only [climb]
    split
    · rw [hom _ _ (cells l (by omega)) climbed, below, image l (by omega)]
    · rw [hom _ _ climbed (emptyRoot_mem closed zero l), below,
        emptyRoot_hom closed zero hom hom_zero]

/-- A map that the hashes respect takes the frontier after a leaf to that of its image. -/
lemma advance_hom {d n : ℕ} {f : ℕ → α} {g : ℕ → β} {x : α} (cells : ∀ k, k < d → P (f k))
    (image : ∀ k, k < d → φ (f k) = g k) (mem : P x) :
    ∀ k, k < d → φ (advance h z n f x k) = advance h' z' n g (φ x) k := by
  intro k lt
  simp only [advance]
  split
  · exact image k lt
  · exact climb_hom closed zero hom hom_zero (fun j lt' => cells j (by omega))
      (fun j lt' => image j (by omega)) mem

/-- A map that the hashes respect takes root and frontier after several leaves to those of their images. -/
lemma extend_hom {d n : ℕ} {f : ℕ → α} {g : ℕ → β} {r : α} {xs : List α}
    (cells : ∀ k, k < d → P (f k)) (image : ∀ k, k < d → φ (f k) = g k) (mem : ∀ x ∈ xs, P x) :
    φ (extendRoot h z d n f r xs) = extendRoot h' z' d n g (φ r) (xs.map φ) ∧
      ∀ k, k < d → φ (extend h z n f xs k) = extend h' z' n g (xs.map φ) k := by
  induction xs generalizing n f g r with
  | nil => exact ⟨rfl, image⟩
  | cons x xs ih =>
    have memx := mem x (by simp)
    have climbed := climb_hom (n := n) closed zero hom hom_zero cells image memx
    simp only [List.map_cons, extendRoot, extend, ← climbed]
    apply ih
    · exact advance_mem closed zero cells memx
    · exact advance_hom closed zero hom hom_zero cells image memx
    · exact fun y memy => mem y (by simp [memy])

end Hom

end MerkleTree
