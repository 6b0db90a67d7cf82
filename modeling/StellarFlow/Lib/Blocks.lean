import Mathlib.Data.List.Basic

/-!
# Packed blocks

Equal-sized blocks stored one after another in a flat list: reading and overwriting one block, and
cutting the flat list back into its blocks.
-/

namespace Blocks
variable {α : Type} {w : ℕ}

/-- The block of width `w` at a position. -/
def slot (w : ℕ) (bytes : List α) (i : ℕ) : List α :=
  (bytes.drop (i * w)).take w

/-- The flat list with the block at a position overwritten. -/
def patch (w : ℕ) (bytes : List α) (i : ℕ) (block : List α) : List α :=
  bytes.take (i * w) ++ block ++ bytes.drop ((i + 1) * w)

/-- The whole blocks of width `w` of a flat list. -/
def chunks (w : ℕ) (bytes : List α) : List (List α) :=
  (List.range (bytes.length / w)).map (slot w bytes)

/-- Blocks have their width each. -/
lemma length_flatten {xs : List (List α)} (len : ∀ x ∈ xs, x.length = w) :
    xs.flatten.length = xs.length * w := by
  induction xs with
  | nil => simp
  | cons x xs ih =>
    rw [List.flatten_cons, List.length_append, len x (by simp), ih (fun y mem => len y (by simp [mem])),
      List.length_cons, Nat.succ_mul, Nat.add_comm]

/-- Whole blocks may be dropped before they are joined. -/
lemma drop_flatten {xs : List (List α)} (len : ∀ x ∈ xs, x.length = w) (i : ℕ) :
    xs.flatten.drop (i * w) = (xs.drop i).flatten := by
  induction i generalizing xs with
  | zero => simp
  | succ i ih =>
    cases xs with
    | nil => simp
    | cons x xs =>
      have lenx := len x (by simp)
      rw [List.flatten_cons, List.drop_succ_cons, ← ih (fun y mem => len y (by simp [mem])),
        Nat.succ_mul, Nat.add_comm, List.drop_append, lenx]
      simp [lenx]

/-- Whole blocks may be taken before they are joined. -/
lemma take_flatten {xs : List (List α)} (len : ∀ x ∈ xs, x.length = w) (i : ℕ) :
    xs.flatten.take (i * w) = (xs.take i).flatten := by
  induction i generalizing xs with
  | zero => simp
  | succ i ih =>
    cases xs with
    | nil => simp
    | cons x xs =>
      have lenx := len x (by simp)
      rw [List.flatten_cons, List.take_succ_cons, List.flatten_cons,
        ← ih (fun y mem => len y (by simp [mem])), Nat.succ_mul, Nat.add_comm, List.take_append, lenx,
        List.take_of_length_le (by omega), Nat.add_sub_cancel_left]

/-- A slot of joined blocks is a block. -/
lemma slot_flatten {xs : List (List α)} (len : ∀ x ∈ xs, x.length = w) {i : ℕ} (lt : i < xs.length) :
    slot w xs.flatten i = xs[i] := by
  have leni := len xs[i] (List.getElem_mem lt)
  rw [slot, drop_flatten len, List.drop_eq_getElem_cons lt, List.flatten_cons, ← leni]
  exact List.take_left

/-- Patching a slot of joined blocks changes that block. -/
lemma patch_flatten {xs : List (List α)} (len : ∀ x ∈ xs, x.length = w) {i : ℕ} {x : List α}
    (lt : i < xs.length) : patch w xs.flatten i x = (xs.set i x).flatten := by
  rw [patch, take_flatten len, drop_flatten len, List.set_eq_take_append_cons_drop, if_pos lt,
    List.flatten_append, List.flatten_cons, List.append_assoc]

/-- Whole blocks are cut back apart, and less than a block after them is not seen. -/
lemma chunks_append {xs : List (List α)} {rest : List α} (len : ∀ x ∈ xs, x.length = w) (short : rest.length < w) :
    chunks w (xs.flatten ++ rest) = xs := by
  have count : (xs.flatten ++ rest).length / w = xs.length := by
    rw [List.length_append, length_flatten len, Nat.add_comm, Nat.add_mul_div_right _ _ (by omega),
      Nat.div_eq_of_lt short, Nat.zero_add]
  apply List.ext_getElem
  · rw [chunks, List.length_map, List.length_range, count]
  · intro i _ lt
    have before : i * w + w ≤ xs.flatten.length := by
      rw [length_flatten len, ← Nat.succ_mul]
      exact Nat.mul_le_mul_right w lt
    simp only [chunks, List.getElem_map, List.getElem_range]
    rw [slot, List.drop_append_of_le_length (by omega), List.take_append_of_le_length]
    · exact slot_flatten len lt
    · rw [List.length_drop]
      omega

/-- Blocks that are joined are cut apart again. -/
lemma chunks_flatten {xs : List (List α)} (pos : 0 < w) (len : ∀ x ∈ xs, x.length = w) :
    chunks w xs.flatten = xs := by
  rw [← List.append_nil xs.flatten]
  exact chunks_append len pos

end Blocks
