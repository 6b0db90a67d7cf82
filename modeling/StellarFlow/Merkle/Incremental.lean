import StellarFlow.Lib.MerkleTree
import StellarFlow.Merkle.Service

/-!
# The incremental tree is the complete tree

On 64-character lower-case hexadecimal text the service never raises and its string hash is a total
function `hashHex`. The loops of `_append_reference` are then the append of
`StellarFlow/Lib/MerkleTree.lean` at `hashHex`, cell by cell (`appendReference_eq`), and the frontier
invariant of the library carries the result over every batch boundary (`appendBatches_eq_completeRoot`).

`completeRoot` is the reference: the complete binary tree over the leaves and their zero padding, with
`poseidon_hash` at every inner node.
-/

namespace StellarFlow.Merkle
open HexText MerkleTree

/-- A 64-character lower-case hexadecimal string. -/
def Hex64 (s : String) : Prop :=
  s.length = 64 ∧ IsHex s.toList

/-- A text of 64 hexadecimal digits. -/
lemma hex64_ofList {cs : List Char} : Hex64 (String.ofList cs) ↔ cs.length = 64 ∧ IsHex cs := by
  rw [Hex64, String.length_ofList, String.toList_ofList]

/-- A character written 64 times, `c * 64`. -/
def repeat64 (c : Char) : String := String.ofList (List.replicate 64 c)

/-- The zero leaf, `"0" * 64`. -/
def zeroLeaf : String := repeat64 '0'

/-- A digit 64 times is a text of 64 hexadecimal digits. -/
lemma repeat64_hex {c : Char} (lower : c ∈ lowerDigits) : Hex64 (repeat64 c) := by
  refine hex64_ofList.mpr ⟨List.length_replicate, fun c' mem => ?_⟩
  rwa [List.eq_of_mem_replicate mem]

/-- The zero leaf is a text of 64 hexadecimal digits. -/
lemma zeroLeaf_hex : Hex64 zeroLeaf :=
  repeat64_hex (by decide)

/-- A text of 64 hexadecimal digits is read as its number. -/
lemma Hex64.element {s : String} (hex : Hex64 s) :
    element (.str s) = .ok (hexValue s.toList : ℤ) := by
  obtain ⟨len, digits⟩ := hex
  have nonempty : s.toList ≠ [] := by
    intro eq
    rw [← String.length_toList, eq] at len
    exact absurd len (by decide)
  simp only [Merkle.element, len, ne_eq, not_true_eq_false, if_false,
    intBase16_hex digits nonempty]

/-- The number of such a text is written as the text again. -/
lemma Hex64.format {s : String} (hex : Hex64 s) : format064x (hexValue s.toList) = s := by
  obtain ⟨len, digits⟩ := hex
  rw [format064x, formatHex_hexValue (by decide) digits (String.length_toList.trans len),
    String.ofList_toList]

/-- A number that fits is written in 64 hexadecimal digits. -/
lemma format064x_hex {n : ℕ} (fits : n < 16 ^ 64) : Hex64 (format064x n) := by
  obtain ⟨hex, len, -⟩ := formatHex_spec (w := 64) (by decide) fits
  exact hex64_ofList.mpr ⟨len, hex⟩

/-- A number that fits is read back. -/
lemma hexValue_format064x {n : ℕ} (fits : n < 16 ^ 64) : hexValue (format064x n).toList = n := by
  rw [format064x, String.toList_ofList]
  exact (formatHex_spec (by decide) fits).2.2

/-- Zero is the zero leaf. -/
lemma format064x_zero : format064x 0 = zeroLeaf := by
  have zero : hexValue zeroLeaf.toList = 0 := by
    have digit : digitVal '0' = 0 := by decide
    unfold zeroLeaf repeat64
    rw [String.toList_ofList, hexValue, List.map_replicate, digit]
    exact Numeral.value_replicate_zero_append 64 []
  have eq := zeroLeaf_hex.format
  rwa [zero] at eq

variable (sha256 : List UInt8 → List UInt8)

/-- The field element `_poseidon_bn254_2` returns fits in 64 digits. -/
lemma poseidonBn2542_nat (left right : ℤ) :
    ∃ n : ℕ, poseidonBn2542 sha256 left right = n ∧ n < 16 ^ 64 := by
  refine ⟨_, rfl, (Nat.mod_lt _ (by decide)).trans ?_⟩
  rw [bn254Prime]
  norm_num

/-- `poseidon_hash` as a total function on hexadecimal text. -/
def hashHex (left right : String) : String :=
  format064x (poseidonBn2542 sha256 (hexValue left.toList) (hexValue right.toList))

/-- A hash is a text of 64 hexadecimal digits. -/
lemma hashHex_hex (left right : String) : Hex64 (hashHex sha256 left right) := by
  obtain ⟨n, eq, fits⟩ := poseidonBn2542_nat sha256 (hexValue left.toList) (hexValue right.toList)
  rw [hashHex, eq]
  exact format064x_hex fits

/-- Hashing keeps to texts of 64 hexadecimal digits. -/
lemma hashHex_closed (left right : String) (_ : Hex64 left) (_ : Hex64 right) :
    Hex64 (hashHex sha256 left right) :=
  hashHex_hex sha256 left right

/-- The root of an empty tree is a text of 64 hexadecimal digits. -/
lemma emptyRoot_hex (level : ℕ) : Hex64 (emptyRoot (hashHex sha256) zeroLeaf level) :=
  emptyRoot_mem (hashHex_closed sha256) zeroLeaf_hex level

/-- `poseidon_hash` succeeds on hexadecimal text. -/
lemma poseidonHash_hex {left right : String} (hexl : Hex64 left) (hexr : Hex64 right) :
    poseidonHash sha256 (.str left) (.str right) = .ok (hashHex sha256 left right) := by
  simp only [poseidonHash, hexl.element, hexr.element]
  rfl

/-- `get_zero_value` gives the empty root of its level. -/
lemma getZeroValue_nat (level : ℕ) :
    getZeroValue sha256 level = .ok (emptyRoot (hashHex sha256) zeroLeaf level) := by
  have loop : ∃ n : ℕ, n < 16 ^ 64 ∧
      (List.range level).foldl (fun value _ => poseidonBn2542 sha256 value value) 0 = (n : ℤ) ∧
      format064x n = emptyRoot (hashHex sha256) zeroLeaf level := by
    induction level with
    | zero => exact ⟨0, by norm_num, rfl, format064x_zero⟩
    | succ level ih =>
      obtain ⟨n, fits, value, eq⟩ := ih
      obtain ⟨m, hash, fits'⟩ := poseidonBn2542_nat sha256 n n
      refine ⟨m, fits', ?_, ?_⟩
      · rw [List.range_succ, List.foldl_append, value]
        exact hash
      · rw [emptyRoot, ← eq, hashHex, hexValue_format064x fits, hash]
  obtain ⟨n, -, value, eq⟩ := loop
  have nonneg : ¬ ((level : ℤ) < 0) := by omega
  simp only [getZeroValue, if_neg nonneg, Int.toNat_natCast, value, eq]

/-- The bit test of `_append_reference` on a leaf count. -/
lemma shiftRight_mod_two (n level : ℕ) :
    (((n : ℤ) >>> level) % 2 = 0) ↔ n.testBit level = false := by
  have shift : (n : ℤ) >>> level = ((n / 2 ^ level : ℕ) : ℤ) := by
    rw [← Nat.shiftRight_eq_div_pow]
    rfl
  rw [shift, Nat.testBit_eq_decide_div_mod_eq, decide_eq_false_iff_not]
  omega

/-- One level of the append over the cells `f` is the library's. -/
lemma appendLevel_cells {n d level : ℕ} {f : ℕ → String} {node : String} (lt : level < d)
    (hexf : Hex64 (f level)) (hexn : Hex64 node) :
    appendLevel sha256 n (node, Py.cells d f) level =
      .ok ((levelStep (hashHex sha256) zeroLeaf n (node, f) level).1,
        Py.cells d (levelStep (hashHex sha256) zeroLeaf n (node, f) level).2) := by
  have bit := shiftRight_mod_two n level
  cases h : n.testBit level with
  | true =>
    have odd : ¬ ((n : ℤ) >>> level) % 2 = 0 := by
      rw [bit, h]
      exact Bool.noConfusion
    simp only [appendLevel, if_neg odd, Py.getItem_cells f lt, bind, Except.bind,
      poseidonHash_hex sha256 hexf hexn, levelStep, h, if_true]
    rfl
  | false =>
    have even : ((n : ℤ) >>> level) % 2 = 0 := bit.mpr h
    simp only [appendLevel, if_pos even, Py.setItem_cells f node lt, getZeroValue_nat, bind,
      Except.bind, poseidonHash_hex sha256 hexn (emptyRoot_hex sha256 level), levelStep, h,
      Bool.false_eq_true, if_false]
    rfl

/-- The inner loop of `_append_reference` climbs to `l` and advances the cells below. -/
lemma foldlM_appendLevel {n d l : ℕ} {f : ℕ → String} {x : String} (le : l ≤ d)
    (hexf : ∀ k, k < d → Hex64 (f k)) (hexx : Hex64 x) :
    (List.range l).foldlM (appendLevel sha256 n) (x, Py.cells d f) =
      .ok (climb (hashHex sha256) zeroLeaf n f x l,
        Py.cells d (fun k => if k < l then advance (hashHex sha256) zeroLeaf n f x k else f k)) := by
  induction l with
  | zero => simp [climb, pure, Except.pure]
  | succ l ih =>
    have hexc : Hex64 (climb (hashHex sha256) zeroLeaf n f x l) :=
      climb_mem (hashHex_closed sha256) zeroLeaf_hex
        (fun k lt => hexf k (by omega)) hexx
    have next := foldl_levelStep (hashHex sha256) zeroLeaf n f x (l + 1)
    rw [List.range_succ, List.foldl_append, foldl_levelStep, List.foldl_cons, List.foldl_nil] at next
    have hexl : Hex64 (if l < l then advance (hashHex sha256) zeroLeaf n f x l else f l) := by
      rw [if_neg (lt_irrefl l)]
      exact hexf l (by omega)
    have step := appendLevel_cells sha256 (n := n)
      (f := fun k => if k < l then advance (hashHex sha256) zeroLeaf n f x k else f k)
      (show l < d by omega) hexl hexc
    rw [next] at step
    rw [List.range_succ, List.foldlM_append, ih (by omega)]
    simp only [bind, Except.bind, List.foldlM_cons, List.foldlM_nil, step]
    rfl

/-- On the frontier of texts a leaf climbs and advances as in the library. -/
lemma appendLeaf_cells {n d : ℕ} {f : ℕ → String} {r x : String}
    (hexf : ∀ k, k < d → Hex64 (f k)) (hexx : Hex64 x) :
    appendLeaf sha256 d (r, Py.cells d f, n) x =
      .ok (climb (hashHex sha256) zeroLeaf n f x d,
        Py.cells d (advance (hashHex sha256) zeroLeaf n f x), ((n + 1 : ℕ) : ℤ)) := by
  have below : Py.cells d
        (fun k => if k < d then advance (hashHex sha256) zeroLeaf n f x k else f k) =
      Py.cells d (advance (hashHex sha256) zeroLeaf n f x) :=
    Py.cells_congr (fun k lt => if_pos lt)
  have loop := foldlM_appendLevel sha256 (n := n) le_rfl hexf hexx
  rw [below] at loop
  simp only [appendLeaf, hexx.element, bind, Except.bind, hexx.format]
  simp only [loop, pure, Except.pure, Nat.cast_add, Nat.cast_one]

/-- The outer loop of `_append_reference` is the append of a list of leaves. -/
lemma foldlM_appendLeaf {n d : ℕ} {f : ℕ → String} {r : String} {leaves : List String}
    (hexf : ∀ k, k < d → Hex64 (f k)) (hexl : ∀ leaf ∈ leaves, Hex64 leaf) :
    leaves.foldlM (appendLeaf sha256 d) (r, Py.cells d f, (n : ℤ)) =
      .ok (extendRoot (hashHex sha256) zeroLeaf d n f r leaves,
        Py.cells d (extend (hashHex sha256) zeroLeaf n f leaves), ((n + leaves.length : ℕ) : ℤ)) := by
  induction leaves generalizing n f r with
  | nil => rfl
  | cons x xs ih =>
    have hexx := hexl x (by simp)
    have hexa : ∀ k, k < d → Hex64 (advance (hashHex sha256) zeroLeaf n f x k) :=
      advance_mem (hashHex_closed sha256) zeroLeaf_hex hexf hexx
    rw [List.foldlM_cons, appendLeaf_cells sha256 hexf hexx]
    simp only [bind, Except.bind]
    rw [ih hexa (fun leaf mem => hexl leaf (by simp [mem]))]
    simp only [extendRoot, extend, List.length_cons]
    rw [show n + 1 + xs.length = n + (xs.length + 1) from by omega]

/-- `_append_reference` never raises on hexadecimal text and is the append of the library. -/
lemma appendReference_eq {n d : ℕ} {f : ℕ → String} {leaves : List String}
    (hexf : ∀ k, k < d → Hex64 (f k)) (hexl : ∀ leaf ∈ leaves, Hex64 leaf) :
    appendReference sha256 (Py.cells d f) n leaves d =
      .ok (extendRoot (hashHex sha256) zeroLeaf d n f (emptyRoot (hashHex sha256) zeroLeaf d) leaves,
        Py.cells d (extend (hashHex sha256) zeroLeaf n f leaves)) := by
  simp only [appendReference, getZeroValue_nat, bind, Except.bind,
    foldlM_appendLeaf sha256 hexf hexl, pure, Except.pure]

/-- The initial state is the empty frontier. -/
lemma initialState_frontier (d : ℕ) :
    initialState sha256 d = .ok
      { version := 1, hashScheme := hashScheme, depth := d,
        frontier := Py.cells d (emptyRoot (hashHex sha256) zeroLeaf) } := by
  have levels : (List.range d).mapM (fun level : ℕ => getZeroValue sha256 level) =
      .ok (Py.cells d (emptyRoot (hashHex sha256) zeroLeaf)) :=
    Py.mapM_ok (fun level _ => getZeroValue_nat sha256 level)
  simp only [initialState, levels, bind, Except.bind, pure, Except.pure]

/-- The frontier of zero leaves satisfies the invariant whatever its cells hold. -/
lemma frontier_zero (leaf f : ℕ → String) : Frontier (hashHex sha256) leaf 0 f := by
  intro l bit
  rw [Nat.zero_testBit] at bit
  exact absurd bit Bool.noConfusion

/-- The node at a level and index of the complete tree with `poseidon_hash` at its inner nodes. -/
def completeNode (leaf : ℕ → String) : ℕ → ℕ → Except PyError String
  | 0, i => return leaf i
  | level + 1, i => do
    let left ← completeNode leaf level (2 * i)
    let right ← completeNode leaf level (2 * i + 1)
    poseidonHash sha256 (.str left) (.str right)

/-- The root of the complete tree of a depth whose `i`-th leaf is `leaves[i]`, zero past the end. -/
def completeRoot (leaves : List String) (depth : ℕ) : Except PyError String :=
  completeNode sha256 (fun i => leaves.getD i zeroLeaf) depth 0

/-- Beyond the leaves there are zero leaves. -/
lemma getD_hex {leaves : List String} (hexl : ∀ leaf ∈ leaves, Hex64 leaf) (i : ℕ) :
    Hex64 (leaves.getD i zeroLeaf) := by
  rw [List.getD_eq_getElem?_getD]
  cases eq : leaves[i]? with
  | none => exact zeroLeaf_hex
  | some leaf => exact hexl leaf (List.mem_of_getElem? eq)

/-- On hexadecimal leaves the complete tree is the library's. -/
lemma completeNode_eq {leaf : ℕ → String} (hexl : ∀ i, Hex64 (leaf i)) (level i : ℕ) :
    completeNode sha256 leaf level i = .ok (node (hashHex sha256) leaf level i) ∧
      Hex64 (node (hashHex sha256) leaf level i) := by
  induction level generalizing i with
  | zero => exact ⟨rfl, hexl i⟩
  | succ level ih =>
    obtain ⟨left, hexleft⟩ := ih (2 * i)
    obtain ⟨right, hexright⟩ := ih (2 * i + 1)
    refine ⟨?_, hashHex_hex sha256 _ _⟩
    simp only [completeNode, left, right, bind, Except.bind]
    exact poseidonHash_hex sha256 hexleft hexright

/-- The leaves are those of the library, cut at their number. -/
lemma cut_getD (leaves : List String) :
    cut zeroLeaf leaves.length (fun i => leaves.getD i zeroLeaf) =
      fun i => leaves.getD i zeroLeaf := by
  funext i
  by_cases lt : i < leaves.length
  · simp [cut, lt]
  · simp [cut, lt]

/-- One batch of a run: `_append_reference` on the frontier and leaf count reached so far. -/
def appendBatch (depth : ℕ) (acc : String × List String × ℤ) (batch : List String) :
    Except PyError (String × List String × ℤ) := do
  let (_, frontier, leafCount) := acc
  let (root, frontier) ← appendReference sha256 frontier leafCount batch depth
  return (root, frontier, leafCount + batch.length)

/-- Batches fed one after another from the initial state; the root returned by the last one. -/
def appendBatches (depth : ℕ) (batches : List (List String)) : Except PyError String := do
  let state ← initialState sha256 depth
  let empty ← getZeroValue sha256 depth
  let (root, _, _) ← batches.foldlM (appendBatch sha256 depth) (empty, state.frontier, 0)
  return root

/-- A run of batches over a frontier that satisfies the invariant ends in the root of the tree cut
after its last leaf. -/
lemma foldlM_appendBatch {n d : ℕ} {leaf f : ℕ → String} {r : String} {batches : List (List String)}
    (inv : Frontier (hashHex sha256) leaf n f) (hexf : ∀ k, k < d → Hex64 (f k))
    (hexl : ∀ x ∈ batches.flatten, Hex64 x) (parts : ∀ batch ∈ batches, batch ≠ [])
    (from_n : ∀ i x, batches.flatten[i]? = some x → leaf (n + i) = x)
    (fits : n + batches.flatten.length ≤ 2 ^ d) (nonempty : batches ≠ []) :
    ∃ state count, batches.foldlM (appendBatch sha256 d) (r, Py.cells d f, (n : ℤ)) =
      .ok (node (hashHex sha256) (cut zeroLeaf (n + batches.flatten.length) leaf) d 0, state, count)
      := by
  induction batches generalizing n f r with
  | nil => exact absurd rfl nonempty
  | cons batch batches ih =>
    rw [List.flatten_cons] at hexl from_n fits ⊢
    rw [List.length_append] at fits ⊢
    have hexb : ∀ x ∈ batch, Hex64 x := fun x mem => hexl x (by simp [mem])
    have first : ∀ i x, batch[i]? = some x → leaf (n + i) = x := by
      intro i x get
      apply from_n
      rw [List.getElem?_append_left (List.getElem?_eq_some_iff.mp get).1]
      exact get
    have step : appendBatch sha256 d (r, Py.cells d f, (n : ℤ)) batch =
        .ok (extendRoot (hashHex sha256) zeroLeaf d n f
            (emptyRoot (hashHex sha256) zeroLeaf d) batch,
          Py.cells d (extend (hashHex sha256) zeroLeaf n f batch), ((n + batch.length : ℕ) : ℤ)) := by
      simp only [appendBatch, appendReference_eq sha256 hexf hexb, bind, Except.bind, pure,
        Except.pure, Nat.cast_add]
    rw [List.foldlM_cons, step]
    simp only [bind, Except.bind]
    -- only the last batch's root is returned; before it the frontier invariant is what carries over
    cases batches with
    | nil =>
      rw [extendRoot_eq _ _ inv first (parts batch (by simp)) (by omega)]
      exact ⟨_, _, rfl⟩
    | cons next rest =>
      rw [← Nat.add_assoc]
      apply ih
      · exact inv.extend _ _ first
      · exact extend_mem (hashHex_closed sha256) zeroLeaf_hex hexf hexb
      · exact fun x mem => hexl x (List.mem_append_right _ mem)
      · exact fun b mem => parts b (List.mem_cons_of_mem _ mem)
      · intro i x get
        rw [Nat.add_assoc]
        apply from_n
        rw [List.getElem?_append_right (by omega), Nat.add_sub_cancel_left]
        exact get
      · omega
      · simp

/-- The incremental tree is the complete tree for every split of the leaves into batches. -/
theorem appendBatches_eq_completeRoot (depth : ℕ) (leaves : List String)
    (batches : List (List String)) (split : batches.flatten = leaves)
    (parts : ∀ batch ∈ batches, batch ≠ []) (nonempty : leaves ≠ [])
    (hexl : ∀ leaf ∈ leaves, Hex64 leaf) (fits : leaves.length ≤ 2 ^ depth) :
    ∃ root, appendBatches sha256 depth batches = .ok root ∧
      completeRoot sha256 leaves depth = .ok root := by
  subst split
  have some_batch : batches ≠ [] := by
    rintro rfl
    exact nonempty rfl
  obtain ⟨state, count, run⟩ := foldlM_appendBatch sha256 (n := 0) (d := depth)
    (r := emptyRoot (hashHex sha256) zeroLeaf depth)
    (frontier_zero sha256 (fun i => batches.flatten.getD i zeroLeaf)
      (emptyRoot (hashHex sha256) zeroLeaf))
    (fun k _ => emptyRoot_hex sha256 k) hexl parts
    (fun i x get => by simp [List.getD_eq_getElem?_getD, get]) (by omega) some_batch
  rw [Nat.zero_add, cut_getD] at run
  refine ⟨_, ?_, (completeNode_eq sha256 (getD_hex hexl) depth 0).1⟩
  simp only [appendBatches, initialState_frontier, getZeroValue_nat, bind, Except.bind]
  rw [show ((0 : ℤ)) = ((0 : ℕ) : ℤ) from rfl, run]
  rfl

/-- Three leaves in two batches over a tree of depth 2. -/
theorem appendBatches_eq_completeRoot_two_batches :
    ∃ root, appendBatches (List.take 32) 2 [[repeat64 '1', repeat64 'f'], [repeat64 'a']] = .ok root ∧
      completeRoot (List.take 32) [repeat64 '1', repeat64 'f', repeat64 'a'] 2 = .ok root := by
  apply appendBatches_eq_completeRoot
  · rfl
  · simp
  · simp
  · intro leaf mem
    simp only [List.mem_cons, List.not_mem_nil, or_false] at mem
    obtain rfl | rfl | rfl := mem
    · exact repeat64_hex (by decide)
    · exact repeat64_hex (by decide)
    · exact repeat64_hex (by decide)
  · simp

end StellarFlow.Merkle
