import StellarFlow.Merkle.Incremental

/-!
# Merkle paths verify

`compute_merkle_path` keeps a dictionary of the nodes of one level and reads missing entries as the
empty root of that level. `levelNodes` is that dictionary for the first `m` nodes of a level of the
complete tree; `Covers` says the nodes it leaves out are empty, so a lookup with the zero default is the
tree's own node (`lookup_levelNodes`). The loop then returns the siblings of the leaf
(`foldlM_pathLevel`), and folding them upwards gives the root that the frontier algorithm computes
(`foldPath_computeMerklePath`).
-/

namespace StellarFlow.Merkle
open HexText MerkleTree
variable (sha256 : List UInt8 → List UInt8)

/-- The verifier's fold: at each level the node is hashed with the sibling, on the side the bit says. -/
def foldPath (index : ℕ) (leaf : String) (path : List String) : Except PyError String :=
  (List.range path.length).foldlM
    (fun node level => do
      let sibling ← Py.getItem path level
      if index.testBit level then poseidonHash sha256 (.str sibling) (.str node)
      else poseidonHash sha256 (.str node) (.str sibling))
    leaf

/-- The first `m` nodes of a level as the dictionary of `compute_merkle_path`. -/
def levelNodes (leaf : ℕ → String) (level m : ℕ) : List (ℕ × String) :=
  (List.range m).map fun i => (i, node (hashHex sha256) leaf level i)

/-- The nodes of a level from `m` on are empty. -/
def Covers (leaf : ℕ → String) (level m : ℕ) : Prop :=
  0 < m ∧ ∀ i, m ≤ i →
    node (hashHex sha256) leaf level i = emptyRoot (hashHex sha256) zeroLeaf level

variable {sha256}

/-- A table over a range is read at its index. -/
lemma lookup_range_map {g : ℕ → String} {m k : ℕ} :
    ((List.range m).map fun i => (i, g i)).lookup k = if k < m then some (g k) else none := by
  induction m with
  | zero => rfl
  | succ m ih =>
    rw [List.range_succ, List.map_append, List.lookup_append, ih]
    by_cases lt : k < m
    · simp [lt, Nat.lt_succ_of_lt lt]
    · by_cases eq : k = m
      · subst eq
        simp
      · have beq : (k == m) = false := beq_false_of_ne eq
        simp [lt, List.lookup_cons, beq, show ¬ k < m + 1 from by omega]

/-- Reading a level's dictionary with the zero default reads the tree. -/
lemma lookup_levelNodes {leaf : ℕ → String} {level m : ℕ} (covers : Covers sha256 leaf level m)
    (k : ℕ) :
    ((levelNodes sha256 leaf level m).lookup k).getD (emptyRoot (hashHex sha256) zeroLeaf level) =
      node (hashHex sha256) leaf level k := by
  rw [levelNodes, lookup_range_map]
  by_cases lt : k < m
  · rw [if_pos lt, Option.getD_some]
  · rw [if_neg lt, Option.getD_none, covers.2 k (by omega)]

/-- The greatest key of a level is its last index. -/
lemma maxKey_levelNodes {leaf : ℕ → String} {level m : ℕ} :
    maxKey (levelNodes sha256 leaf level m) = (m : ℤ) - 1 := by
  induction m with
  | zero => rfl
  | succ m ih =>
    simp only [maxKey, levelNodes, List.range_succ, List.map_append, List.foldl_append] at ih ⊢
    rw [ih]
    simp

/-- The parents of a covering prefix cover the next level. -/
lemma Covers.parents {leaf : ℕ → String} {level m : ℕ} (covers : Covers sha256 leaf level m) :
    Covers sha256 leaf (level + 1) ((m - 1) / 2 + 1) := by
  refine ⟨Nat.succ_pos _, fun i le => ?_⟩
  have pos := covers.1
  rw [node, emptyRoot, covers.2 (2 * i) (by omega), covers.2 (2 * i + 1) (by omega)]

/-- The dictionary comprehension of `compute_merkle_path` moves one level up. -/
lemma parentNodes_levelNodes {leaf : ℕ → String} {level m : ℕ} (hexl : ∀ i, Hex64 (leaf i))
    (covers : Covers sha256 leaf level m) :
    parentNodes sha256 (levelNodes sha256 leaf level m) (emptyRoot (hashHex sha256) zeroLeaf level) =
      .ok (levelNodes sha256 leaf (level + 1) ((m - 1) / 2 + 1)) := by
  have pos := covers.1
  have bound : (maxKey (levelNodes sha256 leaf level m) / 2 + 1).toNat = (m - 1) / 2 + 1 := by
    rw [maxKey_levelNodes]
    omega
  rw [parentNodes, bound]
  apply Py.mapM_ok
  intro parent _
  have hex := fun i => (completeNode_eq sha256 hexl level i).2
  simp only [lookup_levelNodes covers, poseidonHash_hex sha256 (hex _) (hex _)]
  rw [Nat.mul_comm parent 2]
  rfl

/-- One level of `compute_merkle_path` appends the sibling of the path node. -/
lemma pathLevel_levelNodes {leaf : ℕ → String} {level m index : ℕ} {path : List String}
    (hexl : ∀ i, Hex64 (leaf i)) (covers : Covers sha256 leaf level m) :
    pathLevel sha256 (path, levelNodes sha256 leaf level m, index) level =
      .ok (path ++ [node (hashHex sha256) leaf level (index ^^^ 1)],
        levelNodes sha256 leaf (level + 1) ((m - 1) / 2 + 1), index / 2) := by
  simp only [pathLevel, getZeroValue_nat, bind, Except.bind, lookup_levelNodes covers,
    parentNodes_levelNodes hexl covers, pure, Except.pure]

/-- The loop of `compute_merkle_path` collects the siblings of the leaf's path. -/
lemma foldlM_pathLevel {leaf : ℕ → String} {m : ℕ} (index : ℕ) (hexl : ∀ i, Hex64 (leaf i))
    (covers : Covers sha256 leaf 0 m) (l : ℕ) :
    ∃ k, Covers sha256 leaf l k ∧
      (List.range l).foldlM (pathLevel sha256) ([], levelNodes sha256 leaf 0 m, index) =
        .ok (Py.cells l (fun level => node (hashHex sha256) leaf level (index / 2 ^ level ^^^ 1)),
          levelNodes sha256 leaf l k, index / 2 ^ l) := by
  -- the dictionary halves at every level and keeps covering it
  induction l with
  | zero => exact ⟨m, covers, by simp [Py.cells, pure, Except.pure]⟩
  | succ l ih =>
    obtain ⟨k, coversk, run⟩ := ih
    refine ⟨(k - 1) / 2 + 1, coversk.parents, ?_⟩
    rw [List.range_succ, List.foldlM_append, run]
    simp only [bind, Except.bind, List.foldlM_cons, List.foldlM_nil,
      pathLevel_levelNodes hexl coversk, pure, Except.pure]
    rw [div_pow_succ, Py.cells, Py.cells, List.range_succ, List.map_append]
    rfl

/-- Folding a path of siblings is the library's ascent. -/
lemma foldPath_cells {index d : ℕ} {x : String} {sib : ℕ → String} (hexx : Hex64 x)
    (hexs : ∀ l, l < d → Hex64 (sib l)) :
    foldPath sha256 index x (Py.cells d sib) = .ok (ascend (hashHex sha256) index sib x d) := by
  have loop : ∀ l, l ≤ d →
      (List.range l).foldlM
        (fun node level => do
          let sibling ← Py.getItem (Py.cells d sib) level
          if index.testBit level then poseidonHash sha256 (.str sibling) (.str node)
          else poseidonHash sha256 (.str node) (.str sibling)) x =
        .ok (ascend (hashHex sha256) index sib x l) ∧
      Hex64 (ascend (hashHex sha256) index sib x l) := by
    intro l
    induction l with
    | zero => exact fun _ => ⟨rfl, hexx⟩
    | succ l ih =>
      intro le
      obtain ⟨run, hexa⟩ := ih (by omega)
      have hexl := hexs l (by omega)
      rw [List.range_succ, List.foldlM_append, run]
      simp only [bind, Except.bind, List.foldlM_cons, List.foldlM_nil,
        Py.getItem_cells sib (show l < d from by omega), ascend]
      cases index.testBit l with
      | true =>
        simp only [if_true, poseidonHash_hex sha256 hexl hexa]
        exact ⟨rfl, hashHex_hex sha256 _ _⟩
      | false =>
        simp only [Bool.false_eq_true, if_false, poseidonHash_hex sha256 hexa hexl]
        exact ⟨rfl, hashHex_hex sha256 _ _⟩
  rw [foldPath, Py.length_cells]
  exact (loop d le_rfl).1

/-- The leaves are the nodes of the lowest level. -/
lemma leafNodes_eq {leaves : List String} (hexl : ∀ leaf ∈ leaves, Hex64 leaf) :
    leafNodes leaves =
      .ok (levelNodes sha256 (fun i => leaves.getD i zeroLeaf) 0 leaves.length) := by
  have each : ∀ entry ∈ leaves.zipIdx,
      (do let value ← element (.str entry.1); return (entry.2, format064x value)) =
        (.ok (entry.2, entry.1) : Except PyError (ℕ × String)) := by
    intro entry mem
    have hex := hexl entry.1 (List.fst_mem_of_mem_zipIdx mem)
    simp only [hex.element, bind, Except.bind, hex.format]
    rfl
  rw [leafNodes, Py.mapM_ok each]
  congr 1
  apply List.ext_getElem
  · simp [levelNodes]
  · intro i lt _
    have lt' : i < leaves.length := by simpa using lt
    simp [levelNodes, node, lt']

/-- `compute_root_from_leaves` is the root of the complete tree. -/
lemma computeRootFromLeaves_eq {leaves : List String} {depth : ℕ} (low : 1 ≤ depth)
    (high : depth ≤ 32) (nonempty : leaves ≠ []) (hexl : ∀ leaf ∈ leaves, Hex64 leaf)
    (fits : leaves.length ≤ 2 ^ depth) :
    computeRootFromLeaves sha256 none leaves depth =
      .ok (node (hashHex sha256) (fun i => leaves.getD i zeroLeaf) depth 0) := by
  have valid : validateDepth depth = .ok () := if_pos ⟨low, high⟩
  have few : ¬ leaves.length > 2 ^ depth := Nat.not_lt.mpr fits
  have accepted : ¬ ((Py.cells depth (emptyRoot (hashHex sha256) zeroLeaf)).length ≠ depth ∨
      leaves = [] ∨ (0 : ℤ) + leaves.length > 2 ^ depth) := by
    rintro (len | empty | many)
    · exact len (Py.length_cells _ _)
    · exact nonempty empty
    · rw [Int.zero_add] at many
      exact few (by exact_mod_cast many)
  have reference := appendReference_eq sha256 (n := 0) (d := depth)
    (fun k _ => emptyRoot_hex sha256 k) hexl
  rw [extendRoot_eq _ _ (frontier_zero sha256 (fun i => leaves.getD i zeroLeaf) _)
    (fun i x get => by simp [List.getD_eq_getElem?_getD, get]) nonempty (by omega),
    Nat.zero_add, cut_getD] at reference
  simp only [computeRootFromLeaves, append, valid, if_neg few, if_neg nonempty,
    initialState_frontier, if_neg accepted, bind, Except.bind, pure, Except.pure]
  rw [show ((0 : ℤ)) = ((0 : ℕ) : ℤ) from rfl, reference]

/-- Every Merkle path verifies: folding a leaf with its path gives the computed root. -/
theorem foldPath_computeMerklePath (sha256 : List UInt8 → List UInt8) (depth : ℕ)
    (leaves : List String) (i : ℕ) (low : 1 ≤ depth) (high : depth ≤ 32)
    (hexl : ∀ leaf ∈ leaves, Hex64 leaf) (fits : leaves.length ≤ 2 ^ depth)
    (lt : i < leaves.length) :
    ∃ path root, computeMerklePath sha256 i leaves depth = .ok path ∧ path.length = depth ∧
      computeRootFromLeaves sha256 none leaves depth = .ok root ∧
      foldPath sha256 i leaves[i] path = .ok root := by
  have nonempty : leaves ≠ [] := by
    rintro rfl
    exact absurd lt (Nat.not_lt_zero i)
  have hexd := getD_hex hexl
  have covers : Covers sha256 (fun i => leaves.getD i zeroLeaf) 0 leaves.length := by
    refine ⟨Nat.zero_lt_of_lt lt, fun j le => ?_⟩
    simp [node, emptyRoot, List.getElem?_eq_none le]
  obtain ⟨k, -, run⟩ := foldlM_pathLevel i hexd covers depth
  have valid : validateDepth depth = .ok () := if_pos ⟨low, high⟩
  have accepted : ¬ (¬ ((0 : ℤ) ≤ i ∧ (i : ℤ) < leaves.length) ∨ leaves.length > 2 ^ depth) := by
    rintro (out | many)
    · exact out ⟨Int.natCast_nonneg i, by exact_mod_cast lt⟩
    · exact absurd fits (Nat.not_le.mpr many)
  refine ⟨Py.cells depth fun level =>
      node (hashHex sha256) (fun i => leaves.getD i zeroLeaf) level (i / 2 ^ level ^^^ 1),
    _, ?_, Py.length_cells depth _, computeRootFromLeaves_eq low high nonempty hexl fits, ?_⟩
  · simp only [computeMerklePath, valid, if_neg accepted, @leafNodes_eq sha256 leaves hexl, bind,
      Except.bind, pure, Except.pure, Int.toNat_natCast]
    rw [run]
  · have leaf : leaves[i] = leaves.getD i zeroLeaf := by simp [lt]
    rw [leaf, foldPath_cells (hexd i) (fun l _ => (completeNode_eq sha256 hexd l _).2),
      ascend_eq _ (fun i => leaves.getD i zeroLeaf) (fun l _ => rfl)]
    rw [Nat.div_eq_of_lt (lt.trans_le fits)]

/-- The path of the second of two leaves in a tree of depth 2. -/
theorem foldPath_computeMerklePath_second_leaf :
    ∃ path root,
      computeMerklePath (List.take 32) 1 [repeat64 'a', repeat64 'b'] 2 = .ok path ∧
      path.length = 2 ∧
      computeRootFromLeaves (List.take 32) none [repeat64 'a', repeat64 'b'] 2 = .ok root ∧
      foldPath (List.take 32) 1 (repeat64 'b') path = .ok root := by
  apply foldPath_computeMerklePath (List.take 32) 2 [repeat64 'a', repeat64 'b'] 1
  · decide
  · decide
  · intro leaf mem
    simp only [List.mem_cons, List.not_mem_nil, or_false] at mem
    obtain rfl | rfl := mem
    · exact repeat64_hex (by decide)
    · exact repeat64_hex (by decide)
  · simp
  · simp

end StellarFlow.Merkle
