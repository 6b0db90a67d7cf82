import StellarFlow.Lib.HexText
import StellarFlow.Lib.Python

/-!
# The shielded Merkle tree service

Model of `app/services/merkle_service.py`: the persisted-tree hash `_poseidon_bn254_2`, the classmethods
of `MerkleService` that compute roots, frontiers and paths, and their error messages. SHA-256 is the
parameter `sha256`; the native engine, when one is loaded, is the parameter `engine` of `append`
(`NativeMerkle.append` itself is modelled in `StellarFlow/Merkle/Native.lean`).

Python integers are `ℤ` where the code checks their sign, and strings are `String`. `update_root`, which
persists the result, is left out.
-/

namespace StellarFlow.Merkle
open HexText

/-- The order of the BN254 scalar field (`BN254_PRIME`). -/
def bn254Prime : ℕ :=
  21888242871839275222246405745257275088548364400416034343698204186575808495617

/-- The version tag of the persisted hash (`HASH_SCHEME`). -/
def hashScheme : String := "legacy-poseidon2-sha256-bn254-v1"

/-- The deepest tree the engines accept (`NativeMerkle.MAX_DEPTH`). -/
def maxDepth : ℕ := 32

/-- `str.encode()`. -/
def encode (s : String) : List UInt8 := s.toUTF8.data.toList

/-- `f"{v:064x}"`. -/
def format064x (v : ℤ) : String := String.ofList (formatHex 64 v)

/-- An argument of `poseidon_hash`: raw bytes or hexadecimal text. -/
inductive Element where
  | bytes (value : List UInt8)
  | str (value : String)
  deriving DecidableEq, Repr

/-- `MerkleService._element`. -/
def element : Element → Except PyError ℤ
  | .bytes value =>
    if value.length ≠ 32 then .error (.valueError "Merkle elements must be exactly 32 bytes")
    else .ok (natOfBytes value)
  | .str value =>
    if value.length ≠ 64 then
      .error (.valueError "Merkle elements must be 64-character hexadecimal strings")
    else
      match intBase16 value.toList with
      | some v => .ok v
      | none => .error (.valueError "Merkle elements must be hexadecimal strings")

/-- `MerkleService._validate_depth`. -/
def validateDepth (depth : ℕ) : Except PyError Unit :=
  if 1 ≤ depth ∧ depth ≤ maxDepth then .ok ()
  else .error (.valueError "Merkle tree depth must be between 1 and 32")

variable (sha256 : List UInt8 → List UInt8)

/-- `_poseidon_bn254_2`, the persisted-tree hash on field elements. -/
def poseidonBn2542 (leftInt rightInt : ℤ) : ℤ :=
  let payload := encode s!"poseidon2:{leftInt % bn254Prime}:{rightInt % bn254Prime}"
  ((natOfBytes (sha256 payload) % bn254Prime : ℕ) : ℤ)

/-- `MerkleService.get_zero_value`: the root of an empty subtree. -/
def getZeroValue (level : ℤ) : Except PyError String :=
  if level < 0 then .error (.valueError "Merkle level cannot be negative")
  else
    let value := (List.range level.toNat).foldl (fun value _ => poseidonBn2542 sha256 value value) 0
    .ok (format064x value)

/-- `MerkleService.poseidon_hash`. -/
def poseidonHash (left right : Element) : Except PyError String := do
  let leftInt ← element left
  let rightInt ← element right
  return format064x (poseidonBn2542 sha256 leftInt rightInt)

/-- One level of the inner loop of `_append_reference`, on the node and the frontier state. -/
def appendLevel (leafCount : ℤ) (acc : String × List String) (level : ℕ) :
    Except PyError (String × List String) := do
  let (node, state) := acc
  if (leafCount >>> level) % 2 = 0 then
    let state ← Py.setItem state level node
    let zero ← getZeroValue sha256 level
    let node ← poseidonHash sha256 (.str node) (.str zero)
    return (node, state)
  else
    let left ← Py.getItem state level
    let node ← poseidonHash sha256 (.str left) (.str node)
    return (node, state)

/-- One turn of the outer loop of `_append_reference`, on the root, the state and the leaf count. -/
def appendLeaf (depth : ℕ) (acc : String × List String × ℤ) (leaf : String) :
    Except PyError (String × List String × ℤ) := do
  let (_, state, leafCount) := acc
  let value ← element (.str leaf)
  let (node, state) ← (List.range depth).foldlM (appendLevel sha256 leafCount)
    (format064x value, state)
  return (node, state, leafCount + 1)

/-- `MerkleService._append_reference`. -/
def appendReference (frontier : List String) (leafCount : ℤ) (leaves : List String) (depth : ℕ) :
    Except PyError (String × List String) := do
  let root ← getZeroValue sha256 depth
  let (root, state, _) ← leaves.foldlM (appendLeaf sha256 depth) (root, frontier, leafCount)
  return (root, state)

/-- A loaded native engine: depth, leaf count, frontier and leaves to root and frontier. -/
abbrev Engine := ℕ → ℤ → List String → List String → Except PyError (String × List String)

/-- `MerkleService._append`; `engine` is what `_native_engine()` returns. -/
def append (engine : Option Engine) (frontier : List String) (leafCount : ℤ) (leaves : List String)
    (depth : ℕ) : Except PyError (String × List String) := do
  validateDepth depth
  if frontier.length ≠ depth ∨ leaves = [] ∨ leafCount + leaves.length > 2 ^ depth then
    throw (.valueError "invalid incremental Merkle tree update")
  match engine with
  | some engine => engine depth leafCount frontier leaves
  | none => appendReference sha256 frontier leafCount leaves depth

/-- The persisted tree state (`tree_state`). -/
structure TreeState where
  version : ℕ
  hashScheme : String
  depth : ℕ
  frontier : List String
  deriving DecidableEq, Repr

/-- `MerkleService._initial_state`. -/
def initialState (depth : ℕ) : Except PyError TreeState := do
  let frontier ← (List.range depth).mapM fun level : ℕ => getZeroValue sha256 level
  return { version := 1, hashScheme := hashScheme, depth := depth, frontier := frontier }

/-- `MerkleService.compute_root_from_leaves`. -/
def computeRootFromLeaves (engine : Option Engine) (leaves : List String) (depth : ℕ) :
    Except PyError String := do
  validateDepth depth
  if leaves.length > 2 ^ depth then
    throw (.valueError "too many leaves for Merkle tree depth")
  if leaves = [] then
    getZeroValue sha256 depth
  else
    let state ← initialState sha256 depth
    let (root, _) ← append sha256 engine state.frontier 0 leaves depth
    return root

/-- `max(nodes, default=-1)` for a dictionary keyed by indices. -/
def maxKey (nodes : List (ℕ × String)) : ℤ :=
  (nodes.map fun entry => (entry.1 : ℤ)).foldl max (-1)

/-- The next dictionary of `compute_merkle_path`: the parents of all nodes of a level. -/
def parentNodes (nodes : List (ℕ × String)) (zero : String) :
    Except PyError (List (ℕ × String)) :=
  (List.range (maxKey nodes / 2 + 1).toNat).mapM fun parent => do
    let left := (nodes.lookup (parent * 2)).getD zero
    let right := (nodes.lookup (parent * 2 + 1)).getD zero
    let hash ← poseidonHash sha256 (.str left) (.str right)
    return (parent, hash)

/-- One level of the loop of `compute_merkle_path`, on the path, the dictionary and the index. -/
def pathLevel (acc : List String × List (ℕ × String) × ℕ) (level : ℕ) :
    Except PyError (List String × List (ℕ × String) × ℕ) := do
  let (path, nodes, index) := acc
  let zero ← getZeroValue sha256 level
  let path := path ++ [(nodes.lookup (index ^^^ 1)).getD zero]
  let nodes ← parentNodes sha256 nodes zero
  return (path, nodes, index / 2)

/-- The dictionary `compute_merkle_path` starts from: the normalised leaves by index. -/
def leafNodes (allLeaves : List String) : Except PyError (List (ℕ × String)) :=
  allLeaves.zipIdx.mapM fun (leaf, index) => do
    let value ← element (.str leaf)
    return (index, format064x value)

/-- `MerkleService.compute_merkle_path`. -/
def computeMerklePath (leafIndex : ℤ) (allLeaves : List String) (depth : ℕ) :
    Except PyError (List String) := do
  validateDepth depth
  if ¬ (0 ≤ leafIndex ∧ leafIndex < allLeaves.length) ∨ allLeaves.length > 2 ^ depth then
    throw (.valueError "invalid leaf index")
  let nodes ← leafNodes allLeaves
  let (path, _, _) ← (List.range depth).foldlM (pathLevel sha256) ([], nodes, leafIndex.toNat)
  return path

end StellarFlow.Merkle
