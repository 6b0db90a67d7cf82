import StellarFlow.Lib.Blocks
import StellarFlow.Merkle.Incremental

/-!
# The native engine refines the reference

Model of the C ABI in `native/shielded_merkle/src/lib.rs` and of its ctypes binding
`app/services/native_merkle.py`. Field elements are packed 32-byte blocks, counters are `u64`, and the
error codes are those of the Rust function. A pointer is `none` when null and otherwise carries the
memory it points to; output pointers only matter for the null check.

`bytes.hex` is a homomorphism from the Rust hash to the string hash (`hex_legacyHash`), so the library's
`extend_hom` carries the byte-level loop (`stellarflowMerkleAppend_eq`) to `_append_reference`
(`nativeAppend_eq_appendReference`).
-/

namespace StellarFlow.Merkle
open HexText MerkleTree

/-- `ELEMENT_BYTES`. -/
def elementBytes : ℕ := 32

/-- An all-zero field element, `[0_u8; ELEMENT_BYTES]`. -/
def zeroElement : List UInt8 := List.replicate elementBytes 0

variable (sha256 : List UInt8 → List UInt8)

/-- Rust `legacy_hash`, with the modulus applied. -/
def legacyHash (left right : List UInt8) : List UInt8 :=
  let left := natOfBytes left % bn254Prime
  let right := natOfBytes right % bn254Prime
  let digest := sha256 (encode s!"poseidon2:{left}:{right}")
  let encoded := bytesOfNat (natOfBytes digest % bn254Prime)
  List.replicate (elementBytes - encoded.length) 0 ++ encoded

/-- Rust `zeroes`: the precomputed table of empty roots. -/
def zeroes : List (List UInt8) :=
  (List.range maxDepth).foldl
    (fun zeroes level =>
      let zero := zeroes.getD level zeroElement
      zeroes.set (level + 1) (legacyHash sha256 zero zero))
    (List.replicate (maxDepth + 1) zeroElement)

/-- One level of the inner loop of `stellarflow_merkle_append`, on the node and the packed state. -/
def nativeLevel (count : UInt64) (acc : List UInt8 × List UInt8) (level : ℕ) :
    List UInt8 × List UInt8 :=
  let (node, state) := acc
  if (count >>> UInt64.ofNat level) &&& 1 = 0 then
    (legacyHash sha256 node ((zeroes sha256).getD level zeroElement),
      Blocks.patch elementBytes state level node)
  else
    (legacyHash sha256 (Blocks.slot elementBytes state level) node, state)

/-- One turn of the outer loop of `stellarflow_merkle_append`. -/
def nativeLeaf (depth : ℕ) (acc : List UInt8 × List UInt8 × UInt64) (leaf : List UInt8) :
    List UInt8 × List UInt8 × UInt64 :=
  let (_, state, count) := acc
  let (node, state) := (List.range depth).foldl (nativeLevel sha256 count) (leaf, state)
  (node, state, count + 1)

/-- Rust `stellarflow_merkle_append`: the written root and frontier, or the error code. -/
def stellarflowMerkleAppend (depth : UInt32) (leafCount : UInt64)
    (frontier leaves : Option (List UInt8)) (leavesLen : UInt64) (outRoot outFrontier : Option Unit) :
    Except ℕ (List UInt8 × List UInt8) :=
  let depth := depth.toNat
  if depth = 0 ∨ depth > maxDepth ∨ leafCount ≥ (1 : UInt64) <<< UInt64.ofNat depth ∨
      leavesLen % 32 ≠ 0 then .error 1
  else if frontier.isNone ∨ outRoot.isNone ∨ outFrontier.isNone ∨
      (leavesLen ≠ 0 ∧ leaves.isNone) then .error 2
  else
    let leafTotal := leavesLen / 32
    if leafTotal > ((1 : UInt64) <<< UInt64.ofNat depth) - leafCount then .error 3
    else
      let frontierIn := (frontier.getD []).take (depth * elementBytes)
      let leavesIn := (leaves.getD []).take leavesLen.toNat
      let root := (zeroes sha256).getD depth zeroElement
      let (root, state, _) := (Blocks.chunks elementBytes leavesIn).foldl (nativeLeaf sha256 depth)
        (root, frontierIn, leafCount)
      if leafTotal = 0 then .error 4 else .ok (root, state)

/-- `NativeMerkle._elements`; `depth` is the optional expected length. -/
def elements (values : List String) (depth : Option ℕ) : Except PyError (List UInt8) := do
  let expected := depth.getD values.length
  if values.length ≠ expected then
    throw (.valueError "invalid frontier length")
  let parts ← values.mapM fun value =>
    match bytesOfHex value.toList with
    | some bytes => .ok bytes
    | none => .error (.valueError "Merkle elements must be 64-character hexadecimal strings")
  let packed := parts.flatten
  if packed.length ≠ expected * 32 then
    throw (.valueError "Merkle elements must be exactly 32 bytes")
  return packed

/-- `bytes.hex` as text. -/
def hexString (bytes : List UInt8) : String := String.ofList (hexOfBytes bytes)

/-- `NativeMerkle.append`. -/
def nativeAppend : Engine := fun depth leafCount frontier leaves => do
  if ¬ (1 ≤ depth ∧ depth ≤ maxDepth) ∨ ¬ (0 ≤ leafCount ∧ leafCount < 2 ^ depth) then
    throw (.valueError "invalid tree depth or leaf count")
  if leaves = [] then
    throw (.valueError "at least one leaf is required")
  let state ← elements frontier (some depth)
  let packedLeaves ← elements leaves none
  match stellarflowMerkleAppend sha256 (UInt32.ofNat depth) (UInt64.ofInt leafCount) (some state)
      (some packedLeaves) (UInt64.ofNat packedLeaves.length) (some ()) (some ()) with
  | .error code =>
    throw (.valueError s!"native Merkle update rejected input (code {code})")
  | .ok (rootOut, rawState) =>
    return (hexString rootOut,
      (List.range ((rawState.length + 31) / 32)).map fun k => hexString (Blocks.slot 32 rawState k))

variable {sha256}

/-- A packed field element. -/
def IsElement (bytes : List UInt8) : Prop := bytes.length = elementBytes

/-- The hash writes a whole element whose value is the reduced digest. -/
lemma legacyHash_spec (left right : List UInt8) :
    IsElement (legacyHash sha256 left right) ∧
      (natOfBytes (legacyHash sha256 left right) : ℤ) =
        poseidonBn2542 sha256 (natOfBytes left) (natOfBytes right) := by
  have fits : ∀ m, m % bn254Prime < 256 ^ 32 := by
    intro m
    refine (Nat.mod_lt m (by decide)).trans ?_
    rw [bn254Prime]
    norm_num
  obtain ⟨value, short⟩ := bytesOfNat_spec (w := 32) (by decide)
    (fits (natOfBytes (sha256 (encode
      s!"poseidon2:{natOfBytes left % bn254Prime}:{natOfBytes right % bn254Prime}"))))
  refine ⟨?_, ?_⟩
  · rw [IsElement, legacyHash, List.length_append, List.length_replicate]
    exact Nat.sub_add_cancel short
  · rw [legacyHash, natOfBytes, List.map_append, List.map_replicate]
    rw [show UInt8.toNat 0 = 0 from rfl, Numeral.value_replicate_zero_append]
    exact congrArg Int.ofNat value

/-- The text of an element has 64 hexadecimal digits. -/
lemma hexString_hex {bytes : List UInt8} (elem : IsElement bytes) : Hex64 (hexString bytes) := by
  obtain ⟨hex, len, -⟩ := hexOfBytes_spec bytes
  rw [elem] at len
  exact hex64_ofList.mpr ⟨len, hex⟩

/-- The text of an element has the value of its bytes. -/
lemma hexValue_hexString (bytes : List UInt8) : hexValue (hexString bytes).toList = natOfBytes bytes := by
  rw [hexString, String.toList_ofList]
  exact (hexOfBytes_spec bytes).2.2

/-- `bytes.hex` carries the Rust hash to the string hash. -/
lemma hex_legacyHash (left right : List UInt8) :
    hexString (legacyHash sha256 left right) =
      hashHex sha256 (hexString left) (hexString right) := by
  obtain ⟨elem, value⟩ := @legacyHash_spec sha256 left right
  have back := (hexString_hex elem).format
  rw [hexValue_hexString, value] at back
  rw [hashHex, hexValue_hexString, hexValue_hexString, back]

/-- The zero element has 32 bytes. -/
lemma zeroElement_elem : IsElement zeroElement := List.length_replicate

/-- The text of the zero element is the zero leaf. -/
lemma hex_zeroElement : hexString zeroElement = zeroLeaf := rfl

/-- Hashing elements gives an element. -/
lemma legacyHash_closed (left right : List UInt8) (_ : IsElement left) (_ : IsElement right) :
    IsElement (legacyHash sha256 left right) :=
  (legacyHash_spec left right).1

/-- After `k` turns of the loop of `zeroes` the table holds the empty roots up to level `k`. -/
lemma foldl_zeroes {k : ℕ} (le : k ≤ maxDepth) :
    (List.range k).foldl
        (fun zeroes level =>
          let zero := zeroes.getD level zeroElement
          zeroes.set (level + 1) (legacyHash sha256 zero zero))
        (List.replicate (maxDepth + 1) zeroElement) =
      Py.cells (maxDepth + 1)
        (fun l => if l ≤ k then emptyRoot (legacyHash sha256) zeroElement l else zeroElement) := by
  induction k with
  | zero =>
    apply List.ext_getElem
    · simp
    · intro i _ _
      simp only [List.range_zero, List.foldl_nil, List.getElem_replicate, Py.cells,
        List.getElem_map, List.getElem_range]
      split
      · rename_i le
        rw [Nat.le_zero.mp le]
        rfl
      · rfl
  | succ k ih =>
    have entry : (Py.cells (maxDepth + 1) (fun l =>
        if l ≤ k then emptyRoot (legacyHash sha256) zeroElement l else zeroElement)).getD k
          zeroElement = emptyRoot (legacyHash sha256) zeroElement k := by
      simp [Py.cells, show k < maxDepth + 1 from by omega]
    rw [List.range_succ, List.foldl_append, ih (by omega)]
    simp only [List.foldl_cons, List.foldl_nil, entry, Py.set_cells]
    apply Py.cells_congr
    intro i _
    by_cases eq : i = k + 1
    · subst eq
      simp [emptyRoot]
    · simp only [Function.update_of_ne eq, show i ≤ k + 1 ↔ i ≤ k from by omega]

/-- The table of zeroes has the empty roots. -/
lemma zeroes_getD {level : ℕ} (le : level ≤ maxDepth) :
    (zeroes sha256).getD level zeroElement = emptyRoot (legacyHash sha256) zeroElement level := by
  rw [zeroes, foldl_zeroes le_rfl]
  simp [Py.cells, show level < maxDepth + 1 from by omega, le]

/-- The packed cells of a frontier. -/
def packed (d : ℕ) (f : ℕ → List UInt8) : List UInt8 := (Py.cells d f).flatten

/-- Cells of elements have their width. -/
lemma cells_elem {d : ℕ} {f : ℕ → List UInt8} (elems : ∀ k, k < d → IsElement (f k)) :
    ∀ x ∈ Py.cells d f, x.length = elementBytes := by
  intro x mem
  obtain ⟨k, memk, rfl⟩ := List.mem_map.mp mem
  exact elems k (List.mem_range.mp memk)

/-- A packed cell is found in its slot. -/
lemma slot_packed {d i : ℕ} {f : ℕ → List UInt8} (elems : ∀ k, k < d → IsElement (f k)) (lt : i < d) :
    Blocks.slot elementBytes (packed d f) i = f i := by
  rw [packed, Blocks.slot_flatten (cells_elem elems) (by simpa using lt)]
  simp [Py.cells]

/-- A packed cell is patched in its slot. -/
lemma patch_packed {d i : ℕ} {f : ℕ → List UInt8} {x : List UInt8}
    (elems : ∀ k, k < d → IsElement (f k)) (lt : i < d) :
    Blocks.patch elementBytes (packed d f) i x = packed d (Function.update f i x) := by
  rw [packed, Blocks.patch_flatten (cells_elem elems) (by simpa using lt), Py.set_cells]
  rfl

/-- The bit test of the Rust loop. -/
lemma shiftRight_and_one (count : UInt64) {level : ℕ} (lt : level < 64) :
    (count >>> UInt64.ofNat level) &&& 1 = 0 ↔ count.toNat.testBit level = false := by
  have bit : ((count >>> UInt64.ofNat level) &&& 1).toNat = count.toNat / 2 ^ level % 2 := by
    rw [UInt64.toNat_and, UInt64.toNat_shiftRight, UInt64.toNat_ofNat',
      Nat.mod_eq_of_lt (show level < 2 ^ 64 from by omega), Nat.mod_eq_of_lt lt,
      Nat.shiftRight_eq_div_pow]
    exact Nat.and_one_is_mod _
  rw [← UInt64.toNat_inj, bit, Nat.testBit_eq_decide_div_mod_eq, decide_eq_false_iff_not]
  show _ = 0 ↔ _
  omega

/-- The capacity `1_u64 << depth` does not overflow. -/
lemma toNat_one_shiftLeft {d : ℕ} (lt : d < 64) : ((1 : UInt64) <<< UInt64.ofNat d).toNat = 2 ^ d := by
  have small : d < 2 ^ 64 := by omega
  rw [UInt64.toNat_shiftLeft, UInt64.toNat_ofNat_of_lt' small, Nat.mod_eq_of_lt lt, Nat.shiftLeft_eq,
    show UInt64.toNat 1 = 1 from rfl, Nat.one_mul]
  exact Nat.mod_eq_of_lt (Nat.pow_lt_pow_right (by decide) lt)

/-- One level of the Rust append over packed cells is the library's. -/
lemma nativeLevel_packed {count : UInt64} {d level : ℕ} {f : ℕ → List UInt8} {node : List UInt8}
    (le : d ≤ maxDepth) (lt : level < d) (elems : ∀ k, k < d → IsElement (f k)) :
    nativeLevel sha256 count (node, packed d f) level =
      ((levelStep (legacyHash sha256) zeroElement count.toNat (node, f) level).1,
        packed d (levelStep (legacyHash sha256) zeroElement count.toNat (node, f) level).2) := by
  have small : level < 64 := by
    rw [maxDepth] at le
    omega
  have bit := shiftRight_and_one count small
  cases h : count.toNat.testBit level with
  | true =>
    have odd : ¬ (count >>> UInt64.ofNat level) &&& 1 = 0 := by
      rw [bit, h]
      exact Bool.noConfusion
    simp only [nativeLevel, if_neg odd, slot_packed elems lt, levelStep, h, if_true]
  | false =>
    simp only [nativeLevel, if_pos (bit.mpr h), zeroes_getD (show level ≤ maxDepth from by omega),
      patch_packed elems lt, levelStep, h, Bool.false_eq_true, if_false]

/-- The levels climb and advance as in the library. -/
lemma foldl_nativeLevel {count : UInt64} {d l : ℕ} {f : ℕ → List UInt8} {x : List UInt8}
    (le : d ≤ maxDepth) (lel : l ≤ d) (elems : ∀ k, k < d → IsElement (f k)) (elemx : IsElement x) :
    (List.range l).foldl (nativeLevel sha256 count) (x, packed d f) =
      (climb (legacyHash sha256) zeroElement count.toNat f x l,
        packed d (fun k =>
          if k < l then advance (legacyHash sha256) zeroElement count.toNat f x k else f k)) := by
  induction l with
  | zero => simp [climb]
  | succ l ih =>
    have next := foldl_levelStep (legacyHash sha256) zeroElement count.toNat f x (l + 1)
    rw [List.range_succ, List.foldl_append, foldl_levelStep, List.foldl_cons, List.foldl_nil] at next
    have advanced := advance_mem (n := count.toNat) (@legacyHash_closed sha256)
      zeroElement_elem elems elemx
    have elems' : ∀ k, k < d → IsElement
        (if k < l then advance (legacyHash sha256) zeroElement count.toNat f x k else f k) := by
      intro k lt
      split
      · exact advanced k lt
      · exact elems k lt
    rw [List.range_succ, List.foldl_append, ih (by omega), List.foldl_cons, List.foldl_nil,
      nativeLevel_packed le (by omega) elems', next]

/-- The outer loop of the Rust append is the append of a list of leaves. -/
lemma foldl_nativeLeaf {count : UInt64} {d : ℕ} {f : ℕ → List UInt8} {r : List UInt8}
    {leaves : List (List UInt8)} (le : d ≤ maxDepth) (elems : ∀ k, k < d → IsElement (f k))
    (eleml : ∀ leaf ∈ leaves, IsElement leaf) (fits : count.toNat + leaves.length < 2 ^ 64) :
    ∃ count', leaves.foldl (nativeLeaf sha256 d) (r, packed d f, count) =
      (extendRoot (legacyHash sha256) zeroElement d count.toNat f r leaves,
        packed d (extend (legacyHash sha256) zeroElement count.toNat f leaves), count') := by
  induction leaves generalizing count f r with
  | nil => exact ⟨count, rfl⟩
  | cons x xs ih =>
    have elemx := eleml x (by simp)
    have loop : (List.range d).foldl (nativeLevel sha256 count) (x, packed d f) = _ :=
      foldl_nativeLevel le le_rfl elems elemx
    have below : packed d (fun k =>
          if k < d then advance (legacyHash sha256) zeroElement count.toNat f x k else f k) =
        packed d (advance (legacyHash sha256) zeroElement count.toNat f x) :=
      congrArg List.flatten (Py.cells_congr (fun k lt => if_pos lt))
    rw [below] at loop
    rw [List.length_cons] at fits
    have next : (count + 1).toNat = count.toNat + 1 := by
      rw [UInt64.toNat_add]
      exact Nat.mod_eq_of_lt (by show count.toNat + 1 < 2 ^ 64; omega)
    obtain ⟨count', run⟩ := @ih (count + 1) (advance (legacyHash sha256) zeroElement count.toNat f x)
      (climb (legacyHash sha256) zeroElement count.toNat f x d)
      (advance_mem legacyHash_closed zeroElement_elem elems elemx)
      (fun leaf mem => eleml leaf (by simp [mem])) (by omega)
    refine ⟨count', ?_⟩
    rw [next] at run
    rw [List.foldl_cons]
    simp only [nativeLeaf, loop, run, extendRoot, extend]

/-- Packed cells have their width each. -/
lemma length_packed {d : ℕ} {f : ℕ → List UInt8} (elems : ∀ k, k < d → IsElement (f k)) :
    (packed d f).length = d * elementBytes := by
  rw [packed, Blocks.length_flatten (cells_elem elems), Py.length_cells]

/-- The binding cuts the packed frontier into the texts of its cells. -/
lemma unpack_packed {d : ℕ} {f : ℕ → List UInt8} (elems : ∀ k, k < d → IsElement (f k)) :
    (List.range (((packed d f).length + 31) / 32)).map
        (fun k => hexString (Blocks.slot 32 (packed d f) k)) = Py.cells d (hexString ∘ f) := by
  have size : (packed d f).length = d * 32 := length_packed elems
  rw [size, show (d * 32 + 31) / 32 = d by omega]
  apply List.map_congr_left
  intro k mem
  exact congrArg hexString (slot_packed elems (List.mem_range.mp mem))

/-- The Rust function accepts every update that fits and returns the append of the leaves. -/
lemma stellarflowMerkleAppend_eq {d n : ℕ} {f : ℕ → List UInt8} {leaves : List (List UInt8)}
    (low : 1 ≤ d) (high : d ≤ maxDepth) (elems : ∀ k, k < d → IsElement (f k))
    (eleml : ∀ leaf ∈ leaves, IsElement leaf) (nonempty : leaves ≠ [])
    (fits : n + leaves.length ≤ 2 ^ d) :
    stellarflowMerkleAppend sha256 (UInt32.ofNat d) (UInt64.ofNat n) (some (packed d f))
        (some leaves.flatten) (UInt64.ofNat leaves.flatten.length) (some ()) (some ()) =
      .ok (extendRoot (legacyHash sha256) zeroElement d n f
          (emptyRoot (legacyHash sha256) zeroElement d) leaves,
        packed d (extend (legacyHash sha256) zeroElement n f leaves)) := by
  have high' : d ≤ 32 := high
  have capacity : 2 ^ d ≤ 2 ^ 32 := Nat.pow_le_pow_right (by decide) high'
  have pos : 0 < leaves.length := List.length_pos_iff.mpr nonempty
  have depth : (UInt32.ofNat d).toNat = d := UInt32.toNat_ofNat_of_lt' (show d < 2 ^ 32 by omega)
  have count : (UInt64.ofNat n).toNat = n := UInt64.toNat_ofNat_of_lt' (show n < 2 ^ 64 by omega)
  have size : leaves.flatten.length = leaves.length * 32 := Blocks.length_flatten eleml
  have len : (UInt64.ofNat leaves.flatten.length).toNat = leaves.length * 32 := by
    rw [size]
    exact UInt64.toNat_ofNat_of_lt' (show leaves.length * 32 < 2 ^ 64 by omega)
  -- the machine words of the call, none of which wraps
  have shift := toNat_one_shiftLeft (show d < 64 from by omega)
  have total : (UInt64.ofNat leaves.flatten.length / 32).toNat = leaves.length := by
    rw [UInt64.toNat_div, len]
    exact Nat.mul_div_cancel _ (by decide)
  have accepted : ¬ (d = 0 ∨ d > maxDepth ∨ UInt64.ofNat n ≥ (1 : UInt64) <<< UInt64.ofNat d ∨
      UInt64.ofNat leaves.flatten.length % 32 ≠ 0) := by
    rintro (zero | deep | full | ragged)
    · omega
    · omega
    · rw [ge_iff_le, UInt64.le_iff_toNat_le, shift, count] at full
      omega
    · apply ragged
      rw [← UInt64.toNat_inj, UInt64.toNat_mod, len]
      exact Nat.mul_mod_left _ _
  have room : ¬ UInt64.ofNat leaves.flatten.length / 32 >
      ((1 : UInt64) <<< UInt64.ofNat d) - UInt64.ofNat n := by
    have le : UInt64.ofNat n ≤ (1 : UInt64) <<< UInt64.ofNat d := by
      rw [UInt64.le_iff_toNat_le, shift, count]
      omega
    rw [gt_iff_lt, UInt64.lt_iff_toNat_lt, total, UInt64.toNat_sub_of_le _ _ le, shift, count]
    omega
  have some_leaf : ¬ UInt64.ofNat leaves.flatten.length / 32 = 0 := by
    rw [← UInt64.toNat_inj, total]
    exact Nat.ne_of_gt pos
  obtain ⟨count', run⟩ := @foldl_nativeLeaf sha256 (UInt64.ofNat n) d f
    (emptyRoot (legacyHash sha256) zeroElement d) leaves high elems eleml (by rw [count]; omega)
  rw [count] at run
  have whole : (packed d f).take (d * elementBytes) = packed d f :=
    List.take_of_length_le (length_packed elems).le
  have all : leaves.flatten.take (leaves.length * 32) = leaves.flatten :=
    List.take_of_length_le size.le
  simp only [stellarflowMerkleAppend, if_neg accepted, Option.isNone_some, Bool.false_eq_true,
    and_false, or_self, if_false, if_neg room, if_neg some_leaf, Option.getD_some, depth, len, all,
    whole, zeroes_getD high, Blocks.chunks_flatten (show 0 < elementBytes by decide) eleml, run]

/-- `bytes.fromhex` reads a text of 64 digits as the element `bytes.hex` writes back. -/
lemma Hex64.bytes {value : String} (hex64 : Hex64 value) :
    ∃ bytes, bytesOfHex value.toList = some bytes ∧ IsElement bytes ∧ hexString bytes = value := by
  obtain ⟨len, hex⟩ := hex64
  obtain ⟨bytes, read, size, back⟩ := bytesOfHex_spec (k := 32) hex (String.length_toList.trans len)
  refine ⟨bytes, read, size, ?_⟩
  rw [hexString, back, String.ofList_toList]

/-- Hexadecimal texts are read as elements. -/
lemma elements_eq {values : List String} (depth : Option ℕ) (hexv : ∀ value ∈ values, Hex64 value)
    (expected : depth.getD values.length = values.length) :
    ∃ parts : List (List UInt8), elements values depth = .ok parts.flatten ∧
      parts.map hexString = values ∧ ∀ part ∈ parts, IsElement part := by
  have each : ∀ value ∈ values, ∃ bytes, bytesOfHex value.toList = some bytes ∧
      IsElement bytes ∧ hexString bytes = value := fun value mem => (hexv value mem).bytes
  choose! bytes read elem back using each
  have parts : (values.mapM fun value => match bytesOfHex value.toList with
      | some bytes => (.ok bytes : Except PyError (List UInt8))
      | none => .error (.valueError "Merkle elements must be 64-character hexadecimal strings")) =
      .ok (values.map bytes) :=
    Py.mapM_ok fun value mem => by rw [read value mem]
  have elemp : ∀ part ∈ values.map bytes, part.length = 32 := by
    intro part mem
    obtain ⟨value, memv, rfl⟩ := List.mem_map.mp mem
    exact elem value memv
  refine ⟨values.map bytes, ?_, ?_, elemp⟩
  · have size : (values.map bytes).flatten.length = values.length * 32 := by
      rw [Blocks.length_flatten elemp, List.length_map]
    simp only [elements, expected, ne_eq, not_true_eq_false, if_false, parts, size, bind, Except.bind,
      pure, Except.pure]
  · rw [List.map_map]
    conv_rhs => rw [← List.map_id values]
    exact List.map_congr_left back

/-- The native engine returns exactly what the reference returns on every update that fits. -/
theorem nativeAppend_eq_appendReference (sha256 : List UInt8 → List UInt8) (depth : ℕ)
    (leafCount : ℤ) (frontier leaves : List String) (low : 1 ≤ depth) (high : depth ≤ 32)
    (nonneg : 0 ≤ leafCount) (len : frontier.length = depth)
    (hexf : ∀ cell ∈ frontier, Hex64 cell) (hexl : ∀ leaf ∈ leaves, Hex64 leaf)
    (nonempty : leaves ≠ []) (fits : leafCount + leaves.length ≤ 2 ^ depth) :
    ∃ root state, nativeAppend sha256 depth leafCount frontier leaves = .ok (root, state) ∧
      appendReference sha256 frontier leafCount leaves depth = .ok (root, state) := by
  obtain ⟨n, rfl⟩ := Int.eq_ofNat_of_zero_le nonneg
  have fits' : n + leaves.length ≤ 2 ^ depth := by exact_mod_cast fits
  have pos : 0 < leaves.length := List.length_pos_iff.mpr nonempty
  obtain ⟨cells, packf, backf, elemf⟩ :=
    elements_eq (some depth) hexf (by rw [Option.getD_some, len])
  obtain ⟨blocks, packl, backl, eleml⟩ := elements_eq none hexl rfl
  have lenc : cells.length = depth := by rw [← len, ← backf, List.length_map]
  have lenb : blocks.length = leaves.length := by rw [← backl, List.length_map]
  -- the frontier as functions of the level, on both sides of `bytes.hex`
  obtain ⟨f, rfl⟩ : ∃ f, cells = Py.cells depth f :=
    ⟨_, lenc ▸ Py.eq_cells_getD cells zeroElement⟩
  have elems : ∀ k, k < depth → IsElement (f k) := fun k lt =>
    elemf (f k) (List.mem_map_of_mem (List.mem_range.mpr lt))
  have frontier_eq : frontier = Py.cells depth (hexString ∘ f) := by
    rw [← backf, Py.cells, Py.cells, List.map_map]
  have native := @stellarflowMerkleAppend_eq sha256 depth n f blocks low high elems eleml
    (List.length_pos_iff.mp (lenb ▸ pos)) (lenb ▸ fits')
  -- the byte-level append, seen through `bytes.hex`, is the append on text
  obtain ⟨roots, states⟩ := extend_hom legacyHash_closed zeroElement_elem
    (fun left right _ _ => @hex_legacyHash sha256 left right) hex_zeroElement
    (d := depth) (n := n) (g := hexString ∘ f) (r := emptyRoot (legacyHash sha256) zeroElement depth)
    elems (fun _ _ => rfl) eleml
  rw [backl, emptyRoot_hom legacyHash_closed zeroElement_elem
    (fun left right _ _ => @hex_legacyHash sha256 left right) hex_zeroElement] at roots
  rw [backl] at states
  have hexcells : ∀ k, k < depth → Hex64 ((hexString ∘ f) k) := fun k lt => hexString_hex (elems k lt)
  have reference := appendReference_eq sha256 (n := n) hexcells hexl
  have unpacked := unpack_packed (f := extend (legacyHash sha256) zeroElement n f blocks)
    (extend_mem legacyHash_closed zeroElement_elem elems eleml)
  have texts : Py.cells depth (hexString ∘ extend (legacyHash sha256) zeroElement n f blocks) =
      Py.cells depth (extend (hashHex sha256) zeroLeaf n (hexString ∘ f) leaves) :=
    Py.cells_congr states
  have valid : ¬ (¬ (1 ≤ depth ∧ depth ≤ maxDepth) ∨ ¬ ((0 : ℤ) ≤ n ∧ (n : ℤ) < 2 ^ depth)) := by
    have below : (n : ℤ) < 2 ^ depth := by
      exact_mod_cast (by omega : n < 2 ^ depth)
    rintro (out | out)
    · exact out ⟨low, high⟩
    · exact out ⟨nonneg, below⟩
  have count : UInt64.ofInt (n : ℤ) = UInt64.ofNat n := by
    have capacity : 2 ^ depth ≤ 2 ^ 32 := Nat.pow_le_pow_right (by decide) high
    have reduced : ((n : ℤ) % 2 ^ 64).toNat = n := by omega
    rw [UInt64.ofInt, reduced]
  refine ⟨_, _, ?_, frontier_eq ▸ reference⟩
  simp only [packed] at native unpacked
  simp only [nativeAppend, if_neg valid, if_neg nonempty, packf, packl, bind, Except.bind, pure,
    Except.pure, count, native, unpacked, texts, roots]

/-- The last admissible leaf of a tree of depth 1, above the field's prime. -/
theorem nativeAppend_eq_appendReference_last_leaf :
    ∃ root state,
      nativeAppend (List.take 32) 1 1 [repeat64 'e'] [repeat64 'f'] = .ok (root, state) ∧
      appendReference (List.take 32) [repeat64 'e'] 1 [repeat64 'f'] 1 = .ok (root, state) := by
  apply nativeAppend_eq_appendReference
  · decide
  · decide
  · decide
  · rfl
  · intro cell mem
    rw [List.mem_singleton.mp mem]
    exact repeat64_hex (by decide)
  · intro leaf mem
    rw [List.mem_singleton.mp mem]
    exact repeat64_hex (by decide)
  · simp
  · simp

end StellarFlow.Merkle
