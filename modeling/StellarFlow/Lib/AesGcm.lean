import Mathlib.Data.List.Basic
import Mathlib.Tactic.Cases

/-!
# AES-256-GCM

A cipher that makes encrypted data and a tag of a text, under a key and an initialization vector, and gives the text
back when it gets the same again. A program relies on no more than that (`Lawful`).

The seals of a table are those of a lawful cipher when no two texts of it have the same seal (`lawful_ofTable`), so that
a run can be followed on seals that the real cipher made.
-/

namespace AesGcm

def keyLength : ℕ := 32

def ivLength : ℕ := 12

def tagLength : ℕ := 16

/-- The encrypted data with the authentication tag, for a key, an initialization vector and a text; and back. -/
structure Cipher where
  encrypt : List UInt8 → List UInt8 → List UInt8 → List UInt8 × List UInt8
  decrypt : List UInt8 → List UInt8 → List UInt8 → List UInt8 → Except String (List UInt8)

/-- The tag has 16 bytes, and what was encrypted is decrypted with the same key, vector and tag. -/
structure Cipher.Lawful (cipher : Cipher) : Prop where
  tag_length : ∀ key iv text, (cipher.encrypt key iv text).2.length = tagLength
  decrypt_encrypt : ∀ key iv text, key.length = keyLength → iv.length = ivLength →
    cipher.decrypt key iv (cipher.encrypt key iv text).1 (cipher.encrypt key iv text).2 = .ok text

/-- What a text becomes under a key and a vector. -/
structure Seal where
  key : List UInt8
  iv : List UInt8
  text : List UInt8
  data : List UInt8
  tag : List UInt8
  deriving DecidableEq

/-- The tag of the texts outside a table. -/
def zeroTag : List UInt8 := List.replicate tagLength 0

/-- The tags of a table have their length and are not zero, and no two texts have the same seal. -/
def IsTable (table : List Seal) : Prop :=
  (∀ a ∈ table, a.tag.length = tagLength ∧ a.tag ≠ zeroTag) ∧
    ∀ a ∈ table, ∀ b ∈ table, a.key = b.key → a.iv = b.iv → a.data = b.data → a.tag = b.tag → a.text = b.text

instance (table : List Seal) : Decidable (IsTable table) := inferInstanceAs (Decidable (_ ∧ _))

/-- The cipher that makes the seals of a table, and leaves other texts as they are. -/
def Cipher.ofTable (table : List Seal) : Cipher where
  encrypt key iv text :=
    match table.find? fun a => a.key = key ∧ a.iv = iv ∧ a.text = text with
    | some a => (a.data, a.tag)
    | none => (text, zeroTag)
  decrypt key iv data tag :=
    match table.find? fun a => a.key = key ∧ a.iv = iv ∧ a.data = data ∧ a.tag = tag with
    | some a => .ok a.text
    | none => if tag = zeroTag then .ok data else .error "Unsupported state or unable to authenticate data"

/-- The cipher of a table is lawful. -/
theorem lawful_ofTable {table : List Seal} (isTable : IsTable table) : (Cipher.ofTable table).Lawful := by
  obtain ⟨tags, texts⟩ := isTable
  refine ⟨fun key iv text => ?_, fun key iv text _ _ => ?_⟩
  · rw [Cipher.ofTable]
    dsimp only
    split
    · rename_i a found
      exact (tags a (List.mem_of_find?_eq_some found)).1
    · exact List.length_replicate
  · have read : ∀ data tag, (∃ a ∈ table, a.key = key ∧ a.iv = iv ∧ a.data = data ∧ a.tag = tag ∧ a.text = text) →
        (Cipher.ofTable table).decrypt key iv data tag = .ok text := by
      rintro data tag ⟨a, mem, rfl, rfl, rfl, rfl, rfl⟩
      rw [Cipher.ofTable]
      dsimp only
      split
      · rename_i b found
        obtain ⟨key, iv, data, tag⟩ : b.key = a.key ∧ b.iv = a.iv ∧ b.data = a.data ∧ b.tag = a.tag := by
          simpa using List.find?_some found
        exact congrArg Except.ok (texts b (List.mem_of_find?_eq_some found) a mem key iv data tag)
      · rename_i none
        have differs := List.find?_eq_none.1 none a mem
        exact absurd (decide_eq_true ⟨rfl, rfl, rfl, rfl⟩) differs
    have plain : (Cipher.ofTable table).decrypt key iv text zeroTag = .ok text := by
      rw [Cipher.ofTable]
      dsimp only
      split
      · rename_i a found
        obtain ⟨-, -, -, zero⟩ : a.key = key ∧ a.iv = iv ∧ a.data = text ∧ a.tag = zeroTag := by
          simpa using List.find?_some found
        exact absurd zero (tags a (List.mem_of_find?_eq_some found)).2
      · exact if_pos rfl
    cases made : table.find? fun a => a.key = key ∧ a.iv = iv ∧ a.text = text with
    | none =>
      have encrypted : (Cipher.ofTable table).encrypt key iv text = (text, zeroTag) := by
        simp only [Cipher.ofTable, made]
      rw [encrypted]
      exact plain
    | some a =>
      have encrypted : (Cipher.ofTable table).encrypt key iv text = (a.data, a.tag) := by
        simp only [Cipher.ofTable, made]
      obtain ⟨key, iv, same⟩ : a.key = key ∧ a.iv = iv ∧ a.text = text := by
        simpa using List.find?_some made
      rw [encrypted]
      exact read a.data a.tag ⟨a, List.mem_of_find?_eq_some made, key, iv, rfl, rfl, same⟩

end AesGcm
