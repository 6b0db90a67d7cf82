import Mathlib.Data.List.Basic

/-!
# Files that are replaced as a whole

A directory entry and the files it may name. A file is written under another name, synced, and takes the entry over. A
power loss leaves the files that were synced, puts anything into the others, and may bring back an entry that the
directory had before it was itself brought to the disk. With each entry stands a note of what it was written for.

`Solid` is the invariant of a volume whose entries are only taken over by synced files: whatever entry there is after a
power loss, its file has what its note says. It is kept by writing to files that have no entry (`Free`).
-/

namespace AtomicFile
variable {β τ : Type}

structure File (β : Type) where
  contents : List β
  synced : Bool

/-- An entry: the file that it names, and a note. -/
structure Link (τ : Type) where
  file : Option ℕ
  note : τ

/-- The files that were made, the entry, and the older entries that a power loss may bring back. -/
structure Volume (β τ : Type) where
  files : List (File β)
  current : Link τ
  older : List (Link τ)

namespace Volume
variable (v : Volume β τ)

/-- A new file, which has no entry. -/
def create : Volume β τ := { v with files := v.files ++ [⟨[], false⟩] }

def write (i : ℕ) (text : List β) : Volume β τ :=
  { v with files := v.files.modify i fun f => ⟨f.contents ++ text, false⟩ }

def sync (i : ℕ) : Volume β τ := { v with files := v.files.modify i fun f => { f with synced := true } }

/-- The file takes the entry over. -/
def replace (i : ℕ) (note : τ) : Volume β τ :=
  { v with current := ⟨some i, note⟩, older := v.older ++ [v.current] }

/-- The directory is brought to the disk. -/
def commit : Volume β τ := { v with older := [] }

/-- The entries that there may be after a power loss. -/
def links : List (Link τ) := v.older ++ [v.current]

/-- A power loss, with the entry that comes back and what is in the files that were not synced. -/
def powerLoss (pick : ℕ) (lost : ℕ → List β) : Volume β τ where
  files := v.files.mapIdx fun i f => if f.synced then f else ⟨lost i, true⟩
  current := v.links[pick]?.getD v.current
  older := []

/-- The contents of the file that an entry names. -/
def readLink (link : Link τ) : Option (List β) := link.file.bind fun i => v.files[i]?.map File.contents

/-- The contents of the file. -/
def read : Option (List β) := v.readLink v.current

/-- No entry names the file. -/
def Free (i : ℕ) : Prop := ∀ link ∈ v.links, link.file ≠ some i

/-- The files that entries name are synced, and have what the notes say. -/
def Solid (P : τ → Option (List β) → Prop) : Prop :=
  ∀ link ∈ v.links, link.file = none ∧ P link.note none ∨
    ∃ i text, link.file = some i ∧ v.files[i]? = some ⟨text, true⟩ ∧ P link.note (some text)

end Volume

variable {v : Volume β τ} {P : τ → Option (List β) → Prop} {i : ℕ}

/-- The present link is among the links. -/
lemma mem_links_current : v.current ∈ v.links := List.mem_append_right _ (List.mem_singleton_self _)

namespace Volume.Solid

/-- Of a solid volume each link reads as it should. -/
lemma readLink (solid : v.Solid P) {link : Link τ} (mem : link ∈ v.links) : P link.note (v.readLink link) := by
  obtain ⟨none_, holds⟩ | ⟨i, text, names, file, holds⟩ := solid link mem
  · rw [Volume.readLink, none_]
    exact holds
  · rw [Volume.readLink, names, Option.bind_some, file]
    exact holds

/-- Of a solid volume the present link reads as it should. -/
lemma read (solid : v.Solid P) : P v.current.note v.read := solid.readLink mem_links_current

/-- What changes neither the entries nor their files. -/
lemma frame (solid : v.Solid P) {v' : Volume β τ} (links : ∀ link ∈ v'.links, link ∈ v.links)
    (files : ∀ link ∈ v.links, ∀ i text, link.file = some i → v.files[i]? = some ⟨text, true⟩ →
      v'.files[i]? = some ⟨text, true⟩) : v'.Solid P := by
  intro link mem
  obtain none_ | ⟨i, text, names, file, holds⟩ := solid link (links link mem)
  · exact .inl none_
  · exact .inr ⟨i, text, names, files link (links link mem) i text names file, holds⟩

/-- A new file keeps the volume solid. -/
lemma create (solid : v.Solid P) : v.create.Solid P :=
  solid.frame (fun _ mem => mem) fun _ _ _ _ _ file =>
    (List.getElem?_append_left (List.getElem?_eq_some_iff.1 file).1).trans file

/-- Changing a file that no link has keeps the volume solid. -/
lemma modify (solid : v.Solid P) (free : v.Free i) (f : File β → File β) :
    { v with files := v.files.modify i f }.Solid P :=
  solid.frame (fun _ mem => mem) fun link mem j text names file => by
    have other : i ≠ j := fun same => free link mem (same ▸ names)
    show (v.files.modify i f)[j]? = _
    rw [List.getElem?_modify, file]
    exact congrArg some (if_neg other)

/-- Writing a file that no link has keeps the volume solid. -/
lemma write (solid : v.Solid P) (free : v.Free i) (text : List β) : (v.write i text).Solid P := solid.modify free _

/-- Making such a file durable keeps the volume solid. -/
lemma sync (solid : v.Solid P) (free : v.Free i) : (v.sync i).Solid P := solid.modify free _

/-- A synced file takes the entry over. -/
lemma replace (solid : v.Solid P) {text : List β} (file : v.files[i]? = some ⟨text, true⟩) {note : τ}
    (holds : P note (some text)) : (v.replace i note).Solid P := by
  intro link mem
  rcases List.mem_append.1 mem with old | new
  · exact solid link old
  · obtain rfl := List.mem_singleton.1 new
    exact .inr ⟨i, text, rfl, file, holds⟩

/-- The links may be made durable. -/
lemma commit (solid : v.Solid P) : v.commit.Solid P :=
  solid.frame (fun link mem => by
    rcases List.mem_append.1 mem with old | same
    · cases old
    · exact List.mem_append_right _ same) fun _ _ _ _ _ file => file

end Volume.Solid

/-- After a power loss the link is one of those there were. -/
lemma mem_links_powerLoss (pick : ℕ) (lost : ℕ → List β) : (v.powerLoss pick lost).current ∈ v.links := by
  show v.links[pick]?.getD v.current ∈ v.links
  cases found : v.links[pick]? with
  | none => exact mem_links_current
  | some link => exact List.mem_of_getElem? found

/-- After a power loss there is one link only. -/
lemma links_powerLoss (pick : ℕ) (lost : ℕ → List β) :
    (v.powerLoss pick lost).links = [(v.powerLoss pick lost).current] := rfl

/-- A solid volume stays so after a power loss. -/
lemma Volume.Solid.powerLoss (solid : v.Solid P) (pick : ℕ) (lost : ℕ → List β) : (v.powerLoss pick lost).Solid P :=
  solid.frame (fun link mem => by
    rw [links_powerLoss] at mem
    rw [List.mem_singleton.1 mem]
    exact mem_links_powerLoss pick lost) fun _ _ i text _ file => by
      show (v.files.mapIdx _)[i]? = _
      rw [List.getElem?_mapIdx, file]
      rfl

/-- A file that was just made. -/
lemma free_create (solid : v.Solid P) : v.create.Free v.files.length := by
  intro link mem names
  obtain ⟨none_, -⟩ | ⟨i, text, named, file, -⟩ := solid link mem
  · cases none_.symm.trans names
  · have lt := (List.getElem?_eq_some_iff.1 file).1
    cases named.symm.trans names
    exact Nat.lt_irrefl _ lt

end AtomicFile
