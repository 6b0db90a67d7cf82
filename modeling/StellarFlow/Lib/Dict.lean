import Mathlib.Data.List.Nodup

/-!
# Insertion-ordered dictionaries

The dictionaries of Python (and the maps of JavaScript): association lists with distinct keys, where a
new key goes to the end and an existing key keeps its place.
-/

/-- A dictionary; the keys are distinct. -/
structure Dict (κ ν : Type) where
  entries : List (κ × ν)
  nodup : (entries.map Prod.fst).Nodup

namespace Dict
variable {κ ν : Type} [DecidableEq κ]

/-- `{}`. -/
def empty : Dict κ ν where
  entries := []
  nodup := List.nodup_nil

/-- The keys in insertion order. -/
def keys (d : Dict κ ν) : List κ := d.entries.map Prod.fst

/-- `[k for k, v in d.items() if p(v)]`. -/
def keysWhere (d : Dict κ ν) (p : ν → Bool) : List κ :=
  (d.entries.filter fun e => p e.2).map Prod.fst

/-- `d.get(k)`. -/
def get? (d : Dict κ ν) (k : κ) : Option ν :=
  (d.entries.find? fun e => e.1 = k).map Prod.snd

/-- The entries of `d[k] = v`. -/
def setEntries (entries : List (κ × ν)) (k : κ) (v : ν) : List (κ × ν) :=
  if k ∈ entries.map Prod.fst then entries.map fun e => if e.1 = k then (k, v) else e
  else entries ++ [(k, v)]

/-- Setting a key keeps its place, or adds it at the end. -/
lemma map_fst_setEntries (entries : List (κ × ν)) (k : κ) (v : ν) :
    (setEntries entries k v).map Prod.fst =
      if k ∈ entries.map Prod.fst then entries.map Prod.fst else entries.map Prod.fst ++ [k] := by
  rw [setEntries]
  split
  · rw [List.map_map]
    apply List.map_congr_left
    intro e _
    by_cases eq : e.1 = k
    · simp [eq]
    · simp [eq]
  · simp

/-- `d[k] = v`. -/
def set (d : Dict κ ν) (k : κ) (v : ν) : Dict κ ν where
  entries := setEntries d.entries k v
  nodup := by
    rw [map_fst_setEntries]
    split
    · exact d.nodup
    · rename_i new
      refine List.nodup_append.mpr ⟨d.nodup, List.nodup_singleton k, ?_⟩
      rintro a mem b memb rfl
      exact new (List.mem_singleton.mp memb ▸ mem)

/-- `d.pop(k, None)`. -/
def pop (d : Dict κ ν) (k : κ) : Dict κ ν where
  entries := d.entries.filter fun e => e.1 ≠ k
  nodup := d.nodup.sublist (List.filter_sublist.map Prod.fst)

omit [DecidableEq κ] in
/-- The keys selected are keys. -/
lemma mem_keys_of_mem_keysWhere {d : Dict κ ν} {p : ν → Bool} {k : κ} (mem : k ∈ d.keysWhere p) :
    k ∈ d.keys := by
  obtain ⟨e, found, rfl⟩ := List.mem_map.mp mem
  exact List.mem_map_of_mem (List.mem_of_mem_filter found)

omit [DecidableEq κ] in
/-- The empty dictionary has no keys. -/
@[simp] lemma keys_empty : (empty : Dict κ ν).keys = [] := rfl

/-- A key that is set is there. -/
@[simp] lemma mem_keys_set {d : Dict κ ν} {k x : κ} {v : ν} :
    x ∈ (d.set k v).keys ↔ x = k ∨ x ∈ d.keys := by
  rw [keys, set, map_fst_setEntries]
  split
  · rename_i old
    refine ⟨.inr, ?_⟩
    rintro (rfl | mem)
    · exact old
    · exact mem
  · rw [List.mem_append, List.mem_singleton, or_comm]
    rfl

/-- A key that is popped is not. -/
@[simp] lemma mem_keys_pop {d : Dict κ ν} {k x : κ} : x ∈ (d.pop k).keys ↔ x ≠ k ∧ x ∈ d.keys := by
  simp only [keys, pop, List.mem_map, List.mem_filter, decide_eq_true_eq]
  constructor
  · rintro ⟨e, ⟨mem, ne⟩, rfl⟩
    exact ⟨ne, e, mem, rfl⟩
  · rintro ⟨ne, e, mem, rfl⟩
    exact ⟨e, ⟨mem, ne⟩, rfl⟩

/-- What is found is an entry. -/
lemma get?_eq_some {d : Dict κ ν} {k : κ} {v : ν} (found : d.get? k = some v) : (k, v) ∈ d.entries := by
  rw [get?, Option.map_eq_some_iff] at found
  obtain ⟨e, first, rfl⟩ := found
  obtain rfl : e.1 = k := by simpa using List.find?_some first
  exact List.mem_of_find?_eq_some first

/-- After a key is set, its entry is the only one of that key. -/
lemma mem_entries_set {d : Dict κ ν} {k : κ} {v : ν} {e : κ × ν} (mem : e ∈ (d.set k v).entries) :
    e = (k, v) ∨ e ∈ d.entries ∧ e.1 ≠ k := by
  simp only [set, setEntries] at mem
  split at mem
  · obtain ⟨e', mem', rfl⟩ := List.mem_map.mp mem
    by_cases eq : e'.1 = k
    · simp [eq]
    · simp [eq, mem']
  · rename_i new
    rcases List.mem_append.mp mem with old | last
    · refine .inr ⟨old, ?_⟩
      rintro rfl
      exact new (List.mem_map_of_mem old)
    · exact .inl (List.mem_singleton.mp last)

/-- The value of the first entry of a key. -/
def lookup (entries : List (κ × ν)) (k : κ) : Option ν := (entries.find? fun e => e.1 = k).map Prod.snd

/-- The first entry of a key is found. -/
lemma lookup_cons (e : κ × ν) (entries : List (κ × ν)) (k : κ) :
    lookup (e :: entries) k = if k = e.1 then some e.2 else lookup entries k := by
  rw [lookup, List.find?_cons]
  by_cases same : k = e.1
  · simp [same]
  · have other : e.1 ≠ k := Ne.symm same
    simp [same, other, lookup]

/-- Nothing is found where the key is missing. -/
lemma lookup_eq_none {entries : List (κ × ν)} {k : κ} : lookup entries k = none ↔ k ∉ entries.map Prod.fst := by
  induction entries with
  | nil => exact ⟨fun _ => List.not_mem_nil, fun _ => rfl⟩
  | cons e entries ih =>
    rw [lookup_cons, List.map_cons, List.mem_cons, not_or, ← ih]
    by_cases same : k = e.1
    · simp [same]
    · simp [same]

/-- Where keys differ each entry is found. -/
lemma lookup_of_mem {entries : List (κ × ν)} (nodup : (entries.map Prod.fst).Nodup) {e : κ × ν}
    (mem : e ∈ entries) : lookup entries e.1 = some e.2 := by
  induction entries with
  | nil => exact absurd mem List.not_mem_nil
  | cons first entries ih =>
    obtain ⟨new, rest⟩ := List.nodup_cons.1 nodup
    rw [lookup_cons]
    rcases List.mem_cons.1 mem with rfl | later
    · rw [if_pos rfl]
    · have other : e.1 ≠ first.1 := fun eq => new (eq ▸ List.mem_map_of_mem later)
      rw [if_neg other, ih rest later]

/-- The first list is searched first. -/
lemma lookup_append (entries more : List (κ × ν)) (k : κ) :
    lookup (entries ++ more) k = (lookup entries k).or (lookup more k) := by
  rw [lookup, lookup, lookup, List.find?_append, Option.map_or]

/-- Replacing the value of a key changes what is found there. -/
lemma lookup_replace (entries : List (κ × ν)) (k x : κ) (v : ν) :
    lookup (entries.map fun e => if e.1 = k then (k, v) else e) x =
      if x = k then (lookup entries x).map fun _ => v else lookup entries x := by
  induction entries with
  | nil => simp [lookup]
  | cons e entries ih =>
    rw [List.map_cons, lookup_cons, lookup_cons, ih]
    by_cases here : e.1 = k
    · by_cases same : x = k
      · simp [here, same]
      · simp [here, same]
    · by_cases same : x = k
      · simp [here, same, Ne.symm here]
      · simp [here, same]

/-- Mapping the values maps what is found. -/
lemma lookup_map {ν' : Type} (entries : List (κ × ν)) (f : ν → ν') (k : κ) :
    lookup (entries.map fun e => (e.1, f e.2)) k = (lookup entries k).map f := by
  induction entries with
  | nil => rfl
  | cons e entries ih =>
    rw [List.map_cons, lookup_cons, lookup_cons, ih]
    by_cases same : k = e.1
    · simp [same]
    · simp [same]

/-- Setting a key changes what is found there. -/
lemma get?_set (d : Dict κ ν) (k x : κ) (v : ν) :
    (d.set k v).get? x = if x = k then some v else d.get? x := by
  show lookup (setEntries d.entries k v) x = if x = k then some v else lookup d.entries x
  rw [setEntries]
  split
  case isTrue mem =>
    rw [lookup_replace]
    by_cases same : x = k
    · obtain ⟨w, found⟩ := Option.ne_none_iff_exists'.1 fun none => lookup_eq_none.1 none (same ▸ mem)
      rw [if_pos same, if_pos same, found, Option.map_some]
    · rw [if_neg same, if_neg same]
  case isFalse mem =>
    rw [lookup_append, lookup_cons]
    by_cases same : x = k
    · rw [lookup_eq_none.2 (same ▸ mem), Option.none_or, if_pos same, if_pos same]
    · rw [if_neg same, if_neg same]
      exact Option.or_none

/-- Popping a key empties it. -/
lemma get?_pop (d : Dict κ ν) (k x : κ) : (d.pop k).get? x = if x = k then none else d.get? x := by
  show lookup (d.entries.filter fun e => e.1 ≠ k) x = if x = k then none else lookup d.entries x
  induction d.entries with
  | nil => simp [lookup]
  | cons e entries ih =>
    by_cases here : e.1 = k
    · rw [List.filter_cons_of_neg (by simp [here]), ih, lookup_cons, here]
      by_cases same : x = k
      · rw [if_pos same, if_pos same]
      · rw [if_neg same, if_neg same, if_neg same]
    · rw [List.filter_cons_of_pos (by simp [here]), lookup_cons, ih, lookup_cons]
      by_cases same : x = k
      · have other : x ≠ e.1 := fun eq => here (eq.symm.trans same)
        rw [if_neg other, if_pos same, if_pos same]
      · rw [if_neg same, if_neg same]

/-- Setting a key whose entry does not count before or after changes nothing that counts. -/
lemma filter_entries_set {d : Dict κ ν} {k : κ} {v : ν} {p : κ × ν → Bool}
    (old : ∀ w, (k, w) ∈ d.entries → p (k, w) = false) (new : p (k, v) = false) :
    (d.set k v).entries.filter p = d.entries.filter p := by
  show (setEntries d.entries k v).filter p = d.entries.filter p
  rw [setEntries]
  split
  case isTrue =>
    rw [List.filter_map, List.filter_congr (q := p), List.map_congr_left (g := id), List.map_id]
    · intro e mem
      obtain ⟨entry, counts⟩ := List.mem_filter.1 mem
      obtain ⟨key, w⟩ := e
      refine if_neg fun here => ?_
      obtain rfl : key = k := here
      exact absurd counts (by simp [old w entry])
    · intro e mem
      rw [Function.comp_apply]
      split
      case isTrue here =>
        obtain ⟨key, w⟩ := e
        obtain rfl : key = k := here
        rw [new, old w mem]
      case isFalse => rfl
  case isFalse => rw [List.filter_append, List.filter_cons_of_neg (ne_true_of_eq_false new), List.filter_nil,
    List.append_nil]

/-- `{k: f(v) for k, v in d.items()}`. -/
def mapValues {ν' : Type} (d : Dict κ ν) (f : ν → ν') : Dict κ ν' where
  entries := d.entries.map fun e => (e.1, f e.2)
  nodup := by
    rw [List.map_map]
    exact d.nodup

/-- Mapping the values maps what is found. -/
lemma get?_mapValues {ν' : Type} (d : Dict κ ν) (f : ν → ν') (k : κ) :
    (d.mapValues f).get? k = (d.get? k).map f := lookup_map d.entries f k

/-- Each entry is found. -/
lemma get?_of_mem {d : Dict κ ν} {e : κ × ν} (mem : e ∈ d.entries) : d.get? e.1 = some e.2 :=
  lookup_of_mem d.nodup mem

/-- The values of some entries. -/
lemma mem_filter_values {d : Dict κ ν} {p : κ × ν → Bool} {v : ν} :
    v ∈ (d.entries.filter p).map Prod.snd ↔ ∃ k, d.get? k = some v ∧ p (k, v) = true := by
  rw [List.mem_map]
  constructor
  · rintro ⟨e, mem, rfl⟩
    obtain ⟨entry, counts⟩ := List.mem_filter.1 mem
    exact ⟨e.1, get?_of_mem entry, counts⟩
  · rintro ⟨k, found, counts⟩
    exact ⟨(k, v), List.mem_filter.2 ⟨get?_eq_some found, counts⟩, rfl⟩

/-- A key is there where something is found. -/
lemma mem_keys_iff {d : Dict κ ν} {k : κ} : k ∈ d.keys ↔ ∃ v, d.get? k = some v := by
  constructor
  · intro mem
    obtain ⟨e, entry, rfl⟩ := List.mem_map.1 mem
    exact ⟨e.2, get?_of_mem entry⟩
  · rintro ⟨v, found⟩
    exact List.mem_map_of_mem (get?_eq_some found)

/-- `{k: v for k, v in d.items() if p(v)}`. -/
def filterValues (d : Dict κ ν) (p : ν → Bool) : Dict κ ν where
  entries := d.entries.filter fun e => p e.2
  nodup := d.nodup.sublist (List.filter_sublist.map Prod.fst)

/-- What is kept is found. -/
lemma get?_filterValues {d : Dict κ ν} {p : ν → Bool} {k : κ} {v : ν} :
    (d.filterValues p).get? k = some v ↔ d.get? k = some v ∧ p v = true := by
  constructor
  · intro found
    obtain ⟨entry, counts⟩ := List.mem_filter.1 (get?_eq_some found)
    exact ⟨get?_of_mem entry, counts⟩
  · rintro ⟨found, counts⟩
    have entry : (k, v) ∈ (d.filterValues p).entries := List.mem_filter.2 ⟨get?_eq_some found, counts⟩
    exact get?_of_mem entry

/-- `d[k] = f(d[k])`, for a key that is there. -/
def modify (d : Dict κ ν) (k : κ) (f : ν → ν) : Dict κ ν :=
  match d.get? k with
  | some v => d.set k (f v)
  | none => d

/-- Modifying a key changes what is found there. -/
lemma get?_modify (d : Dict κ ν) (k x : κ) (f : ν → ν) :
    (d.modify k f).get? x = if x = k then (d.get? k).map f else d.get? x := by
  rw [modify]
  split
  case h_1 v found => rw [get?_set, found, Option.map_some]
  case h_2 none =>
    by_cases same : x = k
    · rw [if_pos same, same, none, Option.map_none]
    · rw [if_neg same]

/-- A filter that passes over an entry before and after does not see its change. -/
lemma filter_entries_modify {d : Dict κ ν} {k : κ} {f : ν → ν} {p : κ × ν → Bool}
    (unseen : ∀ v, d.get? k = some v → p (k, v) = false ∧ p (k, f v) = false) :
    (d.modify k f).entries.filter p = d.entries.filter p := by
  rw [modify]
  split
  case h_1 v found =>
    obtain ⟨-, new⟩ := unseen v found
    exact filter_entries_set (fun w mem => (unseen w (get?_of_mem mem)).1) new
  case h_2 => rfl

/-- Modifying keeps the keys. -/
lemma mem_keys_modify {d : Dict κ ν} {k x : κ} {f : ν → ν} : x ∈ (d.modify k f).keys ↔ x ∈ d.keys := by
  rw [mem_keys_iff, mem_keys_iff, get?_modify]
  by_cases same : x = k
  · rw [if_pos same, same]
    simp only [Option.map_eq_some_iff]
    constructor
    · rintro ⟨v, w, found, -⟩
      exact ⟨w, found⟩
    · rintro ⟨w, found⟩
      exact ⟨f w, w, found, rfl⟩
  · rw [if_neg same]

/-- A new key makes the dictionary one longer. -/
lemma length_keys_set_of_not_mem {d : Dict κ ν} {k : κ} {v : ν} (new : k ∉ d.keys) :
    (d.set k v).keys.length = d.keys.length + 1 := by
  rw [keys, set, map_fst_setEntries, if_neg (show k ∉ d.entries.map Prod.fst from new)]
  exact List.length_append

/-- A new key goes to the end. -/
lemma entries_set_of_not_mem {d : Dict κ ν} {k : κ} {v : ν} (new : k ∉ d.keys) :
    (d.set k v).entries = d.entries ++ [(k, v)] := if_neg new

/-- Setting new keys one after the other puts them at the end. -/
lemma entries_foldl_set {d : Dict κ ν} {more : List (κ × ν)} (nodup : ((d.entries ++ more).map Prod.fst).Nodup) :
    (more.foldl (fun d e => d.set e.1 e.2) d).entries = d.entries ++ more := by
  induction more generalizing d with
  | nil => exact (List.append_nil _).symm
  | cons e more ih =>
    have entries : (d.set e.1 e.2).entries = d.entries ++ [e] := by
      rw [List.map_append, List.map_cons, List.nodup_middle, List.nodup_cons] at nodup
      exact entries_set_of_not_mem fun mem => nodup.1 (List.mem_append_left _ mem)
    rw [List.foldl_cons, ih, entries, List.append_assoc]
    · rfl
    · rw [entries, List.append_assoc]
      exact nodup

/-- What is set is an entry, or replaced by a later one. -/
lemma mem_entries_foldl_set {d : Dict κ ν} {more : List (κ × ν)} {e : κ × ν}
    (mem : e ∈ (more.foldl (fun d e => d.set e.1 e.2) d).entries) : e ∈ d.entries ∨ e ∈ more := by
  induction more generalizing d with
  | nil => exact .inl mem
  | cons e' more ih =>
    rcases ih mem with old | new
    · rcases mem_entries_set old with rfl | older
      · exact .inr List.mem_cons_self
      · exact .inl older.1
    · exact .inr (List.mem_cons_of_mem e' new)

/-- The entries whose keys have a property. -/
def filterKeys (d : Dict κ ν) (p : κ → Bool) : Dict κ ν where
  entries := d.entries.filter fun e => p e.1
  nodup := d.nodup.sublist (List.filter_sublist.map Prod.fst)

end Dict
