import Mathlib.Data.List.Sort

/-!
# Keyset pagination

Rows have keys in a linear order. A page is the first rows after the last row that was seen, and one row more is
fetched to see whether there is a next page. A walk fetches page after page, each from the table as it stands then,
until there is no next page.

Whatever the tables are, a walk gives rows in the order of their keys (`pairwise_walk`), and once it has ended it has
given every row that all of its tables had (`mem_walk`). It ends when there are more requests than rows (`ended_walk`).
-/

namespace Keyset
variable {α κ : Type} [LinearOrder κ] (key : α → κ)

/-- The rows after a row, in order. -/
def after (last : Option α) (table : List α) : List α :=
  (table.filter fun row => last.all fun l => key l < key row).mergeSort fun a b => key a ≤ key b

/-- The rows of a page, and the row after which the next page begins. -/
structure Page (α : Type) where
  rows : List α
  next : Option α

def fetch (n : ℕ) (last : Option α) (table : List α) : Page α :=
  let rows := (after key last table).take (n + 1)
  ⟨rows.take n, if n < rows.length then (rows.take n).getLast? else none⟩

/-- The pages of a walk, each fetched from the next table. -/
def walk (n : ℕ) : Option α → List (List α) → List (Page α)
  | _, [] => []
  | last, table :: tables =>
    let page := fetch key n last table
    page :: match page.next with
      | none => []
      | some l => walk n (some l) tables

/-- The rows of some pages. -/
def rows (pages : List (Page α)) : List α := pages.flatMap Page.rows

/-- The last page has no next page. -/
def Ended (pages : List (Page α)) : Prop := ∃ page, pages.getLast? = some page ∧ page.next = none

variable {key} {n m : ℕ} {last : Option α} {table : List α} {tables : List (List α)} {row l : α}

/-- The rows after a key are those of greater ones. -/
lemma mem_after : row ∈ after key last table ↔ row ∈ table ∧ ∀ l ∈ last, key l < key row := by
  rw [after, List.mem_mergeSort, List.mem_filter, Option.all_eq_true]
  exact and_congr_right fun _ => forall₂_congr fun l _ => decide_eq_true_iff

/-- After nothing come all rows, in their order. -/
lemma after_none : after key none table = table.mergeSort fun a b => key a ≤ key b := by
  have all : (table.filter fun row => (none : Option α).all fun l => key l < key row) = table :=
    List.filter_eq_self.2 fun _ _ => rfl
  rw [after, all]

/-- The rows ascend. -/
lemma pairwise_after (distinct : (table.map key).Nodup) : (after key last table).Pairwise (key · < key ·) := by
  have ordered : (after key last table).Pairwise fun a b => key a ≤ key b := by
    refine (List.pairwise_mergeSort ?_ ?_ _).imp of_decide_eq_true
    · exact fun a b c ab bc => decide_eq_true ((of_decide_eq_true ab).trans (of_decide_eq_true bc))
    · intro a b
      rw [Bool.or_eq_true, decide_eq_true_iff, decide_eq_true_iff]
      exact le_total _ _
  have apart : ((after key last table).map key).Nodup := by
    refine ((List.mergeSort_perm _ _).map key).nodup_iff.2 ?_
    exact distinct.sublist (List.filter_sublist.map key)
  exact ordered.imp₂ (fun _ _ le ne => lt_of_le_of_ne le ne) (List.pairwise_map.1 apart)

/-- The first page is all there is. -/
lemma fetch_none (pos : 0 < n) (done : (fetch key n last table).next = none) :
    (fetch key n last table).rows = after key last table := by
  have short : (after key last table).length ≤ n := by
    by_contra long
    have fetched : n < ((after key last table).take (n + 1)).length := by
      rw [List.length_take]
      omega
    -- a page of more than `n` rows has a last row, as `n` is not 0
    rw [fetch, if_pos fetched, List.getLast?_eq_none_iff, List.take_take, List.take_eq_nil_iff] at done
    rcases done with zero | nil
    · omega
    · rw [nil] at long
      exact long n.zero_le
  rw [fetch, List.take_take, List.take_of_length_le (by omega)]

/-- There is more after the last row of the page. -/
lemma fetch_some (more : (fetch key n last table).next = some l) :
    (fetch key n last table).rows.getLast? = some l ∧
      ∃ rest, after key last table = (fetch key n last table).rows ++ rest := by
  rw [fetch] at more
  split at more
  case isTrue => exact ⟨more, (after key last table).drop n, by rw [fetch, List.take_take]; simp⟩
  case isFalse => cases more

/-- The rows of a page are in order, after the last row that was seen. -/
lemma fetch_rows (distinct : (table.map key).Nodup) : (fetch key n last table).rows.Pairwise (key · < key ·) ∧
    ∀ row ∈ (fetch key n last table).rows, row ∈ table ∧ ∀ l ∈ last, key l < key row := by
  have part : (fetch key n last table).rows.Sublist (after key last table) :=
    (List.take_sublist _ _).trans (List.take_sublist _ _)
  exact ⟨(pairwise_after distinct).sublist part, fun row mem => mem_after.1 (part.subset mem)⟩

/-- The last row of a list in order has the greatest key. -/
lemma le_getLast {xs : List α} (ordered : xs.Pairwise (key · < key ·)) (last : xs.getLast? = some l)
    (mem : row ∈ xs) : key row ≤ key l := by
  obtain ⟨init, rfl⟩ := List.getLast?_eq_some_iff.1 last
  rcases List.mem_append.1 mem with before | here
  · exact ((List.pairwise_append.1 ordered).2.2 row before l List.mem_cons_self).le
  · rw [List.mem_singleton.1 here]

/-- After the last row of a page comes the rest. -/
lemma after_some {page rest : List α} (distinct : (table.map key).Nodup) (last' : page.getLast? = some l)
    (split : after key last table = page ++ rest) : after key (some l) table = rest := by
  have ordered : (after key last table).Pairwise (key · < key ·) := pairwise_after distinct
  rw [split, List.pairwise_append] at ordered
  have mem : l ∈ page := List.mem_of_getLast? last'
  refine (pairwise_after distinct).eq_of_mem_iff (r := (key · < key ·)) ordered.2.1 fun row => ?_
  rw [mem_after]
  constructor
  · rintro ⟨found, beyond⟩
    -- what comes after the page comes after its first cursor too
    have lower : ∀ l' ∈ last, key l' < key l := (mem_after.1 (split ▸ List.mem_append_left _ mem)).2
    have later : row ∈ page ++ rest :=
      split ▸ mem_after.2 ⟨found, fun l' eq => (lower l' eq).trans (beyond l rfl)⟩
    rcases List.mem_append.1 later with earlier | here
    · exact absurd (beyond l rfl) (not_lt.2 (le_getLast ordered.1 last' earlier))
    · exact here
  · intro here
    have found := mem_after.1 (split ▸ List.mem_append_right page here : row ∈ after key last table)
    refine ⟨found.1, fun l' eq => ?_⟩
    rw [← Option.some.inj eq]
    exact ordered.2.2 l mem row here

/-- A page that has a next one is not the last. -/
lemma ended_cons {page : Page α} {pages : List (Page α)} (more : page.next = some l) :
    Ended (page :: pages) ↔ Ended pages := by
  refine exists_congr fun final => and_congr_left fun done => ?_
  rw [List.getLast?_cons]
  cases pages.getLast? with
  | none =>
    refine iff_of_false (fun eq => ?_) (Option.some_ne_none final).symm
    rw [← Option.some.inj eq, Option.getD_none, more] at done
    cases done
  | some last => exact Iff.rfl

/-- No table of a walk makes a row come twice, or out of order. -/
theorem pairwise_walk (distinct : ∀ table ∈ tables, (table.map key).Nodup) :
    (rows (walk key n last tables)).Pairwise (key · < key ·) ∧
      ∀ row ∈ rows (walk key n last tables), ∀ l ∈ last, key l < key row := by
  induction tables generalizing last with
  | nil => exact ⟨List.Pairwise.nil, fun row mem => absurd mem List.not_mem_nil⟩
  | cons table tables ih =>
    obtain ⟨ordered, beyond⟩ : (fetch key n last table).rows.Pairwise (key · < key ·) ∧ _ :=
      fetch_rows (distinct table List.mem_cons_self)
    rw [walk, rows, List.flatMap_cons]
    split
    case h_1 =>
      rw [List.flatMap_nil, List.append_nil]
      exact ⟨ordered, fun row mem => (beyond row mem).2⟩
    case h_2 l more =>
      obtain ⟨ordered', beyond'⟩ := @ih (some l) fun table mem => distinct table (List.mem_cons_of_mem _ mem)
      have final := (fetch_some more).1
      refine ⟨List.pairwise_append.2 ⟨ordered, ordered', fun a mem b mem' => ?_⟩, fun row mem => ?_⟩
      -- the next pages begin after the last row of this one
      · exact (le_getLast ordered final mem).trans_lt (beyond' b mem' l rfl)
      · rcases List.mem_append.1 mem with here | later
        · exact (beyond row here).2
        · intro l' eq
          exact ((beyond l (List.mem_of_getLast? final)).2 l' eq).trans (beyond' row later l rfl)

/-- A row that is visited was in one of the tables. -/
lemma mem_table_of_walk (found : row ∈ rows (walk key n last tables)) :
    ∃ table ∈ tables, row ∈ table := by
  induction tables generalizing last with
  | nil => exact absurd found List.not_mem_nil
  | cons table tables ih =>
    have first : ∀ row ∈ (fetch key n last table).rows, row ∈ table := fun row mem =>
      (mem_after.1 (List.mem_of_mem_take (List.mem_of_mem_take mem))).1
    rw [walk, rows, List.flatMap_cons] at found
    rcases List.mem_append.1 found with here | later
    · exact ⟨table, List.mem_cons_self, first row here⟩
    · split at later
      case h_1 => exact absurd later List.not_mem_nil
      case h_2 =>
        obtain ⟨table', mem, found'⟩ := ih later
        exact ⟨table', List.mem_cons_of_mem _ mem, found'⟩

/-- A walk that has ended leaves out no row that was in all of its tables. -/
theorem mem_walk (pos : 0 < n) (ended : Ended (walk key n last tables)) (beyond : ∀ l ∈ last, key l < key row)
    (distinct : ∀ table ∈ tables, (table.map key).Nodup)
    (kept : ∀ table ∈ tables.take (walk key n last tables).length, row ∈ table) :
    row ∈ rows (walk key n last tables) := by
  induction tables generalizing last with
  | nil =>
    obtain ⟨page, none, -⟩ := ended
    cases none
  | cons table tables ih =>
    rw [walk] at ended kept ⊢
    rw [rows, List.flatMap_cons]
    have found : row ∈ after key last table := mem_after.2 ⟨kept table (by simp), beyond⟩
    split at ended
    case h_1 done =>
      rw [fetch_none pos done]
      exact List.mem_append_left _ found
    case h_2 l more =>
      rw [more] at kept
      obtain ⟨final, rest, split⟩ := fetch_some more
      have distinct' := distinct table List.mem_cons_self
      -- the row is on this page, or comes after it and is still there for the next one
      rw [split] at found
      rcases List.mem_append.1 found with here | later
      · exact List.mem_append_left _ here
      · refine List.mem_append_right _ (ih ((ended_cons more).1 ended) (fun l' eq => ?_) ?_ ?_)
        · rw [← after_some distinct' final split] at later
          exact (mem_after.1 later).2 l' eq
        · exact fun table mem => distinct table (List.mem_cons_of_mem _ mem)
        · exact fun table mem => kept table (List.mem_cons_of_mem _ mem)

/-- A walk on one table that has ended has given the rows that come after. -/
theorem rows_walk (pos : 0 < n) (same : ∀ table' ∈ tables, table' = table) (distinct : (table.map key).Nodup)
    (ended : Ended (walk key n last tables)) : rows (walk key n last tables) = after key last table := by
  have distinct' : ∀ table' ∈ tables, (table'.map key).Nodup := fun table' mem => by rwa [same table' mem]
  obtain ⟨ordered, beyond⟩ : (rows (walk key n last tables)).Pairwise (key · < key ·) ∧ _ := pairwise_walk distinct'
  refine ordered.eq_of_mem_iff (r := (key · < key ·)) (pairwise_after distinct) fun row => ?_
  refine ⟨fun found => ?_, fun found => ?_⟩
  · obtain ⟨table', mem, found'⟩ := mem_table_of_walk found
    rw [same table' mem] at found'
    exact mem_after.2 ⟨found', beyond row found⟩
  · obtain ⟨found', beyond'⟩ := mem_after.1 found
    refine mem_walk pos ended beyond' distinct' fun table' mem => ?_
    rwa [same table' (List.mem_of_mem_take mem)]

/-- As long as a walk has not ended, every request has given a row. -/
lemma length_le_rows (open' : ¬Ended (walk key n last tables)) :
    tables.length ≤ (rows (walk key n last tables)).length := by
  induction tables generalizing last with
  | nil => exact Nat.zero_le _
  | cons table tables ih =>
    rw [walk] at open' ⊢
    rw [rows, List.flatMap_cons, List.length_append, List.length_cons]
    split at open'
    case h_1 done => exact absurd ⟨_, rfl, done⟩ open'
    case h_2 l more =>
      have some : (fetch key n last table).rows.length ≠ 0 := fun zero => by
        have final := (fetch_some more).1
        rw [List.eq_nil_of_length_eq_zero zero] at final
        cases final
      have others := ih fun ended => open' ((ended_cons more).2 ended)
      rw [rows] at others
      omega

/-- With more requests than there ever are rows, a walk ends. -/
theorem ended_walk {everything : List α} (distinct : ∀ table ∈ tables, (table.map key).Nodup)
    (among : ∀ table ∈ tables, ∀ row ∈ table, row ∈ everything) (enough : everything.length < tables.length) :
    Ended (walk key n last tables) := by
  by_contra open'
  -- every request has given a new row
  have once : (rows (walk key n last tables)).Nodup :=
    (pairwise_walk distinct).1.imp fun lt eq => absurd (congrArg key eq) lt.ne
  have part : rows (walk key n last tables) ⊆ everything := fun row found => by
    obtain ⟨table, mem, found'⟩ := mem_table_of_walk found
    exact among table mem row found'
  have few := (List.subperm_of_subset once part).length_le
  have many := length_le_rows open'
  omega

end Keyset
