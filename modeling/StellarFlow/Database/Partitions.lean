import Mathlib.Data.List.DropRight
import Mathlib.Data.List.Nodup
import Mathlib.Data.String.Basic
import StellarFlow.Lib.DecimalText
import StellarFlow.Lib.Machine

/-!
# The partition manager

Model of `src/database/partition_manager.py`, the creation and the retention of the monthly partitions of
`ledger_events`, and of the migration `0002` that creates the first two, over the child tables with their names and
bounds. Of PostgreSQL the model has the table name check, the reading of a date with a year of four digits, and the
refusal of bounds that overlap. A row is known by its date, whose parts are compared in their order. The inventory and
the check of the query plans are left out.

Dates are compared as texts, so all of this is for years of four digits: a retention that reaches back before the year
1000 drops every partition.
-/

namespace StellarFlow.Database
open DecimalText Machine

/-- A child table. -/
structure Partition where
  name : String
  lower : String
  upper : String

/-- `_partition_name`. -/
def partition_name (year month : ℤ) : String :=
  String.ofList ("ledger_events_".toList ++ (format 0 year ++ '_' :: format 2 month))

/-- `f"{year}-{month:02d}-01"`. -/
def first_day (year month : ℤ) : String := String.ofList (format 0 year ++ '-' :: (format 2 month ++ "-01".toList))

/-- The loop that carries months over 12 into the year. -/
def carry (year month : ℤ) : ℤ × ℤ := if month > 12 then carry (year + 1) (month - 12) else (year, month)
termination_by month.toNat

/-- The loop that borrows for months below 1 from the year. -/
def borrow (year month : ℤ) : ℤ × ℤ := if month < 1 then borrow (year - 1) (month + 12) else (year, month)
termination_by (1 - month).toNat

/-- The month after a month. -/
def next_month (year month : ℤ) : ℤ × ℤ := if month = 12 then (year + 1, 1) else (year, month + 1)

section PostgreSQL

/-- The parts of a date with a year of four digits. -/
def dateOf (text : String) : Option (List ℕ) :=
  IsoDate.read [.number 4, .separator '-', .number 2, .separator '-', .number 2] text.toList

/-- The bounds of a partition. -/
def Partition.range (p : Partition) : Option (List ℕ × List ℕ) := do return (← dateOf p.lower, ← dateOf p.upper)

/-- The date is one of the partition's. -/
def Partition.holds (p : Partition) (date : List ℕ) : Bool :=
  p.range.any fun (lower, upper) => ¬date < lower ∧ date < upper

/-- `CREATE TABLE IF NOT EXISTS ... PARTITION OF ...`; `none` when the bounds are refused. -/
def createPartition (db : List Partition) (p : Partition) : Option (List Partition) :=
  if db.any (·.name = p.name) then some db
  else do
    let (lower, upper) ← p.range
    let others ← db.mapM Partition.range
    if lower < upper ∧ others.all (fun (lower', upper') => ¬lower' < upper ∨ ¬lower < upper') then some (db ++ [p])
    else none

end PostgreSQL

/-- A date, as far as it is read. -/
structure Reference where
  year : ℤ
  month : ℤ

/-- One turn of the loop of `create_future_partitions`. -/
def createMonth (ref : Reference) (acc : List String × List Partition) (offset : ℕ) :
    Option (List String × List Partition) :=
  let (target_year, target_month) := carry ref.year (ref.month + offset)
  let name := partition_name target_year target_month
  let lower := first_day target_year target_month
  let (upper_year, upper_month) := next_month target_year target_month
  let upper := first_day upper_year upper_month
  if acc.2.any (·.name = name) then some acc
  else do
    let db ← createPartition acc.2 { name, lower, upper }
    return (acc.1 ++ [name], db)

/-- `create_future_partitions`: the names created, and the partitions after it. -/
def create_future_partitions (months_ahead : ℤ) (ref : Reference) (db : List Partition) :
    Option (List String × List Partition) :=
  (List.range months_ahead.toNat).foldlM (createMonth ref) ([], db)

/-- `text.rsplit(sep, n)`. -/
def rsplit (sep : Char) : ℕ → List Char → List (List Char)
  | 0, text => [text]
  | n + 1, text =>
    match text.rdropWhile (· ≠ sep) with
    | [] => [text]
    | before => rsplit sep n before.dropLast ++ [text.rtakeWhile (· ≠ sep)]

/-- The exclusive upper bound taken from a name; `none` where the loop continues with the next one. -/
def upperOfName (part_name : String) : Option String := do
  let parts := rsplit '_' 2 part_name.toList
  if parts.length < 2 then none
  else
    let part_year ← Py.intOfText (String.ofList (parts.getD (parts.length - 2) []))
    let part_month ← Py.intOfText (String.ofList (parts.getD (parts.length - 1) []))
    return if part_month = 12 then first_day (part_year + 1) 1 else first_day part_year (part_month + 1)

/-- The first day of the month before which partitions expire. -/
def cutoffDate (retention_months : ℤ) (ref : Reference) : String :=
  let (cutoff_year, cutoff_month) := borrow ref.year (ref.month - retention_months)
  first_day cutoff_year cutoff_month

/-- The test of `drop_expired_partitions`. -/
def expired (cutoff_date part_name : String) : Bool :=
  (upperOfName part_name).any fun part_upper => ¬cutoff_date < part_upper

/-- `drop_expired_partitions`: the names it reports, and the partitions after it. -/
def drop_expired_partitions (retention_months : ℤ) (dry_run : Bool) (ref : Reference) (db : List Partition) :
    List String × List Partition :=
  let cutoff_date := cutoffDate retention_months ref
  let to_drop := (db.map Partition.name).filter (expired cutoff_date)
  let dropped := to_drop.mergeSort fun a b => ¬b < a
  (dropped, if dry_run then db else dropped.foldl (fun db name => db.filter (·.name ≠ name)) db)

/-- The arguments of one run of the script, and its day. -/
structure Job where
  months_ahead : ℤ
  retention_months : ℤ
  dry_run : Bool
  today : Reference

/-- `main`, without the options that only report. -/
def main (db : List Partition) (job : Job) : Option (List Partition) := do
  let (_, db) ← create_future_partitions job.months_ahead job.today db
  return if job.retention_months > 0 then
      (drop_expired_partitions job.retention_months job.dry_run job.today db).2
    else db

/-- `_month_bounds`. -/
def month_bounds (year month : ℤ) : String × String := (partition_name year month, first_day year month)

/-- `upgrade` of the migration, on the day `today`. -/
def upgrade (today : Reference) (db : List Partition) : Option (List Partition) := do
  let (cur_name, cur_lower) := month_bounds today.year today.month
  let (nxt_year, nxt_month) := next_month today.year today.month
  let (nxt_name, nxt_lower) := month_bounds nxt_year nxt_month
  let (nxt_year2, nxt_month2) := next_month nxt_year nxt_month
  let (_, nxt_upper) := month_bounds nxt_year2 nxt_month2
  let db ← createPartition db { name := cur_name, lower := cur_lower, upper := nxt_lower }
  createPartition db { name := nxt_name, lower := nxt_lower, upper := nxt_upper }

section Months

/-- The first day of a month; the months are counted from the year 0 on. -/
def monthStart (i : ℕ) : String := first_day (i / 12 : ℕ) (i % 12 + 1 : ℕ)

/-- The partition of a month. -/
def partitionOf (i : ℕ) : Partition where
  name := partition_name (i / 12 : ℕ) (i % 12 + 1 : ℕ)
  lower := monthStart i
  upper := monthStart (i + 1)

/-- The parts of a date of a month. -/
def dateIn (i day : ℕ) : List ℕ := [i / 12, i % 12 + 1, day]

/-- The month and the one after it have a year of four digits. -/
def InYears (i : ℕ) : Prop := 12000 ≤ i ∧ i < 119999

variable {i j day : ℕ}

/-- Carrying the months over into years is a division by twelve. -/
lemma carry_eq (year month : ℤ) (first : 1 ≤ month) :
    carry year month = ((12 * year + month - 1) / 12, (12 * year + month - 1) % 12 + 1) := by
  fun_induction carry year month with
  | case1 year month beyond ih =>
    rw [ih (by omega)]
    exact Prod.ext (by dsimp only; omega) (by dsimp only; omega)
  | case2 year month within => exact Prod.ext (by dsimp only; omega) (by dsimp only; omega)

/-- Borrowing months from the years is a division by twelve. -/
lemma borrow_eq (year month : ℤ) (last : month ≤ 12) :
    borrow year month = ((12 * year + month - 1) / 12, (12 * year + month - 1) % 12 + 1) := by
  fun_induction borrow year month with
  | case1 year month under ih =>
    rw [ih (by omega)]
    exact Prod.ext (by dsimp only; omega) (by dsimp only; omega)
  | case2 year month within => exact Prod.ext (by dsimp only; omega) (by dsimp only; omega)

/-- The month after that of a number is that of the next number. -/
lemma next_month_eq (i : ℕ) :
    next_month (i / 12 : ℕ) (i % 12 + 1 : ℕ) = ((((i + 1) / 12 : ℕ) : ℤ), (((i + 1) % 12 + 1 : ℕ) : ℤ)) := by
  unfold next_month
  split
  · exact Prod.ext (by dsimp only; omega) (by dsimp only; omega)
  · exact Prod.ext (by dsimp only; omega) (by dsimp only; omega)

/-- A year of four digits and a month. -/
lemma format_year (low : 12000 ≤ i) (high : i < 120000) : format 0 (i / 12 : ℕ) = IsoDate.pad 4 (i / 12) :=
  format_zero_eq_pad (w := 3) (by omega) (by omega)

/-- The month of a number is written with two digits. -/
lemma format_month (i : ℕ) : format 2 (i % 12 + 1 : ℕ) = IsoDate.pad 2 (i % 12 + 1) :=
  format_eq_pad (by decide) (by omega)

/-- The characters of the first day of a month. -/
lemma toList_monthStart (low : 12000 ≤ i) (high : i < 120000) :
    (monthStart i).toList =
      IsoDate.pad 4 (i / 12) ++ '-' :: (IsoDate.pad 2 (i % 12 + 1) ++ '-' :: (IsoDate.pad 2 1 ++ [])) := by
  rw [monthStart, first_day, String.toList_ofList, format_year low high, format_month]
  rfl

/-- The first day of a month is read as that day. -/
lemma dateOf_monthStart (low : 12000 ≤ i) (high : i < 120000) : dateOf (monthStart i) = some (dateIn i 1) := by
  rw [dateOf, toList_monthStart low high]
  have year : i / 12 < 10 ^ 4 := by omega
  have month : i % 12 + 1 < 10 ^ 2 := by omega
  have fit : IsoDate.fits [.number 4, .separator '-', .number 2, .separator '-', .number 2] (dateIn i 1) :=
    ⟨year, month, by decide, rfl⟩
  exact IsoDate.read_write fit

/-- The texts of two first days are ordered as the months. -/
lemma monthStart_lt (low : 12000 ≤ i) (high : j < 120000) (lt : i < j) : monthStart i < monthStart j := by
  rw [String.lt_iff, toList_monthStart low (by omega), toList_monthStart (by omega) high]
  rcases Nat.lt_or_eq_of_le (Nat.div_le_div_right (c := 12) lt.le) with earlier | same
  · refine Numeral.append_lt_append_of_lt ?_ (pad_lt_pad earlier (by omega))
    rw [IsoDate.length_pad, IsoDate.length_pad]
  · rw [same]
    refine List.append_left_lt (List.cons_lt_cons_iff.2 (.inr ⟨rfl, ?_⟩))
    refine Numeral.append_lt_append_of_lt ?_ (pad_lt_pad (by omega) (by omega))
    rw [IsoDate.length_pad, IsoDate.length_pad]

/-- As texts, the first days stand in the order of the months. -/
lemma monthStart_lt_iff (lowi : 12000 ≤ i) (highi : i < 120000) (lowj : 12000 ≤ j) (highj : j < 120000) :
    monthStart i < monthStart j ↔ i < j := by
  constructor
  · intro lt
    by_contra ge
    rcases Nat.lt_or_eq_of_le (Nat.not_lt.1 ge) with less | rfl
    · exact lt_asymm lt (monthStart_lt lowj highi less)
    · exact lt_irrefl _ lt
  · exact monthStart_lt lowi highj

/-- A day lies before the first of a month where its own month does. -/
lemma dateIn_lt_iff (i j : ℕ) (pos : 0 < day) : dateIn i day < dateIn j 1 ↔ i < j := by
  simp only [dateIn, List.cons_lt_cons_iff, List.not_lt_nil, and_false, or_false]
  omega

/-- The range of a partition goes from the first of its month to that of the next one. -/
lemma range_partitionOf (years : InYears i) : (partitionOf i).range = some (dateIn i 1, dateIn (i + 1) 1) := by
  obtain ⟨low, high⟩ := years
  rw [Partition.range]
  simp only [partitionOf, dateOf_monthStart low (by omega), dateOf_monthStart (i := i + 1) (by omega) (by omega)]
  rfl

/-- A date is in the partition of its month only. -/
lemma holds_partitionOf (years : InYears i) (j : ℕ) (pos : 0 < day) :
    (partitionOf i).holds (dateIn j day) = decide (i = j) := by
  rw [Partition.holds, range_partitionOf years, Option.any_some]
  simp only [dateIn_lt_iff j i pos, dateIn_lt_iff j (i + 1) pos]
  exact decide_eq_decide.2 (by omega)

/-- The last part of a text is split off. -/
lemma rsplit_append {sep : Char} {tail : List Char} (free : sep ∉ tail) (n : ℕ) (head : List Char) :
    rsplit sep (n + 1) (head ++ sep :: tail) = rsplit sep n head ++ [tail] := by
  have others : ∀ c ∈ tail.reverse, decide (c ≠ sep) = true := by
    intro c mem
    exact decide_eq_true fun same => free (same ▸ List.mem_reverse.1 mem)
  have front : (head ++ sep :: tail).rdropWhile (· ≠ sep) = head ++ [sep] := by
    rw [List.rdropWhile, List.reverse_append, List.reverse_cons, List.append_assoc, List.dropWhile_append_of_pos others,
      List.singleton_append, List.dropWhile_cons_of_neg (by simp), List.reverse_cons, List.reverse_reverse]
  have last : (head ++ sep :: tail).rtakeWhile (· ≠ sep) = tail := by
    rw [List.rtakeWhile, List.reverse_append, List.reverse_cons, List.append_assoc, List.takeWhile_append_of_pos others,
      List.singleton_append, List.takeWhile_cons_of_neg (by simp), List.append_nil, List.reverse_reverse]
  rw [rsplit, front, last]
  cases head with
  | nil => rfl
  | cons c head =>
    show rsplit sep n (c :: head ++ [sep]).dropLast ++ [tail] = _
    rw [List.dropLast_concat]

/-- The name of a partition gives its upper bound. -/
lemma upperOfName_partitionOf (years : InYears i) : upperOfName (partitionOf i).name = some (monthStart (i + 1)) := by
  obtain ⟨low, high⟩ := years
  have parts : rsplit '_' 2 (partitionOf i).name.toList =
      ["ledger_events".toList, IsoDate.pad 4 (i / 12), IsoDate.pad 2 (i % 12 + 1)] := by
    have text : (partitionOf i).name.toList =
        ("ledger_events".toList ++ '_' :: IsoDate.pad 4 (i / 12)) ++ '_' :: IsoDate.pad 2 (i % 12 + 1) := by
      have stem : "ledger_events_".toList = "ledger_events".toList ++ ['_'] := by simp
      have named : (partitionOf i).name.toList = "ledger_events_".toList ++ (IsoDate.pad 4 (i / 12) ++
          '_' :: IsoDate.pad 2 (i % 12 + 1)) := by
        refine String.toList_ofList.trans ?_
        rw [format_year low (by omega), format_month]
      refine named.trans ((congrArg (· ++ (_ ++ '_' :: _)) stem).trans ?_)
      simp only [List.append_assoc, List.cons_append, List.nil_append]
    have free : ∀ w n, '_' ∉ IsoDate.pad w n := not_mem_pad (by decide)
    rw [text, rsplit_append (free 2 _) 1, rsplit_append (free 4 _) 0, rsplit, List.singleton_append, List.cons_append,
      List.singleton_append]
  have year : Py.intOfText (String.ofList (IsoDate.pad 4 (i / 12))) = some ((i / 12 : ℕ) : ℤ) :=
    intOfText_pad (by decide) (by decide) (by omega)
  have month : Py.intOfText (String.ofList (IsoDate.pad 2 (i % 12 + 1))) = some ((i % 12 + 1 : ℕ) : ℤ) :=
    intOfText_pad (by decide) (by decide) (by omega)
  have next := next_month_eq i
  unfold next_month at next
  rw [upperOfName, parts]
  show (if 3 < 2 then none else do
    let part_year ← Py.intOfText (String.ofList (IsoDate.pad 4 (i / 12)))
    let part_month ← Py.intOfText (String.ofList (IsoDate.pad 2 (i % 12 + 1)))
    return if part_month = 12 then first_day (part_year + 1) 1 else first_day part_year (part_month + 1)) = _
  rw [if_neg (by decide), year, month, monthStart]
  show some _ = some _
  refine congrArg some ?_
  split at next
  · rename_i december
    obtain ⟨y, m⟩ := Prod.mk.inj next
    rw [if_pos december, y, m]
  · rename_i other
    obtain ⟨y, m⟩ := Prod.mk.inj next
    rw [if_neg other, ← y, ← m]

/-- The name of a partition tells its month. -/
lemma name_inj (yearsi : InYears i) (yearsj : InYears j) (same : (partitionOf i).name = (partitionOf j).name) :
    i = j := by
  have uppers := congrArg upperOfName same
  rw [upperOfName_partitionOf yearsi, upperOfName_partitionOf yearsj] at uppers
  have eq := Option.some.inj uppers
  have notlt := (monthStart_lt_iff (i := i + 1) (j := j + 1) (by have := yearsi.1; omega) (by have := yearsi.2; omega)
    (by have := yearsj.1; omega) (by have := yearsj.2; omega)).not.1 (eq ▸ lt_irrefl _)
  have notgt := (monthStart_lt_iff (i := j + 1) (j := i + 1) (by have := yearsj.1; omega) (by have := yearsj.2; omega)
    (by have := yearsi.1; omega) (by have := yearsi.2; omega)).not.1 (eq ▸ lt_irrefl _)
  omega

end Months

section Jobs

/-- The month of a job's day. -/
def Job.current (job : Job) : ℤ := 12 * job.today.year + job.today.month - 1

/-- The job creates a partition for the month. -/
def Job.covers (job : Job) (i : ℕ) : Prop := job.current ≤ i ∧ i < job.current + job.months_ahead

/-- The month is over for more than the job's retention. -/
def Job.expires (job : Job) (i : ℕ) : Prop :=
  0 < job.retention_months ∧ job.dry_run = false ∧ i + job.retention_months < job.current

/-- The day of the job has a month, and the months it reads and writes have years of four digits. -/
structure Job.Valid (job : Job) : Prop where
  month : 1 ≤ job.today.month ∧ job.today.month ≤ 12
  first : 12000 + max job.retention_months 0 ≤ job.current
  last : job.current + max job.months_ahead 0 ≤ 119999

/-- The migration creates what a run for two months would create. -/
def migration (today : Reference) : Job := { months_ahead := 2, retention_months := 0, dry_run := false, today }

/-- The child tables are the partitions of the months that are so. -/
structure Monthly (db : List Partition) (months : List ℕ) (p : ℕ → Prop) : Prop where
  tables : db = months.map partitionOf
  nodup : months.Nodup
  years : ∀ i ∈ months, InYears i
  mem : ∀ i, i ∈ months ↔ p i

variable {months : List ℕ} {i : ℕ} {names : List String} {ref : Reference} {db : List Partition} {p : ℕ → Prop}

/-- A name is taken where its month has a partition. -/
lemma any_name (years : ∀ i ∈ months, InYears i) (year : InYears i) :
    (months.map partitionOf).any (·.name = (partitionOf i).name) = decide (i ∈ months) := by
  rw [List.any_map]
  by_cases mem : i ∈ months
  · rw [decide_eq_true mem]
    exact List.any_eq_true.2 ⟨i, mem, decide_eq_true rfl⟩
  · rw [decide_eq_false mem, List.any_eq_false]
    intro j memj same
    exact mem (name_inj (years j memj) year (of_decide_eq_true same) ▸ memj)

/-- A new month does not overlap the others. -/
lemma createPartition_eq (years : ∀ i ∈ months, InYears i) (year : InYears i) (new : i ∉ months) :
    createPartition (months.map partitionOf) (partitionOf i) = some ((months ++ [i]).map partitionOf) := by
  have ranges : (months.map partitionOf).mapM Partition.range =
      some (months.map fun j => (dateIn j 1, dateIn (j + 1) 1)) := by
    clear new
    induction months with
    | nil => rfl
    | cons j months ih =>
      rw [List.map_cons, List.mapM_cons, range_partitionOf (years j (List.mem_cons_self ..)),
        ih fun i mem => years i (List.mem_cons_of_mem j mem)]
      rfl
  have apart : (months.map fun j => (dateIn j 1, dateIn (j + 1) 1)).all
      (fun (lower', upper') => ¬lower' < dateIn (i + 1) 1 ∨ ¬dateIn i 1 < upper') = true := by
    rw [List.all_map, List.all_eq_true]
    intro j mem
    have ne : j ≠ i := fun same => new (same ▸ mem)
    refine decide_eq_true ?_
    rw [dateIn_lt_iff j (i + 1) one_pos, dateIn_lt_iff i (j + 1) one_pos]
    omega
  have proper : dateIn i 1 < dateIn (i + 1) 1 := (dateIn_lt_iff i (i + 1) one_pos).2 (Nat.lt_succ_self i)
  rw [createPartition, any_name years year, decide_eq_false new, range_partitionOf year, ranges]
  show (if dateIn i 1 < dateIn (i + 1) 1 ∧ _ then some _ else none) = _
  rw [if_pos ⟨proper, apart⟩, List.map_append, List.map_singleton]

/-- A turn of the loop creates the partition of its month, where it is missing. -/
lemma createMonth_eq {first offset : ℕ} (month : 1 ≤ ref.month) (current : 12 * ref.year + ref.month - 1 = first)
    (years : ∀ i ∈ months, InYears i) (year : InYears (first + offset)) :
    createMonth ref (names, months.map partitionOf) offset =
      if first + offset ∈ months then some (names, months.map partitionOf)
      else some (names ++ [(partitionOf (first + offset)).name], (months ++ [first + offset]).map partitionOf) := by
  have target : carry ref.year (ref.month + offset) =
      ((((first + offset) / 12 : ℕ) : ℤ), (((first + offset) % 12 + 1 : ℕ) : ℤ)) := by
    rw [carry_eq _ _ (by omega)]
    exact Prod.ext (by dsimp only; omega) (by dsimp only; omega)
  have body : createMonth ref (names, months.map partitionOf) offset =
      if (months.map partitionOf).any (·.name = (partitionOf (first + offset)).name) then
        some (names, months.map partitionOf)
      else (createPartition (months.map partitionOf) (partitionOf (first + offset))).bind fun db =>
        some (names ++ [(partitionOf (first + offset)).name], db) := by
    rw [createMonth, target]
    simp only [next_month_eq (first + offset)]
    rfl
  rw [body, any_name years year]
  by_cases mem : first + offset ∈ months
  · rw [if_pos (decide_eq_true mem), if_pos mem]
  · rw [decide_eq_false mem, if_neg mem, createPartition_eq years year mem]
    rfl

/-- The months that `create_future_partitions` adds. -/
def created (months : List ℕ) (first n : ℕ) : List ℕ := ((List.range n).map (first + ·)).filter (· ∉ months)

/-- The months created are those of the window that were missing. -/
lemma mem_created {first n : ℕ} : i ∈ created months first n ↔ (first ≤ i ∧ i < first + n) ∧ i ∉ months := by
  rw [created, List.mem_filter, List.mem_map, decide_eq_true_iff]
  constructor
  · rintro ⟨⟨k, mem, rfl⟩, new⟩
    exact ⟨⟨Nat.le_add_right _ _, Nat.add_lt_add_left (List.mem_range.1 mem) _⟩, new⟩
  · rintro ⟨⟨ge, lt⟩, new⟩
    exact ⟨⟨i - first, List.mem_range.2 (by omega), by omega⟩, new⟩

/-- The loop creates the missing months of the window. -/
lemma createLoop_eq {first : ℕ} (month : 1 ≤ ref.month) (current : 12 * ref.year + ref.month - 1 = first)
    (years : ∀ i ∈ months, InYears i) (n : ℕ) (within : 12000 ≤ first ∧ first + n ≤ 119999) :
    (List.range n).foldlM (createMonth ref) ([], months.map partitionOf) =
      some ((created months first n).map fun i => (partitionOf i).name,
        (months ++ created months first n).map partitionOf) := by
  induction n with
  | zero =>
    rw [created, List.range_zero, List.map_nil, List.filter_nil, List.append_nil]
    rfl
  | succ n ih =>
    have years' : ∀ i ∈ months ++ created months first n, InYears i := by
      refine List.forall_mem_append.2 ⟨years, fun i mem => ?_⟩
      obtain ⟨⟨ge, lt⟩, -⟩ := mem_created.1 mem
      exact ⟨by omega, by omega⟩
    have old : first + n ∈ months ++ created months first n ↔ first + n ∈ months := by
      rw [List.mem_append, mem_created]
      constructor
      · rintro (mem | ⟨⟨-, lt⟩, -⟩)
        · exact mem
        · exact absurd lt (Nat.lt_irrefl _)
      · exact .inl
    have more : created months first (n + 1) =
        created months first n ++ if first + n ∈ months then [] else [first + n] := by
      rw [created, List.range_succ, List.map_append, List.filter_append, created, List.map_singleton]
      refine congrArg (((List.range n).map (first + ·)).filter (· ∉ months) ++ ·) ?_
      by_cases mem : first + n ∈ months
      · rw [if_pos mem, List.filter_cons_of_neg (by simpa using mem), List.filter_nil]
      · rw [if_neg mem, List.filter_cons_of_pos (by simpa using mem), List.filter_nil]
    have before := ih ⟨within.1, by omega⟩
    rw [List.range_succ, List.foldlM_append, before]
    show (createMonth ref _ n >>= fun acc => pure acc) = _
    rw [createMonth_eq month current years' ⟨by omega, by omega⟩, more]
    by_cases mem : first + n ∈ months
    · rw [if_pos (old.2 mem), if_pos mem, List.append_nil]
      rfl
    · have named := @List.map_append _ _ (fun i => (partitionOf i).name) (created months first n) [first + n]
      rw [if_neg fun mem' => mem (old.1 mem'), if_neg mem, ← List.append_assoc, named]
      rfl

/-- The test of the retention, on the names the manager gives. -/
lemma expired_partitionOf {retention : ℤ} {current : ℕ} (month : ref.month ≤ 12)
    (now : 12 * ref.year + ref.month - 1 = current) (pos : 0 < retention) (low : 12000 + retention ≤ current)
    (high : current < 120000) (year : InYears i) :
    expired (cutoffDate retention ref) (partitionOf i).name = decide (i + retention < current) := by
  obtain ⟨cutoff, same⟩ : ∃ cutoff : ℕ, (current : ℤ) - retention = cutoff := ⟨(current - retention).toNat, by omega⟩
  have date : cutoffDate retention ref = monthStart cutoff := by
    have back : borrow ref.year (ref.month - retention) = (((cutoff / 12 : ℕ) : ℤ), ((cutoff % 12 + 1 : ℕ) : ℤ)) := by
      rw [borrow_eq _ _ (by omega)]
      exact Prod.ext (by dsimp only; omega) (by dsimp only; omega)
    rw [cutoffDate, back]
    rfl
  have years := year
  obtain ⟨lowi, highi⟩ := year
  rw [expired, upperOfName_partitionOf years, Option.any_some, date]
  refine decide_eq_decide.2 ?_
  rw [monthStart_lt_iff (by omega) (by omega) (by omega) (by omega)]
  omega

/-- Dropping names one after the other removes their partitions. -/
lemma foldl_drop (names : List String) (db : List Partition) :
    names.foldl (fun db name => db.filter (·.name ≠ name)) db = db.filter fun p => p.name ∉ names := by
  induction names generalizing db with
  | nil =>
    rw [List.foldl_nil]
    exact (List.filter_eq_self.2 fun _ _ => decide_eq_true List.not_mem_nil).symm
  | cons name names ih =>
    rw [List.foldl_cons, ih, List.filter_filter]
    refine List.filter_congr fun p _ => ?_
    rw [← Bool.decide_and]
    refine decide_eq_decide.2 ?_
    rw [List.mem_cons, not_or, and_comm]

/-- What has expired is dropped, unless it is a dry run. -/
lemma drop_eq {retention : ℤ} {current : ℕ} (dry_run : Bool) (month : ref.month ≤ 12)
    (now : 12 * ref.year + ref.month - 1 = current) (pos : 0 < retention) (low : 12000 + retention ≤ current)
    (high : current < 120000) (years : ∀ i ∈ months, InYears i) :
    (drop_expired_partitions retention dry_run ref (months.map partitionOf)).2 =
      (if dry_run then months else months.filter fun i => ¬(i + retention < current)).map partitionOf := by
  rw [drop_expired_partitions]
  cases dry_run with
  | true => rfl
  | false =>
    simp only [Bool.false_eq_true, if_false]
    rw [foldl_drop, List.filter_map]
    refine congrArg (List.map partitionOf) (List.filter_congr fun i mem => ?_)
    have test := expired_partitionOf (i := i) month now pos low high (years i mem)
    refine decide_eq_decide.2 (not_congr ?_)
    rw [List.mem_mergeSort, List.mem_filter, test, decide_eq_true_iff]
    exact ⟨fun both => both.2, fun old => ⟨List.mem_map_of_mem (List.mem_map_of_mem mem), old⟩⟩

/-- The months that a job covers join. -/
lemma create_future_partitions_eq {job : Job} (valid : job.Valid) (monthly : Monthly db months p) :
    ∃ names db' months', create_future_partitions job.months_ahead job.today db = some (names, db') ∧
      Monthly db' months' fun i => p i ∨ job.covers i := by
  obtain ⟨⟨month, -⟩, first, last⟩ := valid
  have back₀ := le_max_right job.retention_months 0
  have ahead := le_max_left job.months_ahead 0
  have ahead₀ := le_max_right job.months_ahead 0
  obtain ⟨current, now⟩ : ∃ current : ℕ, job.current = current := ⟨job.current.toNat, by omega⟩
  obtain ⟨rfl, nodup, years, mem⟩ := monthly
  have creates := createLoop_eq month now years job.months_ahead.toNat ⟨by omega, by omega⟩
  refine ⟨_, _, _, creates, rfl, List.nodup_append.2 ⟨nodup, ?_, ?_⟩, List.forall_mem_append.2 ⟨years, ?_⟩, fun i => ?_⟩
  · exact (List.nodup_range.map (add_right_injective current)).filter _
  · rintro i memi j memj rfl
    exact (mem_created.1 memj).2 memi
  · intro i memi
    obtain ⟨⟨ge, lt⟩, -⟩ := mem_created.1 memi
    exact ⟨by omega, by omega⟩
  · rw [List.mem_append, mem_created, mem i, Job.covers, now]
    constructor
    · rintro (old | ⟨⟨ge, lt⟩, -⟩)
      · exact .inl old
      · exact .inr ⟨by omega, by omega⟩
    · rintro (old | ⟨ge, lt⟩)
      · exact .inl old
      · by_cases old : p i
        · exact .inl old
        · exact .inr ⟨⟨by omega, by omega⟩, old⟩

/-- The months that expire at a job go. -/
lemma drop_expired_partitions_eq {job : Job} (valid : job.Valid) (keeps : job.retention_months > 0)
    (monthly : Monthly db months p) :
    ∃ months', Monthly (drop_expired_partitions job.retention_months job.dry_run job.today db).2 months'
      fun i => p i ∧ ¬job.expires i := by
  obtain ⟨⟨-, month⟩, first, last⟩ := valid
  have back := le_max_left job.retention_months 0
  have ahead₀ := le_max_right job.months_ahead 0
  obtain ⟨current, now⟩ : ∃ current : ℕ, job.current = current := ⟨job.current.toNat, by omega⟩
  obtain ⟨rfl, nodup, years, mem⟩ := monthly
  rw [drop_eq job.dry_run month now keeps (by omega) (by omega) years]
  cases dry : job.dry_run with
  | true =>
    rw [if_pos rfl]
    refine ⟨_, rfl, nodup, years, fun i => ?_⟩
    rw [mem, Job.expires, dry]
    simp
  | false =>
    rw [if_neg Bool.false_ne_true]
    refine ⟨_, rfl, nodup.filter _, fun i memi => years i (List.mem_of_mem_filter memi), fun i => ?_⟩
    rw [List.mem_filter, mem, Job.expires, dry, decide_eq_true_iff, now]
    simp [keeps]

/-- One run of the script: the months it covers join, and the expired ones go. -/
lemma main_eq {job : Job} (valid : job.Valid) (monthly : Monthly db months p) :
    ∃ db' months', main db job = some db' ∧
      Monthly db' months' fun i => (p i ∨ job.covers i) ∧ ¬job.expires i := by
  obtain ⟨names, db', months', creates, monthly'⟩ := create_future_partitions_eq valid monthly
  have ran : main db job = some (if job.retention_months > 0 then
      (drop_expired_partitions job.retention_months job.dry_run job.today db').2 else db') := by
    rw [main, creates]
    rfl
  rw [ran]
  by_cases keeps : job.retention_months > 0
  · obtain ⟨months'', dropped⟩ := drop_expired_partitions_eq valid keeps monthly'
    rw [if_pos keeps]
    exact ⟨_, months'', rfl, dropped⟩
  · rw [if_neg keeps]
    refine ⟨db', months', rfl, monthly'.tables, monthly'.nodup, monthly'.years, fun i => ?_⟩
    rw [monthly'.mem, and_iff_left fun old : job.expires i => keeps old.1]

/-- The month has a partition after the jobs: one of them covers it, and it expires at none from that one on. -/
def Maintained (jobs : List Job) (i : ℕ) : Prop :=
  ∃ pre job post, jobs = pre ++ job :: post ∧ job.covers i ∧ ∀ later ∈ job :: post, ¬later.expires i

/-- One more job adds the months that it covers and takes those that expire. -/
lemma maintained_snoc (jobs : List Job) (job : Job) (i : ℕ) :
    Maintained (jobs ++ [job]) i ↔ (Maintained jobs i ∨ job.covers i) ∧ ¬job.expires i := by
  constructor
  · rintro ⟨pre, first, post, split, covers, kept⟩
    rcases List.eq_nil_or_concat post with rfl | ⟨post, last, rfl⟩
    · obtain ⟨rfl, same⟩ := List.append_inj' split rfl
      obtain rfl := List.singleton_inj.1 same
      exact ⟨.inr covers, kept job (List.mem_cons_self ..)⟩
    · rw [List.concat_eq_append, ← List.cons_append, ← List.append_assoc] at split
      obtain ⟨rfl, same⟩ := List.append_inj' split rfl
      obtain rfl := List.singleton_inj.1 same
      rw [List.concat_eq_append, ← List.cons_append] at kept
      refine ⟨.inl ⟨pre, first, post, rfl, covers, fun later mem => kept later (List.mem_append_left _ mem)⟩, ?_⟩
      exact kept job (List.mem_append_right _ (List.mem_singleton_self job))
  · rintro ⟨⟨pre, first, post, rfl, covers, kept⟩ | covers, live⟩
    · refine ⟨pre, first, post ++ [job], by rw [List.append_assoc, List.cons_append], covers, ?_⟩
      rw [← List.cons_append]
      exact List.forall_mem_append.2 ⟨kept, List.forall_mem_singleton.2 live⟩
    · exact ⟨jobs, job, [], rfl, covers, List.forall_mem_singleton.2 live⟩

/-- The migration creates the partitions of its month and the next one. -/
lemma upgrade_eq {today : Reference} (valid : (migration today).Valid) :
    ∃ db months, upgrade today [] = some db ∧ Monthly db months (Maintained [migration today]) := by
  obtain ⟨⟨low, high⟩, first, last⟩ := valid
  obtain ⟨current, now⟩ : ∃ current : ℕ, (migration today).current = current :=
    ⟨(migration today).current.toNat, by omega⟩
  have now' : 12 * today.year + today.month - 1 = current := now
  have years : InYears current ∧ InYears (current + 1) := by
    simp only [migration, Job.current] at first last low high
    exact ⟨⟨by omega, by omega⟩, ⟨by omega, by omega⟩⟩
  have year : today.year = (current / 12 : ℕ) := by
    simp only [migration] at low high
    omega
  have month : today.month = (current % 12 + 1 : ℕ) := by
    simp only [migration] at low high
    omega
  have created : upgrade today [] =
      (createPartition [] (partitionOf current)).bind fun db => createPartition db (partitionOf (current + 1)) := by
    simp only [upgrade, year, month, next_month_eq]
    rfl
  have one : createPartition [] (partitionOf current) = some [partitionOf current] :=
    @createPartition_eq [] current (by simp) years.1 (by simp)
  have two : createPartition [partitionOf current] (partitionOf (current + 1)) =
      some [partitionOf current, partitionOf (current + 1)] :=
    @createPartition_eq [current] (current + 1) (by simpa using years.1) years.2 (by simp)
  have ran : upgrade today [] = some ([current, current + 1].map partitionOf) := by
    rw [created, one, Option.bind_some, two]
    rfl
  refine ⟨_, [current, current + 1], ran, rfl, by simp, ?_, fun i => ?_⟩
  · exact List.forall_mem_cons.2 ⟨years.1, List.forall_mem_singleton.2 years.2⟩
  · have none : ¬Maintained [] i := by
      rintro ⟨pre, job, post, split, -⟩
      exact absurd split (by simp)
    have kept : ¬(migration today).expires i := fun old => absurd old.1 (by simp [migration])
    have covers : (migration today).covers i ↔ (current : ℤ) ≤ i ∧ (i : ℤ) < current + 2 := by
      rw [Job.covers, now]
      rfl
    have alone := maintained_snoc [] (migration today) i
    rw [List.nil_append] at alone
    rw [alone, covers, or_iff_right none, and_iff_left kept, List.mem_cons, List.mem_singleton]
    omega

/-- Over the jobs the partitions are those of the months maintained. -/
lemma jobs_eq {before jobs : List Job} (valid : ∀ job ∈ jobs, job.Valid)
    (monthly : Monthly db months (Maintained before)) :
    ∃ db' months', exec main db jobs = some db' ∧ Monthly db' months' (Maintained (before ++ jobs)) := by
  induction jobs using List.reverseRecOn with
  | nil =>
    rw [List.append_nil]
    exact ⟨db, months, rfl, monthly⟩
  | append_singleton jobs job ih =>
    obtain ⟨first, rest⟩ := List.forall_mem_append.1 valid
    obtain ⟨db₁, months₁, ran, monthly₁⟩ := ih first
    obtain ⟨db₂, months₂, last, monthly₂⟩ := main_eq (List.forall_mem_singleton.1 rest) monthly₁
    refine ⟨db₂, months₂, exec_snoc.2 ⟨db₁, ran, last⟩, ⟨monthly₂.tables, monthly₂.nodup, monthly₂.years, fun i => ?_⟩⟩
    rw [monthly₂.mem, ← List.append_assoc, maintained_snoc]

/-- After the migration the script never fails, however often it is run and with whatever numbers of months, as long as
the months it creates and compares have years of four digits. Afterwards a date has exactly one partition if its month
has been covered, by the migration or a run, and has not expired in a run since, and none otherwise. -/
theorem partitions_of_jobs {today : Reference} {jobs : List Job} (valid : ∀ job ∈ migration today :: jobs, job.Valid) :
    ∃ db, ((upgrade today []).bind fun db => exec main db jobs) = some db ∧ ∀ (i day : ℕ), 0 < day →
      (Maintained (migration today :: jobs) i → db.countP (·.holds (dateIn i day)) = 1) ∧
        (¬Maintained (migration today :: jobs) i → db.countP (·.holds (dateIn i day)) = 0) := by
  obtain ⟨first, rest⟩ := List.forall_mem_cons.1 valid
  obtain ⟨db₀, months₀, migrated, monthly₀⟩ := upgrade_eq first
  obtain ⟨db, months, ran, rfl, nodup, years, mem⟩ := jobs_eq rest monthly₀
  refine ⟨_, by rw [migrated, Option.bind_some, ran], fun i day pos => ?_⟩
  have count : (months.map partitionOf).countP (·.holds (dateIn i day)) = months.count i := by
    rw [List.countP_map, List.count]
    refine List.countP_congr fun j memj => ?_
    rw [Function.comp_apply, holds_partitionOf (years j memj) i pos, decide_eq_true_iff, beq_iff_eq]
  have member : i ∈ months ↔ Maintained (migration today :: jobs) i := mem i
  rw [count, ← member]
  exact ⟨fun memi => List.count_eq_one_of_mem nodup memi, List.count_eq_zero_of_not_mem⟩

/-- The migration in October and two runs, of which the second one drops the partitions of 2026. -/
theorem partitions_of_jobs_two :
    ∃ db, ((upgrade ⟨2026, 10⟩ []).bind fun db =>
        exec main db [⟨3, 12, false, ⟨2026, 11⟩⟩, ⟨3, 1, false, ⟨2027, 2⟩⟩]) = some db ∧ ∀ (i day : ℕ), 0 < day →
      (Maintained [migration ⟨2026, 10⟩, ⟨3, 12, false, ⟨2026, 11⟩⟩, ⟨3, 1, false, ⟨2027, 2⟩⟩] i →
          db.countP (·.holds (dateIn i day)) = 1) ∧
        (¬Maintained [migration ⟨2026, 10⟩, ⟨3, 12, false, ⟨2026, 11⟩⟩, ⟨3, 1, false, ⟨2027, 2⟩⟩] i →
          db.countP (·.holds (dateIn i day)) = 0) :=
  partitions_of_jobs (List.forall_mem_cons.2 ⟨⟨by decide, by decide, by decide⟩,
    List.forall_mem_cons.2 ⟨⟨by decide, by decide, by decide⟩,
      List.forall_mem_singleton.2 ⟨by decide, by decide, by decide⟩⟩⟩)

end Jobs

end StellarFlow.Database
