import Mathlib.Data.List.Basic

/-!
# Delimited frames

A stream of symbols cut at a delimiter: `terminated` are the segments that a delimiter ends, in order,
and `unterminated` is what follows the last delimiter. `splitOn_append` says how a stream that arrives
in two parts is cut: the part left over from the first is put in front of the second. `splitOn_intercalate`
is for streams that are joined from fields which may have the delimiter in them.
-/

namespace Framing
variable {α : Type} [DecidableEq α] (d : α)

/-- The segments that are ended by a delimiter. -/
def terminated (xs : List α) : List (List α) := (xs.splitOn d).dropLast

/-- The symbols after the last delimiter. -/
def unterminated (xs : List α) : List α := (xs.splitOn d).getLastD []

/-- The segments that are ended by a delimiter and are not empty. -/
def frames (xs : List α) : List (List α) := (terminated d xs).filter (· ≠ [])

/-- Splitting gives what was ended and what was not. -/
lemma splitOn_eq (xs : List α) : xs.splitOn d = terminated d xs ++ [unterminated d xs] := by
  have nonempty := List.splitOn_ne_nil d xs
  rw [terminated, unterminated, List.getLastD_eq_getLast?, List.getLast?_eq_some_getLast nonempty,
    Option.getD_some, List.dropLast_concat_getLast]

/-- The last piece is what was not ended. -/
lemma terminated_of_splitOn {xs last : List α} {segs : List (List α)}
    (split : xs.splitOn d = segs ++ [last]) : terminated d xs = segs ∧ unterminated d xs = last := by
  rw [splitOn_eq] at split
  exact List.append_inj' split rfl |>.imp id List.singleton_inj.mp

/-- Fields joined with the delimiter are cut where the fields are, and between them. -/
lemma splitOn_intercalate {fields : List (List α)} (some : fields ≠ []) :
    ([d].intercalate fields).splitOn d = fields.flatMap fun field => field.splitOn d := by
  induction fields with
  | nil => exact absurd rfl some
  | cons field fields ih =>
    cases fields with
    | nil => rw [List.intercalate_singleton, List.flatMap_cons, List.flatMap_nil, List.append_nil]
    | cons next fields =>
      rw [List.intercalate_cons_cons, List.append_assoc, List.singleton_append, List.splitOn_append_cons_self,
        ih (List.cons_ne_nil next fields), ← List.flatMap_cons]

omit [DecidableEq α] in
/-- Joined lines with a last delimiter are lines that each end in it. -/
lemma intercalate_append (line : List α) (lines : List (List α)) :
    [d].intercalate (line :: lines) ++ [d] = (line :: lines).flatMap fun line => line ++ [d] := by
  induction lines generalizing line with
  | nil => rw [List.intercalate_singleton, List.flatMap_cons, List.flatMap_nil, List.append_nil]
  | cons next lines ih =>
    rw [List.intercalate_cons_cons, List.append_assoc, ih]
    rfl

/-- The pieces tell the text. -/
lemma splitOn_injective {xs ys : List α} (same : xs.splitOn d = ys.splitOn d) : xs = ys :=
  calc xs = [d].intercalate (xs.splitOn d) := (List.intercalate_splitOn d).symm
    _ = [d].intercalate (ys.splitOn d) := by rw [same]
    _ = ys := List.intercalate_splitOn d

/-- A stream in two parts. -/
lemma splitOn_append (xs ys : List α) :
    (xs ++ ys).splitOn d = terminated d xs ++ (unterminated d xs ++ ys).splitOn d := by
  induction xs with
  | nil => rfl
  | cons x xs ih =>
    by_cases eq : x = d
    · subst eq
      have first : ∀ zs : List α, (x :: zs).splitOn x = [] :: zs.splitOn x := by
        intro zs
        rw [List.splitOn_cons_eq_if_modifyHead, if_pos (beq_self_eq_true x)]
      obtain ⟨segs, last⟩ := terminated_of_splitOn x
        (show (x :: xs).splitOn x = ([] :: terminated x xs) ++ [unterminated x xs] by
          rw [first, splitOn_eq, List.cons_append])
      rw [List.cons_append, first, ih, segs, last, List.cons_append]
    · have first : ∀ zs : List α, (x :: zs).splitOn d = (zs.splitOn d).modifyHead (x :: ·) := by
        intro zs
        rw [List.splitOn_cons_eq_if_modifyHead, if_neg (by simpa using eq)]
      -- the symbol joins the first segment, which is terminated unless it is also the last
      cases whole : terminated d xs with
      | nil =>
        obtain ⟨segs, last⟩ := terminated_of_splitOn d
          (show (x :: xs).splitOn d = [] ++ [x :: unterminated d xs] by
            rw [first, splitOn_eq, whole]
            rfl)
        rw [List.cons_append, first, ih, segs, last, whole, List.nil_append, List.nil_append,
          List.cons_append, first]
      | cons seg segs' =>
        obtain ⟨segs, last⟩ := terminated_of_splitOn d
          (show (x :: xs).splitOn d = ((x :: seg) :: segs') ++ [unterminated d xs] by
            rw [first, splitOn_eq, whole]
            rfl)
        rw [List.cons_append, first, ih, segs, last, whole]
        rfl

/-- What was not ended goes on with what is added. -/
lemma cut_append (xs ys : List α) :
    terminated d (xs ++ ys) = terminated d xs ++ terminated d (unterminated d xs ++ ys) ∧
      unterminated d (xs ++ ys) = unterminated d (unterminated d xs ++ ys) := by
  apply terminated_of_splitOn
  rw [splitOn_append, splitOn_eq d (unterminated d xs ++ ys), List.append_assoc]

/-- The rest goes on with what is added. -/
lemma unterminated_append (xs ys : List α) :
    unterminated d (xs ++ ys) = unterminated d (unterminated d xs ++ ys) :=
  (cut_append d xs ys).2

/-- Frames are those of the first part and those that the second completes. -/
lemma frames_append (xs ys : List α) :
    frames d (xs ++ ys) = frames d xs ++ frames d (unterminated d xs ++ ys) := by
  rw [frames, (cut_append d xs ys).1, List.filter_append]
  rfl

/-- What was not ended has no frame. -/
lemma frames_unterminated (xs : List α) : frames d (unterminated d xs) = [] := by
  have again := frames_append d xs []
  rw [List.append_nil, List.append_nil] at again
  exact List.append_right_eq_self.mp again.symm

/-- One more delimiter ends the segment that was open. -/
lemma cut_snoc_self (xs : List α) :
    terminated d (xs ++ [d]) = terminated d xs ++ [unterminated d xs] ∧ unterminated d (xs ++ [d]) = [] := by
  apply terminated_of_splitOn
  rw [List.splitOn_append_cons_self, splitOn_eq d xs]
  rfl

/-- No piece has the delimiter. -/
lemma delimiter_notMem {xs seg : List α} (mem : seg ∈ xs.splitOn d) : d ∉ seg := by
  induction xs generalizing seg with
  | nil =>
    rw [List.splitOn_nil, List.mem_singleton] at mem
    rw [mem]
    exact List.not_mem_nil
  | cons x xs ih =>
    rw [List.splitOn_cons_eq_if_modifyHead] at mem
    split at mem
    · rcases List.mem_cons.mp mem with rfl | mem
      · exact List.not_mem_nil
      · exact ih mem
    · rename_i ne
      rw [splitOn_eq] at mem ih
      cases whole : terminated d xs ++ [unterminated d xs] with
      | nil => simp at whole
      | cons head rest =>
        rw [whole] at mem ih
        rcases List.mem_cons.mp mem with rfl | mem
        · rw [List.mem_cons, not_or]
          exact ⟨fun eq => ne (by simp [eq]), ih List.mem_cons_self⟩
        · exact ih (List.mem_cons_of_mem _ mem)

/-- One more symbol that is not a delimiter goes to the open segment. -/
lemma cut_snoc_of_ne {x : α} (ne : x ≠ d) (xs : List α) :
    terminated d (xs ++ [x]) = terminated d xs ∧ unterminated d (xs ++ [x]) = unterminated d xs ++ [x] := by
  have last : unterminated d xs ∈ xs.splitOn d := by
    rw [splitOn_eq]
    exact List.mem_append_right _ (List.mem_singleton_self _)
  apply terminated_of_splitOn
  rw [splitOn_append, List.splitOn_eq_singleton]
  rw [List.mem_append, List.mem_singleton, not_or]
  exact ⟨delimiter_notMem d last, Ne.symm ne⟩

/-- A delimiter ends a frame, unless there is nothing to end. -/
lemma frames_snoc_self (xs : List α) :
    frames d (xs ++ [d]) =
      if unterminated d xs = [] then frames d xs else frames d xs ++ [unterminated d xs] := by
  rw [frames, (cut_snoc_self d xs).1, List.filter_append]
  split
  · rename_i empty
    simp [frames, empty]
  · rename_i nonempty
    simp [frames, nonempty]

/-- Another item ends none. -/
lemma frames_snoc_of_ne {x : α} (ne : x ≠ d) (xs : List α) : frames d (xs ++ [x]) = frames d xs := by
  rw [frames, (cut_snoc_of_ne d ne xs).1]
  rfl

/-- A segment without a delimiter, and the delimiter that ends it. -/
lemma frames_line {xs : List α} (clean : d ∉ xs) (nonempty : xs ≠ []) (ys : List α) :
    frames d (xs ++ d :: ys) = xs :: frames d ys := by
  have single : xs.splitOn d = [] ++ [xs] := List.splitOn_eq_singleton clean
  obtain ⟨segs, last⟩ := terminated_of_splitOn d single
  have none_ : frames d xs = [] := by
    rw [frames, segs]
    rfl
  rw [← List.singleton_append, ← List.append_assoc, frames_append, (cut_snoc_self d xs).2, frames_snoc_self, last,
    if_neg nonempty, none_]
  rfl

end Framing
