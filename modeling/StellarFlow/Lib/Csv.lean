import Mathlib.Data.List.Basic

/-!
# Comma-separated values

Records of cells over any alphabet, as RFC 4180 has them, with records that end in a line feed. A cell with a quote, a
comma, a line feed or a carriage return is written in quotes, with its quotes doubled; the reader refuses a quote or a
carriage return in a cell without quotes, and anything but a delimiter or another quote behind a closing quote.

The reader returns what was written (`read_write`), whatever the cells are.
-/

namespace Csv

/-- The symbols with a meaning. -/
structure Symbols (α : Type) where
  quote : α
  comma : α
  lf : α
  cr : α
  distinct : [quote, comma, lf, cr].Nodup

/-- Where the reader is: at the beginning of a cell, in one without quotes, in one with quotes, or behind a quote in
one with quotes. -/
inductive Mode where
  | start
  | plain
  | quoted
  | closed
  deriving DecidableEq

/-- What the reader does with a symbol. -/
inductive Action (α : Type) where
  | cell (mode : Mode) (content : List α)
  | nextCell
  | nextRecord
  | refuse

variable {α : Type}

/-- The end of the text; the line feed of the last record may be missing. -/
def finish : Mode → List α → List (List α) → Option (List (List (List α)))
  | .quoted, _, _ => none
  | .start, _, [] => some []
  | _, cell, record => some [record ++ [cell]]

variable [DecidableEq α] (s : Symbols α)

/-- A symbol that must stand in quotes. -/
def Symbols.isSpecial (c : α) : Bool := c = s.quote || c = s.comma || c = s.lf || c = s.cr

/-- The quotes of a cell twice. -/
def Symbols.double (cell : List α) : List α := cell.flatMap fun c => if c = s.quote then [s.quote, s.quote] else [c]

/-- A cell, in quotes where it needs them. -/
def Symbols.escape (cell : List α) : List α :=
  if cell.any s.isSpecial then s.quote :: (s.double cell ++ [s.quote]) else cell

/-- The cells of a record, separated by commas. -/
def Symbols.line (cells : List (List α)) : List α := [s.comma].intercalate cells

/-- The records, each ended by a line feed. -/
def Symbols.write (records : List (List (List α))) : List α :=
  records.flatMap fun record => s.line (record.map s.escape) ++ [s.lf]

def Symbols.action (mode : Mode) (c : α) : Action α :=
  match mode with
  | .quoted => if c = s.quote then .cell .closed [] else .cell .quoted [c]
  | .closed =>
    if c = s.comma then .nextCell else if c = s.lf then .nextRecord
    else if c = s.quote then .cell .quoted [c] else .refuse
  | .start =>
    if c = s.comma then .nextCell else if c = s.lf then .nextRecord
    else if c = s.quote then .cell .quoted [] else if c = s.cr then .refuse else .cell .plain [c]
  | .plain =>
    if c = s.comma then .nextCell else if c = s.lf then .nextRecord
    else if c = s.quote ∨ c = s.cr then .refuse else .cell .plain [c]

/-- The reader, with the cell and the record read so far. -/
def Symbols.readFrom (mode : Mode) (cell : List α) (record : List (List α)) :
    List α → Option (List (List (List α)))
  | [] => finish mode cell record
  | c :: rest =>
    match s.action mode c with
    | .cell mode content => readFrom mode (cell ++ content) record rest
    | .nextCell => readFrom .start [] (record ++ [cell]) rest
    | .nextRecord => (readFrom .start [] [] rest).map ((record ++ [cell]) :: ·)
    | .refuse => none

def Symbols.read (text : List α) : Option (List (List (List α))) := s.readFrom .start [] [] text

variable {s} {cell : List α} {record : List (List α)} {rest : List α} {c : α} {mode : Mode}

omit [DecidableEq α] in
/-- The symbols differ. -/
lemma Symbols.ne (s : Symbols α) : s.quote ≠ s.comma ∧ s.quote ≠ s.lf ∧ s.lf ≠ s.comma := by
  have distinct := s.distinct
  simp only [List.nodup_cons, List.mem_cons, List.not_mem_nil, or_false, not_or] at distinct
  exact ⟨distinct.1.1, distinct.1.2.1, fun same => distinct.2.1.1 same.symm⟩

/-- A plain character is none of the symbols. -/
lemma not_isSpecial (plain : ¬s.isSpecial c = true) : c ≠ s.quote ∧ c ≠ s.comma ∧ c ≠ s.lf ∧ c ≠ s.cr := by
  rw [Symbols.isSpecial, Bool.or_eq_true, Bool.or_eq_true, Bool.or_eq_true] at plain
  simp only [decide_eq_true_iff, not_or] at plain
  exact ⟨plain.1.1.1, plain.1.1.2, plain.1.2, plain.2⟩

/-- A delimiter ends a cell of any kind. -/
lemma action_delimiter (ends : mode ≠ .quoted) :
    s.action mode s.comma = .nextCell ∧ s.action mode s.lf = .nextRecord := by
  cases mode with
  | quoted => exact absurd rfl ends
  | start => exact ⟨if_pos rfl, (if_neg s.ne.2.2).trans (if_pos rfl)⟩
  | plain => exact ⟨if_pos rfl, (if_neg s.ne.2.2).trans (if_pos rfl)⟩
  | closed => exact ⟨if_pos rfl, (if_neg s.ne.2.2).trans (if_pos rfl)⟩

/-- A symbol without a meaning goes into the cell. -/
lemma action_plain (plain : ¬s.isSpecial c = true) :
    s.action .start c = .cell .plain [c] ∧ s.action .plain c = .cell .plain [c] := by
  obtain ⟨quote, comma, lf, cr⟩ := not_isSpecial plain
  rw [Symbols.action, Symbols.action, if_neg comma, if_neg lf, if_neg quote, if_neg cr, if_neg comma, if_neg lf,
    if_neg (not_or.2 ⟨quote, cr⟩)]
  exact ⟨rfl, rfl⟩

/-- A cell without symbols of a meaning is read as it stands. -/
lemma readFrom_plain (content : List α) (plain : content.any s.isSpecial = false) :
    s.readFrom .plain cell record (content ++ rest) = s.readFrom .plain (cell ++ content) record rest := by
  induction content generalizing cell with
  | nil => rw [List.nil_append, List.append_nil]
  | cons c content ih =>
    rw [List.any_cons, Bool.or_eq_false_iff] at plain
    rw [List.cons_append, Symbols.readFrom, (action_plain (Bool.eq_false_iff.1 plain.1)).2]
    show s.readFrom .plain (cell ++ [c]) record (content ++ rest) = _
    rw [ih plain.2, List.append_assoc, List.singleton_append]

/-- Doubled quotes are read as one. -/
lemma readFrom_double (content : List α) :
    s.readFrom .quoted cell record (s.double content ++ rest) = s.readFrom .quoted (cell ++ content) record rest := by
  induction content generalizing cell with
  | nil => rw [Symbols.double, List.flatMap_nil, List.nil_append, List.append_nil]
  | cons c content ih =>
    rw [Symbols.double, List.flatMap_cons, ← Symbols.double, List.append_assoc]
    by_cases quote : c = s.quote
    · have closes : s.action .quoted s.quote = .cell .closed [] := if_pos rfl
      have reopens : s.action .closed s.quote = .cell .quoted [s.quote] :=
        (if_neg s.ne.1).trans ((if_neg s.ne.2.1).trans (if_pos rfl))
      rw [if_pos quote, List.cons_append, List.singleton_append, Symbols.readFrom, closes]
      show s.readFrom .closed (cell ++ []) record (s.quote :: (s.double content ++ rest)) = _
      rw [Symbols.readFrom, reopens, List.append_nil]
      show s.readFrom .quoted (cell ++ [s.quote]) record (s.double content ++ rest) = _
      rw [ih, quote, List.append_assoc, List.singleton_append]
    · have stays : s.action .quoted c = .cell .quoted [c] := if_neg quote
      rw [if_neg quote, List.singleton_append, Symbols.readFrom, stays]
      show s.readFrom .quoted (cell ++ [c]) record (s.double content ++ rest) = _
      rw [ih, List.append_assoc, List.singleton_append]

/-- A cell is read back in front of a delimiter. -/
lemma readFrom_escape (content : List α) :
    s.readFrom .start [] record (s.escape content ++ s.comma :: rest) =
      s.readFrom .start [] (record ++ [content]) rest ∧
    s.readFrom .start [] record (s.escape content ++ s.lf :: rest) =
      (s.readFrom .start [] [] rest).map ((record ++ [content]) :: ·) := by
  -- after the cell a delimiter comes, in whichever mode
  have ends {mode : Mode} (out : mode ≠ .quoted) :
      s.readFrom mode content record (s.comma :: rest) = s.readFrom .start [] (record ++ [content]) rest ∧
      s.readFrom mode content record (s.lf :: rest) =
        (s.readFrom .start [] [] rest).map ((record ++ [content]) :: ·) := by
    rw [Symbols.readFrom, Symbols.readFrom, (action_delimiter out).1, (action_delimiter out).2]
    exact ⟨rfl, rfl⟩
  have reads (rest : List α) : ∃ mode ≠ Mode.quoted,
      s.readFrom .start [] record (s.escape content ++ rest) = s.readFrom mode content record rest := by
    rw [Symbols.escape]
    by_cases special : content.any s.isSpecial = true
    · have opens : s.action .start s.quote = .cell .quoted [] :=
        (if_neg s.ne.1).trans ((if_neg s.ne.2.1).trans (if_pos rfl))
      have closes : s.action .quoted s.quote = .cell .closed [] := if_pos rfl
      refine ⟨.closed, (nomatch ·), ?_⟩
      rw [if_pos special, List.cons_append, Symbols.readFrom, opens, List.append_assoc]
      show s.readFrom .quoted [] record (s.double content ++ s.quote :: rest) = _
      rw [readFrom_double, Symbols.readFrom, closes, List.nil_append]
      exact congrArg (s.readFrom .closed · record rest) (List.append_nil content)
    · rw [if_neg special]
      cases content with
      | nil => exact ⟨.start, (nomatch ·), rfl⟩
      | cons c content =>
        rw [List.any_cons, Bool.or_eq_true, not_or] at special
        refine ⟨.plain, (nomatch ·), ?_⟩
        rw [List.cons_append, Symbols.readFrom, (action_plain special.1).1]
        exact readFrom_plain content (Bool.eq_false_iff.2 special.2)
  constructor
  · obtain ⟨mode, out, read⟩ := reads (s.comma :: rest)
    rw [read, (ends out).1]
  · obtain ⟨mode, out, read⟩ := reads (s.lf :: rest)
    rw [read, (ends out).2]

/-- A line is read back as one more record, by induction on its cells. -/
lemma readFrom_line (content : List α) (cells : List (List α)) :
    s.readFrom .start [] record (s.line ((content :: cells).map s.escape) ++ s.lf :: rest) =
      (s.readFrom .start [] [] rest).map ((record ++ content :: cells) :: ·) := by
  induction cells generalizing content record with
  | nil =>
    rw [Symbols.line, List.map_singleton, List.intercalate_singleton]
    exact (readFrom_escape content).2
  | cons next cells ih =>
    have split : s.line ((content :: next :: cells).map s.escape) ++ s.lf :: rest =
        s.escape content ++ s.comma :: (s.line ((next :: cells).map s.escape) ++ s.lf :: rest) := by
      rw [Symbols.line, List.map_cons, List.map_cons, List.intercalate_cons_cons, ← List.map_cons, ← Symbols.line]
      simp only [List.append_assoc, List.cons_append, List.nil_append]
    rw [split, (readFrom_escape content).1, ih, List.append_assoc, List.singleton_append]

/-- What is written is read back, for records with a cell at least. -/
theorem read_write {records : List (List (List α))} (some : ∀ record ∈ records, record ≠ []) :
    s.read (s.write records) = .some records := by
  induction records with
  | nil => rfl
  | cons record records ih =>
    obtain ⟨nonempty, others⟩ := List.forall_mem_cons.1 some
    obtain ⟨content, cells, rfl⟩ := List.exists_cons_of_ne_nil nonempty
    rw [Symbols.write, List.flatMap_cons, List.append_assoc, ← Symbols.write, Symbols.read, List.singleton_append,
      readFrom_line, List.nil_append, ← Symbols.read, ih others, Option.map_some]

end Csv
