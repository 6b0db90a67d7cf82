import StellarFlow.Lib.Json

/-!
# Dictionaries of flags as JSON

Python's `json.dumps` of a dictionary of booleans, with its separators and its ASCII escapes. The text is read back
(`parse_dumps`).
-/

namespace PyJson
open Json

/-- `\uXXXX`. -/
def unitChars (unit : ℕ) : List Char :=
  ['\\', 'u', Nat.digitChar (unit / 4096), Nat.digitChar (unit / 256 % 16), Nat.digitChar (unit / 16 % 16),
    Nat.digitChar (unit % 16)]

/-- One character between quotes, with `ensure_ascii`. -/
def quoteChar (c : Char) : List Char :=
  match escapes.find? fun e => e.2 = c with
  | some e => ['\\', e.1]
  | none => if 0x20 ≤ c.toNat ∧ c.toNat < 0x7f then [c] else (units c).flatMap unitChars

def quote (s : String) : List Char := '"' :: (s.toList.flatMap quoteChar ++ ['"'])

def boolText (b : Bool) : List Char := if b then "true".toList else "false".toList

/-- A key and its flag. -/
def member (f : String × Bool) : List Char := quote f.1 ++ ':' :: ' ' :: boolText f.2

/-- `json.dumps(flags)`. -/
def dumps (flags : List (String × Bool)) : List Char :=
  '{' :: (List.intercalate [',', ' '] (flags.map member) ++ ['}'])

/-- A code unit is read back from its four digits. -/
lemma hex4_unit {unit : ℕ} (small : unit < 0x10000) :
    hex4 (Nat.digitChar (unit / 4096)) (Nat.digitChar (unit / 256 % 16)) (Nat.digitChar (unit / 16 % 16))
      (Nat.digitChar (unit % 16)) = some unit := by
  have read : ∀ d < 16, HexText.digit? (Nat.digitChar d) = some d := by decide
  rw [hex4, read _ (by omega), read _ (by omega), read _ (by omega), read _ (by omega)]
  exact congrArg some (by omega)

/-- A code unit is read back from its characters. -/
lemma stringBody_unitChars {unit : ℕ} (small : unit < 0x10000) (rest : List Char) :
    stringBody (unitChars unit ++ rest) = before [unit] (stringBody rest) := by
  show (hex4 _ _ _ _).bind _ = _
  rw [hex4_unit small]
  rfl

/-- One more unit in front. -/
lemma before_cons (u : ℕ) (us : List ℕ) (read : Option (List ℕ × List Char)) :
    before [u] (before us read) = before (u :: us) read := by
  cases read with
  | none => rfl
  | some read => rfl

/-- Units are read back one after the other. -/
lemma stringBody_units {us : List ℕ} (small : ∀ u ∈ us, u < 0x10000) (rest : List Char) :
    stringBody (us.flatMap unitChars ++ rest) = before us (stringBody rest) := by
  induction us with
  | nil =>
    show stringBody rest = before [] (stringBody rest)
    cases stringBody rest with
    | none => rfl
    | some read => rfl
  | cons u us ih =>
    rw [List.flatMap_cons, List.append_assoc, stringBody_unitChars (small u List.mem_cons_self),
      ih fun u mem => small u (List.mem_cons_of_mem _ mem), before_cons]

/-- The code units of a character have sixteen bits. -/
lemma units_lt (c : Char) : ∀ u ∈ units c, u < 0x10000 := by
  have valid : c.toNat < 0xd800 ∨ 0xdfff < c.toNat ∧ c.toNat < 0x110000 := c.valid
  rw [units]
  split
  case isTrue small =>
    intro u mem
    rw [List.mem_singleton.1 mem]
    exact small
  case isFalse large =>
    intro u mem
    rcases List.mem_cons.1 mem with rfl | mem
    · omega
    · rw [List.mem_singleton.1 mem]
      omega

/-- A quoted character is read as its units. -/
lemma stringBody_quoteChar (c : Char) (rest : List Char) :
    stringBody (quoteChar c ++ rest) = before (units c) (stringBody rest) := by
  cases found : escapes.find? fun e => e.2 = c with
  | some e =>
    have same : quoteChar c = Json.quoteChar c := by rw [quoteChar, Json.quoteChar, found]
    rw [same, Json.stringBody_quoteChar]
  | none =>
    rw [quoteChar, found]
    show stringBody ((if 0x20 ≤ c.toNat ∧ c.toNat < 0x7f then [c] else (units c).flatMap unitChars) ++ rest) = _
    split
    case isTrue printable =>
      have same : Json.quoteChar c = [c] := by
        rw [Json.quoteChar, found]
        exact if_neg (by omega)
      rw [← same, Json.stringBody_quoteChar]
    case isFalse => exact stringBody_units (units_lt c) rest

/-- The body of a quoted text is read to its end. -/
lemma stringBody_quote (cs rest : List Char) :
    stringBody (cs.flatMap quoteChar ++ '"' :: rest) = some (cs.flatMap units, rest) := by
  induction cs with
  | nil =>
    rw [List.flatMap_nil, List.nil_append, stringBody.eq_def]
    rfl
  | cons c cs ih =>
    rw [List.flatMap_cons, List.append_assoc, stringBody_quoteChar, ih, List.flatMap_cons]
    rfl

/-- A quoted text is read back. -/
lemma string_quote (s : String) (rest : List Char) : string (quote s ++ rest) = some (s, rest) := by
  rw [quote, List.cons_append, List.append_assoc, string, skip_cons (by decide), sign_cons, Option.bind_some,
    List.singleton_append, stringBody_quote, Option.map_some]
  simp only [ofUnits_flatMap, String.ofList_toList]

/-- A flag behind a space is read back. -/
lemma value_boolText (fuel : ℕ) (b : Bool) (rest : List Char) :
    value (fuel + 1) (' ' :: (boolText b ++ rest)) = some (.bool b, rest) := by
  cases b with
  | true => rfl
  | false => rfl

/-- A member, and the space before it where another comes first. -/
def spaced (f : Bool × String × Bool) : List Char := if f.1 then ' ' :: member f.2 else member f.2

/-- A member is read back, with its spaces. -/
lemma member_spaced (fuel : ℕ) (f : Bool × String × Bool) (rest : List Char) :
    Json.member (value (fuel + 1)) (spaced f ++ rest) = some ((f.2.1, .bool f.2.2), rest) := by
  have read : Json.member (value (fuel + 1)) (member f.2 ++ rest) = some ((f.2.1, .bool f.2.2), rest) := by
    rw [member, List.append_assoc, Json.member, string_quote, List.cons_append, Option.bind_some]
    simp only [skip_cons (show isSpace ':' = false by decide), sign_cons, Option.bind_some, List.cons_append,
      value_boolText]
    rfl
  rw [spaced]
  split
  · exact read
  · exact read

/-- The spaces behind the commas go with the members. -/
lemma intercalate_spaced (f : String × Bool) (flags : List (String × Bool)) :
    List.intercalate [',', ' '] ((f :: flags).map member) =
      List.intercalate [','] (((false, f) :: flags.map (true, ·)).map spaced) := by
  suffices tail : ∀ (text : List Char) (flags : List (String × Bool)),
      List.intercalate [',', ' '] (text :: flags.map member) =
        List.intercalate [','] (text :: (flags.map (true, ·)).map spaced) from tail (member f) flags
  intro text flags
  induction flags generalizing text with
  | nil => rfl
  | cons g flags ih =>
    rw [List.map_cons, List.map_cons, List.map_cons, List.intercalate_cons_cons, List.intercalate_cons_cons, ih,
      List.append_assoc, List.append_assoc]
    cases flags with
    | nil => rfl
    | cons h flags =>
      rw [List.map_cons, List.map_cons, List.intercalate_cons_cons, List.intercalate_cons_cons]
      rfl

/-- The members of a dictionary, up to the closing brace. -/
lemma sequence_members (fuel : ℕ) (flags : List (String × Bool)) :
    sequence (Json.member (value (fuel + 1))) '}' (List.intercalate [',', ' '] (flags.map member) ++ ['}']) =
      some (flags.map fun f => (f.1, .bool f.2), []) := by
  cases flags with
  | nil => rfl
  | cons f flags =>
    rw [intercalate_spaced]
    have begins : ∃ cs, List.intercalate [','] (((false, f) :: flags.map (true, ·)).map spaced) ++ ['}'] =
        '"' :: cs := by
      cases flags with
      | nil => exact ⟨_, rfl⟩
      | cons g flags => exact ⟨_, rfl⟩
    have notClosed : ∀ cs, sign '}' (skip ('"' :: cs)) = none := fun _ => rfl
    have enough := length_le_intercalate (((false, f) :: flags.map (true, ·)).map spaced)
    rw [List.length_map, ← @List.length_singleton _ '}', ← List.length_append] at enough
    have read := items_intercalate (fun f _ rest => member_spaced fuel f rest) (by decide : isSpace '}' = false)
      (by decide) (List.cons_ne_nil (false, f) (flags.map (true, ·))) enough []
    have fields : ((false, f) :: flags.map (true, ·)).map (fun f => (f.2.1, Js.Value.bool f.2.2)) =
        (f :: flags).map fun f => (f.1, .bool f.2) := by
      rw [List.map_cons, List.map_map, List.map_cons]
      rfl
    obtain ⟨cs, eq⟩ := begins
    rw [eq] at read ⊢
    rw [Json.sequence, notClosed, ← fields]
    exact read

/-- What was dumped is read. -/
theorem parse_dumps {flags : List (String × Bool)} (distinct : (flags.map Prod.fst).Nodup) :
    parse (String.ofList (dumps flags)) = some (.object (flags.map fun f => (f.1, .bool f.2))) := by
  have names : ((flags.map fun f => (f.1, Js.Value.bool f.2)).map Prod.fst).Nodup := by
    rw [List.map_map]
    exact distinct
  have object : properties (flags.map fun f => (f.1, .bool f.2)) = flags.map fun f => (f.1, .bool f.2) :=
    @foldl_setEntries [] _ names
  rw [parse, dumps, String.toList_ofList, String.length_ofList, List.length_cons, value]
  simp only [skip_cons (show isSpace '{' = false by decide), sign_cons, sequence_members, Option.map_some, object]
  rfl

end PyJson
