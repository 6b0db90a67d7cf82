import StellarFlow.Lib.Dict
import StellarFlow.Lib.HexText
import StellarFlow.Lib.JavaScript

/-!
# JSON texts

`JSON.parse`, and `JSON.stringify` of an object whose properties are texts. The text of such an object is read back
(`parse_stringify`).

Texts are sequences of characters. The escapes of a text stand for UTF-16 code units; half a surrogate pair is read as
U+FFFD, which is what becomes of it when the text is encoded.
-/

namespace Json
open Js

/-- The UTF-16 code units of a character. -/
def units (c : Char) : List ℕ :=
  if c.toNat < 0x10000 then [c.toNat]
  else [0xd800 + (c.toNat - 0x10000) / 0x400, 0xdc00 + (c.toNat - 0x10000) % 0x400]

/-- The character of a code unit that is not in a pair. -/
def ofUnit (unit : ℕ) : Char := if 0xd800 ≤ unit ∧ unit < 0xe000 then '\ufffd' else Char.ofNat unit

/-- The characters of code units. -/
def ofUnits : List ℕ → List Char
  | high :: low :: rest =>
    if (0xd800 ≤ high ∧ high < 0xdc00) ∧ 0xdc00 ≤ low ∧ low < 0xe000 then
      Char.ofNat (0x10000 + (high - 0xd800) * 0x400 + (low - 0xdc00)) :: ofUnits rest
    else ofUnit high :: ofUnits (low :: rest)
  | [unit] => [ofUnit unit]
  | [] => []

/-- Escapes of one character, with what they stand for. -/
def escapes : List (Char × Char) :=
  [('"', '"'), ('\\', '\\'), ('b', '\x08'), ('f', '\x0c'), ('n', '\n'), ('r', '\r'), ('t', '\t')]

/-- What the character after a backslash stands for. -/
def escape (c : Char) : Option Char := if c = '/' then some '/' else escapes.lookup c

def hex4 (a b c d : Char) : Option ℕ :=
  match HexText.digit? a, HexText.digit? b, HexText.digit? c, HexText.digit? d with
  | some a, some b, some c, some d => some (((a * 16 + b) * 16 + c) * 16 + d)
  | _, _, _, _ => none

/-- Code units in front of what else there is. -/
def before (us : List ℕ) : Option (List ℕ × List Char) → Option (List ℕ × List Char) :=
  Option.map fun read => (us ++ read.1, read.2)

/-- The code units of a text up to its closing quote, and what comes after. -/
def stringBody : List Char → Option (List ℕ × List Char)
  | [] => none
  | c :: cs =>
    if c = '"' then some ([], cs)
    else if c = '\\' then
      match cs with
      | [] => none
      | e :: cs =>
        if e = 'u' then
          match cs with
          | u₁ :: u₂ :: u₃ :: u₄ :: cs => (hex4 u₁ u₂ u₃ u₄).bind fun unit => before [unit] (stringBody cs)
          | _ => none
        else (escape e).bind fun c => before (units c) (stringBody cs)
    else if c.toNat < 0x20 then none
    else before (units c) (stringBody cs)

def isSpace (c : Char) : Bool := c ∈ [' ', '\t', '\n', '\r']

def skip (cs : List Char) : List Char := cs.dropWhile isSpace

/-- `cs` after a sign, where it begins with it. -/
def sign (c : Char) (cs : List Char) : Option (List Char) := if cs.head? = some c then some cs.tail else none

/-- Digits, at least one of them. -/
def digits (cs : List Char) : Option (List ℕ × List Char) :=
  let ds := cs.takeWhile Char.isDigit
  if ds = [] then none else some (ds.map fun d => d.toNat - 48, cs.dropWhile Char.isDigit)

/-- The digits after the point. -/
def fraction (cs : List Char) : Option (List ℕ × List Char) :=
  match sign '.' cs with
  | some cs => digits cs
  | none => some ([], cs)

def exponent (cs : List Char) : Option (ℤ × List Char) :=
  match (sign 'e' cs).or (sign 'E' cs) with
  | none => some (0, cs)
  | some cs =>
    let negative := (sign '-' cs).isSome
    (digits (((sign '-' cs).or (sign '+' cs)).getD cs)).map fun (ds, cs) =>
      (if negative then -Numeral.value 10 ds else Numeral.value 10 ds, cs)

def number (cs : List Char) : Option (ℚ × List Char) :=
  let negative := (sign '-' cs).isSome
  (digits ((sign '-' cs).getD cs)).bind fun (whole, cs) =>
    if whole.head? = some 0 ∧ whole.length ≠ 1 then none
    else (fraction cs).bind fun (part, cs) =>
      (exponent cs).map fun (power, cs) =>
        let size : ℚ := Numeral.value 10 (whole ++ part) * 10 ^ (power - part.length)
        (if negative then -size else size, cs)

section
variable {α : Type} (item : List Char → Option (α × List Char)) (close : Char)

/-- Items with commas between them, up to the closing sign. -/
def items : ℕ → List Char → Option (List α × List Char)
  | 0, _ => none
  | fuel + 1, cs =>
    (item cs).bind fun (x, cs) =>
      match sign close (skip cs) with
      | some cs => some ([x], cs)
      | none =>
        (sign ',' (skip cs)).bind fun cs =>
          (items fuel cs).map fun (xs, cs) => (x :: xs, cs)

/-- Nothing before the closing sign, or items. -/
def sequence (cs : List Char) : Option (List α × List Char) :=
  match sign close (skip cs) with
  | some cs => some ([], cs)
  | none => items item close cs.length cs

end

/-- A text between quotes. -/
def string (cs : List Char) : Option (String × List Char) :=
  (sign '"' (skip cs)).bind fun cs =>
    (stringBody cs).map fun (us, cs) => (String.ofList (ofUnits us), cs)

/-- A name, a colon and a value. -/
def member (value : List Char → Option (Value × List Char)) (cs : List Char) :
    Option ((String × Value) × List Char) :=
  (string cs).bind fun (name, cs) =>
    (sign ':' (skip cs)).bind fun cs => (value cs).map fun (v, cs) => ((name, v), cs)

/-- The properties of an object; the last value of a name counts. -/
def properties (members : List (String × Value)) : List (String × Value) :=
  members.foldl (fun fields f => Dict.setEntries fields f.1 f.2) []

/-- The words of JSON. -/
def words : List (List Char × Value) :=
  [("true".toList, .bool true), ("false".toList, .bool false), ("null".toList, .null)]

/-- A value at most `fuel` deep, and what comes after. -/
def value : ℕ → List Char → Option (Value × List Char)
  | 0, _ => none
  | fuel + 1, cs =>
    let cs := skip cs
    match sign '{' cs, sign '[' cs, string cs, words.find? fun w => w.1.isPrefixOf cs with
    | some cs, _, _, _ => (sequence (member (value fuel)) '}' cs).map fun (fs, cs) => (.object (properties fs), cs)
    | none, some cs, _, _ => (sequence (value fuel) ']' cs).map fun (vs, cs) => (.array vs, cs)
    | none, none, some (s, cs), _ => some (.string s, cs)
    | none, none, none, some (word, v) => some (v, cs.drop word.length)
    | none, none, none, none => (number cs).map fun (x, cs) => (.number (.finite x), cs)

/-- `JSON.parse`. -/
def parse (text : String) : Option Value :=
  (value (text.length + 1) text.toList).bind fun (v, cs) => if skip cs = [] then some v else none

/-- One character between quotes. -/
def quoteChar (c : Char) : List Char :=
  match escapes.find? fun e => e.2 = c with
  | some e => ['\\', e.1]
  | none =>
    if c.toNat < 0x20 then ['\\', 'u', '0', '0', Nat.digitChar (c.toNat / 16), Nat.digitChar (c.toNat % 16)] else [c]

def quote (s : String) : List Char := '"' :: (s.toList.flatMap quoteChar ++ ['"'])

/-- `JSON.stringify` of an object of texts. -/
def stringify (fields : List (String × String)) : String :=
  String.ofList ('{' :: (List.intercalate [','] (fields.map fun f => quote f.1 ++ ':' :: quote f.2) ++ ['}']))

/-- The units of a character are read as the character. -/
lemma ofUnits_units (c : Char) (rest : List ℕ) : ofUnits (units c ++ rest) = c :: ofUnits rest := by
  have valid : c.toNat < 0xd800 ∨ 0xdfff < c.toNat ∧ c.toNat < 0x110000 := c.valid
  rw [units]
  split
  case isTrue small =>
    have alone : ofUnit c.toNat = c := by
      rw [ofUnit, if_neg (by omega), Char.ofNat_toNat]
    cases rest with
    | nil => rw [List.append_nil, ofUnits, alone, ofUnits]
    | cons low rest => rw [List.singleton_append, ofUnits, if_neg (by omega), alone]
  case isFalse large =>
    have pair : 0x10000 + (0xd800 + (c.toNat - 0x10000) / 0x400 - 0xd800) * 0x400 +
        (0xdc00 + (c.toNat - 0x10000) % 0x400 - 0xdc00) = c.toNat := by omega
    rw [List.cons_append, List.singleton_append, ofUnits, if_pos (by omega), pair, Char.ofNat_toNat]

/-- Characters are read back from their code units. -/
lemma ofUnits_flatMap (cs : List Char) : ofUnits (cs.flatMap units) = cs := by
  induction cs with
  | nil => rfl
  | cons c cs ih => rw [List.flatMap_cons, ofUnits_units, ih]

/-- Each short escape is read back. -/
lemma escape_of_mem : ∀ e ∈ escapes, e.1 ≠ 'u' ∧ escape e.1 = some e.2 := by decide

/-- A control character is read back from its four digits. -/
lemma hex4_digits {n : ℕ} (small : n < 0x20) :
    hex4 '0' '0' (Nat.digitChar (n / 16)) (Nat.digitChar (n % 16)) = some n := by
  have all : ∀ n : Fin 0x20, hex4 '0' '0' (Nat.digitChar (n / 16)) (Nat.digitChar (n % 16)) = some n.val := by decide
  exact all ⟨n, small⟩

/-- A quoted character is read as its units. -/
lemma stringBody_quoteChar (c : Char) (rest : List Char) :
    stringBody (quoteChar c ++ rest) = before (units c) (stringBody rest) := by
  rw [quoteChar]
  split
  case h_1 e found =>
    obtain ⟨notU, stands⟩ := escape_of_mem e (List.mem_of_find?_eq_some found)
    have same : e.2 = c := by simpa using List.find?_some found
    -- an escape of one character
    rw [List.cons_append, List.singleton_append, stringBody.eq_def]
    show (if '\\' = '"' then _ else if '\\' = '\\' then (if e.1 = 'u' then _ else _) else _) = _
    rw [if_neg (by decide), if_pos rfl, if_neg notU, stands, same]
    rfl
  case h_2 plain =>
    have other : ∀ e ∈ escapes, e.2 ≠ c := fun e mem => of_decide_eq_false
      (Bool.eq_false_of_not_eq_true (List.find?_eq_none.1 plain e mem))
    split
    case isTrue small =>
      have unit : units c = [c.toNat] := if_pos (by omega)
      show (hex4 '0' '0' _ _).bind _ = _
      rw [hex4_digits small, unit]
      rfl
    case isFalse large =>
      -- neither a quote nor a backslash, as these are escaped
      have quote := other ('"', '"') (by decide)
      have backslash := other ('\\', '\\') (by decide)
      rw [List.singleton_append, stringBody.eq_def]
      show (if c = '"' then _ else if c = '\\' then _ else if c.toNat < 0x20 then _ else _) = _
      rw [if_neg (Ne.symm quote), if_neg (Ne.symm backslash), if_neg large]

/-- The body of a quoted text is read to its end. -/
lemma stringBody_quote (cs rest : List Char) :
    stringBody (cs.flatMap quoteChar ++ '"' :: rest) = some (cs.flatMap units, rest) := by
  induction cs with
  | nil =>
    rw [List.flatMap_nil, List.nil_append, stringBody.eq_def]
    rfl
  | cons c cs ih =>
    rw [List.flatMap_cons, List.append_assoc, stringBody_quoteChar, ih, List.flatMap_cons]
    rfl

/-- Ink is not skipped. -/
lemma skip_cons {c : Char} (ink : isSpace c = false) (cs : List Char) : skip (c :: cs) = c :: cs := by
  rw [skip, List.dropWhile_cons_of_neg (by rw [ink]; decide)]

/-- The sign asked for is taken. -/
lemma sign_cons (c : Char) (cs : List Char) : sign c (c :: cs) = some cs := if_pos rfl

/-- Another character is not taken for the sign. -/
lemma sign_cons_of_ne {c c' : Char} (ne : c' ≠ c) (cs : List Char) : sign c (c' :: cs) = none :=
  if_neg fun eq => ne (Option.some.inj eq)

/-- A quoted text begins and ends with a quote. -/
lemma quote_append (s : String) (rest : List Char) :
    quote s ++ rest = '"' :: (s.toList.flatMap quoteChar ++ '"' :: rest) := by
  rw [quote, List.cons_append, List.append_assoc]
  rfl

/-- A quoted text is read back. -/
lemma string_quote (s : String) (rest : List Char) : string (quote s ++ rest) = some (s, rest) := by
  rw [quote_append, string, skip_cons (by decide), sign_cons, Option.bind_some, stringBody_quote, Option.map_some]
  simp only [ofUnits_flatMap, String.ofList_toList]

/-- A quoted text is read back as a value. -/
lemma value_quote (fuel : ℕ) (s : String) (rest : List Char) :
    value (fuel + 1) (quote s ++ rest) = some (.string s, rest) := by
  have same : skip (quote s ++ rest) = quote s ++ rest := by
    rw [quote_append]
    exact skip_cons (by decide) _
  rw [value]
  simp only [same, string_quote]
  rw [quote_append]
  rfl

/-- A member is read back with its name. -/
lemma member_quote (fuel : ℕ) (f : String × String) (rest : List Char) :
    member (value (fuel + 1)) ((quote f.1 ++ ':' :: quote f.2) ++ rest) = some ((f.1, .string f.2), rest) := by
  rw [List.append_assoc, member, string_quote, List.cons_append, Option.bind_some]
  simp only [skip_cons (c := ':') (by decide), sign_cons, Option.bind_some, value_quote]
  rfl

/-- Items with commas between them are read one after the other. -/
lemma items_intercalate {α β : Type} {item : List Char → Option (α × List Char)} {close : Char} {text : β → List Char}
    {read : β → α} {xs : List β} {fuel : ℕ} (reads : ∀ x ∈ xs, ∀ rest, item (text x ++ rest) = some (read x, rest))
    (ink : isSpace close = false) (ne : close ≠ ',') (some : xs ≠ []) (enough : xs.length ≤ fuel) (rest : List Char) :
    items item close fuel (List.intercalate [','] (xs.map text) ++ close :: rest) = .some (xs.map read, rest) := by
  induction xs generalizing fuel with
  | nil => exact absurd rfl some
  | cons x xs ih =>
    obtain ⟨fuel, rfl⟩ := Nat.exists_eq_add_one_of_ne_zero (Nat.ne_zero_of_lt enough)
    have first := reads x List.mem_cons_self
    cases xs with
    | nil =>
      rw [List.map_singleton, List.intercalate_singleton, items, first, Option.bind_some]
      simp only [skip_cons ink, sign_cons]
      rfl
    | cons y ys =>
      have others := ih (fun x mem => reads x (List.mem_cons_of_mem _ mem)) (List.cons_ne_nil y ys)
        (Nat.le_of_succ_le_succ enough)
      rw [List.map_cons, List.map_cons, List.intercalate_cons_cons, List.append_assoc, List.append_assoc, items, first,
        Option.bind_some, List.singleton_append, ← List.map_cons]
      simp only [skip_cons (c := ',') (by decide), sign_cons_of_ne ne.symm, sign_cons, Option.bind_some, others]
      rfl

/-- Properties with different names stay as they are. -/
lemma foldl_setEntries {fields fields' : List (String × Value)} (distinct : ((fields ++ fields').map Prod.fst).Nodup) :
    fields'.foldl (fun fs f => Dict.setEntries fs f.1 f.2) fields = fields ++ fields' := by
  induction fields' generalizing fields with
  | nil => exact (List.append_nil _).symm
  | cons f fields' ih =>
    have new : f.1 ∉ fields.map Prod.fst := by
      rw [List.map_append, List.nodup_append] at distinct
      exact fun mem => distinct.2.2 f.1 mem f.1 List.mem_cons_self rfl
    rw [List.foldl_cons, Dict.setEntries, if_neg new, ih]
    · rw [List.append_assoc]
      rfl
    · rwa [List.append_assoc]

/-- There are no more texts than they have commas between them, and one. -/
lemma length_le_intercalate (texts : List (List Char)) : texts.length ≤ (List.intercalate [','] texts).length + 1 := by
  induction texts with
  | nil => exact Nat.zero_le _
  | cons text texts ih =>
    cases texts with
    | nil => exact Nat.le_add_left _ _
    | cons text' texts =>
      rw [List.intercalate_cons_cons, List.length_append, List.length_append, List.length_singleton, List.length_cons]
      omega

/-- The members of an object of texts, up to the closing brace. -/
lemma sequence_members (fuel : ℕ) (fields : List (String × String)) :
    sequence (member (value (fuel + 1))) '}'
      (List.intercalate [','] (fields.map fun f => quote f.1 ++ ':' :: quote f.2) ++ ['}']) =
    some (fields.map fun f => (f.1, .string f.2), []) := by
  cases fields with
  | nil => rfl
  | cons f fields =>
    have begins : ∃ cs, List.intercalate [','] ((f :: fields).map fun f => quote f.1 ++ ':' :: quote f.2) ++ ['}'] =
        '"' :: cs := by
      cases fields with
      | nil => exact ⟨_, rfl⟩
      | cons f' fields => exact ⟨_, rfl⟩
    have notClosed : ∀ cs, sign '}' (skip ('"' :: cs)) = none := fun _ => rfl
    have enough := length_le_intercalate ((f :: fields).map fun f => quote f.1 ++ ':' :: quote f.2)
    rw [List.length_map, ← List.length_singleton (a := '}'), ← List.length_append] at enough
    have read := items_intercalate (fun f _ rest => member_quote fuel f rest) (by decide : isSpace '}' = false)
      (by decide) (List.cons_ne_nil f fields) enough []
    obtain ⟨cs, eq⟩ := begins
    rw [eq] at read ⊢
    rw [sequence, notClosed]
    exact read

/-- What was written is read. -/
theorem parse_stringify {fields : List (String × String)} (distinct : (fields.map Prod.fst).Nodup) :
    parse (stringify fields) = some (.object (fields.map fun f => (f.1, .string f.2))) := by
  have names : ((fields.map fun f => (f.1, Value.string f.2)).map Prod.fst).Nodup := by
    rw [List.map_map]
    exact distinct
  -- names that differ are not assigned twice
  have object : properties (fields.map fun f => (f.1, .string f.2)) = fields.map fun f => (f.1, .string f.2) :=
    @foldl_setEntries [] _ names
  rw [parse, stringify, String.toList_ofList, String.length_ofList, List.length_cons, value]
  simp only [skip_cons (c := '{') (by decide), sign_cons, sequence_members, Option.map_some, object]
  rfl

end Json
