import StellarFlow.Lib.Json

/-!
# JSON values

The values of JSON as trees, their equality up to the order of names (`Same`), and their texts. A text is the text of
one value only (`print_injective`), and `JSON.stringify(value, list)` is the text of what the list shows of the value.
The fields of an object that is made by assignments are `ownProperties`.
-/

namespace Json
open Js

/-- The characters of the texts of numbers. -/
def isNumeric (c : Char) : Bool := c.isDigit || c ∈ ['-', '+', '.', 'e']

/-- A finite number, by the text `String(x)`: numbers that differ have different texts. -/
structure Literal where
  text : List Char
  nonempty : text ≠ []
  numeric : ∀ c ∈ text, isNumeric c = true
  deriving DecidableEq

/-- A value; the fields of an object are in the order of `Object.keys`, and of equal names the first counts. -/
inductive Tree where
  | null
  | bool (b : Bool)
  | number (x : Literal)
  | string (s : String)
  | array (items : List Tree)
  | object (fields : List (String × Tree))

namespace Tree

/-- Induction with the items of an array and the values of an object. -/
lemma induct {P : Tree → Prop} (null : P .null) (bool : ∀ b, P (.bool b)) (number : ∀ x, P (.number x))
    (string : ∀ s, P (.string s)) (array : ∀ items, (∀ v ∈ items, P v) → P (.array items))
    (object : ∀ fields, (∀ f ∈ fields, P f.2) → P (.object fields)) (v : Tree) : P v := by
  refine @Tree.rec P (fun items => ∀ v ∈ items, P v) (fun fields => ∀ f ∈ fields, P f.2) (fun f => P f.2) null bool
    number string array object ?_ ?_ ?_ ?_ ?_ v
  · exact fun _ mem => absurd mem List.not_mem_nil
  · exact fun head tail here later => List.forall_mem_cons.2 ⟨here, later⟩
  · exact fun _ mem => absurd mem List.not_mem_nil
  · exact fun head tail here later => List.forall_mem_cons.2 ⟨here, later⟩
  · exact fun _ _ here => here

/-- Equality up to the order of the names, at every depth. -/
inductive Same : Tree → Tree → Prop where
  | null : Same .null .null
  | bool (b : Bool) : Same (.bool b) (.bool b)
  | number (x : Literal) : Same (.number x) (.number x)
  | string (s : String) : Same (.string s) (.string s)
  | array {items items' : List Tree} (length : items.length = items'.length)
      (each : ∀ (i : ℕ) (v w : Tree), items[i]? = some v → items'[i]? = some w → Same v w) :
      Same (.array items) (.array items')
  | object {fields fields' : List (String × Tree)}
      (names : ∀ name, name ∈ fields.map Prod.fst ↔ name ∈ fields'.map Prod.fst)
      (each : ∀ (name : String) (v w : Tree), Dict.lookup fields name = some v → Dict.lookup fields' name = some w →
        Same v w) : Same (.object fields) (.object fields')

/-- A value is the same as itself. -/
lemma Same.refl (v : Tree) : Same v v := by
  induction v using induct with
  | null => exact .null
  | bool b => exact .bool b
  | number x => exact .number x
  | string s => exact .string s
  | array items ih =>
    refine .array rfl fun i v w here again => ?_
    rw [here] at again
    cases again
    exact ih v (List.mem_of_getElem? here)
  | object fields ih =>
    refine .object (fun _ => Iff.rfl) fun name v w here again => ?_
    rw [here] at again
    cases again
    obtain ⟨f, found, rfl⟩ := Option.map_eq_some_iff.1 here
    exact ih f (List.mem_of_find?_eq_some found)

mutual

/-- `JSON.stringify(value)`. -/
def print : Tree → List Char
  | .null => "null".toList
  | .bool true => "true".toList
  | .bool false => "false".toList
  | .number x => x.text
  | .string s => quote s
  | .array items => '[' :: (List.intercalate [','] (printItems items) ++ [']'])
  | .object fields => '{' :: (List.intercalate [','] (printFields fields) ++ ['}'])

def printItems : List Tree → List (List Char)
  | [] => []
  | v :: items => print v :: printItems items

def printFields : List (String × Tree) → List (List Char)
  | [] => []
  | (name, v) :: fields => (quote name ++ ':' :: print v) :: printFields fields

end

/-- `value[name]` of an object, if it is not a function: its own property, or the one it inherits, which is the object
of all objects, of which only `__proto__` is printed. -/
def get (fields : List (String × Tree)) (name : String) : Option Tree :=
  (Dict.lookup fields name).or (if name = "__proto__" then some (.object [("__proto__", .null)]) else none)

/-- The fields that are in a list of names, in the order of the list. -/
def select (list : List String) (fields : List (String × Tree)) : List (String × Tree) :=
  list.filterMap fun name => (get fields name).map fun v => (name, v)

mutual

/-- What `JSON.stringify(value, list)` prints of the value. -/
def shown (list : List String) : Tree → Tree
  | .null => .null
  | .bool b => .bool b
  | .number x => .number x
  | .string s => .string s
  | .array items => .array (shownItems list items)
  | .object fields => .object (select list (shownFields list fields))

def shownItems (list : List String) : List Tree → List Tree
  | [] => []
  | v :: items => shown list v :: shownItems list items

def shownFields (list : List String) : List (String × Tree) → List (String × Tree)
  | [] => []
  | (name, v) :: fields => (name, shown list v) :: shownFields list fields

end

/-- `JSON.stringify(value, list)`. -/
def stringify (value : Tree) (list : List String) : String := String.ofList (print (shown list value))

/-- `Object.keys(value)`; `none` is a `TypeError`. -/
def objectKeys : Tree → Option (List String)
  | .null => none
  | .bool _ => some []
  | .number _ => some []
  | .string s => some ((List.range (codeUnits s).length).map toString)
  | .array items => some ((List.range items.length).map toString)
  | .object fields => some (fields.map Prod.fst)

/-- Items are printed one after the other. -/
lemma printItems_eq_map (items : List Tree) : printItems items = items.map print := by
  induction items with
  | nil => rfl
  | cons v items ih => rw [printItems, ih, List.map_cons]

/-- One field. -/
def printField (f : String × Tree) : List Char := quote f.1 ++ ':' :: print f.2

/-- Fields are printed one after the other. -/
lemma printFields_eq_map (fields : List (String × Tree)) : printFields fields = fields.map printField := by
  induction fields with
  | nil => rfl
  | cons f fields ih => rw [printFields, ih, List.map_cons]; rfl

/-- No number goes on with the text. -/
def Stops (rest : List Char) : Prop := ∀ c ∈ rest.head?, isNumeric c = false

section Prefix
variable {β : Type}

/-- The text of `x`, with what follows, is the text of no other thing. -/
def Delimits (text : β → List Char) (x : β) : Prop :=
  ∀ (y : β) (rest rest' : List Char), Stops rest → Stops rest' → text x ++ rest = text y ++ rest' → x = y ∧ rest = rest'

/-- What follows the first of several texts. -/
def tail (close : Char) : List (List Char) → List Char → List Char
  | [], rest => close :: rest
  | text :: texts, rest => ',' :: (text ++ tail close texts rest)

/-- Between brackets, the first text is followed by the tail. -/
lemma intercalate_append (close : Char) (text : List Char) (texts : List (List Char)) (rest : List Char) :
    (List.intercalate [','] (text :: texts) ++ [close]) ++ rest = text ++ tail close texts rest := by
  induction texts generalizing text with
  | nil => rw [List.intercalate_singleton, List.append_assoc]; rfl
  | cons text' texts ih =>
    rw [List.intercalate_cons_cons, List.append_assoc, List.append_assoc, ← List.append_assoc _ [close], ih,
      List.append_assoc]
    rfl

variable {text : β → List Char} {close : Char}

/-- A tail begins with no numeric character. -/
lemma stops_tail (stop : isNumeric close = false) (texts : List (List Char)) (rest : List Char) :
    Stops (tail close texts rest) := by
  cases texts with
  | nil =>
    intro c mem
    cases mem
    exact stop
  | cons text texts =>
    intro c mem
    cases mem
    rfl

/-- Where texts delimit themselves, tails are the same only for the same items. -/
lemma tail_prefix (stop : isNumeric close = false) (ne : close ≠ ',') {xs : List β}
    (delimits : ∀ x ∈ xs, Delimits text x) {ys : List β} {rest rest' : List Char}
    (same : tail close (xs.map text) rest = tail close (ys.map text) rest') : xs = ys ∧ rest = rest' := by
  induction xs generalizing ys with
  | nil =>
    cases ys with
    | nil => exact ⟨rfl, (List.cons.inj same).2⟩
    | cons y ys => exact absurd (List.cons.inj same).1 ne
  | cons x xs ih =>
    cases ys with
    | nil => exact absurd (List.cons.inj same).1.symm ne
    | cons y ys =>
      obtain ⟨first, others⟩ := delimits x List.mem_cons_self y _ _ (stops_tail stop _ _) (stops_tail stop _ _)
        (List.cons.inj same).2
      obtain ⟨more, last⟩ := ih (fun x mem => delimits x (List.mem_cons_of_mem _ mem)) others
      exact ⟨by rw [first, more], last⟩

variable (close) in
/-- A sequence is delimited by its closing sign, where no item begins with it. -/
lemma sequence_prefix (stop : isNumeric close = false) (ne : close ≠ ',')
    (begins : ∀ (y : β) (rest : List Char), (text y ++ rest).head? ≠ some close) {xs ys : List β}
    (delimits : ∀ x ∈ xs, Delimits text x) {rest rest' : List Char}
    (same : (List.intercalate [','] (xs.map text) ++ [close]) ++ rest =
      (List.intercalate [','] (ys.map text) ++ [close]) ++ rest') : xs = ys ∧ rest = rest' := by
  cases xs with
  | nil =>
    cases ys with
    | nil => exact ⟨rfl, (List.cons.inj same).2⟩
    | cons y ys =>
      rw [List.map_cons, intercalate_append] at same
      exact absurd (congrArg List.head? same).symm (begins y _)
  | cons x xs =>
    cases ys with
    | nil =>
      rw [List.map_cons, intercalate_append] at same
      exact absurd (congrArg List.head? same) (begins x _)
    | cons y ys =>
      rw [List.map_cons, List.map_cons, intercalate_append, intercalate_append] at same
      obtain ⟨first, others⟩ := delimits x List.mem_cons_self y _ _ (stops_tail stop _ _) (stops_tail stop _ _) same
      obtain ⟨more, last⟩ := tail_prefix stop ne (fun x mem => delimits x (List.mem_cons_of_mem _ mem)) others
      exact ⟨by rw [first, more], last⟩

end Prefix

/-- The kinds of values, by the first characters of their texts. -/
def kindOf (c : Char) : Option ℕ :=
  if isNumeric c then some 0
  else [('n', 1), ('t', 2), ('f', 2), ('"', 3), ('[', 4), ('{', 5)].lookup c

def kind : Tree → ℕ
  | .number _ => 0
  | .null => 1
  | .bool _ => 2
  | .string _ => 3
  | .array _ => 4
  | .object _ => 5

/-- The first character tells the kind of a value. -/
lemma kindOf_head (v : Tree) (rest : List Char) : (print v ++ rest).head?.bind kindOf = some v.kind := by
  cases v with
  | number x =>
    obtain ⟨c, cs, eq⟩ := List.exists_cons_of_ne_nil x.nonempty
    have first : isNumeric c = true := x.numeric c (by rw [eq]; exact List.mem_cons_self)
    rw [print, eq, List.cons_append, List.head?_cons, Option.bind_some, kindOf, if_pos first]
    rfl
  | bool b => cases b <;> rfl
  | _ => rfl

/-- Texts that begin alike are of one kind. -/
lemma kind_eq {v w : Tree} {rest rest' : List Char} (same : print v ++ rest = print w ++ rest') : v.kind = w.kind := by
  rw [← Option.some_inj, ← kindOf_head v rest, same, kindOf_head]

/-- No value begins with a character of no kind. -/
lemma head_print_ne {c : Char} (none : kindOf c = none) (v : Tree) (rest : List Char) :
    (print v ++ rest).head? ≠ some c := by
  intro first
  have kind := kindOf_head v rest
  rw [first, Option.bind_some, none] at kind
  cases kind

/-- A literal ends where its characters do. -/
lemma takeWhile_literal (x : Literal) {rest : List Char} (stops : Stops rest) :
    (x.text ++ rest).takeWhile isNumeric = x.text := by
  rw [List.takeWhile_append_of_pos x.numeric]
  cases rest with
  | nil => exact List.append_nil _
  | cons c rest =>
    rw [List.takeWhile_cons_of_neg (by rw [stops c rfl]; decide), List.append_nil]

/-- A literal delimits itself. -/
lemma delimits_literal (x : Literal) : Delimits Literal.text x := by
  intro y rest rest' stops stops' same
  have texts : x.text = y.text := by rw [← takeWhile_literal x stops, same, takeWhile_literal y stops']
  refine ⟨?_, ?_⟩
  · cases x
    cases y
    cases texts
    rfl
  · rw [texts] at same
    exact List.append_cancel_left same

/-- A quoted text delimits itself. -/
lemma quote_prefix {s s' : String} {rest rest' : List Char} (same : quote s ++ rest = quote s' ++ rest') :
    s = s' ∧ rest = rest' := by
  have read := string_quote s rest
  rw [same, string_quote] at read
  cases read
  exact ⟨rfl, rfl⟩

/-- A field delimits itself where its value does. -/
lemma delimits_printField {f : String × Tree} (delimits : Delimits print f.2) : Delimits printField f := by
  intro g rest rest' stops stops' same
  rw [printField, printField, List.append_assoc, List.append_assoc] at same
  obtain ⟨names, values⟩ := quote_prefix same
  obtain ⟨here, last⟩ := delimits g.2 rest rest' stops stops' (List.cons.inj values).2
  exact ⟨Prod.ext names here, last⟩

/-- A text with what follows it is the text of one value. -/
lemma delimits_print (v : Tree) : Delimits print v := by
  induction v using induct with
  | null =>
    intro w rest rest' _ _ same
    cases w with
    | null => exact ⟨rfl, List.append_cancel_left same⟩
    | _ => cases kind_eq same
  | bool b =>
    intro w rest rest' _ _ same
    cases w with
    | bool b' =>
      obtain rfl : b = b' := by
        cases b with
        | true =>
          cases b' with
          | true => rfl
          | false => exact absurd (List.cons.inj same).1 (by decide)
        | false =>
          cases b' with
          | true => exact absurd (List.cons.inj same).1 (by decide)
          | false => rfl
      exact ⟨rfl, List.append_cancel_left same⟩
    | _ => cases kind_eq same
  | number x =>
    intro w rest rest' stops stops' same
    cases w with
    | number y =>
      obtain ⟨eq, last⟩ := delimits_literal x y rest rest' stops stops' same
      exact ⟨by rw [eq], last⟩
    | _ => cases kind_eq same
  | string s =>
    intro w rest rest' _ _ same
    cases w with
    | string s' =>
      obtain ⟨eq, last⟩ := quote_prefix same
      exact ⟨by rw [eq], last⟩
    | _ => cases kind_eq same
  | array items ih =>
    intro w rest rest' _ _ same
    cases w with
    | array items' =>
      rw [print, print, printItems_eq_map, printItems_eq_map] at same
      obtain ⟨eq, last⟩ := sequence_prefix ']' rfl (by decide) (head_print_ne rfl) ih (List.cons.inj same).2
      exact ⟨by rw [eq], last⟩
    | _ => cases kind_eq same
  | object fields ih =>
    intro w rest rest' _ _ same
    cases w with
    | object fields' =>
      rw [print, print, printFields_eq_map, printFields_eq_map] at same
      obtain ⟨eq, last⟩ := sequence_prefix '}' rfl (by decide) (fun f rest => by simp [printField, quote])
        (fun f mem => delimits_printField (ih f mem)) (List.cons.inj same).2
      exact ⟨by rw [eq], last⟩
    | _ => cases kind_eq same

/-- The text of a value tells the value. -/
theorem print_injective : Function.Injective print := by
  intro v w same
  have none : Stops [] := fun _ mem => by cases mem
  exact (delimits_print v w [] [] none none (by rw [same])).1

section Shown
variable {list : List String}

/-- Items are shown one after the other. -/
lemma shownItems_eq_map (items : List Tree) : shownItems list items = items.map (shown list) := by
  induction items with
  | nil => rfl
  | cons v items ih => rw [shownItems, ih, List.map_cons]

/-- Fields are shown one after the other. -/
lemma shownFields_eq_map (fields : List (String × Tree)) :
    shownFields list fields = fields.map fun f => (f.1, shown list f.2) := by
  induction fields with
  | nil => rfl
  | cons f fields ih => rw [shownFields, ih, List.map_cons]

/-- Equal values show the same. -/
lemma shown_same {v w : Tree} (same : Same v w) : shown list v = shown list w := by
  induction same with
  | null => rfl
  | bool b => rfl
  | number x => rfl
  | string s => rfl
  | @array items items' length each ih =>
    rw [shown, shown, shownItems_eq_map, shownItems_eq_map]
    congr 1
    refine List.ext_getElem? fun i => ?_
    rw [List.getElem?_map, List.getElem?_map]
    cases here : items[i]? with
    | none => rw [List.getElem?_eq_none (length ▸ List.getElem?_eq_none_iff.1 here)]
    | some v =>
      obtain ⟨inside, -⟩ := List.getElem?_eq_some_iff.1 here
      have there : items'[i]? = some (items'.get ⟨i, length ▸ inside⟩) := List.getElem?_eq_getElem _
      rw [there, Option.map_some, Option.map_some, ih i v _ here there]
  | @object fields fields' names each ih =>
    rw [shown, shown, shownFields_eq_map, shownFields_eq_map]
    refine congrArg Tree.object (List.filterMap_congr fun name _ => ?_)
    have found : Dict.lookup (fields.map fun f => (f.1, shown list f.2)) name =
        Dict.lookup (fields'.map fun f => (f.1, shown list f.2)) name := by
      rw [Dict.lookup_map, Dict.lookup_map]
      cases here : Dict.lookup fields name with
      | none =>
        rw [Dict.lookup_eq_none, names, ← Dict.lookup_eq_none] at here
        rw [here]
      | some v =>
        cases there : Dict.lookup fields' name with
        | none =>
          rw [Dict.lookup_eq_none, ← names, ← Dict.lookup_eq_none, here] at there
          cases there
        | some w => rw [Option.map_some, Option.map_some, ih name v w here there]
    rw [get, get, found]

end Shown

/-- The code units tell the text. -/
lemma codeUnits_injective : Function.Injective codeUnits := by
  intro s s' same
  have units : ∀ s : String, codeUnits s = s.toList.flatMap units := fun _ => rfl
  rw [units, units] at same
  have read := congrArg ofUnits same
  rw [ofUnits_flatMap, ofUnits_flatMap] at read
  exact String.toList_injective read

/-- A sorted set depends on the items only. -/
lemma sortedSet_congr {items items' : List String} (same : ∀ item, item ∈ items ↔ item ∈ items') :
    sortedSet items = sortedSet items' := by
  have perm : (sortedSet items).Perm (sortedSet items') :=
    (List.perm_ext_iff_of_nodup (nodup_sortedSet items) (nodup_sortedSet items')).2 fun item => by
      rw [mem_sortedSet, mem_sortedSet, same]
  exact perm.eq_of_pairwise (fun a b _ _ le ge => codeUnits_injective (List.le_antisymm le ge))
    (pairwise_sortedSet items) (pairwise_sortedSet items')

/-- Equal values have the same keys. -/
lemma objectKeys_same {v w : Tree} (same : Same v w) :
    (objectKeys v).map sortedSet = (objectKeys w).map sortedSet := by
  cases same with
  | array length each => rw [objectKeys, objectKeys, length]
  | object names each => rw [objectKeys, objectKeys, Option.map_some, Option.map_some, sortedSet_congr names]
  | _ => rfl

/-- The number itself. -/
def natLiteral (n : ℕ) : Literal where
  text := Nat.toDigits 10 n
  nonempty := Nat.toDigits_ne_nil
  numeric := fun c mem => by simp [isNumeric, Nat.isDigit_of_mem_toDigits (by decide) (by decide) mem]

/-- The literal of a number tells the number. -/
lemma natLiteral_injective : Function.Injective natLiteral := fun n m same => by
  have digits : Nat.toDigits 10 n = Nat.toDigits 10 m := congrArg Literal.text same
  rw [← Nat.ofDigitChars_ten_toDigits (n := n), digits, Nat.ofDigitChars_ten_toDigits]

/-- The number that a property name is an index for. -/
def arrayIndex (name : String) : Option ℕ :=
  let n := Nat.ofDigitChars 10 name.toList 0
  if toString n = name ∧ n < 2 ^ 32 - 1 then some n else none

/-- The order of `Object.keys`, for names in the order of their assignments: indices come first. An assignment to
`__proto__` makes no property. -/
def ownNames (names : List String) : List String :=
  let own := names.filter fun name => name ≠ "__proto__"
  (own.filter fun name => (arrayIndex name).isSome).mergeSort
    (fun a b => (arrayIndex a).getD 0 ≤ (arrayIndex b).getD 0) ++ own.filter fun name => (arrayIndex name).isNone

/-- The properties of an object after assignments to different names. -/
def ownProperties {β : Type} (assigned : List (String × β)) : List (String × β) :=
  (ownNames (assigned.map Prod.fst)).filterMap fun name => (Dict.lookup assigned name).map fun v => (name, v)

/-- The own names are the names, apart from `__proto__`, in another order. -/
lemma perm_ownNames (names : List String) : (ownNames names).Perm (names.filter fun name => name ≠ "__proto__") := by
  refine ((List.mergeSort_perm _ _).append_right _).trans ?_
  refine (List.Perm.of_eq ?_).trans (List.filter_append_perm (fun name => (arrayIndex name).isSome) _)
  rw [List.append_right_inj]
  refine List.filter_congr fun name _ => ?_
  cases arrayIndex name with
  | none => rfl
  | some n => rfl

/-- A name is an own name unless it is `__proto__`. -/
lemma mem_ownNames {names : List String} {name : String} :
    name ∈ ownNames names ↔ name ∈ names ∧ name ≠ "__proto__" := by
  rw [(perm_ownNames names).mem_iff, List.mem_filter, decide_eq_true_iff]

/-- The properties have the own names, in their order. -/
lemma map_fst_ownProperties {β : Type} (assigned : List (String × β)) :
    (ownProperties assigned).map Prod.fst = ownNames (assigned.map Prod.fst) := by
  rw [ownProperties, List.map_filterMap]
  refine (List.filterMap_congr fun name mem => ?_).trans List.filterMap_some
  obtain ⟨v, found⟩ := Option.ne_none_iff_exists'.1 fun none =>
    Dict.lookup_eq_none.1 none (mem_ownNames.1 mem).1
  rw [found]
  rfl

/-- Each property was assigned. -/
lemma mem_of_mem_ownProperties {β : Type} {assigned : List (String × β)} {f : String × β}
    (mem : f ∈ ownProperties assigned) : f ∈ assigned := by
  obtain ⟨name, -, shown⟩ := List.mem_filterMap.1 mem
  obtain ⟨v, found, rfl⟩ := Option.map_eq_some_iff.1 shown
  obtain ⟨e, here, rfl⟩ := Option.map_eq_some_iff.1 found
  have same := List.find?_some here
  rw [decide_eq_true_iff] at same
  exact same ▸ List.mem_of_find?_eq_some here

end Tree
end Json
