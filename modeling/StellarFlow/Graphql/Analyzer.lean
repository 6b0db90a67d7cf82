import Mathlib.Algebra.Order.Ring.Int
import Mathlib.Data.List.Count
import Mathlib.Order.Lattice

/-!
# The GraphQL query analyzer

Model of `src/lib/graphqlAnalyzer.ts`: depth and complexity of a parsed document, and the decision on it. `parse` is
the parser of the `graphql` package. The analyzer counts a fragment spread as nothing; the executed query is the one in
which every spread is replaced by the selections of its definition (`Document.expand`).

Replacing the spreads adds to the measures what the definitions measure at the places of their spreads
(`selectionSetDepth_inline`, `selectionSetComplexity_inline`).
-/

namespace StellarFlow.Graphql

/-- A node of a selection set. A `leaf` is a field without a selection set; of an argument only its name is kept. -/
inductive Selection where
  | leaf (fieldAlias : Option String) (name : String) (arguments : List String)
  | field (fieldAlias : Option String) (name : String) (arguments : List String) (selectionSet : List Selection)
  | inlineFragment (typeCondition : Option String) (selectionSet : List Selection)
  | fragmentSpread (name : String)

inductive Definition where
  | operation (name : Option String) (selectionSet : List Selection)
  | fragment (name typeCondition : String) (selectionSet : List Selection)
  | other

abbrev Document := List Definition

/-- `DEFAULT_MAX_DEPTH`. -/
def defaultMaxDepth : ℤ := 5

/-- `DEFAULT_MAX_COMPLEXITY`. -/
def defaultMaxComplexity : ℤ := 1000

/-- `BASE_FIELD_COST`. -/
def baseFieldCost : ℕ := 1

/-- `ARGUMENT_COST`. -/
def argumentCost : ℕ := 2

/-- `ALIAS_COST`. -/
def aliasCost : ℕ := 1

structure AnalyzerOptions where
  maxDepth : Option ℤ
  maxComplexity : Option ℤ

structure AnalysisResult where
  allowed : Bool
  depth : ℕ
  complexity : ℕ
  reason : Option String

mutual

/-- `selectionSetDepth`; the maximum of the loop is taken from the end. -/
def selectionSetDepth : List Selection → ℕ → ℕ
  | [], current => current
  | node :: rest, current => max (fieldDepth node current) (selectionSetDepth rest current)

def fieldDepth : Selection → ℕ → ℕ
  | .field _ _ _ selectionSet, depth => selectionSetDepth selectionSet (depth + 1)
  | .inlineFragment _ selectionSet, depth => selectionSetDepth selectionSet depth
  | .leaf .., depth => depth
  | .fragmentSpread _, depth => depth

end

/-- The cost of a field of its own. -/
def fieldCost (fieldAlias : Option String) (arguments : List String) : ℕ :=
  baseFieldCost + arguments.length * argumentCost + if fieldAlias.isSome then aliasCost else 0

mutual

def selectionSetComplexity : List Selection → ℕ → ℕ
  | [], _ => 0
  | node :: rest, depthMultiplier =>
    fieldComplexity node depthMultiplier + selectionSetComplexity rest depthMultiplier

def fieldComplexity : Selection → ℕ → ℕ
  | .leaf fieldAlias _ arguments, _ => fieldCost fieldAlias arguments
  | .field fieldAlias _ arguments selectionSet, depthMultiplier =>
    fieldCost fieldAlias arguments * depthMultiplier + selectionSetComplexity selectionSet (depthMultiplier + 1)
  | .inlineFragment _ selectionSet, depthMultiplier => selectionSetComplexity selectionSet depthMultiplier
  | .fragmentSpread _, _ => 0

end

namespace Document

/-- The selection sets of the operations. -/
def operations (doc : Document) : List (List Selection) :=
  doc.filterMap fun
    | .operation _ selectionSet => some selectionSet
    | _ => none

def calcDepth (doc : Document) : ℕ :=
  doc.operations.foldl (fun maxDepth set => max maxDepth (selectionSetDepth set 1)) 0

def calcComplexity (doc : Document) : ℕ :=
  doc.operations.foldl (fun maxComplexity set => max maxComplexity (selectionSetComplexity set 1)) 0

end Document

variable (parse : String → Option Document)

def analyzeQuery (query : String) (options : AnalyzerOptions) : AnalysisResult :=
  let maxDepth := options.maxDepth.getD defaultMaxDepth
  let maxComplexity := options.maxComplexity.getD defaultMaxComplexity
  match parse query with
  | none =>
    { allowed := false, depth := 0, complexity := 0
      reason := some "QUERY_PARSE_ERROR: The provided query could not be parsed." }
  | some doc =>
    let depth := doc.calcDepth
    let complexity := doc.calcComplexity
    if (depth : ℤ) > maxDepth then
      { allowed := false, depth, complexity
        reason := some (s!"QUERY_TOO_DEEP: Query exceeds maximum allowed depth of {maxDepth} (actual: {depth}). " ++
          "Reduce nesting to avoid excessive server load.") }
    else if (complexity : ℤ) > maxComplexity then
      { allowed := false, depth, complexity
        reason := some (s!"QUERY_TOO_COMPLEX: Query exceeds maximum allowed complexity of {maxComplexity} " ++
          s!"(actual: {complexity}). Simplify your query by removing unnecessary fields or narrowing arguments.") }
    else { allowed := true, depth, complexity, reason := none }

/-! ## Replacing the spreads -/

mutual

/-- The selections with `table name` in place of each spread of `name`. -/
def inlineSet (table : String → List Selection) : List Selection → List Selection
  | [] => []
  | node :: rest => inlineNode table node ++ inlineSet table rest

def inlineNode (table : String → List Selection) : Selection → List Selection
  | .leaf fieldAlias name arguments => [.leaf fieldAlias name arguments]
  | .field fieldAlias name arguments selectionSet => [.field fieldAlias name arguments (inlineSet table selectionSet)]
  | .inlineFragment typeCondition selectionSet => [.inlineFragment typeCondition (inlineSet table selectionSet)]
  | .fragmentSpread name => table name

end

/-- A spread with the depth and the multiplier of its place. -/
structure Place where
  name : String
  depth : ℕ
  multiplier : ℕ

mutual

/-- The spreads of a selection set. -/
def spreadsSet : List Selection → ℕ → ℕ → List Place
  | [], _, _ => []
  | node :: rest, depth, multiplier => spreadsNode node depth multiplier ++ spreadsSet rest depth multiplier

def spreadsNode : Selection → ℕ → ℕ → List Place
  | .leaf .., _, _ => []
  | .field _ _ _ selectionSet, depth, multiplier => spreadsSet selectionSet (depth + 1) (multiplier + 1)
  | .inlineFragment _ selectionSet, depth, multiplier => spreadsSet selectionSet depth multiplier
  | .fragmentSpread name, depth, multiplier => [{ name, depth, multiplier }]

end

/-- The names of the fragments a selection set spreads. -/
def spreadNames (set : List Selection) : List String :=
  (spreadsSet set 1 1).map (·.name)

namespace Document

/-- The selections of the definition of a fragment; of several the last one counts, as in the execution. -/
def fragment (doc : Document) (name : String) : List Selection :=
  (doc.reverse.findSome? fun
    | .fragment name' _ selectionSet => if name' = name then some selectionSet else none
    | _ => none).getD []

/-- The selections with the spreads replaced, at most `fuel` definitions deep. -/
def expandFuel (doc : Document) : ℕ → List Selection → List Selection
  | 0, set => inlineSet (fun _ => []) set
  | fuel + 1, set => inlineSet (fun name => doc.expandFuel fuel (doc.fragment name)) set

/-- The selections with every spread replaced by the selections of its definition. -/
def expand (doc : Document) (set : List Selection) : List Selection :=
  doc.expandFuel doc.length set

/-- No fragment spreads itself, directly or through others. -/
def Acyclic (doc : Document) : Prop :=
  ∃ rank : String → ℕ, ∀ name, ∀ used ∈ spreadNames (doc.fragment name), rank used < rank name

end Document

/-! ## The measures of the selections in place -/

/-- A selection set is at least as deep as it lies. -/
lemma le_selectionSetDepth (set : List Selection) (current : ℕ) : current ≤ selectionSetDepth set current := by
  induction set with
  | nil => exact Nat.le_refl current
  | cons node rest ih => exact le_max_of_le_right ih

/-- Two sets after one another are as deep as the deeper one. -/
lemma selectionSetDepth_append_le (set set' : List Selection) (depth n : ℕ) :
    selectionSetDepth (set ++ set') depth ≤ n ↔ selectionSetDepth set depth ≤ n ∧ selectionSetDepth set' depth ≤ n := by
  induction set with
  | nil => exact ⟨fun bound => ⟨(le_selectionSetDepth set' depth).trans bound, bound⟩, And.right⟩
  | cons node rest ih =>
    rw [List.cons_append, selectionSetDepth, selectionSetDepth, max_le_iff, max_le_iff, ih, and_assoc]

/-- Two sets are as complex as both together. -/
lemma selectionSetComplexity_append (set set' : List Selection) (multiplier : ℕ) :
    selectionSetComplexity (set ++ set') multiplier =
      selectionSetComplexity set multiplier + selectionSetComplexity set' multiplier := by
  induction set with
  | nil => exact (Nat.zero_add _).symm
  | cons node rest ih =>
    rw [List.cons_append, selectionSetComplexity, selectionSetComplexity, ih, Nat.add_assoc]

section Inline
variable (table : String → List Selection)

mutual

/-- The depth with the spreads replaced is the greatest of the depth without them and the depths of the table's
selections at the places of the spreads. -/
lemma selectionSetDepth_inline (multiplier n : ℕ) : (set : List Selection) → (depth : ℕ) →
    (selectionSetDepth (inlineSet table set) depth ≤ n ↔ selectionSetDepth set depth ≤ n ∧
      ∀ place ∈ spreadsSet set depth multiplier, selectionSetDepth (table place.name) place.depth ≤ n)
  | [], depth => by simp [inlineSet, spreadsSet]
  | node :: rest, depth => by
    rw [inlineSet, selectionSetDepth_append_le, fieldDepth_inline multiplier n node depth,
      selectionSetDepth_inline multiplier n rest depth, selectionSetDepth, max_le_iff, spreadsSet,
      List.forall_mem_append, and_and_and_comm]

/-- With its spreads written out, a node is as deep as the node and what stands at its spreads. -/
lemma fieldDepth_inline (multiplier n : ℕ) : (node : Selection) → (depth : ℕ) →
    (selectionSetDepth (inlineNode table node) depth ≤ n ↔ fieldDepth node depth ≤ n ∧
      ∀ place ∈ spreadsNode node depth multiplier, selectionSetDepth (table place.name) place.depth ≤ n)
  | .leaf .., depth => by simp [inlineNode, spreadsNode, selectionSetDepth, fieldDepth]
  | .field _ _ _ set, depth => by
    have deeper := (Nat.le_succ depth).trans (le_selectionSetDepth (inlineSet table set) (depth + 1))
    rw [inlineNode, selectionSetDepth, selectionSetDepth, fieldDepth, max_eq_left deeper, fieldDepth, spreadsNode]
    exact selectionSetDepth_inline (multiplier + 1) n set (depth + 1)
  | .inlineFragment _ set, depth => by
    have deeper := le_selectionSetDepth (inlineSet table set) depth
    rw [inlineNode, selectionSetDepth, selectionSetDepth, fieldDepth, max_eq_left deeper, fieldDepth, spreadsNode]
    exact selectionSetDepth_inline multiplier n set depth
  | .fragmentSpread name, depth => by
    rw [inlineNode, fieldDepth, spreadsNode, List.forall_mem_singleton]
    exact ⟨fun bound => ⟨(le_selectionSetDepth _ depth).trans bound, bound⟩, And.right⟩

end

/-- The complexity of the table's selections at the given places. -/
def hiddenComplexity (places : List Place) : ℕ :=
  (places.map fun place => selectionSetComplexity (table place.name) place.multiplier).sum

/-- What spreads hide adds up. -/
lemma hiddenComplexity_append (places places' : List Place) :
    hiddenComplexity table (places ++ places') = hiddenComplexity table places + hiddenComplexity table places' := by
  rw [hiddenComplexity, List.map_append, List.sum_append]
  rfl

mutual

/-- The complexity with the spreads replaced is the one without them and that of the table's selections at their
places. -/
lemma selectionSetComplexity_inline : (set : List Selection) → (depth multiplier : ℕ) →
    selectionSetComplexity (inlineSet table set) multiplier =
      selectionSetComplexity set multiplier + hiddenComplexity table (spreadsSet set depth multiplier)
  | [], depth, multiplier => rfl
  | node :: rest, depth, multiplier => by
    rw [inlineSet, selectionSetComplexity_append, fieldComplexity_inline node depth multiplier,
      selectionSetComplexity_inline rest depth multiplier, selectionSetComplexity, spreadsSet, hiddenComplexity_append,
      Nat.add_add_add_comm]

/-- With its spreads written out, a node costs what the node and its spreads cost. -/
lemma fieldComplexity_inline : (node : Selection) → (depth multiplier : ℕ) →
    selectionSetComplexity (inlineNode table node) multiplier =
      fieldComplexity node multiplier + hiddenComplexity table (spreadsNode node depth multiplier)
  | .leaf .., depth, multiplier => rfl
  | .field _ _ _ set, depth, multiplier => by
    rw [inlineNode, selectionSetComplexity, selectionSetComplexity, fieldComplexity,
      selectionSetComplexity_inline set (depth + 1) (multiplier + 1), fieldComplexity, spreadsNode, Nat.add_zero,
      Nat.add_assoc]
  | .inlineFragment _ set, depth, multiplier => by
    rw [inlineNode, selectionSetComplexity, selectionSetComplexity, fieldComplexity,
      selectionSetComplexity_inline set depth multiplier, fieldComplexity, spreadsNode, Nat.add_zero]
  | .fragmentSpread name, depth, multiplier => by
    rw [inlineNode, fieldComplexity, spreadsNode, Nat.zero_add]
    rfl

end

/-! ## Expansions of acyclic documents -/

mutual

/-- Which names are spread does not depend on the place the selections are at. -/
lemma names_spreadsSet : (set : List Selection) → (depth multiplier depth' multiplier' : ℕ) →
    (spreadsSet set depth multiplier).map (·.name) = (spreadsSet set depth' multiplier').map (·.name)
  | [], _, _, _, _ => rfl
  | node :: rest, depth, multiplier, depth', multiplier' => by
    rw [spreadsSet, spreadsSet, List.map_append, List.map_append,
      names_spreadsNode node depth multiplier depth' multiplier',
      names_spreadsSet rest depth multiplier depth' multiplier']

/-- The names of the spreads do not depend on where the node lies. -/
lemma names_spreadsNode : (node : Selection) → (depth multiplier depth' multiplier' : ℕ) →
    (spreadsNode node depth multiplier).map (·.name) = (spreadsNode node depth' multiplier').map (·.name)
  | .leaf .., _, _, _, _ => rfl
  | .field _ _ _ set, _, _, _, _ => names_spreadsSet set ..
  | .inlineFragment _ set, _, _, _, _ => names_spreadsSet set ..
  | .fragmentSpread _, _, _, _, _ => rfl

end

/-- The names of the spreads are those of their places. -/
lemma mem_spreadNames_iff {set : List Selection} {name : String} (depth multiplier : ℕ) :
    name ∈ spreadNames set ↔ ∃ place ∈ spreadsSet set depth multiplier, place.name = name := by
  rw [spreadNames, names_spreadsSet set 1 1 depth multiplier, List.mem_map]

variable {table} {table' : String → List Selection}

mutual

/-- Writing out a set asks for the fragments it spreads only. -/
lemma inlineSet_congr : (set : List Selection) → (depth multiplier : ℕ) →
    (∀ place ∈ spreadsSet set depth multiplier, table place.name = table' place.name) →
    inlineSet table set = inlineSet table' set
  | [], _, _, _ => rfl
  | node :: rest, depth, multiplier, same => by
    rw [spreadsSet, List.forall_mem_append] at same
    rw [inlineSet, inlineSet, inlineNode_congr node depth multiplier same.1,
      inlineSet_congr rest depth multiplier same.2]

/-- Writing out a node asks for the fragments it spreads only. -/
lemma inlineNode_congr : (node : Selection) → (depth multiplier : ℕ) →
    (∀ place ∈ spreadsNode node depth multiplier, table place.name = table' place.name) →
    inlineNode table node = inlineNode table' node
  | .leaf .., _, _, _ => rfl
  | .field _ _ _ set, depth, multiplier, same => by
    rw [inlineNode, inlineNode, inlineSet_congr set (depth + 1) (multiplier + 1) same]
  | .inlineFragment _ set, depth, multiplier, same => by
    rw [inlineNode, inlineNode, inlineSet_congr set depth multiplier same]
  | .fragmentSpread name, _, _, same => same _ (List.mem_singleton_self _)

end

/-- The places of two sets stand after one another. -/
lemma spreadsSet_append (set set' : List Selection) (depth multiplier : ℕ) :
    spreadsSet (set ++ set') depth multiplier =
      spreadsSet set depth multiplier ++ spreadsSet set' depth multiplier := by
  induction set with
  | nil => rfl
  | cons node rest ih => rw [List.cons_append, spreadsSet, spreadsSet, ih, List.append_assoc]

mutual

/-- Selections without spreads in place of every spread leave none. -/
lemma spreadsSet_inline : (set : List Selection) → (depth multiplier : ℕ) →
    (∀ place ∈ spreadsSet set depth multiplier,
      spreadsSet (table place.name) place.depth place.multiplier = []) →
    spreadsSet (inlineSet table set) depth multiplier = []
  | [], _, _, _ => rfl
  | node :: rest, depth, multiplier, gone => by
    rw [spreadsSet, List.forall_mem_append] at gone
    rw [inlineSet, spreadsSet_append, spreadsNode_inline node depth multiplier gone.1,
      spreadsSet_inline rest depth multiplier gone.2, List.append_nil]

/-- Where the fragments spread nothing, no spread is left. -/
lemma spreadsNode_inline : (node : Selection) → (depth multiplier : ℕ) →
    (∀ place ∈ spreadsNode node depth multiplier,
      spreadsSet (table place.name) place.depth place.multiplier = []) →
    spreadsSet (inlineNode table node) depth multiplier = []
  | .leaf .., _, _, _ => rfl
  | .field _ _ _ set, depth, multiplier, gone => by
    rw [inlineNode, spreadsSet, spreadsSet, spreadsNode, List.append_nil]
    exact spreadsSet_inline set (depth + 1) (multiplier + 1) gone
  | .inlineFragment _ set, depth, multiplier, gone => by
    rw [inlineNode, spreadsSet, spreadsSet, spreadsNode, List.append_nil]
    exact spreadsSet_inline set depth multiplier gone
  | .fragmentSpread name, _, _, gone => gone _ (List.mem_singleton_self _)

end

end Inline

namespace Document

/-- The names of the fragments the document defines. -/
def fragmentNames (doc : Document) : List String :=
  doc.filterMap fun
    | .fragment name _ _ => some name
    | _ => none

/-- A name without a definition has no selections. -/
lemma fragment_eq_nil {doc : Document} {name : String} (undefined : name ∉ doc.fragmentNames) :
    doc.fragment name = [] := by
  have none : (doc.reverse.findSome? fun
      | .fragment name' _ selectionSet => if name' = name then some selectionSet else none
      | _ => none) = none := by
    refine List.findSome?_eq_none_iff.2 fun definition mem => ?_
    cases definition with
    | fragment name' typeCondition set =>
      refine if_neg ?_
      rintro rfl
      exact undefined (List.mem_filterMap.2 ⟨_, List.mem_reverse.1 mem, rfl⟩)
    | operation name' set => rfl
    | other => rfl
  rw [fragment, none]
  rfl

/-- Nothing has nothing to be written out. -/
lemma expandFuel_nil (doc : Document) (fuel : ℕ) : doc.expandFuel fuel [] = [] := by
  cases fuel <;> rfl

section Acyclic
variable {doc : Document} {rank : String → ℕ}

/-- The number of definitions below a rank, which bounds how deep the definitions at it are nested. -/
def below (doc : Document) (rank : String → ℕ) (n : ℕ) : ℕ :=
  doc.fragmentNames.countP fun name => rank name < n

/-- A definition counts for the ranks above its own. -/
lemma below_lt {name : String} {n : ℕ} (defined : name ∈ doc.fragmentNames) (lt : rank name < n) :
    doc.below rank (rank name) < doc.below rank n := by
  obtain ⟨pre, post, split⟩ := List.append_of_mem defined
  have mono (names : List String) :
      names.countP (fun other => rank other < rank name) ≤ names.countP fun other => rank other < n :=
    List.countP_mono_left fun other _ before => by
      simp only [decide_eq_true_eq] at before ⊢
      omega
  rw [below, below, split, List.countP_append, List.countP_append, List.countP_cons, List.countP_cons,
    if_neg (by simp), if_pos (by simpa using lt)]
  have left := mono pre
  have right := mono post
  omega

/-- There are no more definitions than the document is long. -/
lemma below_le_length (doc : Document) (rank : String → ℕ) (n : ℕ) : doc.below rank n ≤ doc.length :=
  List.countP_le_length.trans (List.length_filterMap_le ..)

variable (descends : ∀ name, ∀ used ∈ spreadNames (doc.fragment name), rank used < rank name)
include descends

/-- More fuel than definitions below a name changes nothing. -/
lemma expandFuel_succ (fuel : ℕ) (name : String) (enough : doc.below rank (rank name) ≤ fuel) :
    doc.expandFuel fuel (doc.fragment name) = doc.expandFuel (fuel + 1) (doc.fragment name) := by
  induction fuel generalizing name with
  | zero =>
    refine inlineSet_congr _ 1 1 fun place mem => ?_
    have lt := descends name place.name ((mem_spreadNames_iff 1 1).2 ⟨place, mem, rfl⟩)
    have undefined : place.name ∉ doc.fragmentNames := fun defined => by
      have more := below_lt defined lt
      omega
    rw [fragment_eq_nil undefined, expandFuel_nil]
  | succ fuel ih =>
    refine inlineSet_congr _ 1 1 fun place mem => ?_
    have lt := descends name place.name ((mem_spreadNames_iff 1 1).2 ⟨place, mem, rfl⟩)
    by_cases defined : place.name ∈ doc.fragmentNames
    · have more := below_lt defined lt
      exact ih place.name (by omega)
    · rw [fragment_eq_nil defined, expandFuel_nil, expandFuel_nil]

end Acyclic

/-- The expansion replaces every spread by the expanded selections of its definition. -/
theorem expand_eq {doc : Document} (acyclic : doc.Acyclic) (set : List Selection) :
    doc.expand set = inlineSet (fun name => doc.expand (doc.fragment name)) set := by
  obtain ⟨rank, descends⟩ := acyclic
  have deep (name : String) (defined : name ∈ doc.fragmentNames) : doc.below rank (rank name) < doc.length :=
    (below_lt defined (Nat.lt_succ_self _)).trans_le (below_le_length doc rank _)
  cases length : doc.length with
  | zero =>
    rw [expand, length]
    refine inlineSet_congr _ 1 1 fun place _ => ?_
    have undefined : place.name ∉ doc.fragmentNames := fun defined => by
      have lt := deep _ defined
      omega
    rw [fragment_eq_nil undefined, expand, expandFuel_nil]
  | succ fuel =>
    rw [expand, length]
    refine inlineSet_congr _ 1 1 fun place _ => ?_
    rw [expand, length]
    by_cases defined : place.name ∈ doc.fragmentNames
    · have lt := deep _ defined
      exact expandFuel_succ descends fuel place.name (by omega)
    · rw [fragment_eq_nil defined, expandFuel_nil, expandFuel_nil]

/-- No spread is left in the expansion. -/
theorem spreads_expand {doc : Document} (acyclic : doc.Acyclic) (set : List Selection) (depth multiplier : ℕ) :
    spreadsSet (doc.expand set) depth multiplier = [] := by
  have gone (name : String) :
      ∀ depth multiplier, spreadsSet (doc.expand (doc.fragment name)) depth multiplier = [] := by
    obtain ⟨rank, descends⟩ := acyclic
    induction lt : rank name using Nat.strongRecOn generalizing name with
    | ind n ih =>
      intro depth multiplier
      rw [expand_eq ⟨rank, descends⟩]
      refine spreadsSet_inline _ depth multiplier fun place mem => ?_
      have used := descends name place.name ((mem_spreadNames_iff depth multiplier).2 ⟨place, mem, rfl⟩)
      exact ih (rank place.name) (lt ▸ used) place.name rfl place.depth place.multiplier
  rw [expand_eq acyclic]
  exact spreadsSet_inline _ depth multiplier fun place _ => gone place.name place.depth place.multiplier

/-! ## What the limits bound -/

/-- The operations with their spreads replaced are within the limits. -/
def Bounded (doc : Document) (maxDepth maxComplexity : ℤ) : Prop :=
  ∀ set ∈ doc.operations,
    (selectionSetDepth (doc.expand set) 1 : ℤ) ≤ maxDepth ∧
      (selectionSetComplexity (doc.expand set) 1 : ℤ) ≤ maxComplexity

/-- In every operation the definition of each spread reaches from its place no deeper than the limit, and the
definitions at their places cost no more than the fields outside them leave. -/
def SpreadsFit (doc : Document) (maxDepth maxComplexity : ℤ) : Prop :=
  ∀ set ∈ doc.operations,
    (∀ place ∈ spreadsSet set 1 1,
      (selectionSetDepth (doc.expand (doc.fragment place.name)) place.depth : ℤ) ≤ maxDepth) ∧
    (hiddenComplexity (fun name => doc.expand (doc.fragment name)) (spreadsSet set 1 1) : ℤ) ≤
      maxComplexity - selectionSetComplexity set 1

/-- The greatest value is at least each of them. -/
lemma le_foldl_max {α : Type} (f : α → ℕ) (xs : List α) (start : ℕ) :
    start ≤ xs.foldl (fun greatest x => max greatest (f x)) start ∧
      ∀ x ∈ xs, f x ≤ xs.foldl (fun greatest x => max greatest (f x)) start := by
  induction xs generalizing start with
  | nil => exact ⟨Nat.le_refl start, by simp⟩
  | cons y ys ih =>
    obtain ⟨first, rest⟩ := ih (max start (f y))
    refine ⟨(le_max_left ..).trans first, fun x mem => ?_⟩
    rcases List.mem_cons.1 mem with rfl | mem
    · exact (le_max_right ..).trans first
    · exact rest x mem

/-- The depth of the document is at least that of each operation. -/
lemma le_calcDepth {doc : Document} {set : List Selection} (mem : set ∈ doc.operations) :
    selectionSetDepth set 1 ≤ doc.calcDepth :=
  (le_foldl_max (fun set => selectionSetDepth set 1) doc.operations 0).2 set mem

end Document

/-- The limit on the depth in force. -/
def AnalyzerOptions.depthLimit (options : AnalyzerOptions) : ℤ := options.maxDepth.getD defaultMaxDepth

/-- The limit on the complexity in force. -/
def AnalyzerOptions.complexityLimit (options : AnalyzerOptions) : ℤ :=
  options.maxComplexity.getD defaultMaxComplexity

variable {parse} {query : String} {options : AnalyzerOptions} {doc : Document}

/-- A query is allowed when the fields outside spreads are within the limits. -/
theorem analyzeQuery_allowed_iff (parsed : parse query = some doc) :
    (analyzeQuery parse query options).allowed = true ↔
      (doc.calcDepth : ℤ) ≤ options.depthLimit ∧ (doc.calcComplexity : ℤ) ≤ options.complexityLimit := by
  rw [analyzeQuery, parsed, AnalyzerOptions.depthLimit, AnalyzerOptions.complexityLimit]
  dsimp only
  split
  · rename_i deep
    exact iff_of_false Bool.false_ne_true fun fits => absurd fits.1 (not_le.2 deep)
  · rename_i shallow
    split
    · rename_i costly
      exact iff_of_false Bool.false_ne_true fun fits => absurd fits.2 (not_le.2 costly)
    · rename_i cheap
      exact iff_of_true rfl ⟨not_lt.1 shallow, not_lt.1 cheap⟩

/-- What an allowed query executes is within the limits exactly when what its spreads stand for fits. -/
theorem analyzeQuery_bounds_iff (acyclic : doc.Acyclic) (parsed : parse query = some doc) :
    ((analyzeQuery parse query options).allowed = true → doc.Bounded options.depthLimit options.complexityLimit) ↔
      ((analyzeQuery parse query options).allowed = true →
        doc.SpreadsFit options.depthLimit options.complexityLimit) := by
  refine forall_congr' fun allowed => ?_
  obtain ⟨shallow, cheap⟩ := (analyzeQuery_allowed_iff parsed).1 allowed
  refine forall₂_congr fun set mem => and_congr ?_ ?_
  · -- the depth of the expansion is that of the fields outside spreads or that of a definition at its place
    have own := (Int.ofNat_le.2 (Document.le_calcDepth mem)).trans shallow
    obtain ⟨n, limit⟩ := Int.eq_ofNat_of_zero_le ((Int.natCast_nonneg _).trans own)
    rw [limit] at own ⊢
    rw [Document.expand_eq acyclic]
    simp only [Int.ofNat_le] at own ⊢
    rw [selectionSetDepth_inline _ 1]
    exact and_iff_right own
  · -- the complexities add up
    rw [Document.expand_eq acyclic, selectionSetComplexity_inline _ set 1 1, Int.natCast_add]
    omega

/-- A spread of a definition six levels deep. -/
def deepFragment : Document :=
  [.operation none [.fragmentSpread "F"],
    .fragment "F" "T"
      [.field none "a" [] [.field none "b" [] [.field none "c" [] [.field none "d" [] [.field none "e" []
        [.leaf none "f" []]]]]]]]

def deepFragmentQuery : String :=
  "\x7b ...F \x7d fragment F on T \x7b a \x7b b \x7b c \x7b d \x7b e \x7b f \x7d \x7d \x7d \x7d \x7d \x7d"

/-- The parser on this query. -/
def deepFragmentParse (query : String) : Option Document :=
  if query = deepFragmentQuery then some deepFragment else none

/-- The sample has one fragment, which spreads nothing. -/
lemma deepFragment_acyclic : deepFragment.Acyclic := by
  refine ⟨fun _ => 0, fun name used mem => ?_⟩
  by_cases defined : name = "F"
  · subst defined
    have none : spreadNames (deepFragment.fragment "F") = [] := by decide
    rw [none] at mem
    cases mem
  · have undefined : name ∉ deepFragment.fragmentNames := fun mem => defined (List.mem_singleton.1 mem)
    rw [Document.fragment_eq_nil undefined] at mem
    cases mem

/-- The query is allowed with depth 1 and complexity 0, and what it executes is six levels deep. -/
theorem deepFragment_escapes :
    (analyzeQuery deepFragmentParse deepFragmentQuery ⟨none, none⟩).allowed = true ∧ deepFragment.Acyclic ∧
      ¬deepFragment.Bounded defaultMaxDepth defaultMaxComplexity := by
  refine ⟨(analyzeQuery_allowed_iff (if_pos rfl)).2 (by decide), deepFragment_acyclic, fun bounded => ?_⟩
  exact absurd (bounded [.fragmentSpread "F"] (List.mem_singleton_self _)).1 (by decide)

/-- With a limit of six levels the definition fits. -/
theorem deepFragment_fits :
    (analyzeQuery deepFragmentParse deepFragmentQuery ⟨some 6, none⟩).allowed = true ∧
      deepFragment.Bounded 6 defaultMaxComplexity := by
  have allowed : (analyzeQuery deepFragmentParse deepFragmentQuery ⟨some 6, none⟩).allowed = true :=
    (analyzeQuery_allowed_iff (if_pos rfl)).2 (by decide)
  refine ⟨allowed, (@analyzeQuery_bounds_iff deepFragmentParse deepFragmentQuery ⟨some 6, none⟩ deepFragment
    deepFragment_acyclic (if_pos rfl)).2 (fun _ set mem => ?_) allowed⟩
  rw [List.mem_singleton.1 mem]
  decide

end StellarFlow.Graphql
