import StellarFlow.Lib.IsoDate
import StellarFlow.Lib.JsonTree
import StellarFlow.Lib.Scientific
import StellarFlow.Lib.Tally

/-!
# Results of votes

`governanceResultService.ts`: the tally of the votes on a proposal, and the snapshot of the result, whose text is
published. A weight is the text that its decimal writes; `weightValue` is the number that the text means. Dates are
valid.

A tally is told by the choices and the numbers of its votes alone (`Totals.unique`), so the text of a snapshot depends
neither on the order of the votes nor on how a sum comes about, and a text is of one snapshot only.
-/

namespace StellarFlow.GovernanceResult
open IsoDate Scientific

def RESULT_SNAPSHOT_SCHEMA : String := "stellarflow.governance.proposal_result_snapshot"
def RESULT_SNAPSHOT_VERSION : ℕ := 1

structure GovernanceVoteRecord where
  accountId : String
  choice : String
  weight : String
  votedAt : TimeValue
  txHash : Option String

structure SnapshotProposalInput where
  proposalId : String
  contractId : String
  title : Option String
  actionType : Option String
  status : String
  expiresAt : TimeValue
  queuedAt : Option TimeValue
  executedAt : Option TimeValue
  cancelledAt : Option TimeValue
  transactionHash : Option String

@[ext] structure ChoiceTally where
  votes : ℕ
  weight : String

@[ext] structure VoteTally where
  totalVoters : ℕ
  totalWeight : String
  byChoice : List (String × ChoiceTally)

structure SnapshotVoter where
  accountId : String
  choice : String
  weight : String
  votedAt : String
  txHash : Option String

structure SnapshotProposal where
  proposalId : String
  contractId : String
  title : Option String
  actionType : Option String
  status : String
  expiresAt : String
  queuedAt : Option String
  executedAt : Option String
  cancelledAt : Option String
  transactionHash : Option String

structure GovernanceResultSnapshot where
  schema : String
  version : ℕ
  generatedAt : String
  proposal : SnapshotProposal
  tally : VoteTally
  voters : List SnapshotVoter

/-- `units / 10 ^ scale`. -/
structure ScaledWeight where
  units : ℤ
  scale : ℕ

def ScaledWeight.value (w : ScaledWeight) : ℚ := w.units / 10 ^ w.scale

def expandExponential (text : List Char) : List Char :=
  match scanMantissa text with
  | none => text
  | some (m, rest) =>
    match scanExponent rest with
    | none => text
    | some e =>
      let sign := if m.negative then ['-'] else []
      let digits := m.whole ++ m.fraction
      let pointPosition : ℤ := m.whole.length + e.value
      if pointPosition ≤ 0 then sign ++ '0' :: '.' :: (List.replicate (-pointPosition).toNat '0' ++ digits)
      else if digits.length ≤ pointPosition then
        sign ++ (digits ++ List.replicate (pointPosition - digits.length).toNat '0')
      else sign ++ (digits.take pointPosition.toNat ++ '.' :: digits.drop pointPosition.toNat)

/-- `digits.replace(/^0+(?=\d)/, "")`. -/
def stripZeros (digits : List Char) : List Char :=
  if digits.all (· = '0') then digits.drop (digits.length - 1) else digits.dropWhile (· = '0')

def toScaledWeight (value : String) : Except String ScaledWeight :=
  let text := expandExponential (Js.trim value).toList
  match scanMantissa text with
  | some (m, []) =>
    let digits := stripZeros (m.whole ++ m.fraction)
    let units := if 0 < digits.length then Nat.ofDigitChars 10 digits 0 else 0
    .ok ⟨(if m.negative then -1 else 1) * units, m.fraction.length⟩
  | _ => .error ("Invalid vote weight: \"" ++ String.ofList text ++ "\"")

def scaleUp (units : ℤ) (low high : ℕ) : ℤ := if low = high then units else units * 10 ^ (high - low)

def formatScaled (units : ℤ) (scale : ℕ) : String :=
  if scale = 0 then toString units
  else
    let digits := (Nat.toDigits 10 units.natAbs).leftpad (scale + 1) '0'
    let whole := digits.take (digits.length - scale)
    let fraction := (digits.drop (digits.length - scale)).rdropWhile (· = '0')
    let body := if 0 < fraction.length then whole ++ '.' :: fraction else whole
    String.ofList (if units < 0 then '-' :: body else body)

/-- One turn of the loop over the votes. -/
def count (scale : ℕ) (sums : ℤ × Dict String (ℤ × ℕ)) (vote : String × ScaledWeight) : ℤ × Dict String (ℤ × ℕ) :=
  let units := scaleUp vote.2.units vote.2.scale scale
  (sums.1 + units, sums.2.add vote.1 (units, 1))

def computeVoteTally (votes : List GovernanceVoteRecord) : Except String VoteTally := do
  let scaledVotes ← votes.mapM fun vote => do return (vote.choice, ← toScaledWeight vote.weight)
  let scale := scaledVotes.foldl (fun scale vote => if scale < vote.2.scale then vote.2.scale else scale) 0
  let (totalUnits, unitsByChoice) := scaledVotes.foldl (count scale) (0, Dict.empty)
  let byChoice := (Js.sortedSet unitsByChoice.keys).filterMap fun choice =>
    (unitsByChoice.get? choice).map fun entry => (choice, ⟨entry.2, formatScaled entry.1 scale⟩)
  return ⟨votes.length, formatScaled totalUnits scale, Json.Tree.ownProperties byChoice⟩

def toIso (value : TimeValue) : String := toISOString value

def compareStrings (a b : String) : Ordering := compareOfLessAndEq (Js.codeUnits a) (Js.codeUnits b)

def normalizeVote (vote : GovernanceVoteRecord) : SnapshotVoter where
  accountId := vote.accountId
  choice := vote.choice
  weight := Js.trim vote.weight
  votedAt := toIso vote.votedAt
  txHash := vote.txHash

def normalizeVotes (votes : List GovernanceVoteRecord) : List SnapshotVoter :=
  (votes.mergeSort fun a b =>
    ((compareStrings a.accountId b.accountId).then (compareStrings (toIso a.votedAt) (toIso b.votedAt))).isLE).map
      normalizeVote

def normalizeProposal (proposal : SnapshotProposalInput) : SnapshotProposal where
  proposalId := proposal.proposalId
  contractId := proposal.contractId
  title := proposal.title
  actionType := proposal.actionType
  status := proposal.status
  expiresAt := toIso proposal.expiresAt
  queuedAt := proposal.queuedAt.map toIso
  executedAt := proposal.executedAt.map toIso
  cancelledAt := proposal.cancelledAt.map toIso
  transactionHash := proposal.transactionHash

def buildGovernanceResultSnapshot (proposal : SnapshotProposalInput) (votes : List GovernanceVoteRecord)
    (generatedAt : TimeValue) : Except String GovernanceResultSnapshot := do
  let tally ← computeVoteTally votes
  return ⟨RESULT_SNAPSHOT_SCHEMA, RESULT_SNAPSHOT_VERSION, toIso generatedAt, normalizeProposal proposal, tally,
    normalizeVotes votes⟩

section Json
open Json Tree

def nullable : Option String → Tree
  | none => .null
  | some s => .string s

def ChoiceTally.tree (t : ChoiceTally) : Tree :=
  .object [("votes", .number (natLiteral t.votes)), ("weight", .string t.weight)]

def VoteTally.tree (t : VoteTally) : Tree :=
  .object [("totalVoters", .number (natLiteral t.totalVoters)), ("totalWeight", .string t.totalWeight),
    ("byChoice", .object (t.byChoice.map fun f => (f.1, f.2.tree)))]

def SnapshotVoter.tree (v : SnapshotVoter) : Tree :=
  .object [("accountId", .string v.accountId), ("choice", .string v.choice), ("weight", .string v.weight),
    ("votedAt", .string v.votedAt), ("txHash", nullable v.txHash)]

def SnapshotProposal.tree (p : SnapshotProposal) : Tree :=
  .object [("proposalId", .string p.proposalId), ("contractId", .string p.contractId), ("title", nullable p.title),
    ("actionType", nullable p.actionType), ("status", .string p.status), ("expiresAt", .string p.expiresAt),
    ("queuedAt", nullable p.queuedAt), ("executedAt", nullable p.executedAt), ("cancelledAt", nullable p.cancelledAt),
    ("transactionHash", nullable p.transactionHash)]

def GovernanceResultSnapshot.tree (s : GovernanceResultSnapshot) : Tree :=
  .object [("schema", .string s.schema), ("version", .number (natLiteral s.version)),
    ("generatedAt", .string s.generatedAt), ("proposal", s.proposal.tree), ("tally", s.tally.tree),
    ("voters", .array (s.voters.map SnapshotVoter.tree))]

/-- The text; the content that is published is its UTF-8. -/
def serializeGovernanceResultSnapshot (snapshot : GovernanceResultSnapshot) : String :=
  String.ofList (print snapshot.tree)

end Json

/-- The number that a text means. -/
def weightValue (text : String) : Option ℚ := (scanLiteral (Js.trim text).toList).map Literal.value

/-- What an exponent is expanded to has the same value. -/
lemma expandExponential_text (m : Mantissa) (e : Exponent) :
    ∃ m' : Mantissa, expandExponential (m.text ++ e.text) = m'.text ∧ m'.value = Literal.value ⟨m, some e⟩ := by
  obtain ⟨some, isWhole⟩ := m.isWhole
  have digits : ∀ c ∈ m.whole ++ m.fraction, c.isDigit = true := List.forall_mem_append.2 ⟨isWhole, m.isFraction⟩
  have zeros (k : ℕ) : ∀ c ∈ List.replicate k '0', c.isDigit = true := fun c mem => by
    rw [List.eq_of_mem_replicate mem]
    rfl
  have more : m.whole ++ m.fraction ≠ [] := fun none => some (List.append_eq_nil_iff.1 none).1
  have length : (m.whole ++ m.fraction).length = m.whole.length + m.fraction.length := List.length_append
  have value : Literal.value ⟨m, Option.some e⟩ = m.units * 10 ^ (e.value - m.fraction.length) := Literal.value_eq _
  rw [expandExponential, scanMantissa_text m e.stops, value]
  simp only [scanExponent_iff.2 rfl]
  generalize point : (m.whole.length : ℤ) + e.value = pointPosition
  split
  · -- the point before the digits
    refine ⟨⟨m.negative, ['0'], List.replicate (-pointPosition).toNat '0' ++ (m.whole ++ m.fraction),
      ⟨List.cons_ne_nil _ _, List.forall_mem_singleton.2 rfl⟩, List.forall_mem_append.2 ⟨zeros _, digits⟩⟩, ?_, ?_⟩
    · rw [Mantissa.text, if_neg fun none => more (List.append_eq_nil_iff.1 none).2]
      rfl
    · have units : Nat.ofDigitChars 10 (['0'] ++ (List.replicate (-pointPosition).toNat '0' ++
          (m.whole ++ m.fraction))) 0 = Nat.ofDigitChars 10 (m.whole ++ m.fraction) 0 := by
        rw [Nat.ofDigitChars_append, Nat.ofDigitChars_append (l := List.replicate ..), Nat.ofDigitChars_replicate_zero]
        rfl
      rw [Mantissa.value_eq, Mantissa.units, Mantissa.units, units, List.length_append, List.length_replicate, length]
      congr 2
      omega
  · split
    · -- the point behind the digits
      refine ⟨⟨m.negative, m.whole ++ m.fraction ++ List.replicate (pointPosition -
        (m.whole ++ m.fraction).length).toNat '0', [], ⟨fun none => more (List.append_eq_nil_iff.1 none).1,
          List.forall_mem_append.2 ⟨digits, zeros _⟩⟩, fun _ mem => absurd mem List.not_mem_nil⟩, ?_, ?_⟩
      · rw [Mantissa.text, if_pos rfl, List.append_nil]
      · have shift : e.value - m.fraction.length = ((pointPosition - (m.whole ++ m.fraction).length).toNat : ℕ) := by
          rw [length]
          omega
        rw [Mantissa.value_eq, Mantissa.units, Mantissa.units, List.append_nil,
          Nat.ofDigitChars_append (l := m.whole ++ m.fraction), Nat.ofDigitChars_replicate_zero, shift, zpow_natCast]
        push_cast
        simp [mul_comm]
    · -- the point between the digits
      refine ⟨⟨m.negative, (m.whole ++ m.fraction).take pointPosition.toNat,
        (m.whole ++ m.fraction).drop pointPosition.toNat, ⟨?_, fun c mem => digits c (List.mem_of_mem_take mem)⟩,
        fun c mem => digits c (List.mem_of_mem_drop mem)⟩, ?_, ?_⟩
      · rw [ne_eq, List.take_eq_nil_iff, not_or]
        exact ⟨by omega, more⟩
      · have rest : (m.whole ++ m.fraction).drop pointPosition.toNat ≠ [] := by
          rw [ne_eq, List.drop_eq_nil_iff]
          omega
        rw [Mantissa.text, if_neg rest]
      · rw [Mantissa.value_eq, Mantissa.units, Mantissa.units, List.take_append_drop, List.length_drop, length]
        congr 2
        omega

/-- Zeros in front change no number. -/
lemma ofDigitChars_stripZeros (digits : List Char) :
    Nat.ofDigitChars 10 (stripZeros digits) 0 = Nat.ofDigitChars 10 digits 0 := by
  rw [stripZeros]
  split
  · rename_i all
    have zeros : digits = List.replicate digits.length '0' :=
      List.eq_replicate_of_mem fun c mem => of_decide_eq_true (List.all_eq_true.1 all c mem)
    rw [zeros, List.drop_replicate, Nat.ofDigitChars_replicate_zero, Nat.ofDigitChars_replicate_zero, Nat.mul_zero,
      Nat.mul_zero]
  · have zeros : digits.takeWhile (· = '0') = List.replicate (digits.takeWhile (· = '0')).length '0' :=
      List.eq_replicate_of_mem fun c mem => by simpa using List.mem_takeWhile_imp mem
    conv_rhs => rw [← digits.takeWhile_append_dropWhile (p := (· = '0')), zeros, Nat.ofDigitChars_append,
      Nat.ofDigitChars_replicate_zero, Nat.mul_zero]

/-- A weight is read if and only if it is a literal, and then it is its value. -/
lemma toScaledWeight_spec (text : String) : match weightValue text with
    | some x => ∃ w, toScaledWeight text = .ok w ∧ w.value = x
    | none => toScaledWeight text = .error ("Invalid vote weight: \"" ++ Js.trim text ++ "\"") := by
  -- what is left without an exponent is read as it is
  have plain (m : Mantissa) (expanded : expandExponential (Js.trim text).toList = m.text) :
      ∃ w, toScaledWeight text = .ok w ∧ w.value = m.value := by
    refine ⟨⟨m.units, m.fraction.length⟩, ?_, rfl⟩
    simp only [toScaledWeight, expanded, scanMantissa_alone]
    have units : (if 0 < (stripZeros (m.whole ++ m.fraction)).length then
        Nat.ofDigitChars 10 (stripZeros (m.whole ++ m.fraction)) 0 else 0) =
          Nat.ofDigitChars 10 (m.whole ++ m.fraction) 0 := by
      split
      · exact ofDigitChars_stripZeros _
      · rename_i empty
        rw [← ofDigitChars_stripZeros, List.eq_nil_of_length_eq_zero (Nat.eq_zero_of_not_pos empty)]
        rfl
    rw [units, Mantissa.units]
  rw [weightValue]
  cases read : scanLiteral (Js.trim text).toList with
  | some l =>
    obtain ⟨m, exponent⟩ := l
    have written := scanLiteral_iff.1 read
    cases exponent with
    | none =>
      have expanded : expandExponential (Js.trim text).toList = m.text := by
        rw [written, expandExponential, Literal.text, Option.map_none, Option.getD_none, List.append_nil,
          scanMantissa_alone]
        rfl
      obtain ⟨w, ok, value⟩ := plain m expanded
      exact ⟨w, ok, value.trans (Mantissa.value_literal m).symm⟩
    | some e =>
      obtain ⟨m', expanded, value⟩ := expandExponential_text m e
      obtain ⟨w, ok, value'⟩ := plain m' (written ▸ expanded)
      exact ⟨w, ok, value'.trans value⟩
  | none =>
    have failed : expandExponential (Js.trim text).toList = (Js.trim text).toList ∧
        ∀ m, scanMantissa (Js.trim text).toList ≠ some (m, []) := by
      rw [expandExponential]
      cases scanned : scanMantissa (Js.trim text).toList with
      | none => exact ⟨rfl, fun m found => by cases found⟩
      | some found =>
        obtain ⟨m, rest⟩ := found
        rw [scanLiteral, scanned, Option.bind_some] at read
        simp only at read
        split at read
        · cases read
        · rename_i more
          rw [Option.map_eq_none_iff] at read
          simp only [read]
          refine ⟨trivial, fun m' same => ?_⟩
          cases same
          exact more rfl
    obtain ⟨expanded, noMantissa⟩ := failed
    simp only [Option.map_none, toScaledWeight, expanded]
    rw [String.ofList_toList]

/-- The text is the shortest one of a number. -/
def Shows (x : ℚ) (text : String) : Prop :=
  weightValue text = some x ∧ ∃ units scale, text = String.ofList (shortest units scale).text

/-- The text of a number has no blanks around it. -/
lemma trim_text (m : Mantissa) : Js.trim (String.ofList m.text) = String.ofList m.text := by
  have black : ∀ c ∈ m.text, ¬Js.isWhiteSpace c = true := by
    have digit (c : Char) (is : c.isDigit = true) : ¬Js.isWhiteSpace c = true := by
      intro white
      have blanks : ['\t', '\n', '\x0b', '\x0c', '\r', ' ', '\u00a0', '\u1680', '\u2028', '\u2029', '\u202f',
          '\u205f', '\u3000', '\ufeff'].all (fun c => !c.isDigit) = true := by decide
      rw [Js.isWhiteSpace, Bool.or_eq_true, Bool.and_eq_true, decide_eq_true_iff, decide_eq_true_iff,
        decide_eq_true_iff] at white
      rcases white with blank | wide
      · have other := List.all_eq_true.1 blanks c blank
        rw [is] at other
        cases other
      · have small : c.toNat ≤ 57 := (Char.isDigit_iff_toNat.1 is).2
        omega
    intro c mem
    rw [Mantissa.text, List.mem_append, List.mem_append] at mem
    rcases mem with sign | whole | fraction
    · split at sign
      · rw [List.mem_singleton.1 sign]
        decide
      · cases sign
    · exact digit c (m.isWhole.2 c whole)
    · split at fraction
      · cases fraction
      · rcases List.mem_cons.1 fraction with rfl | mem
        · decide
        · exact digit c (m.isFraction c mem)
  have kept (cs : List Char) (black : ∀ c ∈ cs, ¬Js.isWhiteSpace c = true) : cs.dropWhile Js.isWhiteSpace = cs := by
    cases cs with
    | nil => rfl
    | cons c cs => exact List.dropWhile_cons_of_neg (black c (List.mem_cons_self ..))
  rw [Js.trim, String.toList_ofList, kept _ black, kept _ fun c mem => black c (List.mem_reverse.1 mem),
    List.reverse_reverse]

/-- The text of a number reads as its value. -/
lemma weightValue_text (m : Mantissa) : weightValue (String.ofList m.text) = some m.value := by
  have read : scanLiteral m.text = some ⟨m, none⟩ := scanLiteral_iff.2 (by simp [Literal.text])
  rw [weightValue, trim_text, String.toList_ofList, read, Option.map_some, Mantissa.value_literal]

/-- A number is shown as one text. -/
lemma Shows.unique {x : ℚ} {text text' : String} (here : Shows x text) (there : Shows x text') : text = text' := by
  obtain ⟨value, units, scale, rfl⟩ := here
  obtain ⟨value', units', scale', rfl⟩ := there
  rw [weightValue_text, value_shortest, Option.some.injEq] at value value'
  rw [shortest_congr (value.trans value'.symm)]

/-- What is written of a sum. -/
lemma shows_formatScaled (units : ℤ) (scale : ℕ) : Shows (units / 10 ^ scale) (formatScaled units scale) := by
  have shortest_text : formatScaled units scale = String.ofList (shortest units scale).text := by
    rw [formatScaled]
    split
    · rename_i none
      subst none
      have whole : (shortest units 0).fraction = [] := rfl
      have digits : (shortest units 0).whole = Nat.toDigits 10 units.natAbs := by
        show Nat.toDigits 10 (units.natAbs / 1) = _
        rw [Nat.div_one]
      rw [Mantissa.text, whole, digits, if_pos rfl, List.append_nil]
      cases units with
      | ofNat n => exact Nat.repr_eq_ofList_toDigits
      | negSucc n =>
        have sign : (shortest (Int.negSucc n) 0).negative = true := decide_eq_true (Int.negSucc_lt_zero n)
        rw [sign, if_pos rfl, String.ofList_append]
        exact congrArg ("-" ++ ·) Nat.repr_eq_ofList_toDigits
    · simp only [leftpad_toDigits, List.length_append, IsoDate.length_pad, Nat.add_sub_cancel, List.take_left,
        List.drop_left]
      by_cases fraction : (shortest units scale).fraction = []
      · have none : (List.rdropWhile (· = '0') (IsoDate.pad scale (units.natAbs % 10 ^ scale))) = [] := fraction
        simp only [none, List.length_nil, Nat.lt_irrefl, if_false, Mantissa.text, fraction, if_true, List.append_nil]
        by_cases negative : units < 0
        · simp [shortest, negative]
        · simp [shortest, negative]
      · have some : 0 < (List.rdropWhile (· = '0') (IsoDate.pad scale (units.natAbs % 10 ^ scale))).length :=
          List.length_pos_iff.2 fraction
        simp only [some, if_true, Mantissa.text, fraction, if_false]
        by_cases negative : units < 0
        · simp [shortest, negative]
        · simp [shortest, negative]
  rw [shortest_text]
  exact ⟨(weightValue_text _).trans (congrArg some (value_shortest ..)), units, scale, rfl⟩

/-- The choices and the numbers of the votes. -/
def counted (votes : List GovernanceVoteRecord) : List (String × Option ℚ) :=
  votes.map fun vote => (vote.choice, weightValue vote.weight)

/-- The message names the first weight that is no number. -/
def Unreadable (votes : List GovernanceVoteRecord) (message : String) : Prop :=
  ∃ vote, (votes.find? fun v => (weightValue v.weight).isNone) = some vote ∧
    message = "Invalid vote weight: \"" ++ Js.trim vote.weight ++ "\""

/-- The votes and the sums of their numbers, in all and by choice; the choices are in the order of an object's names. -/
structure Totals (numbers : List (String × ℚ)) (t : VoteTally) : Prop where
  voters : t.totalVoters = numbers.length
  total : Shows (numbers.map Prod.snd).sum t.totalWeight
  names : t.byChoice.map Prod.fst = Json.Tree.ownNames (Js.sortedSet (numbers.map Prod.fst))
  entries : ∀ f ∈ t.byChoice, f.2.votes = numbers.countP (fun v => v.1 = f.1) ∧
    Shows ((numbers.filter fun v => v.1 = f.1).map Prod.snd).sum f.2.weight

/-- The numbers determine the tally, in any order. -/
lemma Totals.unique {numbers numbers' : List (String × ℚ)} {t t' : VoteTally} (here : Totals numbers t)
    (there : Totals numbers' t') (perm : numbers.Perm numbers') : t = t' := by
  have names : t.byChoice.map Prod.fst = t'.byChoice.map Prod.fst := by
    rw [here.names, there.names, Json.Tree.sortedSet_congr fun _ => (perm.map Prod.fst).mem_iff]
  have length : t.byChoice.length = t'.byChoice.length := by simpa using congrArg List.length names
  have byChoice : t.byChoice = t'.byChoice := by
    refine List.ext_getElem length fun i inside inside' => ?_
    have name : t.byChoice[i].1 = t'.byChoice[i].1 := by
      have found := congrArg (·[i]?) names
      simpa [inside, inside'] using found
    obtain ⟨votes, weight⟩ := here.entries _ (List.getElem_mem inside)
    obtain ⟨votes', weight'⟩ := there.entries _ (List.getElem_mem inside')
    rw [← name] at votes' weight'
    rw [((perm.filter _).map _).sum_eq] at weight
    rw [perm.countP_eq] at votes
    exact Prod.ext name (ChoiceTally.ext (votes.trans votes'.symm) (weight.unique weight'))
  have total := here.total
  rw [(perm.map _).sum_eq] at total
  have voters := here.voters.trans (perm.length_eq.trans there.voters.symm)
  exact VoteTally.ext voters (total.unique there.total) byChoice

section Count
variable {scale : ℕ} {scaled : List (String × ScaledWeight)}

/-- Counting adds up the scaled weights, in all and by choice. -/
lemma count_foldl (sums : ℤ × Dict String (ℤ × ℕ)) (scaled : List (String × ScaledWeight)) :
    scaled.foldl (count scale) sums =
      (sums.1 + (scaled.map fun v => scaleUp v.2.units v.2.scale scale).sum,
        (scaled.map fun v => (v.1, (scaleUp v.2.units v.2.scale scale, 1))).foldl (fun d e => d.add e.1 e.2) sums.2) := by
  induction scaled generalizing sums with
  | nil => simp
  | cons v scaled ih =>
    rw [List.foldl_cons, ih, count, List.map_cons, List.map_cons, List.sum_cons, List.foldl_cons, add_assoc]

/-- Scaling up keeps the value. -/
lemma value_scaleUp {w : ScaledWeight} (le : w.scale ≤ scale) :
    (scaleUp w.units w.scale scale : ℚ) / 10 ^ scale = w.value := by
  rw [scaleUp, ScaledWeight.value]
  split
  · rename_i same
    rw [same]
  · obtain ⟨k, rfl⟩ := Nat.exists_eq_add_of_le le
    rw [Nat.add_sub_cancel_left, pow_add]
    push_cast
    exact mul_div_mul_right _ _ (by positivity)

/-- The scaled weights sum up to the weights. -/
lemma sum_scaleUp (le : ∀ v ∈ scaled, v.2.scale ≤ scale) :
    ((scaled.map fun v => scaleUp v.2.units v.2.scale scale).sum : ℚ) / 10 ^ scale =
      (scaled.map fun v => v.2.value).sum := by
  induction scaled with
  | nil => simp
  | cons v scaled ih =>
    obtain ⟨here, rest⟩ := List.forall_mem_cons.1 le
    rw [List.map_cons, List.map_cons, List.sum_cons, List.sum_cons, Int.cast_add, add_div, value_scaleUp here, ih rest]

/-- The scale is as wide as the widest. -/
lemma le_scale (scaled : List (String × ScaledWeight)) : ∀ v ∈ scaled, v.2.scale ≤
    scaled.foldl (fun scale vote => if scale < vote.2.scale then vote.2.scale else scale) 0 := by
  have grows (scale : ℕ) (scaled : List (String × ScaledWeight)) :
      scale ≤ scaled.foldl (fun scale vote => if scale < vote.2.scale then vote.2.scale else scale) scale ∧
        ∀ v ∈ scaled, v.2.scale ≤
          scaled.foldl (fun scale vote => if scale < vote.2.scale then vote.2.scale else scale) scale := by
    induction scaled generalizing scale with
    | nil => exact ⟨le_rfl, fun _ mem => absurd mem List.not_mem_nil⟩
    | cons v scaled ih =>
      rw [List.foldl_cons, List.forall_mem_cons]
      split
      · rename_i wider
        exact ⟨wider.le.trans (ih _).1, (ih _).1, (ih _).2⟩
      · rename_i narrow
        exact ⟨(ih _).1, (Nat.le_of_not_lt narrow).trans (ih _).1, (ih _).2⟩
  exact (grows 0 scaled).2

end Count

/-- The weights are read one by one; the first that is no number ends it. -/
lemma scaledVotes_spec (votes : List GovernanceVoteRecord) :
    (∃ scaled, (votes.mapM fun vote => do return (vote.choice, ← toScaledWeight vote.weight)) = .ok scaled ∧
      counted votes = scaled.map fun v => (v.1, some v.2.value)) ∨
    ∃ message, (votes.mapM fun vote => do return (vote.choice, ← toScaledWeight vote.weight)) = .error message ∧
      Unreadable votes message := by
  induction votes with
  | nil => exact .inl ⟨[], rfl, rfl⟩
  | cons vote votes ih =>
    have spec := toScaledWeight_spec vote.weight
    rw [List.mapM_cons]
    cases value : weightValue vote.weight with
    | none =>
      rw [value] at spec
      simp only at spec
      exact .inr ⟨_, by rw [spec]; rfl, vote, List.find?_cons_of_pos (by rw [value]; rfl), rfl⟩
    | some x =>
      rw [value] at spec
      obtain ⟨w, ok, rfl⟩ := spec
      rw [ok]
      rcases ih with ⟨scaled, run, numbers⟩ | ⟨message, run, v, first, text⟩
      · refine .inl ⟨(vote.choice, w) :: scaled, by rw [run]; rfl, ?_⟩
        rw [counted, List.map_cons, value, List.map_cons, ← numbers]
        rfl
      · have readable : ¬(weightValue vote.weight).isNone = true := by
          rw [value]
          exact Bool.false_ne_true
        refine .inr ⟨message, by rw [run]; rfl, v, ?_, text⟩
        rw [List.find?_cons_of_neg (p := fun v : GovernanceVoteRecord => (weightValue v.weight).isNone) readable, first]

/-- The loop over scaled weights. -/
lemma totals_of_scaled (scaled : List (String × ScaledWeight)) {scale : ℕ} (le : ∀ v ∈ scaled, v.2.scale ≤ scale) :
    Totals (scaled.map fun v => (v.1, v.2.value))
      ⟨scaled.length, formatScaled (scaled.foldl (count scale) (0, Dict.empty)).1 scale,
        Json.Tree.ownProperties ((Js.sortedSet (scaled.foldl (count scale) (0, Dict.empty)).2.keys).filterMap
          fun choice => ((scaled.foldl (count scale) (0, Dict.empty)).2.get? choice).map fun entry =>
            (choice, ⟨entry.2, formatScaled entry.1 scale⟩))⟩ := by
  rw [count_foldl]
  simp only [zero_add]
  generalize summed : (scaled.map fun v => (v.1, (scaleUp v.2.units v.2.scale scale, 1))) = amounts
  have keys : ∀ choice, choice ∈ (Dict.tally amounts).keys ↔ choice ∈ scaled.map Prod.fst := fun choice => by
    rw [Dict.mem_keys_tally, ← summed, List.map_map]
    rfl
  refine ⟨(List.length_map _).symm, ?_, ?_, ?_⟩
  · rw [List.map_map]
    exact sum_scaleUp le ▸ shows_formatScaled _ scale
  · rw [Json.Tree.map_fst_ownProperties, List.map_filterMap, List.map_map]
    congr 1
    refine (List.filterMap_congr fun choice mem => ?_).trans List.filterMap_some |>.trans ?_
    · obtain ⟨entry, found⟩ := Dict.mem_keys_iff.1 (Js.mem_sortedSet.1 mem)
      have found' : (amounts.foldl (fun d e => d.add e.1 e.2) Dict.empty).get? choice = some entry := found
      rw [found']
      rfl
    · exact Json.Tree.sortedSet_congr keys
  · intro f mem
    obtain ⟨choice, -, shown⟩ := List.mem_filterMap.1 (Json.Tree.mem_of_mem_ownProperties mem)
    obtain ⟨entry, found, rfl⟩ := Option.map_eq_some_iff.1 shown
    have sums := Dict.getD_tally amounts choice
    have found' : (Dict.tally amounts).get? choice = some entry := found
    have filtered : (amounts.filter fun e => e.1 = choice).map Prod.snd =
        (scaled.filter fun v => v.1 = choice).map fun v => (scaleUp v.2.units v.2.scale scale, 1) := by
      rw [← summed, List.filter_map, List.map_map]
      rfl
    rw [found', Option.getD_some, filtered] at sums
    have units : entry.1 = ((scaled.filter fun v => v.1 = choice).map fun v =>
        scaleUp v.2.units v.2.scale scale).sum := by
      rw [sums, ← AddMonoidHom.coe_fst, map_list_sum, List.map_map]
      rfl
    have votes : entry.2 = (scaled.filter fun v => v.1 = choice).length := by
      rw [sums, ← AddMonoidHom.coe_snd, map_list_sum, List.map_map]
      simp [Function.comp_def]
    have values : ((scaled.map fun v => (v.1, v.2.value)).filter fun v => v.1 = choice).map Prod.snd =
        (scaled.filter fun v => v.1 = choice).map fun v => v.2.value := by
      rw [List.filter_map, List.map_map]
      rfl
    refine ⟨?_, ?_⟩
    · rw [List.countP_map, List.countP_eq_length_filter]
      exact votes
    · rw [values, ← sum_scaleUp fun v kept => le v (List.mem_filter.1 kept).1, ← units]
      exact shows_formatScaled ..

/-- A tally is that of its votes' numbers, or the message names the first weight that is none. -/
lemma computeVoteTally_spec (votes : List GovernanceVoteRecord) :
    (∃ t numbers, computeVoteTally votes = .ok t ∧ counted votes = numbers.map (fun v => (v.1, some v.2)) ∧
      Totals numbers t) ∨ ∃ message, computeVoteTally votes = .error message ∧ Unreadable votes message := by
  rcases scaledVotes_spec votes with ⟨scaled, run, numbers⟩ | ⟨message, run, first⟩
  · have length : votes.length = scaled.length := by simpa [counted] using congrArg List.length numbers
    have totals := totals_of_scaled scaled (le_scale scaled)
    rw [← length] at totals
    refine .inl ⟨_, scaled.map fun v => (v.1, v.2.value), ?_, ?_, totals⟩
    · rw [computeVoteTally, run]
      rfl
    · rw [numbers, List.map_map]
      rfl
  · refine .inr ⟨message, ?_, first⟩
    rw [computeVoteTally, run]
    rfl

/-- Where a message is, a vote has no number. -/
lemma Unreadable.not_counted {votes votes' : List GovernanceVoteRecord} {message : String}
    {numbers : List (String × ℚ)} (first : Unreadable votes message) (perm : (counted votes).Perm (counted votes')) :
    counted votes' ≠ numbers.map fun v => (v.1, some v.2) := by
  obtain ⟨vote, found, -⟩ := first
  intro all
  have mem : (vote.choice, weightValue vote.weight) ∈ counted votes :=
    List.mem_map_of_mem (List.mem_of_find?_eq_some found)
  obtain ⟨v, -, same⟩ := List.mem_map.1 (all ▸ perm.subset mem)
  have none := List.find?_some found
  rw [← (Prod.mk.inj same).2] at none
  cases none

/-- A tally fails exactly where a weight is no number, and names the first such; otherwise each choice has the exact
sum of its weights, in the shortest text, and so do all. Votes with the same choices and numbers, in any order and
however written, have the same tally. -/
theorem tally_exact (votes : List GovernanceVoteRecord) :
    (∀ message, computeVoteTally votes = .error message ↔ Unreadable votes message) ∧
      (∀ t, computeVoteTally votes = .ok t →
        ∃ numbers, counted votes = numbers.map (fun v => (v.1, some v.2)) ∧ Totals numbers t) ∧
      ∀ t votes', computeVoteTally votes = .ok t → (counted votes').Perm (counted votes) →
        computeVoteTally votes' = .ok t := by
  have spec := computeVoteTally_spec votes
  refine ⟨fun message => ⟨fun failed => ?_, fun first => ?_⟩, fun t ok => ?_, fun t votes' ok perm => ?_⟩
  · rcases spec with ⟨t, numbers, ok, -, -⟩ | ⟨message', failed', first⟩
    · rw [ok] at failed
      cases failed
    · rw [failed'] at failed
      cases failed
      exact first
  · rcases spec with ⟨t, numbers, -, all, -⟩ | ⟨message', failed, vote, found, text⟩
    · exact absurd all (first.not_counted (List.Perm.refl _))
    · obtain ⟨vote', found', text'⟩ := first
      rw [found] at found'
      cases found'
      rw [failed, text, text']
  · rcases spec with ⟨t', numbers, ok', all, totals⟩ | ⟨message', failed, -⟩
    · rw [ok'] at ok
      cases ok
      exact ⟨numbers, all, totals⟩
    · rw [failed] at ok
      cases ok
  · rcases spec with ⟨t', numbers, ok', all, totals⟩ | ⟨message', failed, -⟩
    · rw [ok'] at ok
      cases ok
      have readable (votes : List GovernanceVoteRecord) (numbers : List (String × ℚ))
          (all : counted votes = numbers.map fun v => (v.1, some v.2)) :
          numbers = (counted votes).map fun v => (v.1, v.2.getD 0) := by
        rw [all, List.map_map]
        exact (List.map_id numbers).symm
      rcases computeVoteTally_spec votes' with ⟨t', numbers', ok', all', totals'⟩ | ⟨message', failed', first⟩
      · rw [ok', totals'.unique totals]
        rw [readable votes numbers all, readable votes' numbers' all']
        exact perm.map _
      · exact absurd all (first.not_counted perm)
    · rw [failed] at ok
      cases ok

/-- The content of the snapshot. -/
def content (proposal : SnapshotProposalInput) (votes : List GovernanceVoteRecord) (generatedAt : TimeValue) :
    Except String String :=
  (buildGovernanceResultSnapshot proposal votes generatedAt).map serializeGovernanceResultSnapshot

section Order
open Std

/-- The order of code units is total. -/
lemma units_lt_iff (xs ys : List ℕ) : xs < ys ↔ ¬ys < xs ∧ xs ≠ ys := by
  refine ⟨fun lt => ⟨List.lt_asymm lt, fun same => List.lt_irrefl ys (same ▸ lt)⟩, fun ⟨notLess, ne⟩ => ?_⟩
  exact List.not_le.1 fun le => ne (List.le_antisymm (List.not_lt.1 notLess) le)

instance : TransCmp compareStrings := by
  have units : TransCmp fun x y : List ℕ => compareOfLessAndEq x y :=
    TransOrd.compareOfLessAndEq_of_lt_trans_of_lt_iff List.lt_trans units_lt_iff
  exact { eq_swap := units.eq_swap, isLE_trans := units.isLE_trans }

/-- Two texts compare as equal where they are. -/
lemma compareStrings_eq {a b : String} : compareStrings a b = .eq ↔ a = b := by
  constructor
  · intro same
    rw [compareStrings, compareOfLessAndEq] at same
    split at same
    · cases same
    · split at same
      · rename_i units
        exact Json.Tree.codeUnits_injective units
      · cases same
  · rintro rfl
    exact ReflCmp.compare_self

/-- The order of the voters. -/
def compareVoters : SnapshotVoter → SnapshotVoter → Ordering :=
  compareLex (fun a b => compareStrings a.accountId b.accountId) fun a b => compareStrings a.votedAt b.votedAt

/-- A comparison of images is transitive. -/
lemma transCmp_on {α β : Type} (f : α → β) (cmp : β → β → Ordering) [TransCmp cmp] :
    TransCmp fun a b => cmp (f a) (f b) where
  eq_swap := OrientedCmp.eq_swap
  isLE_trans := TransCmp.isLE_trans

instance : TransCmp compareVoters :=
  have := transCmp_on SnapshotVoter.accountId compareStrings
  have := transCmp_on SnapshotVoter.votedAt compareStrings
  inferInstanceAs (TransCmp (compareLex _ _))

/-- Sorting gives one order to items that are all different. -/
lemma mergeSort_congr {α : Type} {cmp : α → α → Ordering} [TransCmp cmp] {items items' : List α}
    (perm : items.Perm items') (different : ∀ a ∈ items, ∀ b ∈ items, cmp a b = .eq → a = b) :
    items.mergeSort (fun a b => (cmp a b).isLE) = items'.mergeSort fun a b => (cmp a b).isLE := by
  have swap (a b : α) : cmp b a = (cmp a b).swap := OrientedCmp.eq_swap
  have total (a b : α) : ((cmp a b).isLE || (cmp b a).isLE) = true := by
    rw [swap a b]
    cases cmp a b
    · rfl
    · rfl
    · rfl
  have trans (a b c : α) : (cmp a b).isLE → (cmp b c).isLE → (cmp a c).isLE := TransCmp.isLE_trans
  have sorted (items : List α) := List.pairwise_mergeSort trans total items
  have sorts (items : List α) := List.mergeSort_perm items fun a b => (cmp a b).isLE
  refine ((sorts items).trans (perm.trans (sorts items').symm)).eq_of_pairwise (fun a b mem mem' le ge => ?_)
    (sorted items) (sorted items')
  have same : cmp a b = .eq := by
    rw [swap a b] at ge
    cases order : cmp a b
    · rw [order] at ge
      cases ge
    · rfl
    · rw [order] at le
      cases le
  exact different a (List.mem_mergeSort.1 mem) b (perm.mem_iff.2 (List.mem_mergeSort.1 mem')) same

/-- Votes are sorted by their voters. -/
lemma normalizeVotes_eq (votes : List GovernanceVoteRecord) :
    normalizeVotes votes = (votes.map normalizeVote).mergeSort fun a b => (compareVoters a b).isLE :=
  List.map_mergeSort fun _ _ _ _ => rfl

/-- With one vote of an account, the order of the votes does not matter. -/
lemma normalizeVotes_congr {votes votes' : List GovernanceVoteRecord}
    (one : (votes.map GovernanceVoteRecord.accountId).Nodup)
    (perm : (votes.map normalizeVote).Perm (votes'.map normalizeVote)) :
    normalizeVotes votes = normalizeVotes votes' := by
  rw [normalizeVotes_eq, normalizeVotes_eq]
  have accounts : (votes.map normalizeVote).map SnapshotVoter.accountId = votes.map GovernanceVoteRecord.accountId := by
    rw [List.map_map]
    rfl
  refine mergeSort_congr perm fun a mem b mem' same => ?_
  have account : a.accountId = b.accountId := compareStrings_eq.1 (compareLex_eq_eq.1 same).1
  exact List.inj_on_of_nodup_map (accounts ▸ one) mem mem' account

end Order

section Injective
open Json Tree

/-- A time is read off its text. -/
lemma toIso_injective : Function.Injective toIso := fun t t' same => by
  have read := congrArg IsoDate.parse same
  rwa [toIso, toIso, parse_toISOString, parse_toISOString, Option.some.injEq] at read

/-- A value that may be missing is read off its tree. -/
lemma nullable_injective : Function.Injective nullable := by
  rintro (_ | s) (_ | s') same
  · rfl
  · cases same
  · cases same
  · cases same
    rfl

/-- The tally of a choice is read off its tree. -/
lemma ChoiceTally.tree_injective : Function.Injective ChoiceTally.tree := by
  rintro ⟨votes, weight⟩ ⟨votes', weight'⟩ same
  simp only [tree, Tree.object.injEq, List.cons.injEq, Prod.mk.injEq, Tree.number.injEq, Tree.string.injEq, true_and,
    and_true, natLiteral_injective.eq_iff] at same
  rw [same.1, same.2]

/-- The tally of a vote is read off its tree. -/
lemma VoteTally.tree_injective : Function.Injective VoteTally.tree := by
  rintro ⟨voters, weight, byChoice⟩ ⟨voters', weight', byChoice'⟩ same
  simp only [tree, Tree.object.injEq, List.cons.injEq, Prod.mk.injEq, Tree.number.injEq, Tree.string.injEq, true_and,
    and_true, natLiteral_injective.eq_iff] at same
  have fields : Function.Injective fun f : String × ChoiceTally => (f.1, f.2.tree) :=
    fun f g here => Prod.ext (Prod.mk.inj here).1 (ChoiceTally.tree_injective (Prod.mk.inj here).2)
  rw [same.1, same.2.1, List.map_injective_iff.2 fields same.2.2]

/-- A voter is read off its tree. -/
lemma SnapshotVoter.tree_injective : Function.Injective SnapshotVoter.tree := by
  rintro ⟨accountId, choice, weight, votedAt, txHash⟩ ⟨_, _, _, _, _⟩ same
  simp only [tree, Tree.object.injEq, List.cons.injEq, Prod.mk.injEq, Tree.string.injEq, true_and, and_true,
    nullable_injective.eq_iff] at same
  obtain ⟨rfl, rfl, rfl, rfl, rfl⟩ := same
  rfl

/-- A proposal is read off its tree. -/
lemma SnapshotProposal.tree_injective : Function.Injective SnapshotProposal.tree := by
  rintro ⟨_, _, _, _, _, _, _, _, _, _⟩ ⟨_, _, _, _, _, _, _, _, _, _⟩ same
  simp only [tree, Tree.object.injEq, List.cons.injEq, Prod.mk.injEq, Tree.string.injEq, true_and, and_true,
    nullable_injective.eq_iff] at same
  obtain ⟨rfl, rfl, rfl, rfl, rfl, rfl, rfl, rfl, rfl, rfl⟩ := same
  rfl

/-- A text is of one snapshot only. -/
lemma serialize_injective : Function.Injective serializeGovernanceResultSnapshot := by
  rintro ⟨_, _, _, _, _, _⟩ ⟨_, _, _, _, _, _⟩ same
  have trees := print_injective (String.ofList_injective same)
  simp only [GovernanceResultSnapshot.tree, Tree.object.injEq, List.cons.injEq, Prod.mk.injEq, Tree.string.injEq,
    Tree.number.injEq, Tree.array.injEq, true_and, and_true, natLiteral_injective.eq_iff,
    SnapshotProposal.tree_injective.eq_iff, VoteTally.tree_injective.eq_iff,
    (List.map_injective_iff.2 SnapshotVoter.tree_injective).eq_iff] at trees
  obtain ⟨rfl, rfl, rfl, rfl, rfl, rfl⟩ := trees
  rfl

/-- Proposals that normalise alike are the same. -/
lemma normalizeProposal_injective : Function.Injective normalizeProposal := by
  rintro ⟨_, _, _, _, _, _, _, _, _, _⟩ ⟨_, _, _, _, _, _, _, _, _, _⟩ same
  simp only [normalizeProposal, SnapshotProposal.mk.injEq, toIso_injective.eq_iff,
    (Option.map_injective toIso_injective).eq_iff] at same
  obtain ⟨rfl, rfl, rfl, rfl, rfl, rfl, rfl, rfl, rfl, rfl⟩ := same
  rfl

end Injective

/-- Votes that are written the same count the same. -/
lemma counted_perm {votes votes' : List GovernanceVoteRecord}
    (perm : (votes.map normalizeVote).Perm (votes'.map normalizeVote)) : (counted votes).Perm (counted votes') := by
  have trimmed (votes : List GovernanceVoteRecord) : counted votes =
      (votes.map normalizeVote).map fun v => (v.choice, (scanLiteral v.weight.toList).map Literal.value) := by
    rw [List.map_map]
    rfl
  rw [trimmed, trimmed]
  exact perm.map _

/-- Where each account has voted once, the content is a canonical form of the result: other data have this content if
and only if the proposal, the date and the set of votes are the same, in whatever order the votes come. -/
theorem content_canonical {proposal proposal' : SnapshotProposalInput} {votes votes' : List GovernanceVoteRecord}
    {generatedAt generatedAt' : TimeValue} {text : String} (one : (votes.map GovernanceVoteRecord.accountId).Nodup)
    (written : content proposal votes generatedAt = .ok text) :
    content proposal' votes' generatedAt' = .ok text ↔
      proposal' = proposal ∧ generatedAt' = generatedAt ∧ (votes'.map normalizeVote).Perm (votes.map normalizeVote) := by
  obtain ⟨t, counts⟩ : ∃ t, computeVoteTally votes = .ok t := by
    cases counts : computeVoteTally votes with
    | ok t => exact ⟨t, rfl⟩
    | error message =>
      rw [content, buildGovernanceResultSnapshot, counts] at written
      cases written
  have built : buildGovernanceResultSnapshot proposal votes generatedAt = .ok ⟨RESULT_SNAPSHOT_SCHEMA,
      RESULT_SNAPSHOT_VERSION, toIso generatedAt, normalizeProposal proposal, t, normalizeVotes votes⟩ := by
    rw [buildGovernanceResultSnapshot, counts]
    rfl
  rw [content, built] at written
  constructor
  · intro written'
    cases counts' : computeVoteTally votes' with
    | error message =>
      rw [content, buildGovernanceResultSnapshot, counts'] at written'
      cases written'
    | ok t' =>
      rw [content, buildGovernanceResultSnapshot, counts'] at written'
      have same := serialize_injective (Except.ok.inj (written'.trans written.symm))
      rw [GovernanceResultSnapshot.mk.injEq] at same
      obtain ⟨-, -, dates, proposals, -, voters⟩ := same
      refine ⟨normalizeProposal_injective proposals, toIso_injective dates, ?_⟩
      rw [normalizeVotes_eq, normalizeVotes_eq] at voters
      exact ((List.mergeSort_perm _ _).symm.trans (List.Perm.of_eq voters)).trans (List.mergeSort_perm _ _)
  · rintro ⟨rfl, rfl, perm⟩
    have counts' := (tally_exact votes).2.2 t votes' counts (counted_perm perm)
    rw [content, buildGovernanceResultSnapshot, counts', ← written, normalizeVotes_congr one perm.symm]
    rfl

def epoch : TimeValue := ⟨0, by decide⟩

def sampleProposal : SnapshotProposalInput :=
  ⟨"42", "C", none, none, "Executed", epoch, none, some epoch, none, none⟩

def sampleVotes : List GovernanceVoteRecord :=
  [⟨"B", "For", "10.5", epoch, none⟩, ⟨"A", "For", "2.5e-1", epoch, none⟩, ⟨"C", "7", "-0.50", epoch, none⟩]

example : weightValue "2.5e-1" = some (1 / 4) := by decide +kernel

/-- Two votes in both orders. -/
theorem content_canonical_sample : ∃ text, content sampleProposal sampleVotes epoch = .ok text ∧
    content sampleProposal sampleVotes.reverse epoch = .ok text := by
  rcases computeVoteTally_spec sampleVotes with ⟨t, numbers, counts, -, -⟩ | ⟨message, -, vote, found, -⟩
  · have written : content sampleProposal sampleVotes epoch = .ok (serializeGovernanceResultSnapshot
        ⟨RESULT_SNAPSHOT_SCHEMA, RESULT_SNAPSHOT_VERSION, toIso epoch, normalizeProposal sampleProposal, t,
          normalizeVotes sampleVotes⟩) := by
      rw [content, buildGovernanceResultSnapshot, counts]
      rfl
    exact ⟨_, written, (content_canonical (by decide) written).2 ⟨rfl, rfl, (List.reverse_perm _).map _⟩⟩
  · have readable : (sampleVotes.find? fun v => (weightValue v.weight).isNone) = none := by decide +kernel
    rw [readable] at found
    cases found

end StellarFlow.GovernanceResult
