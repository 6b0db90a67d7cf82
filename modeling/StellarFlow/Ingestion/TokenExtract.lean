import Mathlib.Data.List.Induction
import StellarFlow.Lib.Memory

/-!
# Tokens of a stream of lines

Model of `TokenExtractBuffer` in `src/ingestion/tokenExtractBuffer.ts`. `buf.toString("utf8", …)` is the parameter
`utf8`; a generator that the caller exhausts is the list of what it yields. A chunk is scanned behind the bytes that
the chunk before it has left over, by positions; `readByte` is the same scan by bytes, which keeps the bytes of the
line so far. Since the bytes left over end no line and are not too many, scanning them again changes nothing, and the
tokens do not depend on how the stream is cut into chunks.
-/

namespace StellarFlow.Ingestion.TokenExtractBuffer
open Memory

/-- `NEWLINE`. -/
def newline : UInt8 := 0x0a

/-- `CARRIAGE_RETURN`. -/
def carriageReturn : UInt8 := 0x0d

structure TokenExtractOptions where
  tokenDelimiters : List UInt8 := [0x20, 0x09]
  maxLineBytes : ℕ := 65536
  skipEmpty : Bool := true

variable (utf8 : List UInt8 → String) (options : TokenExtractOptions)

/-- One turn of the loop of `_tokenize`, on the tokens and `tokenStart`. -/
def tokenizeStep (buf : List UInt8) (stop : ℕ) (acc : List String × Option ℕ) (i : ℕ) : List String × Option ℕ :=
  let isDelim := i = stop || (buf[i]?).any fun b => b ∈ options.tokenDelimiters
  match acc with
  | (tokens, none) => if isDelim then (tokens, none) else (tokens, some i)
  | (tokens, some tokenStart) =>
    if isDelim then
      let token := utf8 (slice buf tokenStart (i - tokenStart))
      (if !options.skipEmpty || token ≠ "" then tokens ++ [token] else tokens, none)
    else (tokens, some tokenStart)

/-- `_tokenize`. -/
def tokenize (buf : List UInt8) (start stop : ℕ) : List String :=
  ((List.range' start (stop - start + 1)).foldl (tokenizeStep utf8 options buf stop) ([], none)).1

/-- `if (tokens.length > 0) yield tokens`. -/
def yieldTokens (tokens : List String) : List (List String) := if tokens = [] then [] else [tokens]

/-- One turn of the loop of `feed`, on what was yielded and `lineStart`. -/
def feedStep (data : List UInt8) (acc : List (List String) × ℕ) (i : ℕ) : List (List String) × ℕ :=
  let acc :=
    if data[i]? = some newline then
      let lineEnd := if acc.2 < i ∧ data[i - 1]? = some carriageReturn then i - 1 else i
      (if acc.2 < lineEnd then acc.1 ++ yieldTokens (tokenize utf8 options data acc.2 lineEnd) else acc.1, i + 1)
    else acc
  if acc.2 + options.maxLineBytes ≤ i then
    (acc.1 ++ yieldTokens (tokenize utf8 options data acc.2 (i + 1)), i + 1)
  else acc

/-- `feed`: what it yields, and the new tail. -/
def feed (tail chunk : List UInt8) : List (List String) × List UInt8 :=
  let data := tail ++ chunk
  let scanned := (List.range data.length).foldl (feedStep utf8 options data) ([], 0)
  (scanned.1, data.drop scanned.2)

/-- `flush`. -/
def flush (tail : List UInt8) : List (List String) := yieldTokens (tokenize utf8 options tail 0 tail.length)

/-- The chunks fed one after the other: all that is yielded, and the tail. -/
def feedAll (chunks : List (List UInt8)) : List (List String) × List UInt8 :=
  chunks.foldl (fun acc chunk =>
    let fed := feed utf8 options acc.2 chunk
    (acc.1 ++ fed.1, fed.2)) ([], [])

/-- All that is yielded when the chunks are fed and the buffer is flushed. -/
def extract (chunks : List (List UInt8)) : List (List String) :=
  (feedAll utf8 options chunks).1 ++ flush utf8 options (feedAll utf8 options chunks).2

/-- What is yielded for the bytes of a line. -/
def lineTokens (line : List UInt8) : List (List String) := yieldTokens (tokenize utf8 options line 0 line.length)

/-- The line without a carriage return at its end. -/
def trimmed (line : List UInt8) : List UInt8 :=
  if line.getLast? = some carriageReturn then line.dropLast else line

/-- One byte, after the bytes of the line so far. -/
def readByte (acc : List (List String) × List UInt8) (b : UInt8) : List (List String) × List UInt8 :=
  if b = newline then (acc.1 ++ lineTokens utf8 options (trimmed acc.2), [])
  else if options.maxLineBytes ≤ acc.2.length then (acc.1 ++ lineTokens utf8 options (acc.2 ++ [b]), [])
  else (acc.1, acc.2 ++ [b])

variable {utf8 options} {buf data line tail : List UInt8} {start stop : ℕ}

/-- The tokens of a range are those of its bytes. -/
lemma tokenize_slice (le : start ≤ stop) : tokenize utf8 options buf start stop =
    tokenize utf8 options (slice buf start (stop - start)) 0 (stop - start) := by
  -- a token begins at the same place of the slice
  have run : ∀ k ≤ stop - start + 1,
      (List.range' start k).foldl (tokenizeStep utf8 options buf stop) ([], none) =
        Prod.map id (Option.map (start + ·)) ((List.range' 0 k).foldl
          (tokenizeStep utf8 options (slice buf start (stop - start)) (stop - start)) ([], none)) := by
    intro k
    induction k with
    | zero => exact fun _ => rfl
    | succ k ih =>
      intro le'
      have before := ih (Nat.le_of_succ_le le')
      rw [List.range'_1_concat, List.range'_1_concat, List.foldl_append, List.foldl_append, before]
      rw [List.foldl_cons, List.foldl_nil, List.foldl_cons, List.foldl_nil, Nat.zero_add]
      generalize (List.range' 0 k).foldl _ _ = acc
      have isDelim : (decide (start + k = stop) || (buf[start + k]?).any fun b => b ∈ options.tokenDelimiters) =
          (decide (k = stop - start) ||
            ((slice buf start (stop - start))[k]?).any fun b => b ∈ options.tokenDelimiters) := by
        rw [getElem?_slice]
        by_cases last : k = stop - start
        · rw [decide_eq_true last, decide_eq_true (by omega : start + k = stop)]
          rfl
        · rw [decide_eq_false last, decide_eq_false (by omega : ¬start + k = stop), if_pos (by omega)]
      obtain ⟨tokens, tokenStart⟩ := acc
      simp only [tokenizeStep, isDelim]
      cases tokenStart with
      | none =>
        simp only [Prod.map, id, Option.map_none]
        split
        · rfl
        · rfl
      | some tokenStart =>
        have token : slice (slice buf start (stop - start)) tokenStart (k - tokenStart) =
            slice buf (start + tokenStart) (start + k - (start + tokenStart)) := by
          rw [slice_slice (by omega)]
          congr 1
          omega
        simp only [Prod.map, id, Option.map_some, token]
        split
        · rfl
        · rfl
  rw [tokenize, tokenize, run _ le_rfl]
  rfl

/-- The tokens of a stretch of the data are those of its line. -/
lemma yieldTokens_tokenize (le : start ≤ stop) (fits : stop ≤ data.length) :
    yieldTokens (tokenize utf8 options data start stop) =
      lineTokens utf8 options (slice data start (stop - start)) := by
  rw [tokenize_slice le, lineTokens, length_slice (by omega)]

/-- The line up to a newline, without a carriage return before it. -/
lemma trimmed_slice (le : start ≤ stop) (fits : stop ≤ data.length) :
    slice data start ((if start < stop ∧ data[stop - 1]? = some carriageReturn then stop - 1 else stop) - start) =
      trimmed (slice data start (stop - start)) := by
  have length : (slice data start (stop - start)).length = stop - start := length_slice (by omega)
  have last : start < stop → (slice data start (stop - start)).getLast? = data[stop - 1]? := by
    intro lt
    rw [List.getLast?_eq_getElem?, length, getElem?_slice, if_pos (by omega)]
    congr 1
    omega
  rw [trimmed]
  by_cases lt : start < stop
  · rw [last lt]
    by_cases cr : data[stop - 1]? = some carriageReturn
    · rw [if_pos ⟨lt, cr⟩, if_pos cr, List.dropLast_eq_take, length, slice, slice, List.take_take]
      congr 1
      omega
    · rw [if_neg fun both => cr both.2, if_neg cr]
  · have empty : slice data start (stop - start) = [] := by
      rw [← List.length_eq_zero_iff, length]
      omega
    rw [if_neg fun both => lt both.1, empty]
    rfl

/-- The scan by positions is the scan by bytes. -/
lemma foldl_feedStep (utf8 : List UInt8 → String) (options : TokenExtractOptions) {k : ℕ} (le : k ≤ data.length) :
    ∃ yielded lineStart, (List.range k).foldl (feedStep utf8 options data) ([], 0) = (yielded, lineStart) ∧
      lineStart ≤ k ∧
      (data.take k).foldl (readByte utf8 options) ([], []) = (yielded, slice data lineStart (k - lineStart)) := by
  induction k with
  | zero => exact ⟨[], 0, rfl, le_rfl, rfl⟩
  | succ k ih =>
    obtain ⟨yielded, lineStart, scanned, low, read⟩ := ih (Nat.le_of_succ_le le)
    have cell : data[k]? = some data[k] := List.getElem?_eq_getElem le
    have next : data.take (k + 1) = data.take k ++ [data[k]] := by
      rw [List.take_add_one, cell]
      rfl
    have length : (slice data lineStart (k - lineStart)).length = k - lineStart := length_slice (by omega)
    have longer : slice data lineStart (k + 1 - lineStart) = slice data lineStart (k - lineStart) ++ [data[k]] := by
      have more : k + 1 - lineStart = k - lineStart + 1 := by omega
      have last : (data.drop lineStart)[k - lineStart]? = some data[k] := by
        rw [List.getElem?_drop, ← cell]
        congr 1
        omega
      rw [slice, slice, more, List.take_add_one, last]
      rfl
    have empty : ∀ i, slice data i 0 = [] := fun _ => List.take_zero
    rw [List.range_succ, List.foldl_append, scanned, List.foldl_cons, List.foldl_nil, next, List.foldl_append, read,
      List.foldl_cons, List.foldl_nil, feedStep, readByte, cell]
    by_cases ends : data[k] = newline
    · -- the cap does not apply behind the newline
      rw [if_pos (congrArg some ends), if_pos ends, if_neg (by dsimp only; omega)]
      refine ⟨_, _, rfl, le_rfl, ?_⟩
      dsimp only
      rw [Nat.sub_self, empty, ← trimmed_slice low (Nat.le_of_succ_le le)]
      generalize bounds : (if lineStart < k ∧ data[k - 1]? = some carriageReturn then k - 1 else k) = lineEnd
      have within : lineStart ≤ lineEnd ∧ lineEnd ≤ k := by
        rw [← bounds]
        split
        · omega
        · omega
      split
      · rw [yieldTokens_tokenize within.1 (by omega)]
      · have blank : lineEnd - lineStart = 0 := by omega
        rw [blank, empty]
        exact congrArg (·, []) (List.append_nil yielded)
    -- the cap is tested with the byte just read
    · rw [if_neg fun same => ends (Option.some.inj same), if_neg ends, length]
      by_cases long : lineStart + options.maxLineBytes ≤ k
      · rw [if_pos long, if_pos (by omega)]
        refine ⟨_, _, rfl, le_rfl, ?_⟩
        dsimp only
        rw [yieldTokens_tokenize (by omega) le, ← longer, Nat.sub_self, empty]
      · rw [if_neg long, if_neg (by omega)]
        refine ⟨_, _, rfl, Nat.le_succ_of_le low, ?_⟩
        rw [longer]

/-- A call of `feed` reads the tail and the chunk byte by byte. -/
lemma feed_eq_foldl (tail chunk : List UInt8) :
    feed utf8 options tail chunk = (tail ++ chunk).foldl (readByte utf8 options) ([], []) := by
  obtain ⟨yielded, lineStart, scanned, low, read⟩ :=
    foldl_feedStep utf8 options (le_refl (tail ++ chunk).length)
  rw [List.take_length] at read
  rw [feed, scanned, read, slice, ← List.length_drop, List.take_length]

/-- What a tail is: bytes that end no line and are not too many for one. -/
def Settled (options : TokenExtractOptions) (tail : List UInt8) : Prop :=
  newline ∉ tail ∧ tail.length ≤ options.maxLineBytes

/-- The bytes of a tail are read without yielding anything. -/
lemma Settled.foldl_readByte (utf8 : List UInt8 → String) (settled : Settled options tail) :
    tail.foldl (readByte utf8 options) ([], []) = ([], tail) := by
  induction tail using List.reverseRecOn with
  | nil => rfl
  | append_singleton tail b ih =>
    obtain ⟨unended, short⟩ := settled
    rw [List.length_append, List.length_singleton] at short
    have open_ : b ≠ newline := fun same => unended (same ▸ List.mem_append_right _ List.mem_cons_self)
    rw [List.foldl_append, ih ⟨fun mem => unended (List.mem_append_left _ mem), by omega⟩, List.foldl_cons,
      List.foldl_nil, readByte, if_neg open_, if_neg (by dsimp only; omega)]

/-- A byte leaves a tail. -/
lemma Settled.readByte (settled : Settled options line) (yielded : List (List String)) (b : UInt8) :
    Settled options (readByte utf8 options (yielded, line) b).2 := by
  rw [TokenExtractBuffer.readByte]
  split
  · exact ⟨List.not_mem_nil, Nat.zero_le _⟩
  · rename_i open_
    split
    · exact ⟨List.not_mem_nil, Nat.zero_le _⟩
    · rename_i short
      refine ⟨fun mem => ?_, ?_⟩
      · rcases List.mem_append.1 mem with old | last
        · exact settled.1 old
        · exact open_ (List.mem_singleton.1 last).symm
      · rw [List.length_append, List.length_singleton]
        exact Nat.lt_of_not_le short

/-- Reading more bytes keeps what is settled. -/
lemma Settled.foldl (settled : Settled options line) (yielded : List (List String)) (bytes : List UInt8) :
    Settled options (bytes.foldl (TokenExtractBuffer.readByte utf8 options) (yielded, line)).2 := by
  induction bytes generalizing yielded line with
  | nil => exact settled
  | cons b bytes ih => exact ih (settled.readByte yielded b) _

/-- What was yielded before stays in front. -/
lemma foldl_readByte_append (yielded : List (List String)) (line bytes : List UInt8) :
    bytes.foldl (readByte utf8 options) (yielded, line) =
      (yielded ++ (bytes.foldl (readByte utf8 options) ([], line)).1,
        (bytes.foldl (readByte utf8 options) ([], line)).2) := by
  induction bytes using List.reverseRecOn with
  | nil => exact congrArg (·, line) (List.append_nil yielded).symm
  | append_singleton bytes b ih =>
    rw [List.foldl_append, List.foldl_append, ih, List.foldl_cons, List.foldl_nil, List.foldl_cons, List.foldl_nil]
    simp only [readByte]
    split
    · rw [List.append_assoc]
    · split
      · rw [List.append_assoc]
      · rfl

/-- The chunks of a stream are read like the stream. -/
lemma feedAll_eq_foldl (chunks : List (List UInt8)) :
    feedAll utf8 options chunks = chunks.flatten.foldl (readByte utf8 options) ([], []) := by
  induction chunks using List.reverseRecOn with
  | nil => rfl
  | append_singleton chunks chunk ih =>
    have settled : Settled options (feedAll utf8 options chunks).2 := by
      rw [ih]
      exact Settled.foldl ⟨List.not_mem_nil, Nat.zero_le _⟩ [] _
    -- scanning what was left over again yields nothing, so the chunk goes on where the last one stopped
    have again := settled.foldl_readByte utf8
    rw [List.flatten_append, List.foldl_append, ← ih, List.flatten_cons, List.flatten_nil, List.append_nil,
      foldl_readByte_append, feedAll, List.foldl_append, ← feedAll, List.foldl_cons, List.foldl_nil]
    dsimp only
    rw [feed_eq_foldl, List.foldl_append, again]

/-- However a stream is cut into chunks, the same tokens are yielded, and no feed leaves more than `maxLineBytes`. -/
theorem extract_eq_extract_flatten (utf8 : List UInt8 → String) (options : TokenExtractOptions)
    (chunks : List (List UInt8)) :
    extract utf8 options chunks = extract utf8 options [chunks.flatten] ∧
      ∀ pre, pre <+: chunks → (feedAll utf8 options pre).2.length ≤ options.maxLineBytes := by
  constructor
  · rw [extract, extract, feedAll_eq_foldl, feedAll_eq_foldl, List.flatten_singleton]
  · intro pre _
    rw [feedAll_eq_foldl]
    exact (Settled.foldl ⟨List.not_mem_nil, Nat.zero_le _⟩ [] _).2

end StellarFlow.Ingestion.TokenExtractBuffer
