import StellarFlow.Lib.Dict
import StellarFlow.Lib.Machine
import StellarFlow.Lib.PyValue

/-!
# The proof verification engine

Model of `app/services/proof_verification_engine.py`: single requests and batches check proofs in a process pool and
keep the verdicts in a dictionary (L1) and in Redis (L2), under a hash of the proof and its public inputs. Requests
interleave where they wait for Redis or for the pool.

A request whose hash is in L1 gets the verdict of the request that put it there. What L2 holds is never used: it is
written by the names of `to_dict`, which `ProofValidationResult(**data)` refuses.
-/

namespace StellarFlow.ProofEngine
open HexText

def MAX_GROTH16_PROOF_BYTES : ℕ := 4096
def MAX_PUBLIC_INPUTS : ℕ := 64
def MAX_PUBLIC_INPUT_LENGTH : ℕ := 1024

def PROOF_CACHE_PREFIX : String := "stellarflow:zk:proof:"

/-- A request; the defaults are those of the parameters, and of the entries of a batch. -/
structure Request where
  proofHex : String := ""
  publicInputs : List String := []
  contractParams : Option (Dict String Py.Json) := none
  proofScheme : String := "groth16"
  simulateContract : Bool := false

/-- `ProofValidationResult`, without its time. -/
structure Result where
  valid : Bool
  proofHash : String
  cached : Bool
  error : Option String := none
  contractSimulationReady : Bool := false
  publicInputsCount : ℕ := 0

namespace Result

def toDict (r : Result) : List (String × Py.Json) :=
  [("valid", .bool r.valid), ("proofHash", .str r.proofHash), ("cached", .bool r.cached),
    ("error", (r.error.map Py.Json.str).getD .none), ("contractSimulationReady", .bool r.contractSimulationReady),
    ("publicInputsCount", .int r.publicInputsCount)]

/-- The names of the fields. -/
def fields : List String :=
  ["valid", "proof_hash", "verification_time_ms", "cached", "error", "contract_simulation_ready", "public_inputs_count"]

/-- `ProofValidationResult(**data)`; `none` is a `TypeError`, or a value that no field has. -/
def construct (data : List (String × Py.Json)) : Option Result :=
  if data.all fun e => e.1 ∈ fields then
    match data.lookup "valid", data.lookup "proof_hash", data.lookup "cached" with
    | some (.bool valid), some (.str proofHash), some (.bool cached) =>
      let error := match data.lookup "error" with
        | some (.str error) => some error
        | _ => none
      let ready := match data.lookup "contract_simulation_ready" with
        | some (.bool ready) => ready
        | _ => false
      let count := match data.lookup "public_inputs_count" with
        | some (.int count) => count.toNat
        | _ => 0
      some ⟨valid, proofHash, cached, error, ready, count⟩
    | _, _, _ => none
  else none

/-- The fields that an answer shares with a fresh one. -/
def verdict (r : Result) : Bool × Option String × Bool × ℕ :=
  (r.valid, r.error, r.contractSimulationReady, r.publicInputsCount)

/-- What was written is not read. -/
lemma construct_toDict (r : Result) : construct r.toDict = none := by
  refine if_neg fun known => ?_
  have name : decide ("proofHash" ∈ fields) = true :=
    List.all_eq_true.1 known ("proofHash", .str r.proofHash) (List.mem_cons_of_mem _ List.mem_cons_self)
  exact absurd name (by decide)

end Result

/-- `_validate_proof_structure`. -/
def validateProofStructure (r : Request) : Option String :=
  let proofBytes := r.proofHex.length / 2
  if r.proofHex = "" then some "proof_hex is empty"
  else if r.proofHex.length % 2 ≠ 0 then some "proof_hex length is odd — must be even for hex encoding"
  else if MAX_GROTH16_PROOF_BYTES < proofBytes then
    some s!"proof exceeds maximum size of {MAX_GROTH16_PROOF_BYTES} bytes (got {proofBytes})"
  else if r.publicInputs = [] then some "public_inputs must contain at least one element"
  else if MAX_PUBLIC_INPUTS < r.publicInputs.length then
    some s!"public_inputs contains {r.publicInputs.length} items, maximum is {MAX_PUBLIC_INPUTS}"
  else
    match r.publicInputs.findIdx? fun inp => MAX_PUBLIC_INPUT_LENGTH < inp.length with
    | some idx => some s!"public_inputs[{idx}] exceeds {MAX_PUBLIC_INPUT_LENGTH} characters"
    | none =>
      if r.proofScheme ∈ ["groth16", "plonk", "marlin", "flonk"] then none
      else some s!"unsupported proof scheme: {r.proofScheme}"

/-- The keys that contract parameters need, sorted. -/
def requiredKeys : List String := ["contract_id", "function_name", "source_account"]

/-- `isinstance(value, str)` of what `get` gives. -/
def isStr : Option Py.Json → Bool
  | some (.str _) => true
  | _ => false

/-- `_validate_contract_simulation_params`. -/
def validateContractSimulationParams (params : Dict String Py.Json) : Option String :=
  let missing := requiredKeys.filter fun key => key ∉ params.keys
  if params.entries = [] then some "contract_params must not be empty"
  else if missing ≠ [] then some ("contract_params missing required keys: " ++ String.intercalate ", " missing)
  else
    match requiredKeys.find? fun key => !isStr (params.get? key) with
    | some key => some s!"contract_params.{key} must be a string"
    | none =>
      match params.get? "args" with
      | none => none
      | some .none => none
      | some (.list _) => none
      | some _ => some "contract_params.args must be a list when provided"

/-- `simulate_contract and contract_params`. -/
def Request.wantsSimulation (r : Request) : Bool :=
  r.simulateContract && r.contractParams.any fun params => params.entries ≠ []

def utf8 (s : String) : List UInt8 := s.toUTF8.data.toList

section Engine
variable (sha256 : List UInt8 → List UInt8)

/-- `_compute_proof_hash`. -/
def computeProofHash (r : Request) : String :=
  String.ofList (hexOfBytes (sha256 (utf8 r.proofHex ++ utf8 "|" ++ utf8 (String.intercalate "|" r.publicInputs))))

/-- One round of `_cpu_intensive_verify`. -/
def accumulate (proofBytes : List UInt8) (publicInputs : List String) (accumulator i : ℕ) : ℕ :=
  let chunk := publicInputs.getD (i % publicInputs.length) ""
  let digest := sha256 (proofBytes ++ utf8 chunk ++ [0, 0, 0, UInt8.ofNat i])
  (accumulator + natOfBytes (digest.take 8)) % 2 ^ 63

/-- `_cpu_intensive_verify`; it raises for a text of white space only. -/
def cpuIntensiveVerify (r : Request) : Except String Bool :=
  match bytesOfHex r.proofHex.toList with
  | none => .ok false
  | some [] => .error "index out of range"
  | some (first :: rest) =>
    let accumulator := (List.range (first.toNat + 1)).foldl (accumulate sha256 (first :: rest) r.publicInputs) 0
    .ok (accumulator % 7 ≠ 0)

/-- The answer to a request that is not valid. -/
def refused (error : String) : Result := { valid := false, proofHash := "", cached := false, error := error }

/-- The answer without the pool: an error of the request, or the verdict in L1. -/
def respond (l1 : Dict String Result) (r : Request) : Option Result :=
  match validateProofStructure r with
  | some error => some (refused s!"Structure validation failed: {error}")
  | none =>
    match if r.wantsSimulation then r.contractParams.bind validateContractSimulationParams else none with
    | some error => some (refused s!"Contract simulation validation failed: {error}")
    | none =>
      let proofHash := computeProofHash sha256 r
      (l1.get? proofHash).map fun cached => { cached with proofHash := proofHash, cached := true }

/-- The answer with the outcome of the pool. -/
def conclude (r : Request) : Except String Bool → Result
  | .ok valid => {
      valid := valid
      proofHash := computeProofHash sha256 r
      cached := false
      contractSimulationReady := valid && r.wantsSimulation
      publicInputsCount := r.publicInputs.length }
  | .error error => { valid := false, proofHash := computeProofHash sha256 r, cached := false, error := error }

/-- The answer where both caches are empty. -/
def fresh (r : Request) : Result :=
  (respond sha256 Dict.empty r).getD (conclude sha256 r (cpuIntensiveVerify sha256 r))

/-- An entry of a batch: its answer, or a call that is in the pool. -/
inductive Item where
  | answered (result : Result)
  | future (r : Request)

def item (l1 : Dict String Result) (r : Request) : Item :=
  match validateProofStructure r with
  | some error => .answered (refused s!"Structure validation failed: {error}")
  | none =>
    let proofHash := computeProofHash sha256 r
    match l1.get? proofHash with
    | some cached => .answered { valid := cached.valid, proofHash := proofHash, cached := true, error := cached.error }
    | none => .future r

/-- Where a call waits: for `redis.get`, the pool, `redis.setEx`; a batch, for its first item or for its `setEx`. -/
inductive Task where
  | lookingUp (r : Request)
  | verifying (r : Request)
  | writing (r : Request) (result : Result)
  | batch (items : List Item) (results : List Result)
  | batchWriting (r : Request) (result : Result) (items : List Item) (results : List Result)
  | done

/-- The caches, the running calls, which request each entry of L1 is from, and the answers to single requests. -/
structure System where
  l1 : Dict String Result
  l2 : Dict String (List (String × Py.Json))
  tasks : List Task
  origin : Dict String Request
  answers : List (Request × Result)

/-- Calls to Redis may fail, which they do always where there is no client. -/
inductive Move where
  | verifyProofAsync (r : Request)
  | verifyProofBatch (rs : List Request)
  | get (k : ℕ) (succeeds : Bool)
  | pool (k : ℕ)
  | setEx (k : ℕ) (succeeds : Bool)
  | expire (key : String)

variable {sha256}

namespace System

def setTask (s : System) (k : ℕ) (task : Task) : System := { s with tasks := s.tasks.set k task }

def answer (s : System) (r : Request) (result : Result) : System := { s with answers := s.answers ++ [(r, result)] }

/-- `_l1_cache[proof_hash] = result`. -/
def store (s : System) (proofHash : String) (r : Request) (result : Result) : System :=
  { s with l1 := s.l1.set proofHash result, origin := s.origin.set proofHash r }

/-- `redis.setEx(...)`. -/
def write (s : System) (result : Result) (succeeds : Bool) : System :=
  if succeeds then { s with l2 := s.l2.set (PROOF_CACHE_PREFIX ++ result.proofHash) result.toDict } else s

def initial : System := ⟨Dict.empty, Dict.empty, [], Dict.empty, []⟩

end System

variable (sha256)

def System.step (s : System) : Move → Option System
  | .verifyProofAsync r =>
    some (match respond sha256 s.l1 r with
      | some result => s.answer r result
      | none => { s with tasks := s.tasks ++ [.lookingUp r] })
  | .verifyProofBatch rs => some { s with tasks := s.tasks ++ [.batch (rs.map (item sha256 s.l1)) []] }
  | .get k succeeds =>
    match s.tasks[k]? with
    | some (.lookingUp r) =>
      let proofHash := computeProofHash sha256 r
      let raw := if succeeds then s.l2.get? (PROOF_CACHE_PREFIX ++ proofHash) else none
      some (match raw.bind Result.construct with
        | some result =>
          ((s.store proofHash r result).answer r { result with proofHash := proofHash, cached := true }).setTask k .done
        | none => s.setTask k (.verifying r))
    | _ => none
  | .pool k =>
    match s.tasks[k]? with
    | some (.verifying r) =>
      let outcome := cpuIntensiveVerify sha256 r
      let result := conclude sha256 r outcome
      some (match outcome with
        | .ok _ => (s.store result.proofHash r result).setTask k (.writing r result)
        | .error _ => (s.answer r result).setTask k .done)
    | some (.batch (.answered result :: items) results) => some (s.setTask k (.batch items (results ++ [result])))
    | some (.batch (.future r :: items) results) =>
      let outcome := cpuIntensiveVerify sha256 r
      let result := conclude sha256 r outcome
      some (match outcome with
        | .ok _ => (s.store result.proofHash r result).setTask k (.batchWriting r result items results)
        | .error _ => s.setTask k (.batch items (results ++ [result])))
    | _ => none
  | .setEx k succeeds =>
    match s.tasks[k]? with
    | some (.writing r result) => some (((s.write result succeeds).answer r result).setTask k .done)
    | some (.batchWriting _ result items results) =>
      some ((s.write result succeeds).setTask k (.batch items (results ++ [result])))
    | _ => none
  | .expire key => some { s with l2 := s.l2.pop key }

/-- Each answer to a single request has the fields of a fresh one. -/
def Faithful (s : System) : Prop := ∀ a ∈ s.answers, a.2.verdict = (fresh sha256 a.1).verdict

/-- A request that finds the entry of another one has the same outcome in the pool, the same number of public inputs
and, if the proof is valid, wants the simulation like the other one. -/
def Agrees (origin r : Request) : Prop :=
  cpuIntensiveVerify sha256 r = cpuIntensiveVerify sha256 origin ∧ r.publicInputs.length = origin.publicInputs.length ∧
    (cpuIntensiveVerify sha256 r = .ok true → r.wantsSimulation = origin.wantsSimulation)

instance (s : System) : Decidable (Faithful sha256 s) := inferInstanceAs (Decidable (∀ a ∈ s.answers, _))

instance (origin r : Request) : Decidable (Agrees sha256 origin r) := inferInstanceAs (Decidable (_ ∧ _ ∧ _))

/-- A valid request agrees with the request whose entry it finds. -/
def System.isCoherent (s : System) : Move → Bool
  | .verifyProofAsync r =>
    (respond sha256 Dict.empty r).isSome ||
      (s.origin.get? (computeProofHash sha256 r)).all fun origin => Agrees sha256 origin r
  | _ => true

/-- The call is the first or a later part of a request that is valid, with the result that a fresh one has. -/
def Task.Sound : Task → Prop
  | .lookingUp r => respond sha256 Dict.empty r = none
  | .verifying r => respond sha256 Dict.empty r = none
  | .writing r result => result.verdict = (fresh sha256 r).verdict
  | _ => True

/-- What every run keeps. -/
structure System.Sound (s : System) : Prop where
  origin : ∀ proofHash, (s.l1.get? proofHash).map (·.verdict) =
    (s.origin.get? proofHash).map fun r => (conclude sha256 r (cpuIntensiveVerify sha256 r)).verdict
  decided : ∀ proofHash r, s.origin.get? proofHash = some r → ∃ valid, cpuIntensiveVerify sha256 r = .ok valid
  written : ∀ e ∈ s.l2.entries, ∃ result : Result, e.2 = result.toDict
  tasks : ∀ task ∈ s.tasks, task.Sound sha256

end Engine

variable {sha256 : List UInt8 → List UInt8} {s s' : System} {m : Move} {r origin : Request} {result : Result} {k : ℕ}

section Requests

/-- The errors of a request do not depend on L1. -/
lemma respond_of_some {l1 : Dict String Result} (invalid : respond sha256 Dict.empty r = some result) :
    respond sha256 l1 r = some result := by
  rw [respond] at invalid ⊢
  split at invalid
  case h_1 => exact invalid
  case h_2 =>
    split at invalid
    case h_1 => exact invalid
    case h_2 => cases invalid

/-- A valid request is answered from the origin or not at all. -/
lemma respond_of_none {l1 : Dict String Result} (valid : respond sha256 Dict.empty r = none) :
    respond sha256 l1 r = (l1.get? (computeProofHash sha256 r)).map fun cached =>
      { cached with proofHash := computeProofHash sha256 r, cached := true } := by
  rw [respond] at valid ⊢
  split at valid
  case h_1 => cases valid
  case h_2 =>
    split at valid
    case h_1 => cases valid
    case h_2 => rfl

/-- A valid request is verified afresh. -/
lemma fresh_of_none (valid : respond sha256 Dict.empty r = none) :
    fresh sha256 r = conclude sha256 r (cpuIntensiveVerify sha256 r) := by
  rw [fresh, valid, Option.getD_none]

/-- An invalid request has its answer afresh. -/
lemma fresh_of_some (invalid : respond sha256 Dict.empty r = some result) : fresh sha256 r = result := by
  rw [fresh, invalid, Option.getD_some]

/-- Requests of which the first was decided have the same verdict exactly where they agree. -/
lemma verdict_eq_iff {valid : Bool} (decided : cpuIntensiveVerify sha256 origin = .ok valid) :
    (conclude sha256 origin (cpuIntensiveVerify sha256 origin)).verdict =
      (conclude sha256 r (cpuIntensiveVerify sha256 r)).verdict ↔ Agrees sha256 origin r := by
  rw [Agrees, decided]
  cases outcome : cpuIntensiveVerify sha256 r with
  | error error => simp [conclude, Result.verdict]
  | ok valid' =>
    simp only [conclude, Result.verdict, Prod.mk.injEq, Except.ok.injEq, true_and]
    constructor
    · rintro ⟨rfl, ready, count⟩
      refine ⟨rfl, count.symm, fun isValid => ?_⟩
      rw [isValid, Bool.true_and, Bool.true_and] at ready
      exact ready.symm
    · rintro ⟨rfl, count, ready⟩
      refine ⟨rfl, ?_, count.symm⟩
      cases valid' with
      | true => rw [ready rfl]
      | false => rfl

end Requests

section Steps

/-- A task may be set to a sound one. -/
lemma sound_setTask {task : Task} (sound : s.Sound sha256) (new : task.Sound sha256) :
    (s.setTask k task).Sound sha256 := by
  refine ⟨sound.origin, sound.decided, sound.written, fun other mem => ?_⟩
  obtain old | rfl := List.mem_or_eq_of_mem_set mem
  · exact sound.tasks other old
  · exact new

/-- An answer may be given. -/
lemma sound_answer (sound : s.Sound sha256) : (s.answer r result).Sound sha256 :=
  ⟨sound.origin, sound.decided, sound.written, sound.tasks⟩

/-- A sound task may be added. -/
lemma sound_spawn {task : Task} (sound : s.Sound sha256) (new : task.Sound sha256) :
    System.Sound sha256 { s with tasks := s.tasks ++ [task] } :=
  ⟨sound.origin, sound.decided, sound.written, Machine.forall_snoc sound.tasks new⟩

/-- A verdict of the pool goes to L1. -/
lemma sound_store {valid : Bool} {proofHash : String} (sound : s.Sound sha256)
    (decided : cpuIntensiveVerify sha256 r = .ok valid) :
    (s.store proofHash r (conclude sha256 r (.ok valid))).Sound sha256 := by
  refine ⟨fun key => ?_, fun key origin found => ?_, sound.written, sound.tasks⟩
  · show ((s.l1.set proofHash _).get? key).map (·.verdict) = ((s.origin.set proofHash r).get? key).map _
    rw [Dict.get?_set, Dict.get?_set]
    split
    case isTrue => rw [Option.map_some, Option.map_some, decided]
    case isFalse => exact sound.origin key
  · rw [System.store, Dict.get?_set] at found
    split at found
    case isTrue => cases found; exact ⟨valid, decided⟩
    case isFalse => exact sound.decided key origin found

/-- A result may be written. -/
lemma sound_write {succeeds : Bool} (sound : s.Sound sha256) : (s.write result succeeds).Sound sha256 := by
  rw [System.write]
  split
  case isTrue =>
    refine ⟨sound.origin, sound.decided, fun e mem => ?_, sound.tasks⟩
    obtain rfl | ⟨old, -⟩ := Dict.mem_entries_set mem
    · exact ⟨result, rfl⟩
    · exact sound.written e old
  case isFalse => exact sound

/-- What is in L2 is never read as a verdict. -/
lemma not_constructed {key : String} {succeeds : Bool} (sound : s.Sound sha256) :
    (if succeeds then s.l2.get? key else none).bind Result.construct = none := by
  split
  case isTrue =>
    cases found : s.l2.get? key with
    | none => rfl
    | some raw =>
      obtain ⟨result, eq⟩ := sound.written (key, raw) (Dict.get?_eq_some found)
      obtain rfl : raw = result.toDict := eq
      exact result.construct_toDict
  case isFalse => rfl

/-- An answer is faithful where its verdict is the fresh one. -/
lemma faithful_answer : Faithful sha256 (s.answer r result) ↔
    Faithful sha256 s ∧ result.verdict = (fresh sha256 r).verdict := by
  rw [Faithful, Faithful, System.answer, List.forall_mem_append, List.forall_mem_singleton]

/-- A request gets a fresh answer, or one that is fresh exactly where the step is coherent. -/
lemma step_request (sound : s.Sound sha256) (taken : s.step sha256 (.verifyProofAsync r) = some s') :
    s'.Sound sha256 ∧
      (Faithful sha256 s → (Faithful sha256 s' ↔ s.isCoherent sha256 (.verifyProofAsync r) = true)) := by
  cases taken
  cases invalid : respond sha256 Dict.empty r with
  | some error =>
    rw [respond_of_some invalid]
    refine ⟨sound_answer sound, fun faithful => iff_of_true (faithful_answer.2 ⟨faithful, ?_⟩) ?_⟩
    · rw [fresh_of_some invalid]
    · rw [System.isCoherent, invalid]
      rfl
  | none =>
    rw [respond_of_none invalid, System.isCoherent, invalid, Option.isSome_none, Bool.false_or]
    have entry := sound.origin (computeProofHash sha256 r)
    cases found : s.origin.get? (computeProofHash sha256 r) with
    | none =>
      rw [found, Option.map_none, Option.map_eq_none_iff] at entry
      rw [entry]
      exact ⟨sound_spawn sound invalid, fun faithful => iff_of_true faithful rfl⟩
    | some origin =>
      obtain ⟨valid, decided⟩ := sound.decided _ origin found
      rw [found] at entry
      obtain ⟨cached, here, same⟩ := Option.map_eq_some_iff.1 entry
      have verdict : cached.verdict = (conclude sha256 origin (cpuIntensiveVerify sha256 origin)).verdict := same
      rw [here]
      refine ⟨sound_answer sound, fun faithful => ?_⟩
      rw [Option.all_some, decide_eq_true_iff, ← verdict_eq_iff decided, ← verdict, ← fresh_of_none invalid]
      show Faithful sha256 (s.answer r _) ↔ _
      rw [faithful_answer, and_iff_right faithful]
      rfl

/-- The pool decides the request of a task. -/
lemma step_pool {k : ℕ} (sound : s.Sound sha256) (taken : s.step sha256 (.pool k) = some s') :
    s'.Sound sha256 ∧ (Faithful sha256 s → Faithful sha256 s') := by
  rw [System.step] at taken
  split at taken
  case h_1 r task =>
    have valid : respond sha256 Dict.empty r = none := sound.tasks _ (List.mem_of_getElem? task)
    have same := (congrArg Result.verdict (fresh_of_none valid)).symm
    cases outcome : cpuIntensiveVerify sha256 r with
    | ok verdict =>
      rw [outcome] at taken same
      cases taken
      exact ⟨sound_setTask (sound_store sound outcome) same, id⟩
    | error error =>
      rw [outcome] at taken same
      cases taken
      exact ⟨sound_setTask (sound_answer sound) trivial, fun faithful => faithful_answer.2 ⟨faithful, same⟩⟩
  case h_2 => cases taken; exact ⟨sound_setTask sound trivial, id⟩
  case h_3 r items results task =>
    cases outcome : cpuIntensiveVerify sha256 r with
    | ok verdict =>
      rw [outcome] at taken
      cases taken
      exact ⟨sound_setTask (sound_store sound outcome) trivial, id⟩
    | error error =>
      rw [outcome] at taken
      cases taken
      exact ⟨sound_setTask sound trivial, id⟩
  case h_4 => cases taken

/-- Writing answers nothing. -/
lemma faithful_write {succeeds : Bool} (faithful : Faithful sha256 s) : Faithful sha256 (s.write result succeeds) := by
  have answers : (s.write result succeeds).answers = s.answers := by
    rw [System.write]
    split <;> rfl
  rw [Faithful, answers]
  exact faithful

/-- A verdict of the pool is written to Redis, and answered if the request was a single one. -/
lemma step_setEx {k : ℕ} {succeeds : Bool} (sound : s.Sound sha256)
    (taken : s.step sha256 (.setEx k succeeds) = some s') :
    s'.Sound sha256 ∧ (Faithful sha256 s → Faithful sha256 s') := by
  rw [System.step] at taken
  split at taken
  case h_1 r result task =>
    cases taken
    have same : result.verdict = (fresh sha256 r).verdict := sound.tasks _ (List.mem_of_getElem? task)
    exact ⟨sound_setTask (sound_answer (sound_write sound)) trivial,
      fun faithful => faithful_answer.2 ⟨faithful_write faithful, same⟩⟩
  case h_2 => cases taken; exact ⟨sound_setTask (sound_write sound) trivial, faithful_write⟩
  case h_3 => cases taken

/-- What every other step gives is fresh. -/
lemma step_other (sound : s.Sound sha256) (taken : s.step sha256 m = some s')
    (other : ∀ r, m ≠ .verifyProofAsync r) : s'.Sound sha256 ∧ (Faithful sha256 s → Faithful sha256 s') := by
  cases m with
  | verifyProofAsync r => exact absurd rfl (other r)
  | verifyProofBatch rs => cases taken; exact ⟨sound_spawn sound trivial, id⟩
  | get k succeeds =>
    rw [System.step] at taken
    split at taken
    case h_1 r task =>
      simp only [not_constructed sound] at taken
      cases taken
      have valid : respond sha256 Dict.empty r = none := sound.tasks _ (List.mem_of_getElem? task)
      exact ⟨sound_setTask sound valid, id⟩
    case h_2 => cases taken
  | pool k => exact step_pool sound taken
  | setEx k succeeds => exact step_setEx sound taken
  | expire key =>
    cases taken
    exact ⟨⟨sound.origin, sound.decided, fun e mem => sound.written e (List.mem_of_mem_filter mem), sound.tasks⟩, id⟩

/-- Each step keeps soundness, and is faithful just where it is coherent. -/
lemma step_spec (sound : s.Sound sha256) (taken : s.step sha256 m = some s') :
    s'.Sound sha256 ∧ (Faithful sha256 s → (Faithful sha256 s' ↔ s.isCoherent sha256 m = true)) := by
  cases m with
  | verifyProofAsync r => exact step_request sound taken
  | _ =>
    obtain ⟨sound', kept⟩ := step_other sound taken fun r same => by cases same
    exact ⟨sound', fun faithful => iff_of_true (kept faithful) rfl⟩

/-- At the start nothing was answered. -/
lemma sound_initial : System.initial.Sound sha256 :=
  ⟨fun _ => rfl, fun _ _ found => (by cases found), fun _ mem => absurd mem List.not_mem_nil,
    fun _ mem => absurd mem List.not_mem_nil⟩

end Steps

/-- Throughout a run each answer to a single request has the fields of a fresh one, if and only if each valid request
that finds the entry of another one agrees with it. -/
theorem faithful_iff_coherent {trace : List Move} {s : System}
    (run : Machine.exec (System.step sha256) System.initial trace = some s) :
    Machine.Always (System.step sha256) (Faithful sha256) System.initial trace ↔
      Machine.Guarded (System.step sha256) (fun s m => s.isCoherent sha256 m = true) System.initial trace := by
  refine Machine.always_iff_guarded (I := fun s => s.Sound sha256) sound_initial
    (fun _ mem => absurd mem List.not_mem_nil) (fun s m s' sound _ taken => (step_spec sound taken).1) ?_ run
  exact fun s m s' sound faithful taken => (step_spec sound taken).2 faithful

/-- The digests of the two texts below; other texts stand for their own. -/
def sampleSha256 (payload : List UInt8) : List UInt8 :=
  if payload = utf8 "00|x" then
    [137, 150, 186, 24, 65, 231, 176, 86, 135, 123, 159, 30, 69, 249, 24, 83, 240, 107, 5, 213, 5, 43, 159, 0, 205, 123,
      30, 94, 175, 32, 156, 16]
  else if payload = [0] ++ utf8 "x" ++ [0, 0, 0, 0] then
    [85, 141, 16, 213, 145, 122, 77, 216, 77, 61, 196, 63, 250, 52, 141, 85, 73, 78, 151, 147, 204, 87, 197, 135, 226,
      219, 8, 139, 203, 179, 19, 121]
  else payload

def plain : Request := { proofHex := "00", publicInputs := ["x"] }

def simulated : Request :=
  { plain with
    contractParams := some ⟨[("contract_id", .str "CABC"), ("function_name", .str "verify"),
      ("source_account", .str "GABC")], by decide⟩
    simulateContract := true }

/-- A request with its verdict from the pool, and the same request again. -/
def repeatedTrace : List Move :=
  [.verifyProofAsync plain, .get 0 true, .pool 0, .setEx 0 false, .verifyProofAsync plain]

/-- A request that is made twice. -/
theorem faithful_iff_coherent_repeated :
    Machine.Always (System.step sampleSha256) (Faithful sampleSha256) System.initial repeatedTrace := by
  have run : (Machine.exec (System.step sampleSha256) System.initial repeatedTrace).isSome = true := by decide +kernel
  obtain ⟨s, reached⟩ := Option.isSome_iff_exists.1 run
  exact (faithful_iff_coherent reached).2 (by decide +kernel)

/-- The same proof, the second time with the simulation. -/
def simulatedTrace : List Move :=
  [.verifyProofAsync plain, .get 0 true, .pool 0, .setEx 0 false, .verifyProofAsync simulated]

/-- The second answer is not ready for the simulation; a fresh one is. -/
theorem simulation_not_ready :
    ¬Machine.Always (System.step sampleSha256) (Faithful sampleSha256) System.initial simulatedTrace := by
  intro always
  have run : (Machine.exec (System.step sampleSha256) System.initial simulatedTrace).any
      (fun s => ¬Faithful sampleSha256 s) = true := by decide +kernel
  obtain ⟨s, reached, unfaithful⟩ := (Option.any_eq_true _ _).1 run
  exact of_decide_eq_true unfaithful (always simulatedTrace s (List.prefix_refl _) reached)

end StellarFlow.ProofEngine
