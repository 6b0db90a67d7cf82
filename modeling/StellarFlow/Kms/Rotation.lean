import StellarFlow.Kms.Envelope
import StellarFlow.Lib.Machine

/-!
# The rotation of data keys

Model of `DekRotationService` in `src/services/dekRotationService.ts` over the table of relayers. Any number of calls of
`rotateRelayerDek` and of jobs of `rotateAllOverdueDeks`, of any number of services, run at once; each request to the
database or to the KMS is a step, with what follows it up to the next request. Times are in milliseconds.
-/

open Machine

namespace StellarFlow.Kms

structure Relayer where
  id : ℕ
  name : String
  encryptedPrivateKey : Option String
  encryptedDek : Option String
  dekVersion : Option ℕ
  dekEncryptedAt : Option ℕ
  dekRotationScheduledAt : Option ℕ

structure RotationResult where
  relayerId : ℕ
  relayerName : String
  success : Bool
  oldDekVersion : ℕ
  newDekVersion : ℕ
  error : Option String

structure RotationSummary where
  totalRelayers : ℕ
  rotatedCount : ℕ
  failedCount : ℕ
  skippedCount : ℕ
  results : List RotationResult

/-- `ROTATION_INTERVAL_DAYS` in milliseconds. -/
def rotationIntervalMs : ℕ := 90 * 24 * 60 * 60 * 1000

/-- `version || default`. -/
def versionOr (default : ℕ) : Option ℕ → ℕ
  | some (version + 1) => version + 1
  | _ => default

/-- `text` where it is neither null nor empty. -/
def truthy : Option String → Option String
  | some "" => none
  | text => text

/-- What the KMS answers, and the KMS's next data key with the next initialization vector: the KMS decrypts the blobs
it hands out, and `randomBytes` has the length it is asked for. -/
structure Supply (kms : KmsClient) where
  answer : DataKeyAnswer
  iv : Except String (List UInt8)
  inverts : kms.Inverts answer
  ivLen : ∀ bytes, iv = .ok bytes → bytes.length = ivLength

/-- Where a call of `rotateRelayerDek` is: before `findUnique`, before the KMS decrypts the old DEK, before it generates
the new one, before `update`, or at its end. -/
inductive RotationPoint where
  | find
  | decrypt (relayer : Relayer) (data : EncryptedData)
  | generate (relayer : Relayer) (oldVersion : ℕ) (plaintext : String)
  | update (relayer : Relayer) (oldVersion : ℕ) (rotated : EncryptedData)
  | returned (result : RotationResult)
  | rejected (message : String)

structure RotationCall where
  relayerId : ℕ
  point : RotationPoint

/-- What a call's request comes to: the row is read, there is no envelope service, the KMS decrypts or is out of reach,
it supplies a data key, the row is updated at a time, or the database fails. -/
inductive RotationEvent (kms : KmsClient) where
  | read
  | noService (message : String)
  | kmsDecrypt (outage : Option String)
  | dataKey (supply : Supply kms)
  | write (now : ℕ)
  | dbError (message : String)

structure JobOptions where
  dryRun : Bool
  maxRelayers : ℕ

/-- Where a job is: before the test of `isRotating`, before `findMany`, before the next relayer, in its rotation, or at
its end. -/
inductive JobPoint where
  | entry
  | finding
  | rotating (remaining : List ℕ) (results : List RotationResult)
  | awaiting (call : ℕ) (remaining : List ℕ) (results : List RotationResult)
  | returned (summary : RotationSummary)
  | rejected (message : String)

structure Job where
  service : ℕ
  options : JobOptions
  point : JobPoint

inductive JobEvent where
  | proceed
  | found (now : ℕ) (ids : List ℕ)
  | dbError (message : String)

/-- The table, the calls and the jobs, and which services are rotating. -/
structure RotationSystem where
  relayers : List Relayer
  calls : List RotationCall
  jobs : List Job
  isRotating : ℕ → Bool

inductive RotationMove (kms : KmsClient) where
  | rotateRelayerDek (relayerId : ℕ)
  | rotateAllOverdueDeks (service : ℕ) (options : JobOptions)
  | advance (call : ℕ) (event : RotationEvent kms)
  | proceed (job : ℕ) (event : JobEvent)

def findUnique (relayers : List Relayer) (id : ℕ) : Option Relayer :=
  relayers.find? (·.id = id)

/-- `relayer.update` of the row with this id. -/
def updateRow (relayers : List Relayer) (id : ℕ) (f : Relayer → Relayer) : List Relayer :=
  relayers.map fun relayer => if relayer.id = id then f relayer else relayer

/-- What `catch` returns in `rotateRelayerDek`. -/
def failedResult (relayer : Relayer) (message : String) : RotationResult :=
  { relayerId := relayer.id
    relayerName := relayer.name
    success := false
    oldDekVersion := versionOr 0 relayer.dekVersion
    newDekVersion := versionOr 0 relayer.dekVersion
    error := some message }

/-- `rotateRelayerDek` after `findUnique`. -/
def onRead (relayerId : ℕ) : Option Relayer → RotationPoint
  | none =>
    .returned
      { relayerId, relayerName := "Unknown", success := false, oldDekVersion := 0, newDekVersion := 0
        error := some "Relayer not found" }
  | some relayer =>
    match truthy relayer.encryptedPrivateKey, truthy relayer.encryptedDek with
    | some ciphertext, some encryptedDek =>
      .decrypt relayer { ciphertext, encryptedDek, dekVersion := versionOr 1 relayer.dekVersion }
    | _, _ =>
      .returned
        { relayerId
          relayerName := relayer.name
          success := false
          oldDekVersion := versionOr 0 relayer.dekVersion
          newDekVersion := versionOr 0 relayer.dekVersion
          error := some "No encrypted key data found" }

/-- The row as `update` writes it. -/
def rotatedRow (rotated : EncryptedData) (newVersion now : ℕ) (relayer : Relayer) : Relayer :=
  { relayer with
    encryptedPrivateKey := some rotated.ciphertext
    encryptedDek := some rotated.encryptedDek
    dekVersion := some newVersion
    dekEncryptedAt := some now
    dekRotationScheduledAt := some (now + rotationIntervalMs) }

variable (crypto : Crypto) (kms : KmsClient)

/-- The answer of the KMS when it is asked for the DEK of the data, or is out of reach. -/
def dekAnswerOr (data : EncryptedData) : Option String → Except String (Option (List UInt8))
  | some outage => .error outage
  | none => dekAnswer kms data

/-- The next section of a call: its next point, and the table where it writes. -/
def RotationCall.next (relayers : List Relayer) (call : RotationCall) (event : RotationEvent kms) :
    Option (RotationPoint × Option (List Relayer)) :=
  match call.point, event with
  | .find, .read => some (onRead call.relayerId (findUnique relayers call.relayerId), none)
  | .find, .dbError message => some (.rejected message, none)
  | .decrypt relayer _, .noService message => some (.returned (failedResult relayer message), none)
  | .decrypt relayer data, .kmsDecrypt outage =>
    match decryptOn crypto data (dekAnswerOr kms data outage) with
    | .ok plaintext => some (.generate relayer data.dekVersion plaintext, none)
    | .error failure => some (.returned (failedResult relayer failure.message), none)
  | .generate relayer oldVersion plaintext, .dataKey supply =>
    match encrypt crypto plaintext (oldVersion + 1) supply.answer supply.iv with
    | .ok rotated => some (.update relayer oldVersion rotated, none)
    | .error failure => some (.returned (failedResult relayer failure.message), none)
  | .update relayer oldVersion rotated, .write now =>
    if (findUnique relayers relayer.id).isSome then
      some
        (.returned
          { relayerId := relayer.id
            relayerName := relayer.name
            success := true
            oldDekVersion := oldVersion
            newDekVersion := oldVersion + 1
            error := none },
          some (updateRow relayers relayer.id (rotatedRow rotated (oldVersion + 1) now)))
    else none
  | .update relayer _ _, .dbError message => some (.returned (failedResult relayer message), none)
  | _, _ => none

/-- The filter of `findRelayersNeedingRotation`. -/
def needsRotation (now : ℕ) (relayer : Relayer) : Bool :=
  relayer.encryptedPrivateKey.isSome && relayer.encryptedDek.isSome &&
    (relayer.dekRotationScheduledAt.any (· ≤ now) ||
      (relayer.dekRotationScheduledAt.isNone && relayer.dekEncryptedAt.any (· + rotationIntervalMs ≤ now)))

namespace RotationSystem
variable (s : RotationSystem)

/-- The summary of a job that has these results. -/
def summary (results : List RotationResult) : RotationSummary :=
  { totalRelayers := results.length
    rotatedCount := results.countP (·.success)
    failedCount := results.countP (!·.success)
    skippedCount := 0
    results }

/-- The job ends, and its service is not rotating any more. -/
def endJob (j : ℕ) (job : Job) (point : JobPoint) : RotationSystem :=
  { s with
    jobs := s.jobs.set j { job with point }
    isRotating := fun service => if service = job.service then false else s.isRotating service }

/-- `rotateAllOverdueDeks` after `findRelayersNeedingRotation`. -/
def onFound (j : ℕ) (job : Job) (ids : List ℕ) : RotationSystem :=
  let toRotate := if job.options.maxRelayers ≠ 0 then ids.take job.options.maxRelayers else ids
  let total := toRotate.length
  if total = 0 then s.endJob j job (.returned (summary []))
  else if job.options.dryRun then
    s.endJob j job (.returned
      { totalRelayers := total, rotatedCount := 0, failedCount := 0, skippedCount := total, results := [] })
  else { s with jobs := s.jobs.set j { job with point := .rotating toRotate [] } }

/-- The next section of job `j`. -/
def proceed (j : ℕ) (event : JobEvent) : Option RotationSystem := do
  let job ← s.jobs[j]?
  match job.point, event with
  | .entry, .proceed =>
    if s.isRotating job.service then
      some { s with jobs := s.jobs.set j { job with point := .returned (summary []) } }
    else
      some { s with
        jobs := s.jobs.set j { job with point := .finding }
        isRotating := fun service => if service = job.service then true else s.isRotating service }
  | .finding, .found now ids =>
    if ids.isPerm ((s.relayers.filter (needsRotation now)).map (·.id)) then some (s.onFound j job ids) else none
  | .finding, .dbError message => some (s.endJob j job (.rejected message))
  | .rotating [] results, .proceed => some (s.endJob j job (.returned (summary results)))
  | .rotating (id :: remaining) results, .proceed =>
    some { s with
      jobs := s.jobs.set j { job with point := .awaiting s.calls.length remaining results }
      calls := s.calls ++ [{ relayerId := id, point := .find }] }
  | .awaiting call remaining results, .proceed => do
    let call ← s.calls[call]?
    match call.point with
    | .returned result =>
      some { s with jobs := s.jobs.set j { job with point := .rotating remaining (results ++ [result]) } }
    | .rejected message => some (s.endJob j job (.rejected message))
    | _ => none
  | _, _ => none

def step : RotationMove kms → Option RotationSystem
  | .rotateRelayerDek relayerId => some { s with calls := s.calls ++ [{ relayerId, point := .find }] }
  | .rotateAllOverdueDeks service options =>
    some { s with jobs := s.jobs ++ [{ service, options, point := .entry }] }
  | .advance k event => do
    let call ← s.calls[k]?
    let (point, written) ← call.next crypto kms s.relayers event
    some { s with
      calls := s.calls.set k { call with point }
      relayers := written.getD s.relayers }
  | .proceed j event => s.proceed j event

end RotationSystem

/-! ## The key survives -/

/-- The stored pair of the relayer decrypts to the key. -/
def Stored (relayers : List Relayer) (id : ℕ) (key : String) : Prop :=
  ∃ relayer ciphertext encryptedDek, findUnique relayers id = some relayer ∧
    relayer.encryptedPrivateKey = some ciphertext ∧ relayer.encryptedDek = some encryptedDek ∧
      ∀ dekVersion, decrypt crypto kms { ciphertext, encryptedDek, dekVersion } = .ok key

/-- What a call on the way to rotate the relayer's key holds is the key, or decrypts to it. -/
def RotationPoint.Carries (id : ℕ) (key : String) : RotationPoint → Prop
  | .decrypt relayer data => relayer.id = id → Kms.decrypt crypto kms data = .ok key
  | .generate relayer _ plaintext => relayer.id = id → plaintext = key
  | .update relayer _ rotated => relayer.id = id → Kms.decrypt crypto kms rotated = .ok key
  | .find | .returned _ | .rejected _ => True

variable {crypto} {kms} {relayers : List Relayer} {id : ℕ} {key : String}

/-- A row is found under its id. -/
lemma id_of_findUnique {relayer : Relayer} (found : findUnique relayers id = some relayer) : relayer.id = id := by
  simpa using List.find?_some found

/-- The version does not matter to the decryption. -/
lemma decrypt_congr {data data' : EncryptedData} (ciphertext : data.ciphertext = data'.ciphertext)
    (encryptedDek : data.encryptedDek = data'.encryptedDek) : decrypt crypto kms data = decrypt crypto kms data' := by
  rw [decrypt, decrypt, decryptOn, decryptOn, dekAnswer, dekAnswer, ciphertext, encryptedDek]

/-- An update changes the row of one relayer. -/
lemma findUnique_updateRow (other : ℕ) {f : Relayer → Relayer} (same : ∀ relayer, (f relayer).id = relayer.id) :
    findUnique (updateRow relayers other f) id =
      (findUnique relayers id).map fun relayer => if relayer.id = other then f relayer else relayer := by
  rw [findUnique, updateRow, List.find?_map]
  have pred : ((fun relayer : Relayer => decide (relayer.id = id)) ∘ fun relayer =>
      if relayer.id = other then f relayer else relayer) = fun relayer => decide (relayer.id = id) := by
    funext relayer
    rw [Function.comp_apply]
    split
    · rw [same]
    · rfl
  rw [pred]
  rfl

/-- A text that is truthy is there. -/
lemma truthy_eq_some {text : Option String} {t : String} (found : truthy text = some t) : text = some t := by
  unfold truthy at found
  split at found
  · cases found
  · exact found

/-- What is read of a stored key decrypts to it. -/
lemma carries_onRead (stored : Stored crypto kms relayers id key) (relayerId : ℕ) :
    (onRead relayerId (findUnique relayers relayerId)).Carries crypto kms id key := by
  obtain ⟨relayer, ciphertext, encryptedDek, found, private_, dek, decrypts⟩ := stored
  cases read : findUnique relayers relayerId with
  | none => trivial
  | some other =>
    rw [onRead]
    split
    · rename_i c d private' dek'
      intro same
      -- the row that was read is the relayer's
      have mine := id_of_findUnique read
      rw [← mine, same, found] at read
      cases read
      cases private_.symm.trans (truthy_eq_some private')
      cases dek.symm.trans (truthy_eq_some dek')
      exact decrypts _
    · trivial

/-- The KMS decrypts the DEK of the data, or the call fails. -/
lemma carries_kmsDecrypt {relayer : Relayer} {data : EncryptedData} (outage : Option String)
    (carries : (RotationPoint.decrypt relayer data).Carries crypto kms id key) {plaintext : String}
    (decrypted : decryptOn crypto data (dekAnswerOr kms data outage) = .ok plaintext) (oldVersion : ℕ) :
    (RotationPoint.generate relayer oldVersion plaintext).Carries crypto kms id key := by
  intro same
  cases outage with
  | some message => cases decrypted
  | none =>
    have real : decrypt crypto kms data = .ok key := carries same
    exact Except.ok.inj (decrypted.symm.trans real)

/-- The table after the update of a row with a pair that decrypts to the relayer's key. -/
lemma stored_updateRow (stored : Stored crypto kms relayers id key) {relayer : Relayer} {oldVersion : ℕ}
    {rotated : EncryptedData} (carries : (RotationPoint.update relayer oldVersion rotated).Carries crypto kms id key)
    (newVersion now : ℕ) :
    Stored crypto kms (updateRow relayers relayer.id (rotatedRow rotated newVersion now)) id key := by
  obtain ⟨row, ciphertext, encryptedDek, found, private_, dek, decrypts⟩ := stored
  have updated := @findUnique_updateRow relayers id relayer.id (rotatedRow rotated newVersion now) fun _ => rfl
  rw [found, Option.map_some] at updated
  by_cases same : row.id = relayer.id
  · rw [if_pos same] at updated
    refine ⟨_, rotated.ciphertext, rotated.encryptedDek, updated, rfl, rfl, fun dekVersion => ?_⟩
    rw [← carries (same.symm.trans (id_of_findUnique found))]
    exact decrypt_congr rfl rfl
  · rw [if_neg same] at updated
    exact ⟨row, ciphertext, encryptedDek, updated, private_, dek, decrypts⟩

/-- A section of a call: what it holds still is the key, and it writes only a pair that decrypts to the key. -/
lemma RotationCall.next_stored (lawful : crypto.Lawful) {call : RotationCall} {event : RotationEvent kms}
    {point : RotationPoint} {written : Option (List Relayer)} (stored : Stored crypto kms relayers id key)
    (carries : call.point.Carries crypto kms id key)
    (next : call.next crypto kms relayers event = some (point, written)) :
    point.Carries crypto kms id key ∧ Stored crypto kms (written.getD relayers) id key := by
  unfold RotationCall.next at next
  split at next
  · cases next
    exact ⟨carries_onRead stored _, stored⟩
  · cases next
    exact ⟨trivial, stored⟩
  · cases next
    exact ⟨trivial, stored⟩
  · rename_i relayer data outage at_
    rw [at_] at carries
    split at next
    · rename_i decrypted
      cases next
      exact ⟨carries_kmsDecrypt outage carries decrypted _, stored⟩
    · cases next
      exact ⟨trivial, stored⟩
  · rename_i relayer oldVersion plaintext supply at_
    rw [at_] at carries
    split at next
    · rename_i rotated made
      cases next
      refine ⟨fun same => ?_, stored⟩
      rw [← carries same]
      exact decrypt_encrypt lawful supply.inverts supply.ivLen made
    · cases next
      exact ⟨trivial, stored⟩
  · rename_i relayer oldVersion rotated now at_
    rw [at_] at carries
    split at next
    · cases next
      exact ⟨trivial, stored_updateRow stored carries _ _⟩
    · cases next
  · cases next
    exact ⟨trivial, stored⟩
  · cases next

/-- A call writes at its success only. -/
lemma RotationCall.next_written {call : RotationCall} {event : RotationEvent kms} {point : RotationPoint}
    {written : Option (List Relayer)} (next : call.next crypto kms relayers event = some (point, written)) :
    written = none ∨ ∃ result, point = .returned result ∧ result.success = true := by
  unfold RotationCall.next at next
  split at next
  · cases next
    exact .inl rfl
  · cases next
    exact .inl rfl
  · cases next
    exact .inl rfl
  · split at next <;> (cases next; exact .inl rfl)
  · split at next <;> (cases next; exact .inl rfl)
  · split at next
    · cases next
      exact .inr ⟨_, rfl, rfl⟩
    · cases next
  · cases next
    exact .inl rfl
  · cases next

/-- A call that returned stays so. -/
lemma RotationCall.next_returned {call : RotationCall} {event : RotationEvent kms} {result : RotationResult}
    (returned : call.point = .returned result) : call.next crypto kms relayers event = none := by
  obtain ⟨relayerId, point⟩ := call
  cases returned
  rfl

namespace RotationSystem
variable {s t : RotationSystem}

/-- Taking up a job changes neither the rows nor the calls. -/
lemma onFound_frame (j : ℕ) (job : Job) (ids : List ℕ) :
    (s.onFound j job ids).relayers = s.relayers ∧ (s.onFound j job ids).calls = s.calls := by
  unfold onFound
  generalize (if job.options.maxRelayers ≠ 0 then ids.take job.options.maxRelayers else ids) = toRotate
  dsimp only
  split
  · exact ⟨rfl, rfl⟩
  · split <;> exact ⟨rfl, rfl⟩

/-- A job leaves the table as it is and starts a call at most. -/
lemma proceed_frame {j : ℕ} {event : JobEvent} (next : s.proceed j event = some t) :
    t.relayers = s.relayers ∧
      (t.calls = s.calls ∨ ∃ relayerId, t.calls = s.calls ++ [{ relayerId, point := .find }]) := by
  simp only [proceed, Option.bind_eq_bind, Option.bind_eq_some_iff] at next
  obtain ⟨job, -, next⟩ := next
  split at next
  · split at next <;> (cases next; exact ⟨rfl, .inl rfl⟩)
  · split at next
    · cases next
      exact ⟨(onFound_frame ..).1, .inl (onFound_frame ..).2⟩
    · cases next
  · cases next
    exact ⟨rfl, .inl rfl⟩
  · cases next
    exact ⟨rfl, .inl rfl⟩
  · cases next
    exact ⟨rfl, .inr ⟨_, rfl⟩⟩
  · obtain ⟨call, -, next⟩ := Option.bind_eq_some_iff.1 next
    split at next
    · cases next
      exact ⟨rfl, .inl rfl⟩
    · cases next
      exact ⟨rfl, .inl rfl⟩
    · cases next
  · cases next

/-- A step starts at most one call and leaves the table, or is a section of a call. -/
lemma step_cases {move : RotationMove kms} (next : s.step crypto kms move = some t) :
    (t.relayers = s.relayers ∧
        (t.calls = s.calls ∨ ∃ relayerId, t.calls = s.calls ++ [{ relayerId, point := .find }])) ∨
      ∃ k event call point written, move = .advance k event ∧ s.calls[k]? = some call ∧
        call.next crypto kms s.relayers event = some (point, written) ∧
          t = { s with calls := s.calls.set k { call with point }, relayers := written.getD s.relayers } := by
  cases move with
  | rotateRelayerDek relayerId =>
    cases next
    exact .inl ⟨rfl, .inr ⟨relayerId, rfl⟩⟩
  | rotateAllOverdueDeks service options =>
    cases next
    exact .inl ⟨rfl, .inl rfl⟩
  | advance k event =>
    simp only [step, Option.bind_eq_bind, Option.bind_eq_some_iff, Prod.exists] at next
    obtain ⟨call, at_, point, written, made, next⟩ := next
    cases next
    exact .inr ⟨k, event, call, point, written, rfl, at_, made, rfl⟩
  | proceed j event => exact .inl (proceed_frame next)

/-- The stored pair decrypts to the key, and so does what the calls hold. -/
structure Safe (crypto : Crypto) (kms : KmsClient) (id : ℕ) (key : String) (s : RotationSystem) : Prop where
  stored : Stored crypto kms s.relayers id key
  carries : ∀ call ∈ s.calls, call.point.Carries crypto kms id key

/-- Each step keeps the key safe. -/
lemma Safe.step (lawful : crypto.Lawful) {move : RotationMove kms} (safe : Safe crypto kms id key s)
    (next : s.step crypto kms move = some t) : Safe crypto kms id key t := by
  obtain ⟨table, calls⟩ | ⟨k, event, call, point, written, -, at_, made, rfl⟩ := step_cases next
  · refine ⟨table ▸ safe.stored, fun call mem => ?_⟩
    obtain calls | ⟨relayerId, calls⟩ := calls
    · exact safe.carries call (calls ▸ mem)
    · rw [calls, List.mem_append, List.mem_singleton] at mem
      obtain mem | rfl := mem
      · exact safe.carries call mem
      · trivial
  · obtain ⟨carries, stored⟩ :=
      RotationCall.next_stored lawful safe.stored (safe.carries call (List.mem_of_getElem? at_)) made
    refine ⟨stored, fun other mem => ?_⟩
    obtain mem | rfl := List.mem_or_eq_of_mem_set mem
    · exact safe.carries other mem
    · exact carries

/-- Call `k` has returned this result. -/
def Returned (s : RotationSystem) (k : ℕ) (result : RotationResult) : Prop :=
  ∃ call, s.calls[k]? = some call ∧ call.point = .returned result

/-- What a call returned stays. -/
lemma Returned.step {k : ℕ} {result : RotationResult} {move : RotationMove kms} (returned : s.Returned k result)
    (next : s.step crypto kms move = some t) : t.Returned k result := by
  obtain ⟨call, at_, point⟩ := returned
  obtain ⟨-, calls | ⟨relayerId, calls⟩⟩ | ⟨k', event, call', point', written, -, at', made, rfl⟩ := step_cases next
  · exact ⟨call, calls ▸ at_, point⟩
  · refine ⟨call, ?_, point⟩
    rw [calls, List.getElem?_append_left (List.getElem?_eq_some_iff.1 at_).1]
    exact at_
  · refine ⟨call, ?_, point⟩
    rw [List.getElem?_set_ne, at_]
    rintro rfl
    -- the call that moves has not returned
    cases at_.symm.trans at'
    rw [RotationCall.next_returned point] at made
    cases made

/-- Before the first call. -/
def init (relayers : List Relayer) : RotationSystem :=
  { relayers, calls := [], jobs := [], isRotating := fun _ => false }

/-- A key that is stored is safe at the start. -/
lemma Safe.init (stored : Stored crypto kms relayers id key) : Safe crypto kms id key (init relayers) :=
  ⟨stored, by simp [RotationSystem.init]⟩

/-- A section of a call that ends in a failure leaves the table. -/
lemma frame_of_failure {k : ℕ} {event : RotationEvent kms} {trace : List (RotationMove kms)} {last : RotationSystem}
    (next : s.step crypto kms (.advance k event) = some t) (rest : exec (step crypto kms) t trace = some last)
    {result : RotationResult} (returned : last.Returned k result) (failed : result.success = false) :
    t.relayers = s.relayers := by
  obtain ⟨table, -⟩ | ⟨k', event', call, point, written, move, at_, made, rfl⟩ := step_cases next
  · exact table
  · cases move
    obtain rfl | ⟨result', rfl, success⟩ := RotationCall.next_written made
    · rfl
    · -- it succeeded, and still has when the run ends
      have now : Returned { s with
          calls := s.calls.set k { call with point := .returned result' }
          relayers := written.getD s.relayers } k result' :=
        ⟨_, List.getElem?_set_self (List.getElem?_eq_some_iff.1 at_).1, rfl⟩
      obtain ⟨call₁, at₁, point₁⟩ := exec_invariant (I := fun s => Returned s k result') now
        (fun _ _ _ returned => Returned.step returned) rest
      obtain ⟨call₂, at₂, point₂⟩ := returned
      cases at₁.symm.trans at₂
      cases point₁.symm.trans point₂
      rw [success] at failed
      cases failed

/-- In whatever order calls and jobs rotate a relayer and wherever they fail, what the row stores decrypts to its key,
and a call that returns without success has changed nothing. -/
theorem key_survives (lawful : crypto.Lawful) (stored : Stored crypto kms relayers id key)
    {trace : List (RotationMove kms)} {last : RotationSystem}
    (run : exec (step crypto kms) (init relayers) trace = some last) :
    Always (step crypto kms) (fun s => Stored crypto kms s.relayers id key) (init relayers) trace ∧
      ∀ k result, last.Returned k result → result.success = false →
        ∀ pre event s t, pre ++ [.advance k event] <+: trace → exec (step crypto kms) (init relayers) pre = some s →
          s.step crypto kms (.advance k event) = some t → t.relayers = s.relayers := by
  constructor
  · intro pre s _ reached
    have safe : Safe crypto kms id key s :=
      exec_invariant (Safe.init stored) (fun _ _ _ safe => Safe.step lawful safe) reached
    exact safe.stored
  · rintro k result returned failed pre event s t ⟨rest, rfl⟩ reached next
    rw [exec_append, exec_snoc.2 ⟨s, reached, next⟩] at run
    exact frame_of_failure next run returned failed

/-- What AES-256-GCM makes of `k` under a key. -/
def oldSeal : AesGcm.Seal where
  key := List.replicate 32 1
  iv := List.replicate 12 3
  text := [0x6b]
  data := [0x93]
  tag := [0xcb, 0xf0, 0xa3, 0x17, 0x0c, 0xf8, 0x21, 0x70, 0x49, 0x77, 0xdb, 0xcb, 0xe2, 0x3b, 0x50, 0x7e]

/-- And under another one. -/
def newSeal : AesGcm.Seal where
  key := List.replicate 32 7
  iv := List.replicate 12 9
  text := [0x6b]
  data := [0x4c]
  tag := [0x34, 0xee, 0xcd, 0x97, 0x57, 0x2b, 0x0b, 0xb6, 0x1e, 0x45, 0x78, 0xed, 0x76, 0xcb, 0x03, 0x92]

def sampleCrypto : Crypto := .ofTable [oldSeal, newSeal]

/-- A row with the first seal, and the blob of its key. -/
def sampleRow : Relayer :=
  { id := 1
    name := "relayer"
    encryptedPrivateKey := some "03030303030303030303030393cbf0a3170cf821704977dbcbe23b507e"
    encryptedDek := some "AQID"
    dekVersion := some 1
    dekEncryptedAt := some 0
    dekRotationScheduledAt := none }

/-- A KMS that knows the blobs of the two keys. -/
def sampleKms : KmsClient := fun blob =>
  if blob = [1, 2, 3] then .ok (some (List.replicate 32 1))
  else if blob = [4, 5, 6] then .ok (some (List.replicate 32 7))
  else .error "InvalidCiphertextException"

def sampleSupply : Supply sampleKms where
  answer := .ok (some (List.replicate 32 7), some [4, 5, 6])
  iv := .ok (List.replicate 12 9)
  inverts := rfl
  ivLen := by
    intro bytes made
    cases made
    rfl

/-- One call rotates the row, while the KMS is out of reach for the other. -/
def sampleTrace : List (RotationMove sampleKms) :=
  [.rotateRelayerDek 1, .rotateRelayerDek 1, .advance 0 .read, .advance 1 .read, .advance 0 (.kmsDecrypt none),
    .advance 0 (.dataKey sampleSupply), .advance 1 (.kmsDecrypt (some "timeout")), .advance 0 (.write 5)]

/-- Two calls rotate the row, and one of them fails. -/
theorem key_survives_two_calls :
    ∃ last, exec (step sampleCrypto sampleKms) (init [sampleRow]) sampleTrace = some last ∧
      Stored sampleCrypto sampleKms last.relayers 1 "k" := by
  have lawful : sampleCrypto.Lawful := AesGcm.lawful_ofTable (by decide +kernel)
  have stored : Stored sampleCrypto sampleKms [sampleRow] 1 "k" := by
    refine ⟨sampleRow, _, _, rfl, rfl, rfl, fun dekVersion => ?_⟩
    have decrypts : decrypt sampleCrypto sampleKms
        ⟨"03030303030303030303030393cbf0a3170cf821704977dbcbe23b507e", "AQID", 1⟩ = .ok "k" := by decide +kernel
    exact (decrypt_congr rfl rfl).trans decrypts
  obtain ⟨last, run⟩ := Option.isSome_iff_exists.1
    (show (exec (step sampleCrypto sampleKms) (init [sampleRow]) sampleTrace).isSome = true by decide +kernel)
  exact ⟨last, run, (key_survives lawful stored run).1 sampleTrace last (List.prefix_refl _) run⟩

end RotationSystem
end StellarFlow.Kms
