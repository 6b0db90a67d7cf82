import StellarFlow.Lib.JsonTree

/-!
# Integrity of RPC answers

Model of `RpcResponseIntegrityMiddleware` in `src/services/rpcResponseIntegrity.ts`: a critical query goes to all
endpoints, and its answers count as equal where the hashes of their canonical texts are equal.

The text is `JSON.stringify(data, Object.keys(data).sort())`. The second argument lists the properties that are printed,
at every depth, so what is nested below other names does not count; and `Object.keys` has no keys for `null`, so an
endpoint that answers `null` counts as failed.
-/

namespace StellarFlow.RpcIntegrity
open Json

structure RpcEndpoint where
  url : String
  name : String

structure RpcError where
  code : ℤ
  message : String

structure RpcResponse where
  result : Option Tree
  error : Option RpcError

structure EndpointResponse where
  endpoint : RpcEndpoint
  response : RpcResponse
  success : Bool
  stateHash : Option String

structure DivergenceDetails where
  method : String
  endpointHashes : Dict String String
  majorityHash : Option String
  divergingEndpoints : List String

structure ValidationResult where
  isValid : Bool
  consensusResult : Option Tree
  responses : List EndpointResponse

/-- What comes of a request to an endpoint: no client for the URL, a failure or a time-out, or a result. -/
inductive Answer where
  | refused (reason : String)
  | failed (error : String)
  | result (value : Tree)

def Answer.result? : Answer → Option Tree
  | .result value => some value
  | _ => none

/-- What `validateCriticalQuery` throws. -/
inductive QueryError where
  | typeError (message : String)
  | error (message : String)
  | rpcDivergenceError (message : String) (divergence : DivergenceDetails)

structure Middleware where
  endpoints : List RpcEndpoint
  criticalMethods : List String

/-- The constructor. -/
def Middleware.new (endpoints : List RpcEndpoint) (criticalMethods : List String) : Middleware :=
  ⟨endpoints.take 3, criticalMethods⟩

section Query
variable (sha256 : String → String)

/-- `Object.keys(undefined)` raises like `Object.keys(null)`. -/
def computeStateHash (data : Option Tree) : Except String String :=
  match data.bind fun value => value.objectKeys.map fun keys => (value, keys) with
  | some (value, keys) => .ok (sha256 (value.stringify (Js.sortedSet keys)))
  | none => .error "TypeError: Cannot convert undefined or null to object"

/-- The response of an endpoint that failed. -/
def failed (endpoint : RpcEndpoint) (message : String) : EndpointResponse :=
  ⟨endpoint, ⟨none, some ⟨-32603, message⟩⟩, false, none⟩

def queryEndpoint (endpoint : RpcEndpoint) (answer : Answer) : EndpointResponse :=
  match answer with
  | .refused reason => failed endpoint reason
  | .failed error => failed endpoint error
  | .result result =>
    match computeStateHash sha256 (some result) with
    | .ok stateHash => ⟨endpoint, ⟨some result, none⟩, true, some stateHash⟩
    | .error error => failed endpoint error

/-- All endpoints, each with its answer. -/
def queryAllEndpoints (endpoints : List RpcEndpoint) (answer : ℕ → Answer) : List EndpointResponse :=
  endpoints.mapIdx fun index endpoint => queryEndpoint sha256 endpoint (answer index)

/-- A response goes to the group of its hash. -/
def addToGroup (groups : Dict String (List EndpointResponse)) (response : EndpointResponse) :
    Dict String (List EndpointResponse) :=
  match response.stateHash with
  | some stateHash =>
    if stateHash = "" then groups else groups.set stateHash ((groups.get? stateHash).getD [] ++ [response])
  | none => groups

/-- The responses by their hashes. -/
def hashGroups (responses : List EndpointResponse) : Dict String (List EndpointResponse) :=
  responses.foldl addToGroup Dict.empty

/-- The first of the largest groups. -/
def majority (groups : List (String × List EndpointResponse)) : Option String × ℕ :=
  groups.foldl (fun best group => if best.2 < group.2.length then (some group.1, group.2.length) else best) (none, 0)

def detectDivergence (responses : List EndpointResponse) (method : String) : Option DivergenceDetails :=
  let groups := hashGroups responses
  if groups.keys.length ≤ 1 then none
  else
    let majorityHash := (majority groups.entries).1
    some {
      method := method
      endpointHashes := responses.foldl (fun hashes response =>
        match response.stateHash with
        | some stateHash => if stateHash = "" then hashes else hashes.set response.endpoint.name stateHash
        | none => hashes) Dict.empty
      majorityHash := majorityHash
      divergingEndpoints := (responses.filter fun response =>
        (response.stateHash.any fun stateHash => stateHash ≠ "") && response.stateHash ≠ majorityHash).map
          (·.endpoint.name) }

def extractConsensusResult (responses : List EndpointResponse) : Option Tree :=
  let validResponses := responses.filter fun r => r.success && r.stateHash.any fun stateHash => stateHash ≠ ""
  let majorityGroup := (hashGroups validResponses).entries.foldl
    (fun best group => if best.length < group.2.length then group.2 else best) []
  majorityGroup.head?.bind (·.response.result)

/-- The first endpoint only. -/
def singleNodeQuery (endpoints : List RpcEndpoint) (answer : ℕ → Answer) : Except QueryError ValidationResult :=
  match endpoints, answer 0 with
  | [], _ => .error (.error "No RPC endpoints configured")
  | _, .refused reason => .error (.error reason)
  | endpoint :: _, answer =>
    let response := queryEndpoint sha256 endpoint answer
    .ok ⟨response.success, response.response.result, [response]⟩

def validateCriticalQuery (m : Middleware) (method : String) (answer : ℕ → Answer) :
    Except QueryError ValidationResult :=
  if method ∉ m.criticalMethods then singleNodeQuery sha256 m.endpoints answer
  else
    let validResponses := (queryAllEndpoints sha256 m.endpoints answer).filter (·.success)
    if validResponses = [] then .error (.error s!"All RPC endpoints failed for method: {method}")
    else
      match validResponses.mapM fun r =>
          (computeStateHash sha256 r.response.result).map fun stateHash => { r with stateHash := some stateHash } with
      | .error message => .error (.typeError message)
      | .ok responsesWithHash =>
        match detectDivergence responsesWithHash method with
        | some divergence =>
          .error (.rpcDivergenceError s!"RPC state divergence detected for method: {method}" divergence)
        | none => .ok ⟨true, extractConsensusResult responsesWithHash, responsesWithHash⟩

end Query

/-- The values of the endpoints that answered. -/
def results (m : Middleware) (answer : ℕ → Answer) : List Tree :=
  (List.range m.endpoints.length).filterMap fun index => (answer index).result?

/-- There are values and they are equal up to the order of names. -/
def Agree (values : List Tree) : Prop := values ≠ [] ∧ ∀ v ∈ values, ∀ w ∈ values, v.Same w

/-- Values that agree are accepted with one of them as the result; otherwise something is thrown. -/
structure Meets (values : List Tree) (outcome : Except QueryError ValidationResult) : Prop where
  accepts : Agree values → ∃ (r : ValidationResult) (v : Tree), outcome = .ok r ∧ r.isValid = true ∧
    r.consensusResult = some v ∧ ∀ w ∈ values, v.Same w
  rejects : ¬Agree values → ∃ e : QueryError, outcome = .error e

/-- What is hashed of a value: the nested properties under the names of its own properties. -/
def visible (v : Tree) : Option Tree := v.objectKeys.map fun keys => v.shown (Js.sortedSet keys)

/-- An answer `null` comes only with other answers that differ visibly, and answers that differ, some of them do so
visibly. -/
structure Shows (values : List Tree) : Prop where
  null : Tree.null ∈ values → ∃ v ∈ values, ∃ w ∈ values, visible v ≠ none ∧ visible w ≠ none ∧ visible v ≠ visible w
  hidden : (∀ v ∈ values, ∀ w ∈ values, visible v = visible w) → ∀ v ∈ values, ∀ w ∈ values, v.Same w

section Groups
variable {groups : Dict String (List EndpointResponse)} {responses : List EndpointResponse} {r : EndpointResponse}

/-- The keys are the hashes of the responses, and the groups are non-empty and of responses. -/
structure Grouped (groups : Dict String (List EndpointResponse)) (responses : List EndpointResponse) : Prop where
  keys : ∀ k, k ∈ groups.keys ↔ k ≠ "" ∧ ∃ r ∈ responses, r.stateHash = some k
  members : ∀ e ∈ groups.entries, e.2 ≠ [] ∧ e.2 ⊆ responses

/-- One more response may have the hash. -/
lemma exists_hash_concat {k : String} : (∃ x ∈ responses ++ [r], x.stateHash = some k) ↔
    (∃ x ∈ responses, x.stateHash = some k) ∨ r.stateHash = some k := by
  simp only [List.mem_append, List.mem_singleton, or_and_right, exists_or, exists_eq_left]

/-- A response is added to its group. -/
lemma grouped_add (grouped : Grouped groups responses) : Grouped (addToGroup groups r) (responses ++ [r]) := by
  have widen : ∀ e ∈ groups.entries, e.2 ≠ [] ∧ e.2 ⊆ responses ++ [r] := fun e mem =>
    ⟨(grouped.members e mem).1, fun x inside => List.mem_append_left _ ((grouped.members e mem).2 inside)⟩
  -- a response without a hash is in no group
  have unchanged (none : ∀ k, k ≠ "" → r.stateHash ≠ some k) : Grouped groups (responses ++ [r]) := by
    refine ⟨fun k => ?_, widen⟩
    rw [grouped.keys k, exists_hash_concat]
    refine and_congr_right fun some => ?_
    rw [or_iff_left (none k some)]
  rw [addToGroup]
  split
  case h_1 h hash =>
    by_cases blank : h = ""
    · rw [if_pos blank]
      refine unchanged fun k some same => some ?_
      rw [hash, blank] at same
      exact (Option.some.inj same).symm
    · rw [if_neg blank]
      refine ⟨fun k => ?_, fun e mem => ?_⟩
      · rw [Dict.mem_keys_set, grouped.keys k, exists_hash_concat, hash, Option.some_inj, eq_comm (a := h)]
        constructor
        · rintro (rfl | ⟨some, old⟩)
          · exact ⟨blank, .inr rfl⟩
          · exact ⟨some, .inl old⟩
        · rintro ⟨some, old | new⟩
          · exact .inr ⟨some, old⟩
          · exact .inl new
      · obtain rfl | ⟨old, -⟩ := Dict.mem_entries_set mem
        · refine ⟨List.append_ne_nil_of_right_ne_nil _ (List.cons_ne_nil r []), fun x inside => ?_⟩
          obtain before | last := List.mem_append.1 inside
          · cases found : groups.get? h with
            | none => rw [found] at before; exact absurd before List.not_mem_nil
            | some group =>
              rw [found] at before
              exact (widen _ (Dict.get?_eq_some found)).2 before
          · exact List.mem_append_right _ last
        · exact widen e old
  case h_2 hash => exact unchanged fun k _ same => by rw [hash] at same; cases same

/-- The groups are those of the hashes. -/
lemma grouped_hashGroups (responses : List EndpointResponse) : Grouped (hashGroups responses) responses := by
  induction responses using List.reverseRecOn with
  | nil => exact ⟨fun k => by simp [hashGroups], fun e mem => absurd mem List.not_mem_nil⟩
  | append_singleton responses r ih =>
    rw [hashGroups, List.foldl_concat]
    exact grouped_add ih

/-- There is one group at most where all are the same. -/
lemma length_le_one_iff {κ : Type} {ks : List κ} (nodup : ks.Nodup) :
    ks.length ≤ 1 ↔ ∀ a ∈ ks, ∀ b ∈ ks, a = b := by
  match ks with
  | [] => simp
  | [k] => simp
  | k :: k' :: rest =>
    refine ⟨fun short => absurd short (by simp), fun same => ?_⟩
    have equal : k = k' := same k List.mem_cons_self k' (List.mem_cons_of_mem _ List.mem_cons_self)
    exact absurd (equal ▸ List.mem_cons_self) (List.nodup_cons.1 nodup).1

/-- There is no divergence exactly where all hashes are equal. -/
lemma detectDivergence_eq_none {method : String} (hashed : ∀ r ∈ responses, ∃ h, h ≠ "" ∧ r.stateHash = some h) :
    detectDivergence responses method = none ↔ ∀ r ∈ responses, ∀ r' ∈ responses, r.stateHash = r'.stateHash := by
  have keys := (grouped_hashGroups responses).keys
  have few : detectDivergence responses method = none ↔ (hashGroups responses).keys.length ≤ 1 := by
    rw [detectDivergence]
    split
    case isTrue one => exact iff_of_true rfl one
    case isFalse many => exact iff_of_false (Option.some_ne_none _) many
  rw [few, length_le_one_iff (show (hashGroups responses).keys.Nodup from (hashGroups responses).nodup)]
  constructor
  · intro one r mem r' mem'
    obtain ⟨h, some, hash⟩ := hashed r mem
    obtain ⟨h', some', hash'⟩ := hashed r' mem'
    rw [hash, hash', one h ((keys h).2 ⟨some, r, mem, hash⟩) h' ((keys h').2 ⟨some', r', mem', hash'⟩)]
  · intro same k mem k' mem'
    obtain ⟨-, r, inside, hash⟩ := (keys k).1 mem
    obtain ⟨-, r', inside', hash'⟩ := (keys k').1 mem'
    exact Option.some.inj (hash.symm.trans ((same r inside r' inside').trans hash'))

/-- The longest of some lists. -/
lemma foldl_longest (entries : List (String × List EndpointResponse)) (best : List EndpointResponse) :
    let group := entries.foldl (fun best group => if best.length < group.2.length then group.2 else best) best
    (group = best ∨ ∃ e ∈ entries, group = e.2) ∧ best.length ≤ group.length ∧
      ∀ e ∈ entries, e.2.length ≤ group.length := by
  induction entries generalizing best with
  | nil => exact ⟨.inl rfl, le_rfl, fun e mem => absurd mem List.not_mem_nil⟩
  | cons e entries ih =>
    rw [List.foldl_cons]
    by_cases longer : best.length < e.2.length
    · rw [if_pos longer]
      obtain ⟨one, above, others⟩ := ih e.2
      refine ⟨.inr ?_, longer.le.trans above, List.forall_mem_cons.2 ⟨above, others⟩⟩
      obtain here | ⟨e', mem, there⟩ := one
      · exact ⟨e, List.mem_cons_self, here⟩
      · exact ⟨e', List.mem_cons_of_mem _ mem, there⟩
    · rw [if_neg longer]
      obtain ⟨one, above, others⟩ := ih best
      refine ⟨?_, above, List.forall_mem_cons.2 ⟨(Nat.le_of_not_lt longer).trans above, others⟩⟩
      obtain here | ⟨e', mem, there⟩ := one
      · exact .inl here
      · exact .inr ⟨e', List.mem_cons_of_mem _ mem, there⟩

/-- The consensus is the result of a response. -/
lemma extractConsensusResult_mem (nonempty : responses ≠ [])
    (valid : ∀ r ∈ responses, r.success = true ∧ ∃ h, h ≠ "" ∧ r.stateHash = some h) :
    ∃ r ∈ responses, extractConsensusResult responses = r.response.result := by
  have all : responses.filter (fun r => r.success && r.stateHash.any fun stateHash => stateHash ≠ "") = responses := by
    refine List.filter_eq_self.2 fun r mem => ?_
    obtain ⟨success, h, some, hash⟩ := valid r mem
    rw [success, hash, Bool.true_and, Option.any_some, decide_eq_true_iff]
    exact some
  rw [extractConsensusResult, all]
  have grouped := grouped_hashGroups responses
  obtain ⟨r, mem⟩ := List.exists_mem_of_ne_nil responses nonempty
  obtain ⟨-, h, some, hash⟩ := valid r mem
  obtain ⟨e, entry, -⟩ := List.mem_map.1 ((grouped.keys h).2 ⟨some, r, mem, hash⟩)
  obtain ⟨one, -, longest⟩ := foldl_longest (hashGroups responses).entries []
  -- there is a group, and no group is empty
  have long := (List.length_pos_iff.2 (grouped.members e entry).1).trans_le (longest e entry)
  obtain blank | ⟨e', entry', group⟩ := one
  · rw [blank] at long
    exact absurd long (lt_irrefl 0)
  · obtain ⟨first, others, eq⟩ := List.exists_cons_of_ne_nil (grouped.members e' entry').1
    refine ⟨first, (grouped.members e' entry').2 (by rw [eq]; exact List.mem_cons_self), ?_⟩
    simp only [group, eq]
    rfl

end Groups

section Visible
variable {v w t : Tree}

/-- Values that are the same are visible alike. -/
lemma visible_same (same : v.Same w) : visible v = visible w := by
  have keys := Tree.objectKeys_same same
  have parts (v : Tree) : visible v = (v.objectKeys.map Js.sortedSet).map fun list => v.shown list := by
    rw [Option.map_map]
    rfl
  rw [parts, parts, keys]
  exact congrArg (Option.map · _) (funext fun list => Tree.shown_same same)

/-- Only of `null` nothing is hashed. -/
lemma visible_eq_none : visible v = none ↔ v = .null := by
  rw [visible, Option.map_eq_none_iff]
  cases v with
  | null => exact iff_of_true rfl rfl
  | _ => exact iff_of_false (Option.some_ne_none _) (fun same => by cases same)

end Visible

section Responses
variable {sha256 : String → String} {m : Middleware} {method : String} {answer : ℕ → Answer} {v w t u : Tree}
  {endpoint : RpcEndpoint} {r : EndpointResponse}

/-- The hash of what is visible. -/
def hash (sha256 : String → String) (t : Tree) : String := sha256 (String.ofList t.print)

/-- The hash is that of what is visible. -/
lemma computeStateHash_eq (seen : visible v = some t) : computeStateHash sha256 (some v) = .ok (hash sha256 t) := by
  obtain ⟨keys, found, rfl⟩ := Option.map_eq_some_iff.1 seen
  rw [computeStateHash, Option.bind_some, found]
  rfl

/-- The hash tells what is visible. -/
lemma hash_injective (injective : Function.Injective sha256) : Function.Injective (hash sha256) :=
  fun _ _ same => Tree.print_injective (String.ofList_injective (injective same))

/-- The response with a value of which `t` is visible. -/
def succeeded (sha256 : String → String) (endpoint : RpcEndpoint) (v t : Tree) : EndpointResponse :=
  ⟨endpoint, ⟨some v, none⟩, true, some (hash sha256 t)⟩

/-- An endpoint that answers with something visible succeeds. -/
lemma queryEndpoint_result (seen : visible v = some t) :
    queryEndpoint sha256 endpoint (.result v) = succeeded sha256 endpoint v t := by
  rw [queryEndpoint, computeStateHash_eq seen]
  rfl

/-- Only an endpoint that answers with something visible succeeds. -/
lemma queryEndpoint_success {a : Answer} (success : (queryEndpoint sha256 endpoint a).success = true) :
    ∃ v t, a = .result v ∧ visible v = some t := by
  cases a with
  | refused reason => cases success
  | failed error => cases success
  | result v =>
    cases seen : visible v with
    | some t => exact ⟨v, t, rfl, seen⟩
    | none =>
      rw [visible_eq_none.1 seen] at success
      cases success

/-- The successful responses. -/
def validResponses (sha256 : String → String) (m : Middleware) (answer : ℕ → Answer) : List EndpointResponse :=
  (queryAllEndpoints sha256 m.endpoints answer).filter (·.success)

/-- The results are those of the endpoints. -/
lemma mem_results : v ∈ results m answer ↔ ∃ i, i < m.endpoints.length ∧ answer i = .result v := by
  rw [results, List.mem_filterMap]
  constructor
  · rintro ⟨i, inside, found⟩
    cases given : answer i with
    | result w => rw [given] at found; cases found; exact ⟨i, List.mem_range.1 inside, given⟩
    | _ => rw [given] at found; cases found
  · rintro ⟨i, inside, given⟩
    exact ⟨i, List.mem_range.2 inside, by rw [given]; rfl⟩

/-- They have the results of which anything is visible. -/
lemma mem_validResponses : r ∈ validResponses sha256 m answer →
    ∃ endpoint, ∃ v ∈ results m answer, ∃ t, visible v = some t ∧ r = succeeded sha256 endpoint v t := by
  intro mem
  obtain ⟨all, success⟩ := List.mem_filter.1 mem
  obtain ⟨i, inside, rfl⟩ := List.mem_mapIdx.1 all
  obtain ⟨v, t, given, seen⟩ := queryEndpoint_success success
  refine ⟨m.endpoints[i], v, mem_results.2 ⟨i, inside, given⟩, t, seen, ?_⟩
  rw [given, queryEndpoint_result seen]

variable (sha256) in
/-- What is visible has a valid response. -/
lemma exists_validResponse (mem : v ∈ results m answer) (seen : visible v = some t) :
    ∃ endpoint, succeeded sha256 endpoint v t ∈ validResponses sha256 m answer := by
  obtain ⟨i, inside, given⟩ := mem_results.1 mem
  refine ⟨m.endpoints[i], List.mem_filter.2 ⟨List.mem_mapIdx.2 ⟨i, inside, ?_⟩, rfl⟩⟩
  rw [given, queryEndpoint_result seen]

/-- A check that every item passes returns them. -/
lemma mapM_self {ε α : Type} {f : α → Except ε α} {xs : List α} (each : ∀ x ∈ xs, f x = .ok x) :
    xs.mapM f = .ok xs := by
  induction xs with
  | nil => rfl
  | cons x xs ih =>
    rw [List.mapM_cons, each x List.mem_cons_self, ih fun y mem => each y (List.mem_cons_of_mem _ mem)]
    rfl

/-- The hashes are computed once more, with the same result. -/
lemma validateCriticalQuery_eq (critical : method ∈ m.criticalMethods)
    (nonempty : validResponses sha256 m answer ≠ []) : validateCriticalQuery sha256 m method answer =
      match detectDivergence (validResponses sha256 m answer) method with
      | some divergence =>
        .error (.rpcDivergenceError s!"RPC state divergence detected for method: {method}" divergence)
      | none =>
        .ok ⟨true, extractConsensusResult (validResponses sha256 m answer), validResponses sha256 m answer⟩ := by
  have again : ((validResponses sha256 m answer).mapM fun r => (computeStateHash sha256 r.response.result).map
      fun stateHash => { r with stateHash := some stateHash }) = .ok (validResponses sha256 m answer) := by
    refine mapM_self fun r mem => ?_
    obtain ⟨endpoint, v, -, t, seen, rfl⟩ := mem_validResponses mem
    rw [succeeded, computeStateHash_eq seen]
    rfl
  rw [validResponses] at again nonempty ⊢
  rw [validateCriticalQuery, if_neg (not_not.2 critical)]
  simp only [if_neg nonempty, again]

/-- Without a valid response a critical query fails. -/
lemma validateCriticalQuery_none (critical : method ∈ m.criticalMethods)
    (none : validResponses sha256 m answer = []) : ∃ e, validateCriticalQuery sha256 m method answer = .error e := by
  rw [validResponses] at none
  rw [validateCriticalQuery, if_neg (not_not.2 critical)]
  simp only [none]
  exact ⟨_, rfl⟩

/-- No two of the values differ visibly, `null` left aside. -/
def Alike (values : List Tree) : Prop :=
  ∀ v ∈ values, ∀ w ∈ values, ∀ t u, visible v = some t → visible w = some u → t = u

/-- No divergence is detected just where all results are alike. -/
lemma alike_iff (injective : Function.Injective sha256) (nonblank : ∀ text, sha256 text ≠ "") :
    detectDivergence (validResponses sha256 m answer) method = none ↔ Alike (results m answer) := by
  rw [detectDivergence_eq_none]
  · constructor
    · intro same v mem w mem' t u seen seen'
      obtain ⟨endpoint, valid⟩ := exists_validResponse sha256 mem seen
      obtain ⟨endpoint', valid'⟩ := exists_validResponse sha256 mem' seen'
      exact hash_injective injective (Option.some.inj (same _ valid _ valid'))
    · intro alike r mem r' mem'
      obtain ⟨endpoint, v, inside, t, seen, rfl⟩ := mem_validResponses mem
      obtain ⟨endpoint', w, inside', u, seen', rfl⟩ := mem_validResponses mem'
      rw [succeeded, succeeded, alike v inside w inside' t u seen seen']
  · intro r mem
    obtain ⟨endpoint, v, -, t, -, rfl⟩ := mem_validResponses mem
    exact ⟨hash sha256 t, nonblank _, rfl⟩

/-- Alike values are accepted, with one of them as the result. -/
lemma accepted (injective : Function.Injective sha256) (nonblank : ∀ text, sha256 text ≠ "")
    (critical : method ∈ m.criticalMethods) (alike : Alike (results m answer)) (mem : v ∈ results m answer)
    (seen : visible v = some t) : ∃ r : ValidationResult, ∃ w ∈ results m answer,
      validateCriticalQuery sha256 m method answer = .ok r ∧ r.isValid = true ∧ r.consensusResult = some w := by
  obtain ⟨endpoint, valid⟩ := exists_validResponse sha256 mem seen
  have nonempty : validResponses sha256 m answer ≠ [] := List.ne_nil_of_mem valid
  have consensus := extractConsensusResult_mem nonempty fun r mem => by
    obtain ⟨endpoint, v, -, t, -, rfl⟩ := mem_validResponses mem
    exact ⟨rfl, hash sha256 t, nonblank _, rfl⟩
  obtain ⟨r, inside, result⟩ := consensus
  obtain ⟨endpoint', w, mem', u, -, rfl⟩ := mem_validResponses inside
  rw [validateCriticalQuery_eq critical nonempty, (alike_iff injective nonblank).2 alike]
  exact ⟨_, w, mem', rfl, rfl, result⟩

/-- Results that differ are rejected. -/
lemma rejected (injective : Function.Injective sha256) (nonblank : ∀ text, sha256 text ≠ "")
    (critical : method ∈ m.criticalMethods)
    (differ : (∀ v ∈ results m answer, visible v = none) ∨ ¬Alike (results m answer)) :
    ∃ e, validateCriticalQuery sha256 m method answer = .error e := by
  cases valid : validResponses sha256 m answer with
  | nil => exact validateCriticalQuery_none critical valid
  | cons r others =>
    have nonempty : validResponses sha256 m answer ≠ [] := by rw [valid]; exact List.cons_ne_nil r others
    obtain ⟨endpoint, v, mem, t, seen, -⟩ := mem_validResponses (valid ▸ List.mem_cons_self)
    rw [validateCriticalQuery_eq critical nonempty]
    cases divergence : detectDivergence (validResponses sha256 m answer) method with
    | some divergence => exact ⟨_, rfl⟩
    | none =>
      obtain noneSeen | different := differ
      · rw [noneSeen v mem] at seen
        cases seen
      · exact absurd ((alike_iff injective nonblank).1 divergence) different

end Responses

section Outcome
variable {values : List Tree} {outcome : Except QueryError ValidationResult} {v w t : Tree}

/-- Values of which nothing is visible are all `null`. -/
lemma same_of_unseen (seen : visible v = none) (seen' : visible w = none) : v.Same w := by
  rw [visible_eq_none.1 seen, visible_eq_none.1 seen']
  exact .null

/-- Where all results show what they say, they are treated as they should. -/
lemma meets_of_shows (accept : ∀ v ∈ values, ∀ t, Alike values → visible v = some t → ∃ r : ValidationResult,
      ∃ w ∈ values, outcome = .ok r ∧ r.isValid = true ∧ r.consensusResult = some w)
    (reject : (∀ v ∈ values, visible v = none) ∨ ¬Alike values → ∃ e, outcome = .error e) (shows : Shows values) :
    Meets values outcome := by
  -- no value is `null` where all are alike
  have present (alike : Alike values) : ∀ v ∈ values, visible v ≠ none := by
    intro v mem unseen
    rw [visible_eq_none.1 unseen] at mem
    obtain ⟨x, memx, y, memy, seen, seen', differ⟩ := shows.null mem
    obtain ⟨t, seen⟩ := Option.ne_none_iff_exists'.1 seen
    obtain ⟨u, seen'⟩ := Option.ne_none_iff_exists'.1 seen'
    exact differ (by rw [seen, seen', alike x memx y memy t u seen seen'])
  constructor
  · rintro ⟨nonempty, same⟩
    have alike : Alike values := by
      intro v mem w mem' t u seen seen'
      rw [visible_same (same v mem w mem'), seen'] at seen
      exact (Option.some.inj seen).symm
    obtain ⟨v, mem⟩ := List.exists_mem_of_ne_nil values nonempty
    obtain ⟨t, seen⟩ := Option.ne_none_iff_exists'.1 (present alike v mem)
    obtain ⟨r, w, mem', ok, isValid, consensus⟩ := accept v mem t alike seen
    exact ⟨r, w, ok, isValid, consensus, same w mem'⟩
  · intro disagree
    refine reject (or_iff_not_imp_right.2 fun alike => ?_)
    rw [not_not] at alike
    intro v mem
    refine absurd ⟨List.ne_nil_of_mem mem, shows.hidden fun v mem w mem' => ?_⟩ disagree
    obtain ⟨t, seen⟩ := Option.ne_none_iff_exists'.1 (present alike v mem)
    obtain ⟨u, seen'⟩ := Option.ne_none_iff_exists'.1 (present alike w mem')
    rw [seen, seen', alike v mem w mem' t u seen seen']

/-- Where they do not, they are not. -/
lemma shows_of_meets (accept : ∀ v ∈ values, ∀ t, Alike values → visible v = some t → ∃ r : ValidationResult,
      ∃ w ∈ values, outcome = .ok r ∧ r.isValid = true ∧ r.consensusResult = some w)
    (reject : (∀ v ∈ values, visible v = none) ∨ ¬Alike values → ∃ e, outcome = .error e)
    (meets : Meets values outcome) : Shows values := by
  -- what is accepted agrees
  have agree (v : Tree) (mem : v ∈ values) (t : Tree) (alike : Alike values) (seen : visible v = some t) :
      Agree values := by
    obtain ⟨r, w, -, ok, -⟩ := accept v mem t alike seen
    by_contra disagree
    obtain ⟨e, error⟩ := meets.rejects disagree
    rw [ok] at error
    cases error
  constructor
  · intro mem
    by_contra nowhere
    have alike : Alike values := by
      intro v mem w mem' t u seen seen'
      by_contra differ
      refine nowhere ⟨v, mem, w, mem', ?_, ?_, ?_⟩
      · rw [seen]
        exact Option.some_ne_none t
      · rw [seen']
        exact Option.some_ne_none u
      · rw [seen, seen']
        exact fun same => differ (Option.some.inj same)
    by_cases unseen : ∀ v ∈ values, visible v = none
    · -- all are `null`
      obtain ⟨e, error⟩ := reject (.inl unseen)
      obtain ⟨r, w, ok, -⟩ := meets.accepts ⟨List.ne_nil_of_mem mem, fun v mem w mem' =>
        same_of_unseen (unseen v mem) (unseen w mem')⟩
      rw [ok] at error
      cases error
    · obtain ⟨v, here⟩ := not_forall.1 unseen
      obtain ⟨mem', seen⟩ := Classical.not_imp.1 here
      obtain ⟨t, seen⟩ := Option.ne_none_iff_exists'.1 seen
      have same := (agree v mem' t alike seen).2 v mem' .null mem
      rw [visible_same same] at seen
      cases seen
  · intro looks v mem w mem'
    cases seen : visible v with
    | none => exact same_of_unseen seen ((looks v mem w mem').symm.trans seen)
    | some t =>
      have alike : Alike values := by
        intro x memx y memy t u seen seen'
        rw [looks x memx y memy, seen'] at seen
        exact (Option.some.inj seen).symm
      exact (agree v mem t alike seen).2 v mem w mem'

end Outcome

/-- A critical query accepts exactly the answers that agree, if and only if an answer `null` comes only with other
answers that differ visibly, and answers that differ do so visibly. -/
theorem accepts_agreement_iff {sha256 : String → String} (injective : Function.Injective sha256)
    (nonblank : ∀ text, sha256 text ≠ "") {m : Middleware} {method : String} (critical : method ∈ m.criticalMethods)
    (answer : ℕ → Answer) :
    Meets (results m answer) (validateCriticalQuery sha256 m method answer) ↔ Shows (results m answer) := by
  have accept : ∀ v ∈ results m answer, ∀ t, Alike (results m answer) → visible v = some t →
      ∃ r : ValidationResult, ∃ w ∈ results m answer, validateCriticalQuery sha256 m method answer = .ok r ∧
        r.isValid = true ∧ r.consensusResult = some w :=
    fun v mem t alike seen => accepted injective nonblank critical alike mem seen
  have reject : (∀ v ∈ results m answer, visible v = none) ∨ ¬Alike (results m answer) →
      ∃ e, validateCriticalQuery sha256 m method answer = .error e := rejected injective nonblank critical
  exact ⟨shows_of_meets accept reject, meets_of_shows accept reject⟩

/-- SHA-256 on two texts; other texts stand for their own hashes. -/
def sampleSha256 (text : String) : String :=
  if text = "\x7b\"ledger\":123\x7d" then "8829bde6325e2837f421e6354720ae67f3885f7148d8f204457f5fad1aea676a"
  else if text = "\x7b\"entry\":\x7b\x7d\x7d" then "6ac54f214e2e220f778d9e73213a3e2834fe08da79b4fe02d2ed1627d21d5597"
  else "x" ++ text

/-- The first character is the one put in front. -/
lemma head_x_append (text : String) : ("x" ++ text).toList.head? = some 'x' := by
  rw [String.toList_append]
  rfl

/-- The digest of the sample tells its input. -/
lemma sampleSha256_injective : Function.Injective sampleSha256 := by
  intro s s' same
  have heads := congrArg (fun text => text.toList.head?) same
  simp only [sampleSha256] at same heads
  split_ifs at same heads with first first' second' second first' second' first' second'
  · rw [first, first']
  · exact absurd same (by decide)
  · rw [head_x_append] at heads
    cases heads
  · exact absurd same (by decide)
  · rw [second, second']
  · rw [head_x_append] at heads
    cases heads
  · rw [head_x_append] at heads
    cases heads
  · rw [head_x_append] at heads
    cases heads
  · have texts := congrArg String.toList same
    rw [String.toList_append, String.toList_append] at texts
    exact String.toList_injective (List.append_cancel_left texts)

/-- The digest of the sample is not blank. -/
lemma sampleSha256_ne_blank (text : String) : sampleSha256 text ≠ "" := by
  rw [sampleSha256]
  split_ifs
  · decide
  · decide
  · intro blank
    have head := head_x_append text
    rw [blank] at head
    cases head

def nodes : Middleware := .new [⟨"https://rpc1.test", "Node1"⟩, ⟨"https://rpc2.test", "Node2"⟩] ["getLatestLedger"]

def number (digit : Char) (numeric : isNumeric digit = true) : Tree :=
  .number ⟨[digit], List.cons_ne_nil _ _, fun _ mem => List.mem_singleton.1 mem ▸ numeric⟩

def ledger : Tree :=
  .object [("ledger", .number ⟨['1', '2', '3'], List.cons_ne_nil _ _, List.forall_mem_cons.2 ⟨rfl,
    List.forall_mem_cons.2 ⟨rfl, List.forall_mem_singleton.2 rfl⟩⟩⟩)]

example : ledger.stringify ["ledger"] = "\x7b\"ledger\":123\x7d" := by decide

/-- Endpoints that all answer with one ledger. -/
theorem accepts_agreement_iff_ledger :
    Meets (results nodes fun _ => .result ledger)
      (validateCriticalQuery sampleSha256 nodes "getLatestLedger" fun _ => .result ledger) := by
  have both : ∀ v ∈ results nodes fun _ => .result ledger, v = ledger :=
    List.forall_mem_cons.2 ⟨rfl, List.forall_mem_singleton.2 rfl⟩
  refine (accepts_agreement_iff sampleSha256_injective sampleSha256_ne_blank List.mem_cons_self _).2 ⟨?_, ?_⟩
  · intro mem
    cases both .null mem
  · intro _ v mem w mem'
    rw [both v mem, both w mem']
    exact .refl ledger

def balance (digit : Char) (numeric : isNumeric digit = true) : Tree :=
  .object [("entry", .object [("balance", number digit numeric)])]

/-- The first node answers 1, the others 2. -/
def balances (i : ℕ) : Answer := .result (if i = 0 then balance '1' (by decide) else balance '2' (by decide))

/-- The values differ below the top level and are accepted. -/
theorem nested_difference_accepted :
    ¬Meets (results nodes balances) (validateCriticalQuery sampleSha256 nodes "getLatestLedger" balances) := by
  intro meets
  have shows : Shows (results nodes balances) := by
    refine shows_of_meets (fun v mem t alike seen => ?_) ?_ meets
    · exact accepted sampleSha256_injective sampleSha256_ne_blank List.mem_cons_self alike mem seen
    · exact rejected sampleSha256_injective sampleSha256_ne_blank List.mem_cons_self
  have looks : ∀ v ∈ results nodes balances, visible v = some (.object [("entry", .object [])]) :=
    List.forall_mem_cons.2 ⟨rfl, List.forall_mem_singleton.2 rfl⟩
  have same : (balance '1' rfl).Same (balance '2' rfl) := by
    refine shows.hidden (fun v mem w mem' => ?_) _ List.mem_cons_self _ (List.mem_cons_of_mem _ List.mem_cons_self)
    rw [looks v mem, looks w mem']
  cases same with
  | object _ each =>
    cases each "entry" _ _ rfl rfl with
    | object _ each => cases each "balance" _ _ rfl rfl

end StellarFlow.RpcIntegrity
