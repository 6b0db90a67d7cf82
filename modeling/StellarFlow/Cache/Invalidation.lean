import Mathlib.Algebra.Order.Ring.Int
import StellarFlow.Lib.Dict
import StellarFlow.Lib.Machine

/-!
# Invalidation of response caches

Model of `onLedgerEvent` and `purgePatterns` in `src/cache/CacheInvalidationManager.ts`. Prices are written one after
the other, and a response is known by how many of them it was computed from. Calls of `onLedgerEvent`, which each purge
one pattern after the other, run interleaved with writes and with fills of the cache.

A call for a ledger that is not above the last one purges nothing, whether or not that ledger's purge came before its
own write. So caches are fresh where such a call finds nothing older than its write.
-/

namespace StellarFlow.Cache

/-- The call of `onLedgerEvent` for a write: the patterns it has still to purge; it has returned when none is left. -/
structure Call where
  write : ℕ
  patterns : List String
  deriving DecidableEq

/-- How many prices were written, the keys with the number of prices their values were computed from, and the manager.
-/
structure System where
  writes : ℕ
  cache : Dict String ℕ
  lastLedgerInvalidated : ℤ
  calls : List Call

inductive Move where
  | write
  | onLedgerEvent (write : ℕ) (ledgerSeq : ℤ)
  | purge (i : ℕ)
  | fill (key : String)

/-- The rules of a manager, and which keys Redis finds for a pattern. -/
structure Rules where
  rules : Dict String (List String)
  globs : String → String → Bool

/-- `this.rules.get("ledger") ?? this.rules.get("price") ?? []`. -/
def Rules.patterns (r : Rules) : List String := ((r.rules.get? "ledger").or (r.rules.get? "price")).getD []

/-- `cacheService.deletePattern`. -/
def Rules.deletePattern (r : Rules) (cache : Dict String ℕ) (pattern : String) : Dict String ℕ :=
  cache.filterKeys fun key => !r.globs pattern key

variable (r : Rules)

/-- The call is for a ledger that counts as purged. -/
def System.isCoalesced (s : System) (ledgerSeq : ℤ) : Bool := 0 < ledgerSeq && ledgerSeq ≤ s.lastLedgerInvalidated

/-- One move; a call is made after its write. -/
def System.step (s : System) : Move → Option System
  | .write => some { s with writes := s.writes + 1 }
  | .onLedgerEvent write ledgerSeq =>
    if write ≤ s.writes then
      if s.isCoalesced ledgerSeq then some { s with calls := s.calls ++ [⟨write, []⟩] }
      else
        some { s with
          lastLedgerInvalidated := if 0 < ledgerSeq then ledgerSeq else s.lastLedgerInvalidated
          calls := s.calls ++ [⟨write, r.patterns⟩] }
    else none
  | .purge i =>
    match s.calls[i]? with
    | some ⟨write, pattern :: patterns⟩ =>
      some { s with cache := r.deletePattern s.cache pattern, calls := s.calls.set i ⟨write, patterns⟩ }
    | _ => none
  | .fill key => some { s with cache := s.cache.set key s.writes }

/-- Any number of prices and any cache, and a new manager. -/
def System.initial (writes : ℕ) (cache : Dict String ℕ) : System := ⟨writes, cache, 0, []⟩

/-- The key is one of the ledger rule's. -/
def Rules.isRuled (key : String) : Bool := r.patterns.any fun pattern => r.globs pattern key

/-- No key of the ledger rule holds a value from before the write. -/
def System.freshFor (s : System) (write : ℕ) : Bool := s.cache.entries.all fun e => !r.isRuled e.1 || write ≤ e.2

/-- Once a call has returned, no key of the ledger rule holds a value from before its write. -/
def Fresh (s : System) : Prop := ∀ call ∈ s.calls, call.patterns = [] → s.freshFor r call.write = true

/-- A call that purges nothing finds nothing older than its write. -/
def System.isTimely (s : System) : Move → Bool
  | .onLedgerEvent write ledgerSeq => !(s.isCoalesced ledgerSeq && write ≤ s.writes) || s.freshFor r write
  | _ => true

/-- A call has been made after its write, and what it has purged holds no value from before. -/
structure Call.Supports (r : Rules) (s : System) (call : Call) : Prop where
  written : call.write ≤ s.writes
  purged : call.patterns ≠ [] → ∃ done, r.patterns = done ++ call.patterns ∧
    ∀ e ∈ s.cache.entries, ∀ pattern ∈ done, r.globs pattern e.1 = true → call.write ≤ e.2

variable {r} {s s' : System} {m : Move} {call : Call}

/-- The cache is fresh for a write if no entry under the rule is older. -/
lemma freshFor_iff {write : ℕ} :
    s.freshFor r write = true ↔ ∀ e ∈ s.cache.entries, r.isRuled e.1 = true → write ≤ e.2 := by
  rw [System.freshFor, List.all_eq_true]
  refine forall_congr' fun e => imp_congr_right fun _ => ?_
  rw [Bool.or_eq_true, Bool.not_eq_true', decide_eq_true_iff]
  cases r.isRuled e.1 with
  | false => exact iff_of_true (.inl rfl) fun ruled => by cases ruled
  | true => exact ⟨fun fresh _ => fresh.resolve_left Bool.noConfusion, fun fresh => .inr (fresh rfl)⟩

/-- A system in which less is cached, or the same, and at least as many prices are written. -/
lemma Call.Supports.mono (supports : call.Supports r s) (writes : s.writes ≤ s'.writes)
    (cached : ∀ e ∈ s'.cache.entries, e ∈ s.cache.entries ∨ s.writes ≤ e.2) : call.Supports r s' := by
  refine ⟨supports.written.trans writes, fun left => ?_⟩
  obtain ⟨done, split, purged⟩ := supports.purged left
  refine ⟨done, split, fun e mem pattern before glob => ?_⟩
  rcases cached e mem with old | new
  · exact purged e old pattern before glob
  · exact supports.written.trans new

/-- What is fresh stays so when keys are deleted, or filled anew. -/
lemma freshFor_mono {write : ℕ} (fresh : s.freshFor r write = true) (written : write ≤ s.writes)
    (cached : ∀ e ∈ s'.cache.entries, e ∈ s.cache.entries ∨ s.writes ≤ e.2) : s'.freshFor r write = true := by
  refine freshFor_iff.2 fun e mem ruled => ?_
  rcases cached e mem with old | new
  · exact freshFor_iff.1 fresh e old ruled
  · exact written.trans new

/-- The keys of a pattern are gone, the others stay. -/
lemma mem_deletePattern {cache : Dict String ℕ} {pattern : String} {e : String × ℕ}
    (mem : e ∈ (r.deletePattern cache pattern).entries) : e ∈ cache.entries ∧ r.globs pattern e.1 = false := by
  obtain ⟨old, kept⟩ := List.mem_filter.1 mem
  exact ⟨old, (Bool.not_eq_true' _).mp kept⟩

/-- The last purge of a call leaves no value from before its write. -/
lemma freshFor_purged {write : ℕ} {pattern : String} (supports : Call.Supports r s ⟨write, [pattern]⟩)
    (cache : s'.cache = r.deletePattern s.cache pattern) : s'.freshFor r write = true := by
  obtain ⟨done, split, purged⟩ := supports.purged (List.cons_ne_nil _ _)
  refine freshFor_iff.2 fun e mem ruled => ?_
  rw [cache] at mem
  obtain ⟨old, kept⟩ := mem_deletePattern mem
  obtain ⟨pattern', rule, glob⟩ := List.any_eq_true.1 ruled
  rw [split] at rule
  rcases List.mem_append.1 rule with before | last
  · exact purged e old pattern' before glob
  · rw [List.mem_singleton.1 last, kept] at glob
    cases glob

/-- One more pattern is purged. -/
lemma Call.Supports.purge {write : ℕ} {pattern : String} {patterns : List String}
    (supports : Call.Supports r s ⟨write, pattern :: patterns⟩) (writes : s'.writes = s.writes)
    (cache : s'.cache = r.deletePattern s.cache pattern) : Call.Supports r s' ⟨write, patterns⟩ := by
  obtain ⟨done, split, purged⟩ := supports.purged (List.cons_ne_nil _ _)
  refine ⟨supports.written.trans_eq writes.symm, fun _ => ⟨done ++ [pattern], ?_, fun e mem pattern' before glob => ?_⟩⟩
  · rw [split, List.append_assoc]
    rfl
  · rw [cache] at mem
    obtain ⟨old, kept⟩ := mem_deletePattern mem
    rcases List.mem_append.1 before with before | last
    · exact purged e old pattern' before glob
    · rw [List.mem_singleton.1 last, kept] at glob
      cases glob

/-- A fill adds an entry as young as the last write. -/
lemma filled {key : String} {e : String × ℕ} (mem : e ∈ (s.cache.set key s.writes).entries) :
    e ∈ s.cache.entries ∨ s.writes ≤ e.2 := by
  rcases Dict.mem_entries_set mem with rfl | ⟨old, -⟩
  · exact .inr le_rfl
  · exact .inl old

/-- What a call relies on stays, whatever the others do. -/
lemma supports_step (inv : ∀ call ∈ s.calls, call.Supports r s) (taken : s.step r m = some s') :
    ∀ call ∈ s'.calls, call.Supports r s' := by
  cases m with
  | write =>
    cases taken
    exact fun call mem => (inv call mem).mono (Nat.le_succ _) fun e old => .inl old
  | onLedgerEvent write ledgerSeq =>
    rw [System.step] at taken
    split at taken
    case isTrue written =>
      split at taken
      case isTrue =>
        cases taken
        refine Machine.forall_snoc (fun call mem => ?_) ⟨written, fun left => absurd rfl left⟩
        exact (inv call mem).mono le_rfl fun e old => .inl old
      case isFalse =>
        cases taken
        refine Machine.forall_snoc (fun call mem => ?_) ⟨written, fun _ => ⟨[], rfl, fun e _ pattern before => ?_⟩⟩
        · exact (inv call mem).mono le_rfl fun e old => .inl old
        · exact absurd before List.not_mem_nil
    case isFalse => cases taken
  | purge i =>
    rw [System.step] at taken
    split at taken
    case h_1 write pattern patterns found =>
      cases taken
      have purged : Call.Supports r { s with
          cache := r.deletePattern s.cache pattern, calls := s.calls.set i ⟨write, patterns⟩ } ⟨write, patterns⟩ :=
        (inv _ (List.mem_of_getElem? found)).purge rfl rfl
      refine fun call mem => Machine.forall_set found (fun call mem => ?_) (fun _ => purged) mem
      exact (inv call mem).mono le_rfl fun e old => .inl (mem_deletePattern old).1
    case h_2 => cases taken
  | fill key =>
    cases taken
    exact fun call mem => (inv call mem).mono le_rfl fun e => filled

/-- A step keeps the property exactly where it is timely. -/
lemma fresh_step_iff (inv : ∀ call ∈ s.calls, call.Supports r s) (fresh : Fresh r s) (taken : s.step r m = some s') :
    Fresh r s' ↔ s.isTimely r m = true := by
  cases m with
  | write =>
    cases taken
    exact iff_of_true fresh rfl
  | onLedgerEvent write ledgerSeq =>
    rw [System.step] at taken
    split at taken
    case isTrue written =>
      split at taken
      case isTrue coalesced =>
        cases taken
        rw [System.isTimely, coalesced, decide_eq_true written]
        refine ⟨fun fresh' => ?_, fun fresh' => ?_⟩
        · exact fresh' ⟨write, []⟩ (List.mem_append_right _ List.mem_cons_self) rfl
        · exact Machine.forall_snoc fresh fun _ => fresh'
      case isFalse purges =>
        cases taken
        refine iff_of_true (Machine.forall_snoc fresh fun none => freshFor_iff.2 fun e _ ruled => ?_) ?_
        · -- a rule without patterns has no keys
          have empty : r.patterns = [] := none
          rw [Rules.isRuled, empty] at ruled
          cases ruled
        · rw [System.isTimely, Bool.eq_false_of_not_eq_true purges]
          rfl
    case isFalse => cases taken
  | purge i =>
    rw [System.step] at taken
    split at taken
    case h_1 write pattern patterns found =>
      cases taken
      -- a call that returned before, or the last purge of this one
      refine iff_of_true (fun call mem returned => ?_) rfl
      rcases List.mem_or_eq_of_mem_set mem with old | rfl
      · exact freshFor_mono (fresh call old returned) (inv call old).written fun e mem => .inl (mem_deletePattern mem).1
      · cases returned
        exact freshFor_purged (inv _ (List.mem_of_getElem? found)) rfl
    case h_2 => cases taken
  | fill key =>
    cases taken
    -- what is filled now is computed from all writes
    refine iff_of_true (fun call mem returned => ?_) rfl
    exact freshFor_mono (fresh call mem returned) (inv call mem).written fun e => filled

/-- The caches are fresh throughout a run if and only if every call that purges nothing finds nothing older than its
write. -/
theorem fresh_iff_timely {writes : ℕ} {cache : Dict String ℕ} {trace : List Move} {s : System}
    (run : Machine.exec (System.step r) (System.initial writes cache) trace = some s) :
    Machine.Always (System.step r) (Fresh r) (System.initial writes cache) trace ↔
      Machine.Guarded (System.step r) (fun s m => s.isTimely r m = true) (System.initial writes cache) trace := by
  refine Machine.always_iff_guarded (I := fun s => ∀ call ∈ s.calls, call.Supports r s)
    (fun call mem => absurd mem List.not_mem_nil) (fun call mem => absurd mem List.not_mem_nil)
    (fun s m s' inv _ taken => supports_step inv taken) (fun s m s' inv fresh taken => ?_) run
  exact fresh_step_iff inv fresh taken

/-- The ledger rule of `DEFAULT_INVALIDATION_RULES`, and patterns that end in a star. -/
def sampleRules : Rules where
  rules := {
    entries := [("ledger", ["market-rates:*", "history:*", "stats:*", "intelligence:*", "derived:*", "assets:*"]),
      ("price", ["market-rates:*", "history:*", "stats:*", "intelligence:*", "derived:*"])]
    nodup := by decide }
  globs := fun pattern key => pattern.toList.dropLast.isPrefixOf key.toList

/-- A price of ledger 7 is written, reported and purged. -/
def sampleTrace : List Move :=
  [.fill "stats:a", .write, .onLedgerEvent 1 7, .purge 0, .purge 0, .purge 0, .purge 0, .purge 0, .purge 0]

/-- The cache is filled again, from the price of the ledger. -/
theorem fresh_iff_timely_sample : Machine.Always (System.step sampleRules) (Fresh sampleRules)
    (System.initial 0 Dict.empty) (sampleTrace ++ [.fill "stats:a"]) := by
  have run : (Machine.exec (System.step sampleRules) (System.initial 0 Dict.empty)
      (sampleTrace ++ [.fill "stats:a"])).isSome = true := by decide +kernel
  obtain ⟨s, reached⟩ := Option.isSome_iff_exists.1 run
  exact (fresh_iff_timely reached).2 (by decide +kernel)

/-- A second price of the ledger is written after that: its call purges nothing. -/
theorem stale_after_ledgerEvent : ¬Machine.Always (System.step sampleRules) (Fresh sampleRules)
    (System.initial 0 Dict.empty) (sampleTrace ++ [.fill "stats:a", .write, .onLedgerEvent 2 7]) := by
  intro always
  have run : (Machine.exec (System.step sampleRules) (System.initial 0 Dict.empty)
      (sampleTrace ++ [.fill "stats:a", .write, .onLedgerEvent 2 7])).map (fun s =>
        (s.calls, s.freshFor sampleRules 2)) = some ([⟨1, []⟩, ⟨2, []⟩], false) := by decide +kernel
  obtain ⟨s, reached, facts⟩ := Option.map_eq_some_iff.1 run
  obtain ⟨calls, stale⟩ := Prod.mk.inj facts
  have fresh := always _ s (List.prefix_refl _) reached ⟨2, []⟩ (by rw [calls]; decide) rfl
  exact absurd fresh (ne_true_of_eq_false stale)

end StellarFlow.Cache
