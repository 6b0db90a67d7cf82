import StellarFlow.Treasury.Sweeper

/-!
# What sweeps claim and route

A claim is for the whole accrual of a row at the time of the call, and accrual does not decrease. The claims for a row
therefore stay within what it has accrued exactly when each of them starts afresh: a second claim takes once more what
the first has taken. What is routed has always been claimed before.
-/

open Machine

namespace StellarFlow.Treasury

variable {rt : Runtime} {sweeper : TreasuryYieldSweeper} {allocation : TreasuryYieldAllocation}

/-- What accrues in a time without the checks on it. -/
lemma accrued_eq {time : ℤ} {reward : ℚ} (accrued : allocation.accrued rt time = some reward) :
    reward = 0 ∨ allocation.windowStart < time ∧ 0 < rt.totalSeconds (time - allocation.windowStart) ∧
      Decimal.quantize precision 7
        (Decimal.mul precision (Decimal.mul precision allocation.amount allocation.apy)
          (Decimal.div precision (rt.totalSeconds (time - allocation.windowStart)) secondsPerYear)) = some reward := by
  rw [TreasuryYieldAllocation.accrued, calculateUncollectedRewards] at accrued
  split at accrued
  · cases accrued
    exact .inl rfl
  · rename_i late
    dsimp only at accrued
    split at accrued
    · cases accrued
      exact .inl rfl
    · rename_i elapsed
      exact .inr ⟨not_le.1 late, not_le.1 elapsed, accrued⟩

/-- A year never yields less than nothing. -/
lemma yearly_nonneg : 0 ≤ Decimal.mul precision allocation.amount allocation.apy :=
  Decimal.rounded_nonneg (mul_nonneg allocation.amount_nonneg allocation.apy_nonneg)

/-- The fraction of a year that has passed is not negative. -/
lemma fraction_nonneg {elapsed : ℚ} (nonneg : 0 ≤ elapsed) : 0 ≤ Decimal.div precision elapsed secondsPerYear :=
  Decimal.rounded_nonneg (div_nonneg nonneg (by norm_num [secondsPerYear]))

/-- No accrual is below zero. -/
lemma accrued_nonneg {time : ℤ} {reward : ℚ} (accrued : allocation.accrued rt time = some reward) : 0 ≤ reward := by
  rcases accrued_eq accrued with rfl | ⟨-, elapsed, quantized⟩
  · exact le_rfl
  · exact Decimal.quantize_nonneg (Decimal.rounded_nonneg (mul_nonneg yearly_nonneg (fraction_nonneg elapsed.le)))
      quantized

/-- What a row has accrued does not decrease. -/
lemma accrued_mono {time time' : ℤ} {reward reward' : ℚ} (le : time ≤ time')
    (accrued : allocation.accrued rt time = some reward) (accrued' : allocation.accrued rt time' = some reward') :
    reward ≤ reward' := by
  rcases accrued_eq accrued with rfl | ⟨late, elapsed, quantized⟩
  · exact accrued_nonneg accrued'
  have longer : rt.totalSeconds (time - allocation.windowStart) ≤ rt.totalSeconds (time' - allocation.windowStart) :=
    rt.totalSeconds_mono _ _ (by omega)
  have elapsed' : 0 < rt.totalSeconds (time' - allocation.windowStart) := elapsed.trans_le longer
  rw [TreasuryYieldAllocation.accrued, calculateUncollectedRewards, if_neg (by omega)] at accrued'
  dsimp only at accrued'
  rw [if_neg (not_le.2 elapsed')] at accrued'
  have fractions : Decimal.div precision (rt.totalSeconds (time - allocation.windowStart)) secondsPerYear ≤
      Decimal.div precision (rt.totalSeconds (time' - allocation.windowStart)) secondsPerYear := by
    refine Decimal.rounded_mono (by decide) (div_nonneg elapsed.le ?_) ?_
    · norm_num [secondsPerYear]
    · exact div_le_div_of_nonneg_right longer (by norm_num [secondsPerYear])
  refine Decimal.quantize_mono (Decimal.rounded_mono (by decide) ?_ ?_) quantized accrued'
  · exact mul_nonneg yearly_nonneg (fraction_nonneg elapsed.le)
  · exact mul_le_mul_of_nonneg_left fractions yearly_nonneg

/-- The rows that a call has still to evaluate. -/
def Point.pending : Point → List (String × TreasuryYieldAllocation)
  | .idle => []
  | .evaluating call => call.pending
  | .claiming call _ | .claimed call _ _ | .routing call _ | .routed call _ _ => call.pending

/-- The position that a call is processing. -/
def Point.position? : Point → Option Position
  | .idle | .evaluating _ => none
  | .claiming _ position | .claimed _ position _ | .routing _ position | .routed _ position _ => some position

/-- What a call has claimed and not yet routed. -/
def Point.unrouted : Point → ℚ
  | .claimed _ position _ | .routing _ position => position.uncollectedAmount
  | _ => 0

variable {s t : System} {m : Move}

variable (rt sweeper) in
/-- What a step can do: the worker writes a row that is not staked, a call begins, evaluates a row it will claim for, or
succeeds in a submission; otherwise it only goes on or ends. -/
inductive Step (s : System) : Move → System → Prop
  | stake {id : String} {allocation : TreasuryYieldAllocation}
      (free : ∀ existing, s.allocations.get? id = some existing → existing.status ≠ .staked) :
      Step s (.stake id allocation) { s with allocations := s.allocations.set id allocation }
  | begin {currentTime : ℤ} {assetPricesUsd : Option (Dict String ℚ)} {prices : Dict String ℚ}
      {strategies : Dict String String} {allocations : List (String × TreasuryYieldAllocation)}
      (le : s.now ≤ currentTime) (fetched : allocations.Perm s.fetchActiveStakedAllocations) :
      Step s (.sweepStakedRewards currentTime assetPricesUsd strategies allocations)
        { s with now := currentTime, point := .evaluating { prices, strategies, pending := allocations } }
  | evaluate {call : Call} {row : String × TreasuryYieldAllocation} {pending : List (String × TreasuryYieldAllocation)}
      {position : Position} {sweeps : Dict String TreasuryYieldSweep} (at_ : s.point = .evaluating call)
      (next : call.pending = row :: pending) (evaluated : call.position rt s.now row.1 row.2 = some position) :
      Step s .evaluate { s with sweeps, point := .claiming { call with pending } position }
  | claim {call : Call} {position : Position} {hash : String} (at_ : s.point = .claiming call position) :
      Step s (.submitClaim (.ok hash))
        { s with point := .claimed call position hash, claims := s.claims ++ [position.claim] }
  | route {call : Call} {position : Position} {hash : String} (at_ : s.point = .routing call position) :
      Step s (.submitRoute (.ok hash))
        { s with point := .routed call position hash, routes := s.routes ++ [position.route sweeper] }
  | goOn {m : Move} {sweeps : Dict String TreasuryYieldSweep} {point : Point}
      (afresh : s.ClaimsAfresh m) (pending : point.pending ⊆ s.point.pending)
      (position : point.position? = none ∨ point.position? = s.point.position?)
      (unrouted : point.unrouted = 0 ∨ point.unrouted = s.point.unrouted) :
      Step s m { s with sweeps, point }

/-- A call that ends. -/
lemma Step.ends {m : Move} {sweeps : Dict String TreasuryYieldSweep} (afresh : s.ClaimsAfresh m) :
    Step rt sweeper s m { s with sweeps, point := .idle } :=
  .goOn afresh (List.nil_subset _) (.inl rfl) (.inl rfl)

/-- An evaluation is one of the steps named. -/
lemma step_evaluate {call : Call} (at_ : s.point = .evaluating call) :
    Step rt sweeper s .evaluate (s.evaluate rt sweeper call) := by
  rw [System.evaluate]
  split
  · exact .ends trivial
  · rename_i row pending next
    split
    · exact .ends trivial
    · rename_i position evaluated
      rw [System.processSweepPosition]
      split
      · exact .ends trivial
      · split
        · refine .goOn trivial ?_ (.inl rfl) (.inl rfl)
          rw [at_]
          show pending ⊆ call.pending
          rw [next]
          exact List.subset_cons_self _ _
        · exact .evaluate at_ next evaluated

/-- A new stake is one of the steps named. -/
lemma step_stake {id : String} (next : s.step rt sweeper (.stake id allocation) = some t) :
    Step rt sweeper s (.stake id allocation) t := by
  rw [System.step] at next
  split at next
  · rename_i existing found
    split at next
    · cases next
      exact @Step.goOn rt sweeper s _ s.sweeps s.point trivial (List.Subset.refl _) (.inr rfl) (.inr rfl)
    · rename_i free
      cases next
      refine .stake fun other found' => ?_
      cases found.symm.trans found'
      exact free
  · rename_i absent
    cases next
    refine .stake fun other found' => ?_
    cases absent.symm.trans found'

/-- A commit is one of the steps named. -/
lemma step_commit {clock : ℤ} (next : s.step rt sweeper (.commit clock) = some t) :
    Step rt sweeper s (.commit clock) t := by
  rw [System.step] at next
  split at next
  · rename_i call position hash at_
    cases next
    refine .goOn trivial ?_ (.inr ?_) (.inr ?_)
    · rw [at_]
      exact List.Subset.refl _
    · rw [at_]
      rfl
    · rw [at_]
      rfl
  · rename_i call position hash at_
    cases next
    refine .goOn trivial ?_ (.inl rfl) (.inl rfl)
    rw [at_]
    exact List.Subset.refl _
  · cases next

/-- Each step of the model is one of those named. -/
lemma step_cases (next : s.step rt sweeper m = some t) : Step rt sweeper s m t := by
  cases m with
  | stake id allocation => exact step_stake next
  | sweepStakedRewards currentTime assetPricesUsd strategies allocations =>
    rw [System.step] at next
    split at next
    · split at next
      · rename_i met
        cases next
        exact .begin met.1 met.2
      · cases next
    · cases next
  | evaluate =>
    rw [System.step] at next
    split at next
    · rename_i call at_
      cases next
      exact step_evaluate at_
    · cases next
  | submitClaim result =>
    rw [System.step] at next
    split at next
    · rename_i call position at_
      cases result with
      | ok hash =>
        cases next
        exact .claim at_
      | error error =>
        cases next
        exact .ends trivial
    · cases next
  | submitRoute result =>
    rw [System.step] at next
    split at next
    · rename_i call position at_
      cases result with
      | ok hash =>
        cases next
        exact .route at_
      | error error =>
        cases next
        exact .ends trivial
    · cases next
  | commit clock => exact step_commit next
  | interrupt =>
    cases next
    exact .ends trivial

variable (rt) in
/-- A call processes staked rows of the table, of which it has computed what they have accrued, the claims are for
staked rows, and what is routed or still to be routed has been claimed. -/
structure System.Sound (s : System) : Prop where
  pending : ∀ row ∈ s.point.pending, s.allocations.get? row.1 = some row.2 ∧ row.2.status = .staked
  position : ∀ position, s.point.position? = some position →
    s.allocations.get? position.allocationId = some position.allocation ∧ position.allocation.status = .staked ∧
      position.allocation.accrued rt s.now = some position.uncollectedAmount
  claims : ∀ claim ∈ s.claims, ∃ allocation,
    s.allocations.get? claim.allocationId = some allocation ∧ allocation.status = .staked
  routed : s.totalRouted + s.point.unrouted ≤ s.totalClaimed

/-- At the start nothing is claimed. -/
lemma sound_start (now : ℤ) : (System.start now).Sound rt where
  pending := by simp [System.start, Point.pending]
  position := by simp [System.start, Point.position?]
  claims := by simp [System.start]
  routed := by simp [System.start, System.totalRouted, System.totalClaimed, Point.unrouted]

/-- What is still to be routed is not negative. -/
lemma unrouted_nonneg (sound : s.Sound rt) : 0 ≤ s.point.unrouted := by
  cases point : s.point with
  | claimed call position hash => exact accrued_nonneg (sound.position position (by rw [point]; rfl)).2.2
  | routing call position => exact accrued_nonneg (sound.position position (by rw [point]; rfl)).2.2
  | _ => exact le_rfl

/-- A row that is staked stays as it is. -/
lemma get?_stake {id other : String} {allocation row : TreasuryYieldAllocation}
    (free : ∀ existing, s.allocations.get? id = some existing → existing.status ≠ .staked)
    (found : s.allocations.get? other = some row) (staked : row.status = .staked) :
    (s.allocations.set id allocation).get? other = some row := by
  rw [Dict.get?_set, if_neg]
  · exact found
  · rintro rfl
    exact free row found staked

/-- A position has its allocation and what that accrued. -/
lemma position_of_evaluated {call : Call} {now : ℤ} {id : String} {position : Position}
    (evaluated : call.position rt now id allocation = some position) :
    position.allocationId = id ∧ position.allocation = allocation ∧
      allocation.accrued rt now = some position.uncollectedAmount := by
  obtain ⟨amount, accrued, evaluated⟩ := Option.bind_eq_some_iff.1 evaluated
  obtain ⟨value, -, evaluated⟩ := Option.bind_eq_some_iff.1 evaluated
  cases evaluated
  exact ⟨rfl, rfl, accrued⟩

/-- A claim adds to the total claimed. -/
lemma totalClaimed_claim {position : Position} :
    ((s.claims ++ [position.claim]).map Claim.amount).sum = s.totalClaimed + position.uncollectedAmount := by
  simp [System.totalClaimed, Position.claim]

/-- A route adds to the total routed. -/
lemma totalRouted_route {position : Position} :
    ((s.routes ++ [position.route sweeper]).map Route.amount).sum =
      s.totalRouted + position.uncollectedAmount := by
  simp [System.totalRouted, Position.route]

/-- What is claimed becomes what is still to be routed. -/
lemma sound_claim {call : Call} {position : Position} {hash : String} (sound : s.Sound rt)
    (at_ : s.point = .claiming call position) :
    System.Sound rt { s with point := .claimed call position hash, claims := s.claims ++ [position.claim] } := by
  obtain ⟨pending, current, claims, routed⟩ := sound
  rw [at_] at pending current routed
  refine ⟨pending, current, fun claim mem => ?_, ?_⟩
  · rcases List.mem_append.1 mem with mem | mem
    · exact claims claim mem
    · rw [List.mem_singleton.1 mem]
      obtain ⟨found, staked, -⟩ := current position rfl
      exact ⟨position.allocation, found, staked⟩
  · show s.totalRouted + position.uncollectedAmount ≤ ((s.claims ++ [position.claim]).map Claim.amount).sum
    have before : s.totalRouted + 0 ≤ s.totalClaimed := routed
    rw [totalClaimed_claim]
    linarith

/-- What is routed has been claimed before. -/
lemma sound_route {call : Call} {position : Position} {hash : String} (sound : s.Sound rt)
    (at_ : s.point = .routing call position) :
    System.Sound rt
      { s with point := .routed call position hash, routes := s.routes ++ [position.route sweeper] } := by
  obtain ⟨pending, current, claims, routed⟩ := sound
  rw [at_] at pending current routed
  refine ⟨pending, current, claims, ?_⟩
  show ((s.routes ++ [position.route sweeper]).map Route.amount).sum + 0 ≤ s.totalClaimed
  have before : s.totalRouted + position.uncollectedAmount ≤ s.totalClaimed := routed
  rw [totalRouted_route]
  linarith

/-- An allocation is evaluated. -/
lemma sound_evaluate {call : Call} {row : String × TreasuryYieldAllocation}
    {pending : List (String × TreasuryYieldAllocation)} {position : Position}
    {sweeps : Dict String TreasuryYieldSweep} (sound : s.Sound rt) (at_ : s.point = .evaluating call)
    (next : call.pending = row :: pending) (evaluated : call.position rt s.now row.1 row.2 = some position) :
    System.Sound rt { s with sweeps, point := .claiming { call with pending } position } := by
  obtain ⟨within, -, claims, routed⟩ := sound
  rw [at_] at within routed
  change ∀ row ∈ call.pending, _ at within
  rw [next] at within
  refine ⟨fun row mem => within row (List.mem_cons_of_mem _ mem), fun position' eq => ?_, claims, routed⟩
  cases eq
  obtain ⟨found, staked⟩ := within row List.mem_cons_self
  obtain ⟨id, row_, accrued⟩ := position_of_evaluated evaluated
  rw [id, row_]
  exact ⟨found, staked, accrued⟩

/-- Each step keeps soundness. -/
lemma sound_step (sound : s.Sound rt) (step : Step rt sweeper s m t) : t.Sound rt := by
  cases step with
  | stake free =>
    refine ⟨fun row mem => ?_, fun position eq => ?_, fun claim mem => ?_, sound.routed⟩
    · obtain ⟨found, staked⟩ := sound.pending row mem
      exact ⟨get?_stake free found staked, staked⟩
    · obtain ⟨found, staked, accrued⟩ := sound.position position eq
      exact ⟨get?_stake free found staked, staked, accrued⟩
    · obtain ⟨allocation, found, staked⟩ := sound.claims claim mem
      exact ⟨allocation, get?_stake free found staked, staked⟩
  | begin le fetched =>
    refine ⟨fun row mem => ?_, fun position eq => (by cases eq), sound.claims, ?_⟩
    · have mem' : row ∈ s.fetchActiveStakedAllocations := fetched.subset mem
      obtain ⟨stored, staked⟩ := List.mem_filter.1 mem'
      exact ⟨Dict.get?_of_mem stored, of_decide_eq_true staked⟩
    · have unrouted := unrouted_nonneg sound
      have routed := sound.routed
      show s.totalRouted + 0 ≤ s.totalClaimed
      linarith
  | evaluate at_ next evaluated => exact sound_evaluate sound at_ next evaluated
  | claim at_ => exact sound_claim sound at_
  | route at_ => exact sound_route sound at_
  | @goOn m sweeps point afresh pending position unrouted =>
    refine ⟨fun row mem => sound.pending row (pending mem), fun other eq => ?_, sound.claims, ?_⟩
    · rcases position with none | same
      · cases none.symm.trans eq
      · exact sound.position other (same.symm.trans eq)
    · have routed := sound.routed
      show s.totalRouted + point.unrouted ≤ s.totalClaimed
      rcases unrouted with zero | same
      · have nonneg := unrouted_nonneg sound
        rw [zero]
        linarith
      · rw [same]
        exact routed

/-- An allocation that was never staked has no claims. -/
lemma claimsOf_eq_nil {id : String} (sound : s.Sound rt)
    (free : ∀ existing, s.allocations.get? id = some existing → existing.status ≠ .staked) : s.claimsOf id = [] := by
  refine List.filter_eq_nil_iff.2 fun claim mem same => ?_
  obtain ⟨allocation, found, staked⟩ := sound.claims claim mem
  rw [of_decide_eq_true same] at found
  exact free allocation found staked

variable (rt) in
/-- The claims for a row are within what it has accrued, from now on. -/
def System.RowWithin (s : System) (id : String) : Prop :=
  ∀ allocation, s.allocations.get? id = some allocation → allocation.status = .staked →
    ∀ time reward, s.now ≤ time → allocation.accrued rt time = some reward →
      s.claimed id ≤ reward + (s.claimsOf id).length / 10 ^ 7

/-- Without claims nothing is exceeded. -/
lemma rowWithin_of_claimsOf_eq_nil {id : String} (none : s.claimsOf id = []) : s.RowWithin rt id := by
  intro allocation _ _ time reward _ accrued
  rw [System.claimed, none]
  simpa using accrued_nonneg accrued

/-- A claim is one of its allocation. -/
lemma claimsOf_claim {position : Position} {point : Point} {id : String} :
    System.claimsOf { s with point, claims := s.claims ++ [position.claim] } id =
      if position.allocationId = id then s.claimsOf id ++ [position.claim] else s.claimsOf id := by
  rw [System.claimsOf, List.filter_append]
  by_cases same : position.allocationId = id
  · rw [if_pos same, List.filter_singleton]
    simp [System.claimsOf, Position.claim, same]
  · rw [if_neg same, List.filter_singleton]
    simp [System.claimsOf, Position.claim, same]

/-- A claim is fresh where those before it left the rounding of each. -/
lemma claimsAfresh_iff {call : Call} {position : Position} {hash : String} (at_ : s.point = .claiming call position) :
    s.ClaimsAfresh (.submitClaim (.ok hash)) ↔
      s.claimed position.allocationId ≤ ((s.claimsOf position.allocationId).length + 1) / 10 ^ 7 := by
  rw [System.ClaimsAfresh, at_]
  simp [Point.claiming?]

/-- A claim keeps the claims for its row within the accrual exactly when it starts afresh. -/
lemma rowWithin_claim {call : Call} {position : Position} {hash : String} (sound : s.Sound rt)
    (at_ : s.point = .claiming call position)
    (eq : t = { s with point := .claimed call position hash, claims := s.claims ++ [position.claim] }) :
    t.RowWithin rt position.allocationId ↔ s.ClaimsAfresh (.submitClaim (.ok hash)) := by
  obtain ⟨found, staked, amount⟩ := sound.position position (by rw [at_]; rfl)
  have claims : t.claimsOf position.allocationId = s.claimsOf position.allocationId ++ [position.claim] := by
    rw [eq, claimsOf_claim, if_pos rfl]
  have total : t.claimed position.allocationId = s.claimed position.allocationId + position.uncollectedAmount := by
    rw [System.claimed, claims]
    simp [System.claimed, Position.claim]
  have count : ((t.claimsOf position.allocationId).length : ℚ) = (s.claimsOf position.allocationId).length + 1 := by
    rw [claims]
    simp
  have allocations : t.allocations = s.allocations := by rw [eq]
  have now : t.now = s.now := by rw [eq]
  rw [claimsAfresh_iff at_, System.RowWithin, total, count, allocations, now]
  constructor
  · intro within
    have latest := within position.allocation found staked s.now position.uncollectedAmount le_rfl amount
    linarith
  · intro afresh allocation found' staked' time reward le accrued
    cases found.symm.trans found'
    have later : position.uncollectedAmount ≤ reward := accrued_mono le amount accrued
    linarith

/-- A step keeps the claims for a row within the accrual, but for a claim for it. -/
lemma rowWithin_step {id : String} (sound : s.Sound rt) (within : s.RowWithin rt id) (step : Step rt sweeper s m t)
    (other : ∀ position ∈ s.point.claiming?, position.allocationId = id → s.ClaimsAfresh m) : t.RowWithin rt id := by
  cases step with
  | @stake id' row free =>
    by_cases same : id = id'
    · subst same
      have none : s.claimsOf id = [] := claimsOf_eq_nil sound free
      exact rowWithin_of_claimsOf_eq_nil none
    · intro allocation found
      rw [Dict.get?_set, if_neg same] at found
      exact within allocation found
  | begin le fetched =>
    intro allocation found staked time reward le'
    exact within allocation found staked time reward (le.trans le')
  | evaluate at_ next evaluated => exact within
  | @claim call position hash at_ =>
    by_cases same : position.allocationId = id
    · subst same
      refine (rowWithin_claim sound at_ rfl).2 (other position ?_ rfl)
      rw [at_]
      exact rfl
    · have claims := @claimsOf_claim s position (.claimed call position hash) id
      rw [if_neg same] at claims
      intro allocation found staked time reward le accrued
      rw [System.claimed, claims]
      exact within allocation found staked time reward le accrued
  | route at_ => exact within
  | goOn afresh pending position unrouted => exact within

/-- Of sound states, a step leads to one with the claims within the accrual exactly when its claim starts afresh. -/
lemma within_step_iff (sound : s.Sound rt) (within : s.ClaimedWithinAccrual rt) (step : Step rt sweeper s m t) :
    t.ClaimedWithinAccrual rt ↔ s.ClaimsAfresh m := by
  have sound' : t.Sound rt := sound_step sound step
  constructor
  · intro within'
    cases step with
    | claim at_ => exact (rowWithin_claim sound at_ rfl).1 fun allocation found => within'.accrued _ allocation found
    | goOn afresh pending position unrouted => exact afresh
    | _ => trivial
  · intro afresh
    refine ⟨fun id => ?_, ?_⟩
    · exact rowWithin_step sound (within.accrued id) step fun _ _ _ => afresh
    · have unrouted := unrouted_nonneg sound'
      have routed := sound'.routed
      linarith

namespace System

/-- The claims for each staked row stay within what it has accrued, and what is routed within what is claimed, exactly
in the runs in which each claim is for a row of which nothing has been claimed. -/
theorem claimed_within_accrual_iff (rt : Runtime) (sweeper : TreasuryYieldSweeper) (now : ℤ) {trace : List Move}
    {last : System} (run : exec (step rt sweeper) (start now) trace = some last) :
    Always (step rt sweeper) (ClaimedWithinAccrual rt) (start now) trace ↔
      Guarded (step rt sweeper) ClaimsAfresh (start now) trace := by
  refine always_iff_guarded (I := Sound rt) (sound_start now) ?_ ?_ ?_ run
  · exact ⟨fun id => rowWithin_of_claimsOf_eq_nil rfl, le_rfl⟩
  · exact fun s m t sound _ next => sound_step sound (step_cases next)
  · exact fun s m t sound within next => within_step_iff sound within (step_cases next)

/-- What is routed has been claimed, in every run. -/
theorem routed_le_claimed (rt : Runtime) (sweeper : TreasuryYieldSweeper) (now : ℤ) (trace : List Move) :
    Always (step rt sweeper) (fun s => s.totalRouted ≤ s.totalClaimed) (start now) trace := by
  have always : Always (step rt sweeper) (Sound rt) (start now) trace :=
    always_of_invariant (sound_start now) (fun s m t sound next => sound_step sound (step_cases next)) trace
  intro pre s le reached
  have sound := always pre s le reached
  have unrouted := unrouted_nonneg sound
  have routed := sound.routed
  linarith

/-- The texts of two times, half a year after the beginning of 1970 and a quarter of an hour later, and the digests that
are made of them. -/
def sampleRuntime : Runtime where
  sha256 text :=
    if text = "sweep:vault_usdc_staking:1970-07-02T12:00:00+00:00" then
      "d9a6a77e5de7b2ea62b7739fb6f052b4a075234b5e7f1922651bddd23014cf9f"
    else if text = "sweep:vault_usdc_staking:1970-07-02T12:15:00+00:00" then
      "3d07d6b6df35b043aa955e4d92e8926a9f0e4de9620708c3cbe5a90d47fcb2e0"
    else text
  isoformat timestamp :=
    if timestamp = 15768000 * 10 ^ 6 then "1970-07-02T12:00:00+00:00"
    else if timestamp = 15768900 * 10 ^ 6 then "1970-07-02T12:15:00+00:00"
    else toString timestamp
  totalSeconds delta := delta / 10 ^ 6
  totalSeconds_mono := fun _ _ le => div_le_div_of_nonneg_right (Int.cast_le.2 le) (by norm_num)
  totalSeconds_eq := fun _ _ _ => rfl

def defaultSweeper : TreasuryYieldSweeper where
  claimThresholdUsd := 500
  defaultReservePoolId := "pool_usdc_xlm_reserve"
  claimThresholdUsd_pos := by norm_num

/-- 100000 at 10 % a year. -/
def stakedAllocation : TreasuryYieldAllocation where
  strategyId := "vault_usdc_staking"
  vaultAddress := "CVAULT_USDC"
  amount := 100000
  apy := 1 / 10
  status := .staked
  windowStart := 0
  amount_nonneg := by norm_num
  apy_nonneg := by norm_num

/-- A sweep of this row that claims and routes. -/
def sweepTrace (currentTime : ℤ) : List Move :=
  [.sweepStakedRewards currentTime none Dict.empty [("alloc-1", stakedAllocation)], .evaluate,
    .submitClaim (.ok "claim"), .commit currentTime, .submitRoute (.ok "route"), .commit currentTime, .evaluate]

/-- A sweep after half a year, and the next one a quarter of an hour later. -/
def twoSweeps : List Move :=
  .stake "alloc-1" stakedAllocation :: (sweepTrace (15768000 * 10 ^ 6) ++ sweepTrace (15768900 * 10 ^ 6))

/-- The second sweep claims the rewards of the half year once more. -/
theorem sweeping_twice_run :
    ∃ s, exec (step sampleRuntime defaultSweeper) (start 0) twoSweeps = some s ∧
      ¬s.ClaimedWithinAccrual sampleRuntime := by
  have reached : (exec (step sampleRuntime defaultSweeper) (start 0) twoSweeps).map
      (fun s => (s.now, s.allocations.get? "alloc-1", s.claimed "alloc-1", (s.claimsOf "alloc-1").length)) =
      some (15768900 * 10 ^ 6, some stakedAllocation, 5000 + 50002853881 / 10 ^ 7, 2) := by decide +kernel
  have accrued : stakedAllocation.accrued sampleRuntime (15768900 * 10 ^ 6) = some (50002853881 / 10 ^ 7) := by
    decide +kernel
  obtain ⟨s, run, eq⟩ := Option.map_eq_some_iff.1 reached
  simp only [Prod.mk.injEq] at eq
  obtain ⟨now, found, claimed, count⟩ := eq
  refine ⟨s, run, fun within => ?_⟩
  have bound := within.accrued "alloc-1" stakedAllocation found rfl _ _ now.le accrued
  rw [claimed, count] at bound
  norm_num at bound

/-- With one sweep the claims are within the accrual. -/
theorem claimed_within_accrual_one_sweep :
    Always (step sampleRuntime defaultSweeper) (ClaimedWithinAccrual sampleRuntime) (start 0)
      (.stake "alloc-1" stakedAllocation :: sweepTrace (15768000 * 10 ^ 6)) := by
  have some : (exec (step sampleRuntime defaultSweeper) (start 0)
      (.stake "alloc-1" stakedAllocation :: sweepTrace (15768000 * 10 ^ 6))).isSome := by decide +kernel
  obtain ⟨s, run⟩ := Option.isSome_iff_exists.1 some
  exact (claimed_within_accrual_iff sampleRuntime defaultSweeper 0 run).2 (by decide +kernel)

end System
end StellarFlow.Treasury
