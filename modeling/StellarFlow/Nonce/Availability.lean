import StellarFlow.Nonce.Window

/-!
# Free slots of the nonce window

`available_slots` measures the distance from the base to the highest issued nonce, `acquire` counts the
nonces in flight. Runs here also contain `sync`, and `acknowledge` may be given any nonce. In a reachable
state the number of free slots predicts the acquisitions to come exactly when the window is contiguous,
and it does so throughout a run exactly when every acknowledged nonce that is in flight is the base
(`availableSlots_predicts_iff_contiguous`).
-/

namespace StellarFlow.Nonce
open Machine

/-- A call on a window that may also be synchronised. -/
inductive SlotCall where
  | acquire (account : String) (seed : Option ℤ)
  | acknowledge (account : String) (nonce : ℤ)
  | sync (account : String) (base : ℤ)

namespace NonceWindow

/-- One call, as a step that is always enabled. -/
def slotStep (w : NonceWindow) : SlotCall → Option NonceWindow
  | .acquire account seed => some (w.acquire account seed).2
  | .acknowledge account nonce => some (w.acknowledge account nonce)
  | .sync account base => some (w.sync account base)

/-- The state after acquisitions for one account, with the seeds they were given. -/
def afterAcquires (account : String) (w : NonceWindow) (seeds : List (Option ℤ)) : NonceWindow :=
  after (fun w seed => w.acquire account seed) w seeds

/-- With `k` available slots the next `k` acquisitions succeed and one more raises. -/
def PredictsAcquire (w : NonceWindow) (account : String) : Prop :=
  ∀ seeds seed, (seeds.length : ℤ) = w.availableSlots account →
    (∀ result ∈ answers (fun w seed => w.acquire account seed) w seeds, ∃ nonce, result = .ok nonce) ∧
    ((afterAcquires account w seeds).acquire account seed).1 =
      .error (.runtimeError s!"Nonce window for {Py.repr account} is exhausted")

end NonceWindow

/-- The condition on a step: a nonce of the account that is acknowledged in flight is the base. -/
def InTurn (account : String) (w : NonceWindow) : SlotCall → Prop
  | .acknowledge a nonce => a = account → ∀ r, w.windows account = some r → nonce ∈ r.issued → nonce = r.base
  | _ => True

/-- What every reachable window of an account satisfies. -/
structure AccountWindow.Bounded (windowSize : ℕ) (r : AccountWindow) : Prop where
  base_le : r.base ≤ r.maxIssued + 1
  inWindow : ∀ n ∈ r.issued, r.base ≤ n ∧ n ≤ r.maxIssued
  span_le : r.maxIssued - r.base + 1 ≤ windowSize

namespace AccountWindow.Bounded
variable {windowSize : ℕ} {r : AccountWindow}

/-- A new window is empty. -/
lemma opened (windowSize : ℕ) (base : ℤ) : Bounded windowSize (.opened base) where
  base_le := by simp [AccountWindow.opened]
  inWindow := by simp [AccountWindow.opened]
  span_le := by simp [AccountWindow.opened]

/-- A nonce is acquired where there is room. -/
lemma acquire (bounded : Bounded windowSize r) (room : r.issued.card < windowSize) :
    Bounded windowSize { r with
      issued := insert (r.base + r.issued.card) r.issued
      maxIssued := max r.maxIssued (r.base + r.issued.card) } := by
  have base_le := bounded.base_le
  have span_le := bounded.span_le
  constructor
  · show r.base ≤ max r.maxIssued (r.base + r.issued.card) + 1
    omega
  · intro n mem
    rcases Finset.mem_insert.mp mem with rfl | mem
    · exact ⟨Int.le_add_of_nonneg_right (Int.natCast_nonneg _), le_max_right _ _⟩
    · obtain ⟨low, high⟩ := bounded.inWindow n mem
      exact ⟨low, high.trans (le_max_left _ _)⟩
  · show max r.maxIssued (r.base + r.issued.card) - r.base + 1 ≤ windowSize
    omega

/-- An acknowledgement slides the window. -/
lemma acknowledge (bounded : Bounded windowSize r) (nonce : ℤ) :
    Bounded windowSize { r with
      base := NonceWindow.slide (r.issued.erase nonce) r.maxIssued
        (r.maxIssued + 1 - r.base).toNat r.base
      issued := r.issued.erase nonce } := by
  obtain ⟨low, high, -, first⟩ :=
    NonceWindow.slide_spec (r.issued.erase nonce) le_rfl bounded.base_le
  have span_le := bounded.span_le
  constructor
  · exact high
  · intro n mem
    obtain ⟨base, max⟩ := bounded.inWindow n (Finset.mem_of_mem_erase mem)
    exact ⟨first n mem base, max⟩
  · show r.maxIssued - NonceWindow.slide _ _ _ r.base + 1 ≤ windowSize
    omega

/-- Acquiring the next nonce keeps the window contiguous. -/
lemma contiguous_acquire (bounded : Bounded windowSize r) (contiguous : r.Contiguous) :
    AccountWindow.Contiguous { r with
      issued := insert (r.base + r.issued.card) r.issued
      maxIssued := max r.maxIssued (r.base + r.issued.card) } := by
  have card := AccountWindow.card_of_contiguous bounded.inWindow bounded.base_le contiguous
  intro n low high
  have le : n ≤ max r.maxIssued (r.base + r.issued.card) := high
  apply Finset.mem_insert.mpr
  by_cases last : n = r.base + r.issued.card
  · exact .inl last
  · exact .inr (contiguous n low (by omega))

/-- A contiguous window stays so through an acknowledgement exactly when the nonce is the base or no
longer in flight. -/
lemma contiguous_acknowledge_iff (bounded : Bounded windowSize r) (contiguous : r.Contiguous) (nonce : ℤ) :
    AccountWindow.Contiguous { r with
        base := NonceWindow.slide (r.issued.erase nonce) r.maxIssued
          (r.maxIssued + 1 - r.base).toNat r.base
        issued := r.issued.erase nonce } ↔
      (nonce ∈ r.issued → nonce = r.base) := by
  obtain ⟨low, -, stop, first⟩ :=
    NonceWindow.slide_spec (r.issued.erase nonce) le_rfl bounded.base_le
  constructor
  · intro kept inFlight
    by_contra other
    obtain ⟨above, high⟩ := bounded.inWindow nonce inFlight
    -- the base stays in flight and stops the slide below the hole
    have front : r.base ∈ r.issued.erase nonce :=
      Finset.mem_erase.mpr ⟨Ne.symm other, contiguous _ le_rfl (above.trans high)⟩
    have hole := kept nonce ((first _ front le_rfl).trans above) high
    exact absurd hole (Finset.notMem_erase nonce _)
  · intro turn n above high
    have mem := contiguous n (low.trans above) high
    refine Finset.mem_erase.mpr ⟨?_, mem⟩
    rintro rfl
    have base := turn mem
    apply stop
    have here := low.antisymm (above.trans (le_of_eq base))
    exact ⟨above.trans high, fun mem' => Finset.notMem_erase n _ (by rwa [← here, ← base] at mem')⟩

end AccountWindow.Bounded

namespace NonceWindow
variable {w : NonceWindow} {account : String} {r : AccountWindow}

/-- An account that has a window needs no seed. -/
lemma acquire_seeded (seeded : w.windows account = some r) (seed : Option ℤ) :
    w.acquire account seed = w.acquireSeeded account r := by
  simp only [acquire, seeded]

/-- An `acquire` does not change the size of the windows. -/
lemma acquire_windowSize (w : NonceWindow) (account : String) (seed : Option ℤ) :
    (w.acquire account seed).2.windowSize = w.windowSize := by
  obtain stored | ⟨r, stored⟩ := Option.eq_none_or_eq_some (w.windows account)
  · cases seed with
    | none => simp only [acquire, stored]
    | some seed =>
      simp only [acquire, stored, acquireSeeded]
      split <;> rfl
  · simp only [acquire, stored, acquireSeeded]
    split <;> rfl

/-- A contiguous window with room gives a nonce and stays contiguous. -/
lemma acquire_contiguous (seeded : w.windows account = some r) (bounded : r.Bounded w.windowSize)
    (contiguous : r.Contiguous) (room : r.issued.card < w.windowSize) (seed : Option ℤ) :
    (∃ nonce, (w.acquire account seed).1 = .ok nonce) ∧
      ∃ r', (w.acquire account seed).2.windows account = some r' ∧ r'.Bounded w.windowSize ∧
        r'.Contiguous ∧ r'.issued.card = r.issued.card + 1 := by
  rw [acquire_seeded seeded, acquireSeeded_room account room]
  refine ⟨⟨_, rfl⟩, _, put_self .., bounded.acquire room, bounded.contiguous_acquire contiguous, ?_⟩
  apply Finset.card_insert_of_notMem
  intro mem
  have card := AccountWindow.card_of_contiguous bounded.inWindow bounded.base_le contiguous
  have high := (bounded.inWindow _ mem).2
  omega

/-- A run of acquisitions from a contiguous window with room for all of them. -/
lemma acquires_contiguous (seeds : List (Option ℤ)) (seeded : w.windows account = some r)
    (bounded : r.Bounded w.windowSize) (contiguous : r.Contiguous)
    (room : r.issued.card + seeds.length ≤ w.windowSize) :
    (∀ result ∈ answers (fun w seed => w.acquire account seed) w seeds, ∃ nonce, result = .ok nonce) ∧
      ∃ r', (afterAcquires account w seeds).windows account = some r' ∧
        r'.issued.card = r.issued.card + seeds.length := by
  induction seeds generalizing w r with
  | nil => exact ⟨fun _ mem => absurd mem List.not_mem_nil, r, seeded, rfl⟩
  | cons seed seeds ih =>
    rw [List.length_cons] at room
    obtain ⟨first, r', seeded', bounded', contiguous', card⟩ :=
      acquire_contiguous seeded bounded contiguous (by omega) seed
    have size := acquire_windowSize w account seed
    obtain ⟨rest, last, reached, total⟩ :=
      ih seeded' (size ▸ bounded') contiguous' (by rw [size]; omega)
    refine ⟨fun result mem => ?_, last, reached, by rw [total, List.length_cons]; omega⟩
    rcases List.mem_cons.mp mem with rfl | later
    · exact first
    · exact rest result later

/-- Several calls of `acquire` do not change the size of the windows. -/
lemma afterAcquires_windowSize (seeds : List (Option ℤ)) (w : NonceWindow) :
    (afterAcquires account w seeds).windowSize = w.windowSize := by
  induction seeds generalizing w with
  | nil => rfl
  | cons seed seeds ih => exact (ih _).trans (acquire_windowSize w account seed)

/-- Acquisitions add at most one nonce each. -/
lemma acquires_card_le (seeds : List (Option ℤ)) (seeded : w.windows account = some r) :
    ∃ r', (afterAcquires account w seeds).windows account = some r' ∧
      r'.issued.card ≤ r.issued.card + seeds.length := by
  induction seeds generalizing w r with
  | nil => exact ⟨r, seeded, le_rfl⟩
  | cons seed seeds ih =>
    have next : ∃ r', (w.acquire account seed).2.windows account = some r' ∧
        r'.issued.card ≤ r.issued.card + 1 := by
      by_cases room : r.issued.card < w.windowSize
      · rw [acquire_seeded seeded, acquireSeeded_room account room]
        exact ⟨_, put_self .., Finset.card_insert_le _ _⟩
      · rw [acquire_seeded seeded]
        simp only [acquireSeeded, ge_iff_le, if_pos (Nat.not_lt.mp room)]
        exact ⟨r, put_self .., Nat.le_succ _⟩
    obtain ⟨r', seeded', le⟩ := next
    obtain ⟨last, reached, total⟩ := ih seeded'
    refine ⟨last, reached, ?_⟩
    rw [List.length_cons]
    omega

/-- The available slots of a reachable window predict its acquisitions exactly when it is contiguous. -/
lemma predictsAcquire_iff (seeded : w.windows account = some r) (bounded : r.Bounded w.windowSize) :
    w.PredictsAcquire account ↔ r.Contiguous := by
  have span_le := bounded.span_le
  have slots : w.availableSlots account = w.windowSize - (r.maxIssued - r.base + 1) := by
    simp only [availableSlots, seeded]
    omega
  constructor
  · -- with a gap fewer nonces are in flight than the span says, and room is left after the last slot
    intro predicts
    by_contra gap
    have fewer := AccountWindow.card_of_not_contiguous bounded.inWindow gap
    have raised := (predicts (List.replicate (w.availableSlots account).toNat none) none
      (by rw [List.length_replicate]; omega)).2
    obtain ⟨r', seeded', le⟩ :=
      acquires_card_le (List.replicate (w.availableSlots account).toNat none) seeded
    rw [List.length_replicate] at le
    have room : r'.issued.card <
        (afterAcquires account w (List.replicate (w.availableSlots account).toNat none)).windowSize := by
      rw [afterAcquires_windowSize]
      omega
    rw [acquire_seeded seeded', acquireSeeded_room account room] at raised
    cases raised
  · intro contiguous seeds seed count
    have card := AccountWindow.card_of_contiguous bounded.inWindow bounded.base_le contiguous
    obtain ⟨granted, r', seeded', total⟩ := acquires_contiguous seeds seeded bounded contiguous (by omega)
    refine ⟨granted, ?_⟩
    have full : (afterAcquires account w seeds).windowSize ≤ r'.issued.card := by
      rw [afterAcquires_windowSize]
      omega
    rw [acquire_seeded seeded']
    simp only [acquireSeeded, ge_iff_le, if_pos full]

end NonceWindow

/-- The window of an account, if it has one, is bounded. -/
def BoundedAccount (account : String) (w : NonceWindow) : Prop :=
  ∀ r, w.windows account = some r → r.Bounded w.windowSize

/-- No call changes the size of the windows. -/
lemma slotStep_windowSize {w t : NonceWindow} {call : SlotCall} (stepped : w.slotStep call = some t) :
    t.windowSize = w.windowSize := by
  cases call with
  | acquire a seed =>
    cases stepped
    exact NonceWindow.acquire_windowSize w a seed
  | acknowledge a nonce =>
    cases stepped
    simp only [NonceWindow.acknowledge]
    split <;> rfl
  | sync a base =>
    cases stepped
    rfl

/-- What one call does to an account: nothing, an acquisition from a window that has room, an
acknowledgement, or a new window. -/
lemma slotStep_cases (account : String) {w t : NonceWindow} {call : SlotCall}
    (stepped : w.slotStep call = some t) :
    (t.windows account = w.windows account ∧ InTurn account w call) ∨
    (∃ r, r.issued.card < w.windowSize ∧
        (w.windows account = some r ∨ w.windows account = none ∧ ∃ base, r = .opened base) ∧
        InTurn account w call ∧
        t.windows account = some { r with
          issued := insert (r.base + r.issued.card) r.issued
          maxIssued := max r.maxIssued (r.base + r.issued.card) }) ∨
    (∃ r nonce, call = .acknowledge account nonce ∧ w.windows account = some r ∧
        t.windows account = some { r with
          base := NonceWindow.slide (r.issued.erase nonce) r.maxIssued
            (r.maxIssued + 1 - r.base).toNat r.base
          issued := r.issued.erase nonce }) ∨
    (∃ base, InTurn account w call ∧ t.windows account = some (.opened base)) := by
  cases call with
  | acquire a seed =>
    cases stepped
    by_cases eq : a = account
    · subst eq
      obtain ⟨raised, -, same, -⟩ | ⟨r, room, origin, taken⟩ := w.acquire_cases a seed
      · exact .inl ⟨same, trivial⟩
      · right; left
        exact ⟨r, room, origin, trivial, by rw [taken]; exact NonceWindow.put_self ..⟩
    · exact .inl ⟨NonceWindow.acquire_of_ne (Ne.symm eq), trivial⟩
  | acknowledge a nonce =>
    cases stepped
    by_cases eq : a = account
    · subst eq
      cases stored : w.windows a with
      | none =>
        left
        refine ⟨by simp [NonceWindow.acknowledge, stored], fun _ r found => ?_⟩
        rw [stored] at found
        cases found
      | some r =>
        right; right; left
        exact ⟨r, nonce, rfl, rfl, by simp [NonceWindow.acknowledge, stored]⟩
    · left
      exact ⟨NonceWindow.acknowledge_of_ne (Ne.symm eq), fun same => absurd same eq⟩
  | sync a base =>
    cases stepped
    by_cases eq : a = account
    · subst eq
      right; right; right
      exact ⟨base, trivial, NonceWindow.put_self ..⟩
    · exact .inl ⟨NonceWindow.put_of_ne (Ne.symm eq), trivial⟩

/-- Acquiring keeps the window of the account bounded. -/
lemma BoundedAccount.acquired {account : String} {w : NonceWindow} {r : AccountWindow}
    (inv : BoundedAccount account w)
    (origin : w.windows account = some r ∨ w.windows account = none ∧ ∃ base, r = .opened base) :
    r.Bounded w.windowSize := by
  obtain stored | ⟨-, base, rfl⟩ := origin
  · exact inv r stored
  · exact .opened w.windowSize base

/-- Each call keeps the window of the account bounded. -/
lemma BoundedAccount.step {account : String} (w : NonceWindow) (call : SlotCall) (t : NonceWindow)
    (inv : BoundedAccount account w) (stepped : w.slotStep call = some t) : BoundedAccount account t := by
  intro r' stored'
  rw [slotStep_windowSize stepped]
  obtain ⟨same, -⟩ | ⟨r, room, origin, -, stored⟩ | ⟨r, nonce, -, before, stored⟩ | ⟨base, -, stored⟩ :=
    slotStep_cases account stepped
  · exact inv r' (same ▸ stored')
  · obtain rfl := Option.some.inj (stored.symm.trans stored')
    exact (inv.acquired origin).acquire room
  · obtain rfl := Option.some.inj (stored.symm.trans stored')
    exact (inv r before).acknowledge nonce
  · obtain rfl := Option.some.inj (stored.symm.trans stored')
    exact .opened _ base

/-- The free slots of a seeded account predict its acquisitions. -/
def Predicted (account : String) (w : NonceWindow) : Prop :=
  ∀ r, w.windows account = some r → w.PredictsAcquire account

/-- The next nonces are those predicted just where the window is contiguous. -/
lemma predicted_iff {account : String} {w : NonceWindow} {r : AccountWindow} (inv : BoundedAccount account w)
    (seeded : w.windows account = some r) : Predicted account w ↔ r.Contiguous := by
  have exactly := NonceWindow.predictsAcquire_iff seeded (inv r seeded)
  exact ⟨fun predicted => exactly.mp (predicted r seeded), fun contiguous _ _ => exactly.mpr contiguous⟩

/-- From a state that predicts, a call leads to one that does exactly when it acknowledges in turn. -/
lemma predicted_step_iff {account : String} (w : NonceWindow) (call : SlotCall) (t : NonceWindow)
    (inv : BoundedAccount account w) (predicted : Predicted account w) (stepped : w.slotStep call = some t) :
    Predicted account t ↔ InTurn account w call := by
  have inv' := BoundedAccount.step w call t inv stepped
  obtain ⟨same, turn⟩ | ⟨r, room, origin, turn, stored⟩ | ⟨r, nonce, rfl, before, stored⟩ |
    ⟨base, turn, stored⟩ := slotStep_cases account stepped
  · refine ⟨fun _ => turn, fun _ r stored => ?_⟩
    have before := same ▸ stored
    exact (predicted_iff inv' stored).mpr ((predicted_iff inv before).mp predicted) r stored
  · have contiguous : r.Contiguous := by
      obtain before | ⟨-, base, rfl⟩ := origin
      · exact (predicted_iff inv before).mp predicted
      · exact opened_contiguous base
    have next := (inv.acquired origin).contiguous_acquire contiguous
    exact ⟨fun _ => turn, fun _ => (predicted_iff inv' stored).mpr next⟩
  · have contiguous := (predicted_iff inv before).mp predicted
    rw [predicted_iff inv' stored, (inv r before).contiguous_acknowledge_iff contiguous]
    constructor
    · intro turn _ r' before'
      obtain rfl := Option.some.inj (before.symm.trans before')
      exact turn
    · intro turn
      exact turn rfl r before
  · exact ⟨fun _ => turn, fun _ => (predicted_iff inv' stored).mpr (opened_contiguous base)⟩

/-- In every reachable state of a seeded account the available slots predict the acquisitions exactly when
the window is contiguous, and they do so throughout a run exactly when its acknowledgements are in turn. -/
theorem availableSlots_predicts_iff_contiguous (windowSize : ℤ) (w₀ : NonceWindow)
    (created : NonceWindow.init windowSize = .ok w₀) (account : String) (calls : List SlotCall)
    (w : NonceWindow) (run : exec NonceWindow.slotStep w₀ calls = some w) :
    (∀ r, w.windows account = some r → (w.PredictsAcquire account ↔ r.Contiguous)) ∧
      (Always NonceWindow.slotStep (Predicted account) w₀ calls ↔
        Guarded NonceWindow.slotStep (InTurn account) w₀ calls) := by
  have unseeded : w₀.windows account = none := by
    rw [NonceWindow.init] at created
    split at created
    · cases created
    · cases created
      rfl
  have inv₀ : BoundedAccount account w₀ := by
    intro r stored
    rw [unseeded] at stored
    cases stored
  have predicted₀ : Predicted account w₀ := by
    intro r stored
    rw [unseeded] at stored
    cases stored
  constructor
  · intro r seeded
    have inv := exec_invariant inv₀ BoundedAccount.step run
    exact NonceWindow.predictsAcquire_iff seeded (inv r seeded)
  · exact always_iff_guarded inv₀ predicted₀ (fun w call t inv _ => BoundedAccount.step w call t inv)
      predicted_step_iff run

/-- Two nonces acquired and the first acknowledged: one slot is available. -/
theorem availableSlots_predicts_iff_contiguous_in_turn :
    ∃ w₀ w r, NonceWindow.init 2 = .ok w₀ ∧
      exec NonceWindow.slotStep w₀
        [.acquire "GACC" (some 10), .acquire "GACC" none, .acknowledge "GACC" 10] = some w ∧
      w.windows "GACC" = some r ∧ w.availableSlots "GACC" = 1 ∧
      (w.PredictsAcquire "GACC" ↔ r.Contiguous) ∧
      (Always NonceWindow.slotStep (Predicted "GACC") w₀
          [.acquire "GACC" (some 10), .acquire "GACC" none, .acknowledge "GACC" 10] ↔
        Guarded NonceWindow.slotStep (InTurn "GACC") w₀
          [.acquire "GACC" (some 10), .acquire "GACC" none, .acknowledge "GACC" 10]) :=
  ⟨_, _, _, rfl, rfl, rfl, by decide,
    (availableSlots_predicts_iff_contiguous 2 _ rfl "GACC"
      [.acquire "GACC" (some 10), .acquire "GACC" none, .acknowledge "GACC" 10] _ rfl).1 _ rfl,
    (availableSlots_predicts_iff_contiguous 2 _ rfl "GACC" _ _ rfl).2⟩

/-- With 100 to 103 in flight in a window of four, acknowledging 101 leaves no available slot, and
`acquire` returns 103 a second time instead of raising. -/
theorem acquire_without_available_slot :
    ∃ w₀ w, NonceWindow.init 4 = .ok w₀ ∧
      exec NonceWindow.slotStep w₀
        [.acquire "GACC" (some 100), .acquire "GACC" none, .acquire "GACC" none, .acquire "GACC" none,
          .acknowledge "GACC" 101] = some w ∧
      w.availableSlots "GACC" = 0 ∧ (w.acquire "GACC" none).1.toOption = some 103 ∧
      ¬ w.PredictsAcquire "GACC" := by
  refine ⟨_, _, rfl, rfl, by decide, by decide, fun predicts => ?_⟩
  have raised := (predicts [] none (by decide)).2
  exact absurd (congrArg Except.toOption raised) (by decide)

end StellarFlow.Nonce
