import Mathlib.Order.Interval.Finset.Basic
import Mathlib.Data.Int.Interval
import StellarFlow.Lib.Machine
import StellarFlow.Lib.Python

/-!
# The sliding nonce window

Model of `NonceWindow` in `src/network/nonce_tracker.py`. The three dictionaries `_base`, `_issued` and
`_max_issued` always have the same seeded accounts, so an account's window is one record. Each method
holds the lock throughout and is one step; it returns its result, or the exception it raises, together
with the state it leaves.

`acquire` computes the nonce as the base plus the number of nonces in flight, which is the next unused
number only while everything from the base up to the highest issued nonce is in flight. The runs without
a duplicate are therefore exactly those whose acquisitions meet `Contiguous`
(`returned_nodup_iff_contiguous`).
-/

namespace StellarFlow.Nonce
open Machine

/-- The window of a seeded account. -/
structure AccountWindow where
  base : ℤ
  issued : Finset ℤ
  maxIssued : ℤ
  deriving DecidableEq

/-- The window opened at a base: the whole range is free. -/
def AccountWindow.opened (base : ℤ) : AccountWindow where
  base := base
  issued := ∅
  maxIssued := base - 1

/-- `NonceWindow`; the constructor rejects a window size below one. -/
structure NonceWindow where
  windowSize : ℕ
  pos : 1 ≤ windowSize
  windows : String → Option AccountWindow

namespace NonceWindow

/-- `NonceWindow.__init__`. -/
def init (windowSize : ℤ) : Except PyError NonceWindow :=
  if h : windowSize < 1 then .error (.valueError "window_size must be >= 1")
  else .ok { windowSize := windowSize.toNat, pos := by omega, windows := fun _ => none }

/-- The record stored back for one account. -/
def put (w : NonceWindow) (account : String) (r : AccountWindow) : NonceWindow :=
  { w with windows := Function.update w.windows account (some r) }

/-- `NonceWindow.acquire` on a seeded account. -/
def acquireSeeded (w : NonceWindow) (account : String) (r : AccountWindow) :
    Except PyError ℤ × NonceWindow :=
  let inFlight := r.issued.card
  if inFlight ≥ w.windowSize then
    (.error (.runtimeError s!"Nonce window for {Py.repr account} is exhausted"), w.put account r)
  else
    let nonce := r.base + inFlight
    (.ok nonce, w.put account
      { r with issued := insert nonce r.issued, maxIssued := max r.maxIssued nonce })

/-- `NonceWindow.acquire`. -/
def acquire (w : NonceWindow) (account : String) (seed : Option ℤ) :
    Except PyError ℤ × NonceWindow :=
  match w.windows account, seed with
  | some r, _ => w.acquireSeeded account r
  | none, some seed =>
    w.acquireSeeded account (.opened seed)
  | none, none =>
    (.error (.valueError
      s!"NonceWindow for {Py.repr account} is unseeded — no seed supplied"), w)

/-- The sliding loop of `acknowledge`; `fuel` counts the numbers up to `maxIssued`. -/
def slide (issued : Finset ℤ) (maxIssued : ℤ) : ℕ → ℤ → ℤ
  | 0, base => base
  | fuel + 1, base =>
    if base ≤ maxIssued ∧ base ∉ issued then slide issued maxIssued fuel (base + 1) else base

/-- `NonceWindow.acknowledge`. -/
def acknowledge (w : NonceWindow) (account : String) (nonce : ℤ) : NonceWindow :=
  match w.windows account with
  | none => w
  | some r =>
    let issued := r.issued.erase nonce
    let base := slide issued r.maxIssued (r.maxIssued + 1 - r.base).toNat r.base
    w.put account { r with base := base, issued := issued }

/-- `NonceWindow.available_slots`. -/
def availableSlots (w : NonceWindow) (account : String) : ℤ :=
  match w.windows account with
  | none => 0
  | some r =>
    let span := r.maxIssued - r.base + 1
    max 0 (w.windowSize - span)

/-- `NonceWindow.sync`. -/
def sync (w : NonceWindow) (account : String) (base : ℤ) : NonceWindow :=
  w.put account (.opened base)

/-- `NonceWindow.invalidate`; `none` clears every account. -/
def invalidate (w : NonceWindow) (account : Option String) : NonceWindow :=
  match account with
  | none => { w with windows := fun _ => none }
  | some account => { w with windows := Function.update w.windows account none }

/-- The loop of `acknowledge` ends, at the first number in flight or past the highest issued one. -/
lemma slide_spec (issued : Finset ℤ) {maxIssued base : ℤ} {fuel : ℕ}
    (enough : (maxIssued + 1 - base).toNat ≤ fuel) (le : base ≤ maxIssued + 1) :
    base ≤ slide issued maxIssued fuel base ∧
      slide issued maxIssued fuel base ≤ maxIssued + 1 ∧
      ¬ (slide issued maxIssued fuel base ≤ maxIssued ∧ slide issued maxIssued fuel base ∉ issued) ∧
      ∀ n ∈ issued, base ≤ n → slide issued maxIssued fuel base ≤ n := by
  induction fuel generalizing base with
  | zero =>
    refine ⟨le_rfl, le, ?_, fun n _ leN => leN⟩
    rintro ⟨below, -⟩
    exact absurd below (by simp only [slide]; omega)
  | succ fuel ih =>
    simp only [slide]
    split
    · rename_i free
      obtain ⟨low, high, exit, first⟩ := @ih (base + 1) (by omega) (by omega)
      refine ⟨by omega, high, exit, fun n mem leN => first n mem ?_⟩
      have ne : n ≠ base := by
        rintro rfl
        exact free.2 mem
      omega
    · rename_i stop
      exact ⟨le_rfl, le, stop, fun n _ leN => leN⟩

/-- What is put for an account is there. -/
@[simp] lemma put_self (w : NonceWindow) (account : String) (r : AccountWindow) :
    (w.put account r).windows account = some r := by
  simp [put]

/-- Other accounts keep their windows. -/
lemma put_of_ne {w : NonceWindow} {account other : String} {r : AccountWindow}
    (ne : other ≠ account) : (w.put account r).windows other = w.windows other := by
  simp [put, ne]

/-- Other accounts keep their windows when a nonce is acquired. -/
lemma acquireSeeded_of_ne {w : NonceWindow} {account other : String} {r : AccountWindow}
    (ne : other ≠ account) : (w.acquireSeeded account r).2.windows other = w.windows other := by
  simp only [acquireSeeded]
  split
  · exact put_of_ne ne
  · exact put_of_ne ne

/-- Other accounts keep their windows when one is opened. -/
lemma acquire_of_ne {w : NonceWindow} {account other : String} {seed : Option ℤ}
    (ne : other ≠ account) : (w.acquire account seed).2.windows other = w.windows other := by
  simp only [acquire]
  split
  · exact acquireSeeded_of_ne ne
  · exact acquireSeeded_of_ne ne
  · rfl

/-- Where there is room the next nonce is acquired. -/
lemma acquireSeeded_room {w : NonceWindow} {r : AccountWindow} (account : String)
    (room : r.issued.card < w.windowSize) :
    w.acquireSeeded account r = (.ok (r.base + r.issued.card), w.put account { r with
      issued := insert (r.base + r.issued.card) r.issued
      maxIssued := max r.maxIssued (r.base + r.issued.card) }) := by
  simp only [acquireSeeded, ge_iff_le, if_neg (Nat.not_le.mpr room)]

/-- An acquisition either raises and leaves the account as it was, or takes a slot of a window that has
room: the stored one, or one opened at the seed. -/
lemma acquire_cases (w : NonceWindow) (account : String) (seed : Option ℤ) :
    (∃ raised, (w.acquire account seed).1 = .error raised ∧
        (w.acquire account seed).2.windows account = w.windows account ∧
        ∀ r, w.windows account = some r → w.windowSize ≤ r.issued.card) ∨
    (∃ r, r.issued.card < w.windowSize ∧
        (w.windows account = some r ∨ w.windows account = none ∧ ∃ base, r = .opened base) ∧
        w.acquire account seed = (.ok (r.base + r.issued.card), w.put account { r with
          issued := insert (r.base + r.issued.card) r.issued
          maxIssued := max r.maxIssued (r.base + r.issued.card) })) := by
  cases stored : w.windows account with
  | some r =>
    have seeded : w.acquire account seed = w.acquireSeeded account r := by
      simp only [acquire, stored]
    rw [seeded]
    by_cases full : w.windowSize ≤ r.issued.card
    · left
      simp only [acquireSeeded, ge_iff_le, if_pos full]
      refine ⟨_, rfl, put_self w account r, ?_⟩
      intro r' found
      obtain rfl : r = r' := Option.some.inj found
      exact full
    · right
      have room := Nat.lt_of_not_le full
      exact ⟨r, room, .inl rfl, acquireSeeded_room account room⟩
  | none =>
    cases seed with
    | some base =>
      right
      have fresh : w.acquire account (some base) = w.acquireSeeded account (.opened base) := by
        simp only [acquire, stored]
      have room : (AccountWindow.opened base).issued.card < w.windowSize := w.pos
      rw [fresh]
      exact ⟨.opened base, room, .inr ⟨rfl, base, rfl⟩, acquireSeeded_room account room⟩
    | none =>
      left
      simp only [acquire, stored, true_and]
      exact ⟨_, rfl, fun _ found => nomatch found⟩

/-- Other accounts keep their windows. -/
lemma acknowledge_of_ne {w : NonceWindow} {account other : String} {nonce : ℤ}
    (ne : other ≠ account) : (w.acknowledge account nonce).windows other = w.windows other := by
  simp only [acknowledge]
  split
  · rfl
  · exact put_of_ne ne

end NonceWindow

/-- A call in a run of the window. -/
inductive WindowCall where
  | acquire (account : String) (seed : Option ℤ)
  | acknowledge (account : String) (nonce : ℤ)

/-- A window together with the nonces `acquire` has returned for each account, latest first. -/
structure WindowRun where
  window : NonceWindow
  returned : String → List ℤ

namespace WindowRun

/-- A fresh window. -/
def start (windowSize : ℕ) (pos : 1 ≤ windowSize) : WindowRun where
  window := { windowSize, pos, windows := fun _ => none }
  returned := fun _ => []

/-- The nonces returned so far after one more result for an account. -/
def record (returned : String → List ℤ) (account : String) : Except PyError ℤ → String → List ℤ
  | .ok nonce => Function.update returned account (nonce :: returned account)
  | .error _ => returned

/-- One call; only a nonce that has been returned can be acknowledged. -/
def step (s : WindowRun) : WindowCall → Option WindowRun
  | .acquire account seed =>
    let (result, window) := s.window.acquire account seed
    some { window, returned := record s.returned account result }
  | .acknowledge account nonce =>
    if nonce ∈ s.returned account then
      some { s with window := s.window.acknowledge account nonce }
    else none

end WindowRun

/-- Everything from the base up to the highest issued nonce is still in flight. -/
def AccountWindow.Contiguous (r : AccountWindow) : Prop :=
  ∀ n, r.base ≤ n → n ≤ r.maxIssued → n ∈ r.issued

/-- The condition on a step of a run: an acquisition that finds a free slot in the window of a seeded
account finds no acknowledged nonce above the base. -/
def InOrder (account : String) (s : WindowRun) : WindowCall → Prop
  | .acquire a _ => a = account → ∀ r, s.window.windows account = some r →
      r.issued.card < s.window.windowSize → r.Contiguous
  | .acknowledge _ _ => True

namespace AccountWindow
variable {r : AccountWindow}

/-- A contiguous window has as many nonces in flight as it spans. -/
lemma card_of_contiguous (inWindow : ∀ n ∈ r.issued, r.base ≤ n ∧ n ≤ r.maxIssued)
    (base_le : r.base ≤ r.maxIssued + 1) (contiguous : r.Contiguous) :
    (r.issued.card : ℤ) = r.maxIssued - r.base + 1 := by
  have all : r.issued = Finset.Icc r.base r.maxIssued := by
    apply Finset.Subset.antisymm
    · intro n mem
      exact Finset.mem_Icc.mpr (inWindow n mem)
    · intro n mem
      obtain ⟨low, high⟩ := Finset.mem_Icc.mp mem
      exact contiguous n low high
  rw [all, Int.card_Icc]
  omega

/-- Any other window has fewer. -/
lemma card_of_not_contiguous (inWindow : ∀ n ∈ r.issued, r.base ≤ n ∧ n ≤ r.maxIssued)
    (gap : ¬ r.Contiguous) : (r.issued.card : ℤ) < r.maxIssued - r.base + 1 := by
  simp only [Contiguous, not_forall] at gap
  obtain ⟨n, low, high, free⟩ := gap
  have strict : r.issued ⊂ Finset.Icc r.base r.maxIssued := by
    refine ⟨fun m mem => ?_, fun sub => free (sub ?_)⟩
    · exact Finset.mem_Icc.mpr (inWindow m mem)
    · exact Finset.mem_Icc.mpr ⟨low, high⟩
  have fewer := Finset.card_lt_card strict
  rw [Int.card_Icc] at fewer
  omega

end AccountWindow

/-- How a window relates to the nonces returned for its account. -/
structure Tracks (r : AccountWindow) (returned : List ℤ) : Prop where
  base_le : r.base ≤ r.maxIssued + 1
  inWindow : ∀ n ∈ r.issued, r.base ≤ n ∧ n ≤ r.maxIssued
  below : ∀ n ∈ returned, n ≤ r.maxIssued
  covered : ∀ n, r.base ≤ n → n ≤ r.maxIssued → n ∈ returned

namespace Tracks
variable {r : AccountWindow} {returned : List ℤ}

/-- A new window has returned nothing. -/
lemma opened (seed : ℤ) : Tracks (.opened seed) [] where
  base_le := by simp [AccountWindow.opened]
  inWindow := by simp [AccountWindow.opened]
  below := by simp
  covered := by
    intro n low high
    exact absurd (low.trans high) (by simp [AccountWindow.opened])

/-- In a contiguous window the next nonce is one above the highest issued. -/
lemma next_of_contiguous (tracks : Tracks r returned) (contiguous : r.Contiguous) :
    r.base + r.issued.card = r.maxIssued + 1 := by
  have card := AccountWindow.card_of_contiguous tracks.inWindow tracks.base_le contiguous
  omega

/-- In any other window the next nonce has been returned before. -/
lemma next_of_not_contiguous (tracks : Tracks r returned) (gap : ¬ r.Contiguous) :
    r.base + r.issued.card ∈ returned := by
  have fewer := AccountWindow.card_of_not_contiguous tracks.inWindow gap
  exact tracks.covered _ (by omega) (by omega)

/-- Acquiring returns a new nonce of a contiguous window. -/
lemma acquire (tracks : Tracks r returned) (contiguous : r.Contiguous) :
    Tracks { r with
        issued := insert (r.base + r.issued.card) r.issued
        maxIssued := max r.maxIssued (r.base + r.issued.card) }
      ((r.base + r.issued.card) :: returned) := by
  have next := tracks.next_of_contiguous contiguous
  have le := tracks.base_le
  rw [next, max_eq_right (by omega : r.maxIssued ≤ r.maxIssued + 1)]
  constructor
  · show r.base ≤ r.maxIssued + 1 + 1
    omega
  · intro n mem
    rcases Finset.mem_insert.mp mem with rfl | mem
    · exact ⟨le, le_rfl⟩
    · obtain ⟨low, high⟩ := tracks.inWindow n mem
      exact ⟨low, by show n ≤ r.maxIssued + 1; omega⟩
  · intro n mem
    rcases List.mem_cons.mp mem with rfl | mem
    · exact le_rfl
    · have := tracks.below n mem
      show n ≤ r.maxIssued + 1
      omega
  · intro n low high
    rcases eq_or_lt_of_le high with rfl | lt
    · exact List.mem_cons_self
    · exact List.mem_cons_of_mem _ (tracks.covered n low (Int.lt_add_one_iff.mp lt))

/-- Acknowledging returns none. -/
lemma acknowledge (tracks : Tracks r returned) (nonce : ℤ) :
    Tracks { r with
        base := NonceWindow.slide (r.issued.erase nonce) r.maxIssued
          (r.maxIssued + 1 - r.base).toNat r.base
        issued := r.issued.erase nonce }
      returned := by
  obtain ⟨low, high, -, first⟩ :=
    NonceWindow.slide_spec (r.issued.erase nonce) le_rfl tracks.base_le
  constructor
  · exact high
  · intro n mem
    obtain ⟨base, max⟩ := tracks.inWindow n (Finset.mem_of_mem_erase mem)
    exact ⟨first n mem base, max⟩
  · exact tracks.below
  · intro n base max
    exact tracks.covered n (low.trans base) max

end Tracks

/-- The invariant of the good runs, for one account. -/
def TracksAccount (account : String) (s : WindowRun) : Prop :=
  match s.window.windows account with
  | none => s.returned account = []
  | some r => Tracks r (s.returned account)

/-- Only the window of the account and what it returned count. -/
lemma TracksAccount.congr {account : String} {s t : WindowRun}
    (window : t.window.windows account = s.window.windows account)
    (returned : t.returned account = s.returned account) (inv : TracksAccount account s) :
    TracksAccount account t := by
  rw [TracksAccount, window, returned]
  exact inv

/-- What another account returns is not recorded here. -/
lemma record_of_ne {returned : String → List ℤ} {account other : String} {result : Except PyError ℤ}
    (ne : other ≠ account) : WindowRun.record returned account result other = returned other := by
  cases result with
  | ok nonce => exact Function.update_of_ne ne _ _
  | error _ => rfl

/-- What one call does to an account: nothing, an acquisition from a window that has room, or an
acknowledgement. -/
lemma step_cases (account : String) {s t : WindowRun} {call : WindowCall}
    (stepped : s.step call = some t) :
    (t.window.windows account = s.window.windows account ∧
        t.returned account = s.returned account ∧ InOrder account s call) ∨
    (∃ r seed, call = .acquire account seed ∧ r.issued.card < s.window.windowSize ∧
        (s.window.windows account = some r ∨
          s.window.windows account = none ∧ ∃ base, r = .opened base) ∧
        t.window.windows account = some { r with
          issued := insert (r.base + r.issued.card) r.issued
          maxIssued := max r.maxIssued (r.base + r.issued.card) } ∧
        t.returned account = (r.base + r.issued.card) :: s.returned account) ∨
    (∃ r nonce, call = .acknowledge account nonce ∧ s.window.windows account = some r ∧
        t.window.windows account = some { r with
          base := NonceWindow.slide (r.issued.erase nonce) r.maxIssued
            (r.maxIssued + 1 - r.base).toNat r.base
          issued := r.issued.erase nonce } ∧
        t.returned account = s.returned account) := by
  cases call with
  | acquire a seed =>
    simp only [WindowRun.step, Option.some.injEq] at stepped
    subst stepped
    by_cases eq : a = account
    · subst eq
      obtain ⟨raised, error, same, full⟩ | ⟨r, room, origin, taken⟩ :=
        s.window.acquire_cases a seed
      · left
        refine ⟨same, by rw [error]; rfl, ?_⟩
        intro _ r found room
        exact absurd room (Nat.not_lt.mpr (full r found))
      · right; left
        refine ⟨r, seed, rfl, room, origin, ?_, ?_⟩
        · simp only [taken, NonceWindow.put_self]
        · simp only [taken, WindowRun.record, Function.update_self]
    · left
      have ne : account ≠ a := Ne.symm eq
      exact ⟨NonceWindow.acquire_of_ne ne, record_of_ne ne, fun same => absurd same eq⟩
  | acknowledge a nonce =>
    simp only [WindowRun.step] at stepped
    split at stepped
    · cases stepped
      by_cases eq : a = account
      · subst eq
        cases stored : s.window.windows a with
        | none =>
          left
          exact ⟨by simp [NonceWindow.acknowledge, stored], rfl, trivial⟩
        | some r =>
          right; right
          exact ⟨r, nonce, rfl, rfl, by simp [NonceWindow.acknowledge, stored], rfl⟩
      · left
        exact ⟨NonceWindow.acknowledge_of_ne (Ne.symm eq), rfl, trivial⟩
    · cases stepped

/-- An acquisition works on a window that tracks what was returned. -/
lemma TracksAccount.acquired {account : String} {s : WindowRun} {r : AccountWindow}
    (inv : TracksAccount account s)
    (origin : s.window.windows account = some r ∨
      s.window.windows account = none ∧ ∃ base, r = .opened base) : Tracks r (s.returned account) := by
  rw [TracksAccount] at inv
  obtain stored | ⟨unseeded, base, rfl⟩ := origin
  · rw [stored] at inv
    exact inv
  · rw [unseeded] at inv
    rw [inv]
    exact Tracks.opened base

/-- A new window is contiguous. -/
lemma opened_contiguous (base : ℤ) : (AccountWindow.opened base).Contiguous := by
  intro n low high
  exact absurd (low.trans high) (by simp [AccountWindow.opened])

/-- Each call in order keeps track. -/
lemma TracksAccount.step {account : String} (s : WindowRun) (call : WindowCall) (t : WindowRun)
    (inv : TracksAccount account s) (ordered : InOrder account s call)
    (stepped : s.step call = some t) : TracksAccount account t := by
  obtain ⟨window, returned, -⟩ | ⟨r, seed, rfl, room, origin, window, returned⟩ |
    ⟨r, nonce, rfl, stored, window, returned⟩ := step_cases account stepped
  · exact inv.congr window returned
  · have contiguous : r.Contiguous := by
      obtain stored | ⟨-, base, rfl⟩ := origin
      · exact ordered rfl r stored room
      · exact opened_contiguous base
    rw [TracksAccount, window, returned]
    exact (inv.acquired origin).acquire contiguous
  · rw [TracksAccount, stored] at inv
    rw [TracksAccount, window, returned]
    exact inv.acknowledge nonce

/-- A step keeps the returned nonces distinct exactly when it is in order. -/
lemma nodup_step_iff {account : String} (s : WindowRun) (call : WindowCall) (t : WindowRun)
    (inv : TracksAccount account s) (nodup : (s.returned account).Nodup)
    (stepped : s.step call = some t) : (t.returned account).Nodup ↔ InOrder account s call := by
  obtain ⟨-, returned, ordered⟩ | ⟨r, seed, rfl, room, origin, -, returned⟩ |
    ⟨r, nonce, rfl, -, -, returned⟩ := step_cases account stepped
  · rw [returned]
    exact ⟨fun _ => ordered, fun _ => nodup⟩
  · have tracks := inv.acquired origin
    have fresh : r.base + r.issued.card ∉ s.returned account ↔ r.Contiguous := by
      constructor
      · intro new
        by_contra gap
        exact new (tracks.next_of_not_contiguous gap)
      · intro contiguous old
        have := tracks.below _ old
        rw [tracks.next_of_contiguous contiguous] at this
        omega
    have condition : r.Contiguous ↔ InOrder account s (.acquire account seed) := by
      obtain stored | ⟨unseeded, base, rfl⟩ := origin
      · constructor
        · intro contiguous _ r' found _
          obtain rfl : r = r' := Option.some.inj (stored.symm.trans found)
          exact contiguous
        · exact fun ordered => ordered rfl r stored room
      · refine ⟨fun _ _ r' found => ?_, fun _ => opened_contiguous base⟩
        rw [unseeded] at found
        cases found
    rw [returned, List.nodup_cons, fresh, condition]
    exact ⟨And.left, fun ordered => ⟨ordered, nodup⟩⟩
  · rw [returned]
    exact ⟨fun _ => trivial, fun _ => nodup⟩

/-- A run returns no nonce of an account twice exactly when each of its acquisitions that finds a free
slot finds the window contiguous. -/
theorem returned_nodup_iff_contiguous (windowSize : ℕ) (pos : 1 ≤ windowSize) (account : String)
    (trace : List WindowCall) (s : WindowRun)
    (run : exec WindowRun.step (WindowRun.start windowSize pos) trace = some s) :
    Always WindowRun.step (fun t => (t.returned account).Nodup)
        (WindowRun.start windowSize pos) trace ↔
      Guarded WindowRun.step (InOrder account) (WindowRun.start windowSize pos) trace :=
  always_iff_guarded (I := TracksAccount account)
    (show TracksAccount account (WindowRun.start windowSize pos) from rfl) List.nodup_nil
    TracksAccount.step nodup_step_iff run

/-- In-order acknowledgements: the window slides and the next nonce is new. -/
theorem returned_nodup_iff_contiguous_in_order :
    (exec WindowRun.step (WindowRun.start 2 (by decide))
        [.acquire "GACC" (some 10), .acquire "GACC" none, .acknowledge "GACC" 10,
          .acquire "GACC" none]).map (fun s => s.returned "GACC") = some [12, 11, 10] ∧
      (Always WindowRun.step (fun t => (t.returned "GACC").Nodup) (WindowRun.start 2 (by decide))
          [.acquire "GACC" (some 10), .acquire "GACC" none, .acknowledge "GACC" 10,
            .acquire "GACC" none] ↔
        Guarded WindowRun.step (InOrder "GACC") (WindowRun.start 2 (by decide))
          [.acquire "GACC" (some 10), .acquire "GACC" none, .acknowledge "GACC" 10,
            .acquire "GACC" none]) :=
  ⟨by decide, returned_nodup_iff_contiguous 2 _ "GACC" _ _ rfl⟩

/-- Acknowledging 101 while 100 and 102 are in flight makes `acquire` return 102 a second time. -/
theorem acquire_returns_nonce_in_flight :
    ∃ s t, exec WindowRun.step (WindowRun.start 64 (by decide))
        [.acquire "GACC" (some 100), .acquire "GACC" none, .acquire "GACC" none,
          .acknowledge "GACC" 101] = some s ∧
      (s.window.windows "GACC").map AccountWindow.issued = some {100, 102} ∧
      s.step (.acquire "GACC" none) = some t ∧ t.returned "GACC" = [102, 102, 101, 100] ∧
      ¬ (t.returned "GACC").Nodup :=
  ⟨_, _, rfl, by decide, rfl, by decide, by decide⟩

end StellarFlow.Nonce
