import Mathlib.Data.List.Basic
import Mathlib.Data.List.Induction
import Mathlib.Data.List.Nodup

/-!
# Runs of a step function

A deterministic machine is a step function `step : σ → α → Option σ`, where `none` means that the label
is not enabled. Everything a step may depend on beyond the state (clock readings, answers of remote
services, which party moves) is part of its label, so a run is a list of labels.

`Always` is a property of every state a run reaches and `Guarded` a condition on every step it takes.
`always_of_guarded` is the invariant rule for runs whose steps meet a condition, and
`always_iff_guarded` its exact form: where each step keeps the property if and only if it meets the
condition, the runs that keep the property throughout are the guarded ones; `always_iff_guarded_of_entails` is its case
of an invariant that gives the property. `guarded_congr` compares two conditions under an invariant.

A machine that answers every label has a step function `σ → α → ο × σ`, and `answers` are its answers
to a list of labels. Two such machines whose states are related by a simulation give the same answers
(`answers_eq_of_simulation`).

A state may have a list of parties, of which a step replaces one (`split_set`, `forall_set`, `countP_set`) or changes
one (`split_modify`, `forall_modify`). Each may hold a resource; `nodup_held_set` is the rule for parties that hold
different ones.
-/

namespace Machine
variable {σ α : Type} (step : σ → α → Option σ)

/-- The state a list of labels leads to. -/
def exec (s : σ) (trace : List α) : Option σ :=
  trace.foldlM step s

/-- The property holds in every state the run reaches. -/
def Always (P : σ → Prop) (s : σ) (trace : List α) : Prop :=
  ∀ pre t, pre <+: trace → exec step s pre = some t → P t

/-- Every step of the run meets the condition in the state before it. -/
def Guarded (ok : σ → α → Prop) (s : σ) (trace : List α) : Prop :=
  ∀ pre a t, pre ++ [a] <+: trace → exec step s pre = some t → ok t a

variable {step}

/-- Nothing happens. -/
@[simp] lemma exec_nil (s : σ) : exec step s [] = some s := rfl

/-- One trace after the other. -/
lemma exec_append (s : σ) (xs ys : List α) :
    exec step s (xs ++ ys) = (exec step s xs).bind fun t => exec step t ys := by
  rw [exec, List.foldlM_append]
  rfl

/-- One more step at the end. -/
lemma exec_snoc {s t : σ} {trace : List α} {a : α} :
    exec step s (trace ++ [a]) = some t ↔ ∃ u, exec step s trace = some u ∧ step u a = some t := by
  rw [exec_append, Option.bind_eq_some_iff]
  simp [exec]

/-- A run has run its prefixes. -/
lemma exec_prefix {s t : σ} {trace pre : List α} (run : exec step s trace = some t)
    (le : pre <+: trace) : ∃ u, exec step s pre = some u := by
  obtain ⟨rest, rfl⟩ := le
  rw [exec_append, Option.bind_eq_some_iff] at run
  obtain ⟨u, first, -⟩ := run
  exact ⟨u, first⟩

/-- One step at the start. -/
lemma exec_cons (s : σ) (a : α) (trace : List α) :
    exec step s (a :: trace) = (step s a).bind fun t => exec step t trace :=
  List.foldlM_cons ..

/-- A machine that takes every label. -/
lemma exec_total (f : σ → α → σ) (s : σ) (trace : List α) :
    exec (fun s a => some (f s a)) s trace = some (trace.foldl f s) := by
  induction trace generalizing s with
  | nil => rfl
  | cons a trace ih => exact ih (f s a)

variable {I P : σ → Prop} {ok : σ → α → Prop} {s : σ}

/-- Nothing is guarded. -/
lemma guarded_nil : Guarded step ok s [] := by
  intro pre a t le _
  exact absurd (List.prefix_nil.mp le) (by simp)

/-- The first step is guarded, and so is the rest. -/
lemma guarded_cons {a : α} {trace : List α} :
    Guarded step ok s (a :: trace) ↔
      ok s a ∧ ∀ t, step s a = some t → Guarded step ok t trace := by
  constructor
  · intro guarded
    refine ⟨guarded [] a s (by simp) rfl, fun t first pre b u le run => ?_⟩
    refine guarded (a :: pre) b u (List.cons_prefix_cons.mpr ⟨rfl, le⟩) ?_
    rw [exec_cons, first]
    exact run
  · rintro ⟨met, rest⟩ pre b u le run
    cases pre with
    | nil =>
      obtain ⟨rfl, -⟩ := List.cons_prefix_cons.mp le
      cases run
      exact met
    | cons c pre =>
      obtain ⟨rfl, le'⟩ := List.cons_prefix_cons.mp le
      rw [exec_cons, Option.bind_eq_some_iff] at run
      obtain ⟨t, first, run⟩ := run
      exact rest t first pre b u le' run

/-- What comes after a part of a guarded run is guarded. -/
lemma guarded_of_append {xs ys : List α} {t : σ} (first : exec step s xs = some t)
    (guarded : Guarded step ok s (xs ++ ys)) : Guarded step ok t ys := by
  intro pre a u le run
  refine guarded (xs ++ pre) a u ?_ ?_
  · rw [List.append_assoc]
    exact List.prefix_append_right_inj xs |>.2 le
  · rw [exec_append, first]
    exact run

/-- A guarded run is guarded before its last step, and there. -/
lemma Guarded.of_snoc {trace : List α} {a : α} {t : σ} (guarded : Guarded step ok s (trace ++ [a]))
    (run : exec step s trace = some t) : Guarded step ok s trace ∧ ok t a :=
  ⟨fun pre b u le first => guarded pre b u (le.trans (List.prefix_append trace [a])) first,
    guarded trace a t (List.prefix_refl _) run⟩

instance decidableGuarded [∀ s a, Decidable (ok s a)] :
    (s : σ) → (trace : List α) → Decidable (Guarded step ok s trace)
  | _, [] => isTrue guarded_nil
  | s, a :: trace =>
    match first : step s a with
    | none => decidable_of_iff (ok s a) (by simp [guarded_cons, first])
    | some t =>
      have := decidableGuarded t trace
      decidable_of_iff (ok s a ∧ Guarded step ok t trace) (by simp [guarded_cons, first])

/-- An invariant kept by every step that meets a condition holds along guarded runs. -/
theorem always_of_guarded (init : I s)
    (preserved : ∀ s a t, I s → ok s a → step s a = some t → I t)
    {trace : List α} (guarded : Guarded step ok s trace) : Always step I s trace := by
  intro pre
  induction pre using List.reverseRecOn with
  | nil =>
    intro t _ run
    cases run
    exact init
  | append_singleton pre a ih =>
    intro t le run
    obtain ⟨u, first, last⟩ := exec_snoc.mp run
    have before : pre <+: trace := (List.prefix_append pre [a]).trans le
    exact preserved u a t (ih u before first) (guarded pre a u le first) last

/-- An invariant kept by every step holds at the end of every run. -/
theorem exec_invariant (init : I s) (preserved : ∀ s a t, I s → step s a = some t → I t)
    {trace : List α} {t : σ} (run : exec step s trace = some t) : I t :=
  always_of_guarded init (fun s a t inv _ => preserved s a t inv)
    (show Guarded step (fun _ _ => True) s trace from fun _ _ _ _ _ => trivial)
    trace t (List.prefix_refl trace) run

/-- An invariant kept by every step holds throughout. -/
theorem always_of_invariant (init : I s) (preserved : ∀ s a t, I s → step s a = some t → I t) (trace : List α) :
    Always step I s trace :=
  fun _ _ _ reached => exec_invariant init preserved reached

/-- Where each step keeps `P` exactly when it meets the condition, a run keeps `P` throughout exactly
when it is guarded. `I` is the auxiliary invariant that the guarded steps maintain. -/
theorem always_iff_guarded (init : I s) (initP : P s)
    (preserved : ∀ s a t, I s → ok s a → step s a = some t → I t)
    (exact_step : ∀ s a t, I s → P s → step s a = some t → (P t ↔ ok s a))
    {trace : List α} {s' : σ} (run : exec step s trace = some s') :
    Always step P s trace ↔ Guarded step ok s trace := by
  constructor
  · -- a step between two states with `P` meets the condition, so `I` is kept along the run
    intro always
    have inv : ∀ pre t, pre <+: trace → exec step s pre = some t → I t := by
      intro pre
      induction pre using List.reverseRecOn with
      | nil =>
        intro t _ first
        cases first
        exact init
      | append_singleton pre a ih =>
        intro t le reached
        obtain ⟨u, first, last⟩ := exec_snoc.mp reached
        have before : pre <+: trace := (List.prefix_append pre [a]).trans le
        have invu := ih u before first
        have met := (exact_step u a t invu (always pre u before first) last).mp (always _ t le reached)
        exact preserved u a t invu met last
    intro pre a t le first
    have before : pre <+: trace := (List.prefix_append pre [a]).trans le
    obtain ⟨v, next⟩ := exec_prefix run le
    obtain ⟨u, first', last⟩ := exec_snoc.mp next
    obtain rfl : t = u := Option.some.inj (first.symm.trans first')
    exact (exact_step t a v (inv pre t before first) (always pre t before first) last).mp
      (always _ v le next)
  · intro guarded
    have both : Always step (fun t => I t ∧ P t) s trace :=
      always_of_guarded (I := fun t => I t ∧ P t) ⟨init, initP⟩
        (fun u a t inv met last =>
          ⟨preserved u a t inv.1 met last, (exact_step u a t inv.1 inv.2 last).mpr met⟩)
        guarded
    exact fun pre t le first => (both pre t le first).2

/-- Where the invariant gives `P`, each step that meets the condition keeps the invariant, and each other step ends
without `P`. -/
theorem always_iff_guarded_of_entails (init : I s) (entails : ∀ s, I s → P s)
    (kept : ∀ s a t, I s → ok s a → step s a = some t → I t)
    (broken : ∀ s a t, I s → ¬ok s a → step s a = some t → ¬P t)
    {trace : List α} {s' : σ} (run : exec step s trace = some s') :
    Always step P s trace ↔ Guarded step ok s trace := by
  refine always_iff_guarded init (entails s init) kept (fun u a t inv _ taken => ⟨fun holds => ?_, fun met => ?_⟩) run
  · by_contra unmet
    exact broken u a t inv unmet taken holds
  · exact entails t (kept u a t inv met taken)

/-- What always holds holds before each step. -/
lemma Always.guarded {trace : List α} (always : Always step P s trace) : Guarded step (fun s _ => P s) s trace :=
  fun pre a t le first => always pre t ((List.prefix_append pre [a]).trans le) first

/-- Two conditions that come to the same for the steps that are possible. -/
theorem guarded_congr {ok' : σ → α → Prop} {trace : List α} {s' : σ} (run : exec step s trace = some s')
    (always : Always step I s trace) (same : ∀ s a t, I s → step s a = some t → (ok s a ↔ ok' s a)) :
    Guarded step ok s trace ↔ Guarded step ok' s trace := by
  refine forall₃_congr fun pre a u => forall₂_congr fun le first => ?_
  obtain ⟨v, next⟩ := exec_prefix run le
  obtain ⟨u', first', last⟩ := exec_snoc.1 next
  obtain rfl : u = u' := Option.some.inj (first.symm.trans first')
  exact same u a v (always pre u ((List.prefix_append pre [a]).trans le) first) last

section Answers
variable {ο σ' : Type}

/-- The answers of a machine to a list of labels. -/
def answers (step : σ → α → ο × σ) : σ → List α → List ο
  | _, [] => []
  | s, a :: trace => (step s a).1 :: answers step (step s a).2 trace

/-- The state such a machine is in after a list of labels. -/
def after (step : σ → α → ο × σ) (s : σ) (trace : List α) : σ :=
  trace.foldl (fun s a => (step s a).2) s

/-- The state after one more call at the end. -/
lemma after_snoc {step : σ → α → ο × σ} (s : σ) (trace : List α) (a : α) :
    after step s (trace ++ [a]) = (step (after step s trace) a).2 :=
  List.foldl_append ..

/-- The answer to one more call at the end is the last. -/
lemma answers_snoc {step : σ → α → ο × σ} (s : σ) (trace : List α) (a : α) :
    answers step s (trace ++ [a]) = answers step s trace ++ [(step (after step s trace) a).1] := by
  induction trace generalizing s with
  | nil => rfl
  | cons b trace ih => exact congrArg (_ :: ·) (ih (step s b).2)

/-- The state after one list of calls and another. -/
lemma after_append {step : σ → α → ο × σ} (s : σ) (xs ys : List α) :
    after step s (xs ++ ys) = after step (after step s xs) ys :=
  List.foldl_append ..

/-- The answers to two lists of calls stand after one another. -/
lemma answers_append {step : σ → α → ο × σ} (s : σ) (xs ys : List α) :
    answers step s (xs ++ ys) = answers step s xs ++ answers step (after step s xs) ys := by
  induction xs generalizing s with
  | nil => rfl
  | cons a xs ih => exact congrArg (_ :: ·) (ih (step s a).2)

/-- Two systems answer alike where they did before the last call and do at it. -/
lemma answers_snoc_eq_iff {step : σ → α → ο × σ} {step' : σ' → α → ο × σ'} {s : σ} {s' : σ'}
    {trace : List α} {a : α} :
    answers step s (trace ++ [a]) = answers step' s' (trace ++ [a]) ↔
      answers step s trace = answers step' s' trace ∧
        (step (after step s trace) a).1 = (step' (after step' s' trace) a).1 := by
  rw [answers_snoc, answers_snoc]
  constructor
  · intro same
    obtain ⟨before, last⟩ := List.append_inj' same rfl
    exact ⟨before, List.singleton_inj.mp last⟩
  · rintro ⟨before, last⟩
    rw [before, last]

/-- Machines in related states that answer alike and stay related give the same answers for ever. -/
theorem answers_eq_of_simulation {step : σ → α → ο × σ} {step' : σ' → α → ο × σ'} {R : σ → σ' → Prop}
    (sim : ∀ s s' a, R s s' → (step s a).1 = (step' s' a).1 ∧ R (step s a).2 (step' s' a).2)
    {s : σ} {s' : σ'} (related : R s s') (trace : List α) :
    answers step s trace = answers step' s' trace := by
  induction trace generalizing s s' with
  | nil => rfl
  | cons a trace ih =>
    obtain ⟨same, next⟩ := sim s s' a related
    rw [answers, answers, same, ih next]

end Answers

section Parties
variable {τ : Type} {parties : List τ} {i : ℕ} {t : τ}

/-- Setting a party leaves those before and after. -/
lemma split_set (found : parties[i]? = some t) :
    ∃ pre post, parties = pre ++ t :: post ∧ ∀ t', parties.set i t' = pre ++ t' :: post := by
  obtain ⟨lt, rfl⟩ := List.getElem?_eq_some_iff.1 found
  refine ⟨parties.take i, parties.drop (i + 1), ?_, fun t' => List.set_eq_take_append_cons_drop.trans (if_pos lt)⟩
  rw [List.getElem_cons_drop, List.take_append_drop]

/-- A property of all parties is kept when the party that is replaced keeps it. -/
lemma forall_set {P : τ → Prop} {t' u : τ} (found : parties[i]? = some t) (all : ∀ u ∈ parties, P u)
    (new : P t → P t') (mem : u ∈ parties.set i t') : P u := by
  rcases List.mem_or_eq_of_mem_set mem with old | rfl
  · exact all u old
  · exact new (all t (List.mem_of_getElem? found))

/-- A property of all parties is kept when the party that joins has it. -/
lemma forall_snoc {P : τ → Prop} (all : ∀ u ∈ parties, P u) (new : P t) : ∀ u ∈ parties ++ [t], P u :=
  List.forall_mem_append.2 ⟨all, List.forall_mem_singleton.2 new⟩

/-- The parties other than the one that is replaced remain. -/
lemma mem_set_or_eq {u : τ} (found : parties[i]? = some t) (t' : τ) (mem : u ∈ parties) :
    u = t ∨ u ∈ parties.set i t' := by
  obtain ⟨pre, post, rfl, set⟩ := split_set found
  rw [set]
  rcases List.mem_append.1 mem with left | right
  · exact .inr (List.mem_append_left _ left)
  · rcases List.mem_cons.1 right with same | right
    · exact .inl same
    · exact .inr (List.mem_append_right _ (List.mem_cons_of_mem _ right))

/-- The number of parties of a kind changes by the one that is replaced. -/
lemma countP_set (p : τ → Bool) (t' : τ) (found : parties[i]? = some t) :
    (parties.set i t').countP p + (if p t then 1 else 0) = parties.countP p + if p t' then 1 else 0 := by
  obtain ⟨pre, post, rfl, set⟩ := split_set found
  rw [set, List.countP_append, List.countP_append, List.countP_cons, List.countP_cons]
  omega

/-- Modifying a party leaves those before and after. -/
lemma split_modify (found : parties[i]? = some t) :
    ∃ pre post, parties = pre ++ t :: post ∧ ∀ f, parties.modify i f = pre ++ f t :: post := by
  obtain ⟨lt, rfl⟩ := List.getElem?_eq_some_iff.1 found
  refine ⟨parties.take i, parties.drop (i + 1), ?_, fun f => List.modify_eq_take_cons_drop lt⟩
  rw [List.getElem_cons_drop, List.take_append_drop]

/-- What a change leaves alone stays the same for all parties. -/
lemma map_modify_of_eq {β : Type} {g : τ → β} {f : τ → τ} (same : ∀ y, g (f y) = g y) :
    (parties.modify i f).map g = parties.map g := by
  refine List.ext_getElem? fun j => ?_
  rw [List.getElem?_map, List.getElem?_map, List.getElem?_modify]
  cases parties[j]? with
  | none => rfl
  | some y =>
    refine congrArg some ?_
    split
    · exact same y
    · rfl

/-- A property of all parties is kept exactly when the party that changes keeps it. -/
lemma forall_modify {p : τ → Prop} {f : τ → τ} (found : parties[i]? = some t) (all : ∀ y ∈ parties, p y) :
    (∀ y ∈ parties.modify i f, p y) ↔ p (f t) := by
  obtain ⟨pre, post, rfl, modify⟩ := split_modify found
  rw [modify]
  constructor
  · exact fun all' => all' _ (List.mem_append_right _ (List.mem_cons_self ..))
  · intro new y mem
    rcases List.mem_append.1 mem with left | right
    · exact all y (List.mem_append_left _ left)
    · rcases List.mem_cons.1 right with rfl | right
      · exact new
      · exact all y (List.mem_append_right _ (List.mem_cons_of_mem _ right))

variable {ρ : Type} {held : τ → Option ρ}

/-- The parties still hold different resources when the replaced one holds the same as before, or one that was free. -/
lemma nodup_held_set {t' : τ} (found : parties[i]? = some t) (nodup : (parties.filterMap held).Nodup)
    (free : ∀ r, held t' = some r → held t = some r ∨ r ∉ parties.filterMap held) :
    ((parties.set i t').filterMap held).Nodup := by
  obtain ⟨pre, post, rfl, set⟩ := split_set found
  have others : (pre.filterMap held ++ post.filterMap held).Sublist ((pre ++ t :: post).filterMap held) := by
    rw [← List.filterMap_append]
    exact ((List.Sublist.refl pre).append (List.sublist_cons_self t post)).filterMap held
  rw [set, List.filterMap_append]
  cases holds : held t' with
  | none =>
    rw [List.filterMap_cons_none holds]
    exact nodup.sublist others
  | some r =>
    rw [List.filterMap_cons_some holds]
    rcases free r holds with same | new
    · rw [List.filterMap_append, List.filterMap_cons_some same] at nodup
      exact nodup
    · exact List.nodup_middle.2 (List.nodup_cons.2 ⟨fun mem => new (others.subset mem), nodup.sublist others⟩)

/-- A party that joins and holds nothing. -/
lemma held_snoc (free : held t = none) : (parties ++ [t]).filterMap held = parties.filterMap held := by
  rw [List.filterMap_append, List.filterMap_cons_none free, List.filterMap_nil, List.append_nil]

/-- No other party holds the resource of the one that is replaced. -/
lemma mem_set_of_held {t' u : τ} {r : ρ} (found : parties[i]? = some t) (nodup : (parties.filterMap held).Nodup)
    (holds : held t = some r) (mem : u ∈ parties.set i t') : u = t' ∨ u ∈ parties ∧ held u ≠ some r := by
  obtain ⟨pre, post, rfl, set⟩ := split_set found
  rw [List.filterMap_append, List.filterMap_cons_some holds, List.nodup_middle, List.nodup_cons, List.mem_append,
    not_or, List.mem_filterMap, List.mem_filterMap] at nodup
  rw [set, List.mem_append, List.mem_cons] at mem
  rcases mem with left | rfl | right
  · exact .inr ⟨List.mem_append_left _ left, fun same => nodup.1.1 ⟨u, left, same⟩⟩
  · exact .inl rfl
  · exact .inr ⟨List.mem_append_right _ (List.mem_cons_of_mem _ right), fun same => nodup.1.2 ⟨u, right, same⟩⟩

end Parties

end Machine
