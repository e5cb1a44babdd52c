import Mathlib.Order.Basic

/-!
# Runs of a partial step function

A step takes an input and either fails or gives the next state. `run` feeds it a list of
inputs, `Along` says that every input meets a condition in the state it arrives in, and
`run_invariant` and `run_avoids` are the induction rules for such runs.
-/

set_option autoImplicit false

universe u v w

namespace Except

variable {ε : Type u} {α β : Type v}

theorem bind_eq_ok_iff {x : Except ε α} {f : α → Except ε β} {b : β} :
    x >>= f = .ok b ↔ ∃ a, x = .ok a ∧ f a = .ok b := by
  cases x with
  | error e => simp [bind, Except.bind]
  | ok a => simp [bind, Except.bind]

theorem bind_ok {a : α} (f : α → Except ε β) : Except.ok (ε := ε) a >>= f = f a := rfl

theorem pure_eq_ok_iff {a b : α} : (pure a : Except ε α) = .ok b ↔ a = b :=
  ⟨Except.ok.inj, fun h => h ▸ rfl⟩

/-- The computation does not fail with such an error. -/
def Avoids (bad : ε → Prop) (x : Except ε α) : Prop := ∀ e, x = .error e → ¬bad e

namespace Avoids

variable {bad : ε → Prop}

theorem ok (a : α) : Avoids bad (.ok a) := fun _ h => by cases h

theorem error {e : ε} (he : ¬bad e) : Avoids bad (.error e : Except ε α) := by
  intro e' h
  cases h
  exact he

theorem bind {x : Except ε α} {f : α → Except ε β} (hx : Avoids bad x)
    (hf : ∀ a, x = .ok a → Avoids bad (f a)) : Avoids bad (x >>= f) := by
  cases x with
  | error e =>
    intro e' h
    cases h
    exact hx e rfl
  | ok a => exact hf a rfl

end Avoids

end Except

namespace Runs

variable {σ : Type u} {ι : Type v} {ε : Type w} (step : σ → ι → Except ε σ)

/-- Feed a list of inputs to the step function, up to the first failure. -/
def run : σ → List ι → Except ε σ
  | s, [] => .ok s
  | s, i :: is =>
    match step s i with
    | .ok s' => run s' is
    | .error e => .error e

/-- Every input of the run meets the condition in the state it arrives in. -/
def Along (cond : σ → ι → Prop) : σ → List ι → Prop
  | _, [] => True
  | s, i :: is => cond s i ∧ ∀ s', step s i = .ok s' → Along cond s' is

variable {step}

theorem run_cons_ok_iff {s t : σ} {i : ι} {is : List ι} :
    run step s (i :: is) = .ok t ↔ ∃ s', step s i = .ok s' ∧ run step s' is = .ok t := by
  cases hstep : step s i with
  | error e => simp [run, hstep]
  | ok s' => simp [run, hstep]

theorem run_append_ok_iff {s t : σ} {is js : List ι} :
    run step s (is ++ js) = .ok t ↔ ∃ s', run step s is = .ok s' ∧ run step s' js = .ok t := by
  induction is generalizing s with
  | nil => simp [run]
  | cons i is ih =>
    simp only [List.cons_append, run_cons_ok_iff, ih]
    constructor
    · rintro ⟨s₁, hs₁, s₂, hs₂, ht⟩
      exact ⟨s₂, ⟨s₁, hs₁, hs₂⟩, ht⟩
    · rintro ⟨s₂, ⟨s₁, hs₁, hs₂⟩, ht⟩
      exact ⟨s₁, hs₁, s₂, hs₂, ht⟩

theorem run_append_ok {s t : σ} {is js : List ι} (h : run step s is = .ok t) :
    run step s (is ++ js) = run step t js := by
  induction is generalizing s with
  | nil =>
    cases h
    rfl
  | cons i is ih =>
    simp only [List.cons_append, run] at h ⊢
    split at h
    · exact ih h
    · cases h

theorem run_append_error {s : σ} {e : ε} {is js : List ι} (h : run step s is = .error e) :
    run step s (is ++ js) = .error e := by
  induction is generalizing s with
  | nil => cases h
  | cons i is ih =>
    simp only [List.cons_append, run] at h ⊢
    split at h
    · exact ih h
    · exact h

theorem along_append_iff {cond : σ → ι → Prop} {s : σ} {is js : List ι} :
    Along step cond s (is ++ js) ↔
      Along step cond s is ∧ ∀ s', run step s is = .ok s' → Along step cond s' js := by
  induction is generalizing s with
  | nil => simp [Along, run]
  | cons i is ih =>
    simp only [List.cons_append, Along, ih]
    constructor
    · rintro ⟨hi, hrest⟩
      refine ⟨⟨hi, fun s' hs' => (hrest s' hs').1⟩, fun t ht => ?_⟩
      obtain ⟨s', hs', ht⟩ := run_cons_ok_iff.mp ht
      exact (hrest s' hs').2 t ht
    · rintro ⟨⟨hi, hrest⟩, hjs⟩
      exact ⟨hi, fun s' hs' => ⟨hrest s' hs', fun t ht =>
        hjs t (run_cons_ok_iff.mpr ⟨s', hs', ht⟩)⟩⟩

instance Along.decide {cond : σ → ι → Prop} [∀ s i, Decidable (cond s i)] :
    (s : σ) → (is : List ι) → Decidable (Along step cond s is)
  | _, [] => isTrue trivial
  | s, i :: is =>
    match hstep : step s i with
    | .ok s' =>
      have : Decidable (Along step cond s' is) := Along.decide s' is
      decidable_of_iff (cond s i ∧ Along step cond s' is) <| by
        simp only [Along, hstep, Except.ok.injEq, forall_eq']
    | .error e => decidable_of_iff (cond s i) <| by
        simp [Along, hstep]

theorem Along.and {cond cond' : σ → ι → Prop} {s : σ} {is : List ι} (h : Along step cond s is)
    (h' : Along step cond' s is) : Along step (fun s i => cond s i ∧ cond' s i) s is := by
  induction is generalizing s with
  | nil => trivial
  | cons i is ih => exact ⟨⟨h.1, h'.1⟩, fun s' hs' => ih (h.2 s' hs') (h'.2 s' hs')⟩

theorem Along.of_forall {cond : σ → ι → Prop} (h : ∀ s i, cond s i) (s : σ) (is : List ι) :
    Along step cond s is := by
  induction is generalizing s with
  | nil => trivial
  | cons i is ih => exact ⟨h s i, fun s' _ => ih s'⟩

/-- Two conditions that mean the same wherever the steps so far have met them hold along the same
runs. -/
theorem Along.congr {cond kept good : σ → ι → Prop} {inv : σ → Prop}
    (hiff : ∀ s i, inv s → cond s i → (kept s i ↔ good s i))
    (hnext : ∀ s i s', inv s → cond s i → good s i → step s i = .ok s' → inv s') {s : σ}
    {is : List ι} (hs : inv s) (hcond : Along step cond s is) :
    Along step kept s is ↔ Along step good s is := by
  induction is generalizing s with
  | nil => exact Iff.rfl
  | cons i is ih =>
    have hnow := hiff s i hs hcond.1
    constructor
    · rintro ⟨hkept, hrest⟩
      have hgood := hnow.mp hkept
      exact ⟨hgood, fun s' hs' =>
        (ih (hnext s i s' hs hcond.1 hgood hs') (hcond.2 s' hs')).mp (hrest s' hs')⟩
    · rintro ⟨hgood, hrest⟩
      exact ⟨hnow.mpr hgood, fun s' hs' =>
        (ih (hnext s i s' hs hcond.1 hgood hs') (hcond.2 s' hs')).mpr (hrest s' hs')⟩

/-- What every permitted step preserves, every permitted run preserves. -/
theorem run_invariant {cond : σ → ι → Prop} {inv : σ → Prop}
    (hstep : ∀ s i s', inv s → cond s i → step s i = .ok s' → inv s') {s t : σ} {is : List ι}
    (hs : inv s) (hcond : Along step cond s is) (hrun : run step s is = .ok t) : inv t := by
  induction is generalizing s with
  | nil =>
    cases hrun
    exact hs
  | cons i is ih =>
    obtain ⟨s', hs', ht⟩ := run_cons_ok_iff.mp hrun
    exact ih (hstep s i s' hs hcond.1 hs') (hcond.2 s' hs') ht

/-- What the invariant says of every permitted input holds along a permitted run. -/
theorem Along.of_invariant {cond good : σ → ι → Prop} {inv : σ → Prop}
    (hstep : ∀ s i s', inv s → cond s i → step s i = .ok s' → inv s')
    (hgood : ∀ s i, inv s → cond s i → good s i) {s : σ} {is : List ι} (hs : inv s)
    (hcond : Along step cond s is) : Along step good s is := by
  induction is generalizing s with
  | nil => trivial
  | cons i is ih =>
    exact ⟨hgood s i hs hcond.1, fun s' hs' => ih (hstep s i s' hs hcond.1 hs') (hcond.2 s' hs')⟩

/-- What every step preserves, every run preserves. -/
theorem run_preserves {inv : σ → Prop} (hstep : ∀ s i s', inv s → step s i = .ok s' → inv s')
    {s t : σ} {is : List ι} (hs : inv s) (hrun : run step s is = .ok t) : inv t :=
  run_invariant (fun s i s' hs _ h => hstep s i s' hs h) hs
    (Along.of_forall (fun _ _ => trivial) s is : Along step (fun _ _ => True) s is) hrun

/-- A run fails only as one of its steps does. -/
theorem run_avoids {cond : σ → ι → Prop} {inv : σ → Prop} {bad : ε → Prop}
    (hstep : ∀ s i s', inv s → cond s i → step s i = .ok s' → inv s')
    (havoids : ∀ s i, inv s → cond s i → (step s i).Avoids bad) {s : σ} {is : List ι}
    (hs : inv s) (hcond : Along step cond s is) : (run step s is).Avoids bad := by
  induction is generalizing s with
  | nil => exact Except.Avoids.ok s
  | cons i is ih =>
    intro e he
    simp only [run] at he
    split at he
    · rename_i s' hs'
      exact ih (hstep s i s' hs hcond.1 hs') (hcond.2 s' hs') e he
    · rename_i e' he'
      cases he
      exact havoids s i hs hcond.1 e he'

/-- A measure that never falls, and stays the same exactly at the good steps, is the same at
the end of a run exactly if all its steps were good. -/
theorem run_measure {β : Type*} [PartialOrder β] {cond good : σ → ι → Prop} {inv : σ → Prop}
    {μ : σ → β}
    (hstep : ∀ s i s', inv s → cond s i → step s i = .ok s' →
      inv s' ∧ μ s ≤ μ s' ∧ (μ s = μ s' ↔ good s i)) {s t : σ} {is : List ι}
    (hs : inv s) (hcond : Along step cond s is) (hrun : run step s is = .ok t) :
    inv t ∧ μ s ≤ μ t ∧ (μ s = μ t ↔ Along step good s is) := by
  induction is generalizing s with
  | nil =>
    cases hrun
    exact ⟨hs, le_refl _, by simp [Along]⟩
  | cons i is ih =>
    obtain ⟨s', hs', ht⟩ := run_cons_ok_iff.mp hrun
    obtain ⟨hinv, hle, hiff⟩ := hstep s i s' hs hcond.1 hs'
    obtain ⟨hinv', hle', hiff'⟩ := ih hinv (hcond.2 s' hs') ht
    refine ⟨hinv', le_trans hle hle', ?_⟩
    constructor
    · intro heq
      have hfirst : μ s = μ s' := le_antisymm hle (heq ▸ hle')
      refine ⟨hiff.mp hfirst, fun s'' hs'' => ?_⟩
      rw [hs'] at hs''
      cases hs''
      exact hiff'.mp (hfirst.symm.trans heq)
    · rintro ⟨hgood, hrest⟩
      exact (hiff.mpr hgood).trans (hiff'.mpr (hrest s' hs'))

end Runs
