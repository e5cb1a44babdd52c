import Optrace.Lib.Run

/-!
# Simulation of one partial system by another

Two computations match if they fail alike or end in related values. A system simulates another if
it answers every step of it by a run of its own, which may be empty; then it answers every run.
-/

set_option autoImplicit false

universe u v w

namespace Except

/-- The computations fail with the same error, or their results are related. -/
inductive Match {ε : Type w} {α β : Type u} (rel : α → β → Prop) :
    Except ε α → Except ε β → Prop where
  | ok {a : α} {b : β} (h : rel a b) : Match rel (.ok a) (.ok b)
  | error (e : ε) : Match rel (.error e) (.error e)

namespace Match

variable {ε : Type w} {α α' β β' : Type u} {rel : α → β → Prop} {rel' : α' → β' → Prop}
  {x : Except ε α} {y : Except ε β}

theorem bind {f : α → Except ε α'} {g : β → Except ε β'} (h : Match rel x y)
    (hf : ∀ a b, rel a b → Match rel' (f a) (g b)) : Match rel' (x >>= f) (y >>= g) := by
  cases h with
  | ok hrel => exact hf _ _ hrel
  | error e => exact .error e

/-- Both sides make the same computation first. -/
theorem same {γ : Type u} {z : Except ε γ} {f : γ → Except ε α} {g : γ → Except ε β}
    (hf : ∀ c, Match rel (f c) (g c)) : Match rel (z >>= f) (z >>= g) := by
  cases z with
  | ok c => exact hf c
  | error e => exact .error e

theorem of_ok {a : α} (h : Match rel (.ok a) y) : ∃ b, y = .ok b ∧ rel a b := by
  cases h with
  | ok hrel => exact ⟨_, rfl, hrel⟩

theorem of_error {e : ε} (h : Match rel (.error e) y) : y = .error e := by
  cases h with
  | error => rfl

end Match

end Except

namespace Runs

variable {σ τ : Type u} {ι κ : Type v} {ε : Type w} {step : σ → ι → Except ε σ}
  {step' : τ → κ → Except ε τ}

/-- The inputs by which the steps of a run are answered, up to the first failure. -/
def answers (step : σ → ι → Except ε σ) (answer : σ → ι → List κ) : σ → List ι → List κ
  | _, [] => []
  | s, i :: is => answer s i ++
    match step s i with
    | .ok s' => answers step answer s' is
    | .error _ => []

/-- A simulation along the steps that meet a condition: each is answered by permitted inputs, and by
the run that ends in a related state if it goes through. A failure that matters is answered by
the same failure. -/
structure Simulates (step : σ → ι → Except ε σ) (step' : τ → κ → Except ε τ)
    (cond : σ → ι → Prop) (permitted : τ → κ → Prop) (matters : ε → Prop) (answer : σ → ι → List κ)
    (rel : σ → τ → Prop) : Prop where
  permitted : ∀ s t i, rel s t → cond s i → Along step' permitted t (answer s i)
  steps : ∀ s t i s', rel s t → cond s i → step s i = .ok s' →
    ∃ t', run step' t (answer s i) = .ok t' ∧ rel s' t'
  fails : ∀ s t i e, rel s t → cond s i → step s i = .error e → matters e →
    run step' t (answer s i) = .error e

namespace Simulates

variable {cond : σ → ι → Prop} {permitted : τ → κ → Prop} {matters : ε → Prop}
  {answer : σ → ι → List κ} {rel : σ → τ → Prop}

theorem run_ok (h : Simulates step step' cond permitted matters answer rel) {s s' : σ} {t : τ}
    {is : List ι} (hrel : rel s t) (hcond : Along step cond s is) (hrun : run step s is = .ok s') :
    ∃ t', run step' t (answers step answer s is) = .ok t' ∧ rel s' t' := by
  induction is generalizing s t with
  | nil =>
    cases hrun
    exact ⟨t, rfl, hrel⟩
  | cons i is ih =>
    obtain ⟨s₁, hs₁, hrun⟩ := run_cons_ok_iff.mp hrun
    obtain ⟨t₁, ht₁, hrel₁⟩ := h.steps s t i s₁ hrel hcond.1 hs₁
    obtain ⟨t', ht', hrel'⟩ := ih hrel₁ (hcond.2 s₁ hs₁) hrun
    refine ⟨t', ?_, hrel'⟩
    simp only [answers, hs₁]
    exact run_append_ok_iff.mpr ⟨t₁, ht₁, ht'⟩

theorem run_error (h : Simulates step step' cond permitted matters answer rel) {s : σ} {t : τ}
    {is : List ι} {e : ε} (hrel : rel s t) (hcond : Along step cond s is)
    (hrun : run step s is = .error e) (he : matters e) :
    run step' t (answers step answer s is) = .error e := by
  induction is generalizing s t with
  | nil => cases hrun
  | cons i is ih =>
    cases hstep : step s i with
    | error e' =>
      have hsame : run step s (i :: is) = .error e' := by simp only [run, hstep]
      cases hsame.symm.trans hrun
      have hanswer : answers step answer s (i :: is) = answer s i ++ [] := by
        simp only [answers, hstep]
      rw [hanswer]
      exact run_append_error (h.fails s t i e hrel hcond.1 hstep he)
    | ok s₁ =>
      have hsame : run step s (i :: is) = run step s₁ is := by simp only [run, hstep]
      have hanswer : answers step answer s (i :: is) =
          answer s i ++ answers step answer s₁ is := by
        simp only [answers, hstep]
      obtain ⟨t₁, ht₁, hrel₁⟩ := h.steps s t i s₁ hrel hcond.1 hstep
      rw [hanswer, run_append_ok ht₁]
      exact ih hrel₁ (hcond.2 s₁ hstep) (hsame.symm.trans hrun)

theorem along (h : Simulates step step' cond permitted matters answer rel) {s : σ} {t : τ}
    {is : List ι} (hrel : rel s t) (hcond : Along step cond s is) :
    Along step' permitted t (answers step answer s is) := by
  induction is generalizing s t with
  | nil => trivial
  | cons i is ih =>
    refine along_append_iff.mpr ⟨h.permitted s t i hrel hcond.1, fun t₁ ht₁ => ?_⟩
    cases hstep : step s i with
    | error e => trivial
    | ok s₁ =>
      obtain ⟨t₂, ht₂, hrel₁⟩ := h.steps s t i s₁ hrel hcond.1 hstep
      rw [ht₁] at ht₂
      cases ht₂
      exact ih hrel₁ (hcond.2 s₁ hstep)

end Simulates

end Runs
