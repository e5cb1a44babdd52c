import Mathlib.Logic.Relation
import Optrace.Lib.Run

/-!
# Exchanging independent inputs of a run

Two neighbouring inputs that have nothing to do with each other may change places. What this
does to the states is left open: `alike` is any preorder that steps respect, and `diamond` says
that both orders of two independent inputs end alike.
-/

set_option autoImplicit false

universe u v w

namespace Runs

/-- Which inputs are independent, and up to what. -/
structure Independence {σ : Type u} {ι : Type v} {ε : Type w} (step : σ → ι → Except ε σ) where
  inv : σ → Prop
  cond : σ → ι → Prop
  alike : σ → σ → Prop
  independent : ι → ι → Prop
  refl : ∀ s, alike s s
  trans : ∀ {s t u}, alike s t → alike t u → alike s u
  inv_step : ∀ {s i s'}, inv s → cond s i → step s i = .ok s' → inv s'
  congr : ∀ {s t i s'}, inv s → inv t → alike s t → cond s i → step s i = .ok s' →
    cond t i ∧ ∃ t', step t i = .ok t' ∧ alike s' t'
  diamond : ∀ {s a b s₁ s₂}, inv s → independent a b → cond s a → step s a = .ok s₁ →
    cond s₁ b → step s₁ b = .ok s₂ →
    cond s b ∧ ∃ t₁, step s b = .ok t₁ ∧ cond t₁ a ∧ ∃ t₂, step t₁ a = .ok t₂ ∧ alike s₂ t₂

/-- Two neighbours change places. -/
inductive Swap {ι : Type v} (independent : ι → ι → Prop) : List ι → List ι → Prop where
  | mk (before after : List ι) (a b : ι) (h : independent a b) :
      Swap independent (before ++ a :: b :: after) (before ++ b :: a :: after)

abbrev Swaps {ι : Type v} (independent : ι → ι → Prop) : List ι → List ι → Prop :=
  Relation.ReflTransGen (Swap independent)

section

variable {σ : Type u} {ι : Type v} {ε : Type w} {step : σ → ι → Except ε σ}

namespace Independence

variable (I : Independence step) {s t s' : σ} {is js : List ι}

theorem inv_run (hs : I.inv s) (hcond : Along step I.cond s is) (hrun : run step s is = .ok s') :
    I.inv s' :=
  run_invariant (fun _ _ _ hs hcond h => I.inv_step hs hcond h) hs hcond hrun

/-- The same inputs do alike to states that are alike. -/
theorem run_congr (hs : I.inv s) (ht : I.inv t) (halike : I.alike s t)
    (hcond : Along step I.cond s is) (hrun : run step s is = .ok s') :
    Along step I.cond t is ∧ ∃ t', run step t is = .ok t' ∧ I.alike s' t' := by
  induction is generalizing s t with
  | nil =>
    cases hrun
    exact ⟨trivial, t, rfl, halike⟩
  | cons i is ih =>
    obtain ⟨s₁, hs₁, hrun⟩ := run_cons_ok_iff.mp hrun
    obtain ⟨hi, t₁, ht₁, halike₁⟩ := I.congr hs ht halike hcond.1 hs₁
    obtain ⟨hrest, t', ht', halike'⟩ := ih (I.inv_step hs hcond.1 hs₁) (I.inv_step ht hi ht₁)
      halike₁ (hcond.2 s₁ hs₁) hrun
    refine ⟨⟨hi, fun t₂ ht₂ => ?_⟩, t', run_cons_ok_iff.mpr ⟨t₁, ht₁, ht'⟩, halike'⟩
    rw [ht₁] at ht₂
    cases ht₂
    exact hrest

/-- One exchange. -/
theorem run_swap (hs : I.inv s) (hswap : Swap I.independent is js)
    (hcond : Along step I.cond s is) (hrun : run step s is = .ok s') :
    Along step I.cond s js ∧ ∃ t', run step s js = .ok t' ∧ I.alike s' t' := by
  cases hswap with
  | mk before after a b hindep =>
    obtain ⟨hbefore, hcond⟩ := along_append_iff.mp hcond
    obtain ⟨s₀, hs₀, hrun⟩ := run_append_ok_iff.mp hrun
    obtain ⟨s₁, hs₁, hrun⟩ := run_cons_ok_iff.mp hrun
    obtain ⟨s₂, hs₂, hrun⟩ := run_cons_ok_iff.mp hrun
    obtain ⟨ha, hcond⟩ := hcond s₀ hs₀
    obtain ⟨hb, hcond⟩ := hcond s₁ hs₁
    have hinv₀ := I.inv_run hs hbefore hs₀
    have hinv₂ := I.inv_step (I.inv_step hinv₀ ha hs₁) hb hs₂
    obtain ⟨hb₀, t₁, ht₁, ha₁, t₂, ht₂, halike⟩ := I.diamond hinv₀ hindep ha hs₁ hb hs₂
    have hinvt := I.inv_step (I.inv_step hinv₀ hb₀ ht₁) ha₁ ht₂
    obtain ⟨hafter, t', ht', halike'⟩ :=
      I.run_congr hinv₂ hinvt halike (hcond s₂ hs₂) hrun
    refine ⟨along_append_iff.mpr ⟨hbefore, fun u hu => ?_⟩, t', ?_, halike'⟩
    · rw [hs₀] at hu
      cases hu
      refine ⟨hb₀, fun u hu => ?_⟩
      rw [ht₁] at hu
      cases hu
      refine ⟨ha₁, fun u hu => ?_⟩
      rw [ht₂] at hu
      cases hu
      exact hafter
    · exact run_append_ok_iff.mpr ⟨s₀, hs₀, run_cons_ok_iff.mpr ⟨t₁, ht₁,
        run_cons_ok_iff.mpr ⟨t₂, ht₂, ht'⟩⟩⟩

/-- Any number of exchanges. -/
theorem run_swaps (hs : I.inv s) (hswaps : Swaps I.independent is js)
    (hcond : Along step I.cond s is) (hrun : run step s is = .ok s') :
    Along step I.cond s js ∧ ∃ t', run step s js = .ok t' ∧ I.alike s' t' := by
  induction hswaps with
  | refl => exact ⟨hcond, s', hrun, I.refl s'⟩
  | tail _ hswap ih =>
    obtain ⟨hcond₁, t₁, ht₁, halike₁⟩ := ih
    obtain ⟨hcond₂, t₂, ht₂, halike₂⟩ := I.run_swap hs hswap hcond₁ ht₁
    exact ⟨hcond₂, t₂, ht₂, I.trans halike₁ halike₂⟩

end Independence

end

end Runs
