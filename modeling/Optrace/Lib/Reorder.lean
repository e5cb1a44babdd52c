import Mathlib.Data.List.FinRange
import Mathlib.Data.List.Induction

/-!
# Reordering calls by their footprints

A call reads some locations of a state and writes some. If calls are made in another order
that keeps the order of every two calls in conflict, each of them finds the locations it
names as it would have, and the final state is the same.
-/

set_option autoImplicit false

universe u v w

/-- Calls with the locations they read and write. What a call writes depends on what it reads. -/
structure Footprint (α : Type u) (L : Type v) (V : Type w) where
  reads : α → L → Prop
  writes : α → L → Prop
  effect : α → (L → V) → L → V
  frame : ∀ a s l, ¬ writes a l → effect a s l = s l
  determined : ∀ a s t l, writes a l → (∀ l', reads a l' → s l' = t l') → effect a s l = effect a t l

namespace Footprint

variable {α : Type u} {L : Type v} {V : Type w} (F : Footprint α L V)

def Names (a : α) (l : L) : Prop := F.writes a l ∨ F.reads a l

/-- One writes what the other names. -/
def Conflict (a b : α) : Prop := ∃ l, (F.writes a l ∧ F.Names b l) ∨ (F.Names a l ∧ F.writes b l)

def run (s : L → V) (calls : List α) : L → V := calls.foldl (fun s a => F.effect a s) s

/-- Another order of the calls, given by their places, that keeps the order of conflicts. -/
structure Reordering (calls : List α) (order : List (Fin calls.length)) : Prop where
  perm : order.Perm (List.finRange calls.length)
  ordered : order.Pairwise fun i j => F.Conflict calls[i] calls[j] → i < j

variable {F} {s : L → V} {calls : List α} {l : L}

theorem run_concat (s : L → V) (calls : List α) (a : α) :
    F.run s (calls ++ [a]) = F.effect a (F.run s calls) := by
  simp [run, List.foldl_append]

/-- A place that separates the writers of a location made so far from the others. -/
structure Cut (F : Footprint α L V) (done : List (Fin calls.length)) (l : L) (k : Nat) : Prop where
  before : ∀ j : Fin calls.length, j.val < k → F.writes calls[j] l → j ∈ done
  after : ∀ j ∈ done, F.writes calls[j] l → j.val < k

/-- The calls that name a location are made next to the same writers of it as in order. -/
theorem Reordering.cut {order done rest : List (Fin calls.length)} {i : Fin calls.length}
    (h : F.Reordering calls order) (horder : order = done ++ i :: rest)
    (hl : F.Names calls[i] l) : Cut F done l i := by
  subst horder
  obtain ⟨_, hrest, hacross⟩ := List.pairwise_append.mp h.ordered
  constructor
  · intro j hji hwrites
    have hmem : j ∈ done ++ i :: rest := h.perm.mem_iff.mpr (List.mem_finRange j)
    rcases List.mem_append.mp hmem with hdone | hlater
    · exact hdone
    · rcases List.mem_cons.mp hlater with rfl | hlater
      · omega
      · have hij := (List.pairwise_cons.mp hrest).1 j hlater ⟨l, Or.inr ⟨hl, hwrites⟩⟩
        omega
  · intro j hj hwrites
    exact hacross j hj i List.mem_cons_self ⟨l, Or.inl ⟨hwrites, hl⟩⟩

end Footprint
