import Mathlib.Data.List.Count
import Mathlib.Data.Option.Basic
import Mathlib.Algebra.BigOperators.Group.Finset.Basic
import Mathlib.Algebra.BigOperators.Intervals

/-!
# Tables of references

A slot table is a vector of nullable references. The lemmas say what writing a slot and
growing the table do to the slots and to the number of slots that hold a reference, which
is what a reference count counts.
-/

set_option autoImplicit false

universe u

/-- A vector of nullable references. -/
abbrev SlotTable (α : Type u) := List (Option α)

namespace SlotTable

variable {α : Type u}

/-- The reference in a slot; a slot past the end holds none. -/
def slot (t : SlotTable α) (i : Nat) : Option α := t[i]?.join

/-- `vector::resize`: cut off, or fill up with null references. -/
def resize (t : SlotTable α) (n : Nat) : SlotTable α :=
  t.take n ++ List.replicate (n - t.length) none

theorem slot_eq_some_iff {t : SlotTable α} {i : Nat} {a : α} :
    slot t i = some a ↔ t[i]? = some (some a) := by
  simp [slot, Option.join_eq_some_iff]

theorem lt_length_of_slot {t : SlotTable α} {i : Nat} {a : α} (h : slot t i = some a) :
    i < t.length := by
  obtain ⟨hlt, _⟩ := List.getElem?_eq_some_iff.mp (slot_eq_some_iff.mp h)
  exact hlt

theorem slot_of_length_le {t : SlotTable α} {i : Nat} (h : t.length ≤ i) : slot t i = none := by
  simp [slot, List.getElem?_eq_none h]

@[simp] theorem slot_nil (i : Nat) : slot ([] : SlotTable α) i = none := rfl

@[simp] theorem slot_cons_zero (v : Option α) (t : SlotTable α) : slot (v :: t) 0 = v := rfl

@[simp] theorem slot_cons_succ (v : Option α) (t : SlotTable α) (i : Nat) :
    slot (v :: t) (i + 1) = slot t i := rfl

theorem slot_set {t : SlotTable α} {i : Nat} (hi : i < t.length) (v : Option α) (j : Nat) :
    slot (t.set i v) j = if i = j then v else slot t j := by
  unfold slot
  rw [List.getElem?_set]
  split
  · simp
  · rfl

@[simp] theorem slot_resize {t : SlotTable α} {n : Nat} (h : t.length ≤ n) (i : Nat) :
    slot (resize t n) i = slot t i := by
  unfold slot resize
  rw [List.take_of_length_le h, List.getElem?_append]
  split
  · rfl
  · rename_i hi
    rw [List.getElem?_replicate, List.getElem?_eq_none (Nat.le_of_not_lt hi)]
    split <;> rfl

@[simp] theorem length_resize (t : SlotTable α) (n : Nat) : (resize t n).length = n := by
  simp only [resize, List.length_append, List.length_take, List.length_replicate]
  omega

theorem slot_take (t : SlotTable α) (n i : Nat) :
    slot (t.take n) i = if i < n then slot t i else none := by
  unfold slot
  rw [List.getElem?_take]
  split <;> rfl

/-! ## How many slots hold a reference -/

variable [DecidableEq α]

/-- The number of slots that hold the reference. -/
def refs (t : SlotTable α) (a : α) : Nat := t.count (some a)

@[simp] theorem refs_nil (a : α) : refs [] a = 0 := rfl

theorem refs_pos_iff {t : SlotTable α} {a : α} : 0 < refs t a ↔ ∃ i, slot t i = some a := by
  rw [refs, List.count_pos_iff, List.mem_iff_getElem?]
  simp only [slot_eq_some_iff]

theorem refs_eq_zero_iff {t : SlotTable α} {a : α} : refs t a = 0 ↔ ∀ i, slot t i ≠ some a := by
  have h := refs_pos_iff (t := t) (a := a)
  constructor
  · intro hzero i hi
    have := h.mpr ⟨i, hi⟩
    omega
  · intro hnone
    by_contra hne
    obtain ⟨i, hi⟩ := h.mp (by omega)
    exact hnone i hi

theorem refs_resize {t : SlotTable α} {n : Nat} (h : t.length ≤ n) (a : α) :
    refs (resize t n) a = refs t a := by
  simp [refs, resize, List.take_of_length_le h, List.count_replicate]

theorem refs_set {t : SlotTable α} {i : Nat} (hi : i < t.length) (v : Option α) (a : α) :
    refs (t.set i v) a + (if slot t i = some a then 1 else 0) =
      refs t a + (if v = some a then 1 else 0) := by
  have hslot : slot t i = t[i] := by simp [slot, hi]
  have hle : (if t[i] = some a then 1 else 0) ≤ t.count (some a) := by
    split
    · rename_i heq
      exact List.count_pos_iff.mpr (heq ▸ List.getElem_mem hi)
    · exact Nat.zero_le _
  rw [hslot, refs, refs, List.count_set hi]
  simp only [beq_iff_eq]
  omega

/-- Clearing a slot drops one reference to what it held and none to anything else. -/
theorem refs_clear {t : SlotTable α} {i : Nat} {b : α} (h : slot t i = some b) (a : α) :
    refs (t.set i none) a + (if b = a then 1 else 0) = refs t a := by
  have hset := refs_set (lt_length_of_slot h) none a
  simpa [h] using hset

/-- Filling an empty slot adds one reference. -/
theorem refs_fill {t : SlotTable α} {i : Nat} (hi : i < t.length) (hempty : slot t i = none)
    (b a : α) : refs (t.set i (some b)) a = refs t a + (if b = a then 1 else 0) := by
  have hset := refs_set hi (some b) a
  simpa [hempty] using hset

/-- A reference that is held once is in one slot. -/
theorem slot_eq_of_refs_one {t : SlotTable α} {i j : Nat} {a : α} (hone : refs t a = 1)
    (hi : slot t i = some a) (hj : slot t j = some a) : i = j := by
  by_contra hne
  have hclear := refs_clear hi a
  rw [if_pos rfl, hone] at hclear
  have hzero := refs_eq_zero_iff.mp (Nat.succ_inj.mp hclear) j
  rw [slot_set (lt_length_of_slot hi), if_neg hne] at hzero
  exact hzero hj

end SlotTable
