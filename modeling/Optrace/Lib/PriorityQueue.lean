import Mathlib.Data.Multiset.Sort
import Mathlib.Data.List.Sort

/-!
# Bounded selection through a priority queue

`PriorityQueue` is the contract of a heap for a comparator: `top` is a member that the
comparator puts before no other member. `offer` is the online selection step that keeps
the queue at a bounded size by evicting the top, and `Largest` is what it computes.
Nothing is assumed about how ties are broken.
-/

namespace Collections

set_option autoImplicit false

universe u v w

/-- A heap for the comparator `comp`, up to the order in which it keeps equal members. -/
class PriorityQueue (Q : Type u) (α : outParam (Type v)) (comp : outParam (α → α → Bool)) where
  empty : Q
  push : Q → α → Q
  pop : Q → Q
  top : Q → Option α
  items : Q → Multiset α
  items_empty : items empty = 0
  items_push : ∀ q a, items (push q a) = a ::ₘ items q
  items_of_top_none : ∀ q, top q = none → items q = 0
  items_of_top : ∀ q a, top q = some a → items q = a ::ₘ items (pop q)
  top_first : ∀ q a b, top q = some a → b ∈ items q → comp a b = false

namespace PriorityQueue

attribute [simp] items_empty items_push

variable {Q : Type u} {α : Type v} {comp : α → α → Bool} [PriorityQueue Q α comp]

def size (q : Q) : Nat := Multiset.card (items q)

theorem size_of_top {q : Q} {a : α} (h : top q = some a) : size q = size (pop q) + 1 := by
  simp [size, items_of_top q a h]

theorem exists_top_of_size_pos {q : Q} (h : 0 < size q) : ∃ a, top q = some a := by
  cases htop : top q with
  | none => simp [size, items_of_top_none q htop] at h
  | some a => exact ⟨a, rfl⟩

/-- The members in the order `top` and `pop` hand them out. -/
def drain : Nat → Q → List α
  | 0, _ => []
  | n + 1, q =>
    match top q with
    | none => []
    | some a => a :: drain n (pop q)

theorem coe_drain (n : Nat) (q : Q) (hn : size q = n) : (drain n q : Multiset α) = items q := by
  induction n generalizing q with
  | zero => exact (Multiset.card_eq_zero.mp hn).symm
  | succ n ih =>
    obtain ⟨a, ha⟩ := exists_top_of_size_pos (q := q) (by omega)
    have hpop : size (pop q) = n := by
      have := size_of_top ha
      omega
    simp only [drain, ha, items_of_top q a ha, ← ih (pop q) hpop, Multiset.cons_coe]

theorem drain_length (n : Nat) (q : Q) (hn : size q = n) : (drain n q).length = n := by
  have h := congrArg Multiset.card (coe_drain n q hn)
  exact h.trans hn

/-- No member handed out comes after a later one in the comparator's order. -/
theorem drain_pairwise (n : Nat) (q : Q) (hn : size q = n) :
    (drain n q).Pairwise fun a b => comp a b = false := by
  induction n generalizing q with
  | zero => exact .nil
  | succ n ih =>
    obtain ⟨a, ha⟩ := exists_top_of_size_pos (q := q) (by omega)
    have hpop : size (pop q) = n := by
      have := size_of_top ha
      omega
    simp only [drain, ha]
    refine List.pairwise_cons.mpr ⟨?_, ih (pop q) hpop⟩
    intro b hb
    have hmem : b ∈ items (pop q) := by
      rw [← coe_drain n (pop q) hpop]
      exact hb
    apply top_first q a b ha
    rw [items_of_top q a ha]
    exact Multiset.mem_cons_of_mem hmem

end PriorityQueue

/-! ## What bounded selection computes -/

section Selection

open PriorityQueue

variable {α : Type v} {κ : Type w} [LinearOrder κ] (key : α → κ)

/-- How many of `count` candidates are kept; no limit keeps all of them. -/
def keptCount (limit : Option Nat) (count : Nat) : Nat :=
  match limit with
  | none => count
  | some n => min n count

def hasRoom (limit : Option Nat) (count : Nat) : Bool :=
  match limit with
  | none => true
  | some n => decide (count < n)

/-- `kept` holds as many of the candidates as the limit allows, and none of those left
out has a larger key than one kept. -/
structure Largest (limit : Option Nat) (candidates kept : Multiset α) : Prop where
  card_eq : Multiset.card kept = keptCount limit (Multiset.card candidates)
  split : ∃ left, candidates = kept + left ∧ ∀ a ∈ kept, ∀ b ∈ left, key b ≤ key a

theorem Largest.empty (limit : Option Nat) : Largest key limit 0 0 := by
  refine ⟨?_, 0, by simp, by simp⟩
  cases limit <;> simp [keptCount]

theorem Largest.le {key : α → κ} {limit : Option Nat} {candidates kept : Multiset α}
    (h : Largest key limit candidates kept) : kept ≤ candidates := by
  obtain ⟨left, heq, _⟩ := h.split
  rw [heq]
  exact Multiset.le_add_right kept left

/-- While not everything fits, nothing has been left out. -/
theorem Largest.eq_of_room {key : α → κ} {limit : Option Nat} {candidates kept : Multiset α}
    (h : Largest key limit candidates kept)
    (hroom : hasRoom limit (Multiset.card kept) = true) : kept = candidates := by
  apply Multiset.eq_of_le_of_card_le h.le
  rw [h.card_eq]
  cases limit with
  | none => exact Nat.le_refl _
  | some n =>
    have hcard := h.card_eq
    simp only [keptCount, hasRoom, decide_eq_true_eq] at hcard hroom ⊢
    omega

theorem Largest.cons_room {key : α → κ} {limit : Option Nat} {candidates kept : Multiset α}
    (h : Largest key limit candidates kept)
    (hroom : hasRoom limit (Multiset.card kept) = true) (a : α) :
    Largest key limit (a ::ₘ candidates) (a ::ₘ kept) := by
  have heq := h.eq_of_room hroom
  subst heq
  refine ⟨?_, 0, by simp, by simp⟩
  cases limit with
  | none => rfl
  | some n =>
    simp only [keptCount, hasRoom, decide_eq_true_eq, Multiset.card_cons] at hroom ⊢
    omega

/-- A full selection stays exact when a smaller member makes place for a larger one. -/
theorem Largest.cons_evict {key : α → κ} {n : Nat} {candidates rest : Multiset α} {t a : α}
    (h : Largest key (some n) candidates (t ::ₘ rest)) (hmin : ∀ b ∈ rest, key t ≤ key b)
    (hlt : key t < key a) (hfull : n ≤ Multiset.card (t ::ₘ rest)) :
    Largest key (some n) (a ::ₘ candidates) (a ::ₘ rest) := by
  obtain ⟨left, heq, hleft⟩ := h.split
  have hcard := h.card_eq
  refine ⟨?_, t ::ₘ left, ?_, ?_⟩
  · simp only [keptCount, Multiset.card_cons] at hcard hfull ⊢
    omega
  · rw [heq, Multiset.cons_add, Multiset.cons_add, Multiset.add_cons]
  · intro b hb c hc
    have htb : key t ≤ key b := by
      rcases Multiset.mem_cons.mp hb with rfl | hb
      · exact hlt.le
      · exact hmin b hb
    rcases Multiset.mem_cons.mp hc with rfl | hc
    · exact htb
    · exact (hleft t (Multiset.mem_cons_self t rest) c hc).trans htb

theorem Largest.cons_skip {key : α → κ} {n : Nat} {candidates kept : Multiset α} {a : α}
    (h : Largest key (some n) candidates kept) (hle : ∀ b ∈ kept, key a ≤ key b)
    (hfull : n ≤ Multiset.card kept) : Largest key (some n) (a ::ₘ candidates) kept := by
  obtain ⟨left, heq, hleft⟩ := h.split
  have hcard := h.card_eq
  refine ⟨?_, a ::ₘ left, ?_, ?_⟩
  · simp only [keptCount, Multiset.card_cons] at hcard hfull ⊢
    omega
  · rw [heq, Multiset.add_cons]
  · intro b hb c hc
    rcases Multiset.mem_cons.mp hc with rfl | hc
    · exact hle b hb
    · exact hleft b hb c hc

/-- The keys kept are the first ones of the candidates' keys in non-increasing order. -/
theorem Largest.keys_eq_take {key : α → κ} {limit : Option Nat} {candidates kept : Multiset α}
    (h : Largest key limit candidates kept) :
    (kept.map key).sort (· ≥ ·) =
      ((candidates.map key).sort (· ≥ ·)).take (Multiset.card kept) := by
  obtain ⟨left, heq, hleft⟩ := h.split
  have hsplit : (candidates.map key).sort (· ≥ ·) =
      (kept.map key).sort (· ≥ ·) ++ (left.map key).sort (· ≥ ·) := by
    apply List.Perm.eq_of_pairwise' (r := (· ≥ ·))
    · exact Multiset.pairwise_sort _ _
    · refine List.pairwise_append.mpr
        ⟨Multiset.pairwise_sort _ _, Multiset.pairwise_sort _ _, ?_⟩
      intro x hx y hy
      obtain ⟨a, ha, rfl⟩ := Multiset.mem_map.mp ((Multiset.mem_sort _).mp hx)
      obtain ⟨b, hb, rfl⟩ := Multiset.mem_map.mp ((Multiset.mem_sort _).mp hy)
      exact hleft a ha b hb
    · rw [← Multiset.coe_eq_coe, ← Multiset.coe_add]
      simp only [Multiset.sort_eq, heq, Multiset.map_add]
  rw [hsplit, List.take_left']
  simp

variable {comp : α → α → Bool} {Q : Type u} [PriorityQueue Q α comp]

/-- Keep a newcomer while there is room, else in place of a smaller top. -/
def offer (limit : Option Nat) (q : Q) (a : α) : Q :=
  if hasRoom limit (size q) then push q a
  else
    match top q with
    | some t => if key t < key a then push (pop q) a else q
    | none => q

variable (hcomp : ∀ a b, comp a b = decide (key b < key a))
include hcomp

theorem top_le {q : Q} {t b : α} (ht : top q = some t) (hb : b ∈ items q) : key t ≤ key b := by
  have h := top_first q t b ht hb
  simpa [hcomp] using h

/-- One online step keeps the selection exact. -/
theorem Largest.offer {limit : Option Nat} {candidates : Multiset α} {q : Q}
    (h : Largest key limit candidates (items q)) (a : α) :
    Largest key limit (a ::ₘ candidates) (items (Collections.offer key limit q a)) := by
  unfold Collections.offer
  split
  · rename_i hroom
    rw [items_push]
    exact h.cons_room hroom a
  · rename_i hnone
    cases limit with
    | none => simp [hasRoom] at hnone
    | some n =>
      have hfull : n ≤ size q := by simpa [hasRoom] using hnone
      cases htop : top q with
      | none =>
        have hzero := items_of_top_none q htop
        exact h.cons_skip (by simp [hzero]) hfull
      | some t =>
        have hitems := items_of_top q t htop
        simp only
        split
        · rename_i hlt
          rw [items_push]
          rw [hitems] at h
          refine h.cons_evict ?_ hlt (by rw [← hitems]; exact hfull)
          intro b hb
          apply top_le key hcomp htop
          rw [hitems]
          exact Multiset.mem_cons_of_mem hb
        · rename_i hge
          refine h.cons_skip ?_ hfull
          intro b hb
          exact (not_lt.mp hge).trans (top_le key hcomp htop hb)

/-- The whole run: whatever came in, the queue holds its largest members. -/
theorem largest_foldl_offer (limit : Option Nat) (as : List α) {candidates : Multiset α} {q : Q}
    (h : Largest key limit candidates (items q)) :
    Largest key limit (candidates + as) (items (as.foldl (Collections.offer key limit) q)) := by
  induction as generalizing candidates q with
  | nil => simpa using h
  | cons a as ih =>
    have hstep := ih (h.offer key hcomp a)
    simpa [← Multiset.cons_coe, Multiset.cons_add, Multiset.add_cons] using hstep

end Selection

/-! ## A sorted list is a priority queue -/

section SortedQueue

variable {α : Type v} {κ : Type w} [LinearOrder κ]

/-- A list kept in non-decreasing order of its keys. -/
structure SortedQueue (key : α → κ) where
  list : List α
  sorted : list.Pairwise fun a b => key a ≤ key b

namespace SortedQueue

variable {key : α → κ}

def insert (key : α → κ) (a : α) : List α → List α
  | [] => [a]
  | b :: bs => if key a ≤ key b then a :: b :: bs else b :: insert key a bs

theorem insert_perm (a : α) (bs : List α) : (insert key a bs).Perm (a :: bs) := by
  induction bs with
  | nil => exact .refl _
  | cons b bs ih =>
    simp only [insert]
    split
    · exact .refl _
    · exact (ih.cons b).trans (.swap a b bs)

theorem insert_sorted (a : α) {bs : List α} (h : bs.Pairwise fun a b => key a ≤ key b) :
    (insert key a bs).Pairwise fun a b => key a ≤ key b := by
  induction bs with
  | nil => simp [insert]
  | cons b bs ih =>
    obtain ⟨hb, hbs⟩ := List.pairwise_cons.mp h
    simp only [insert]
    split
    · rename_i hab
      refine List.pairwise_cons.mpr ⟨?_, h⟩
      intro c hc
      rcases List.mem_cons.mp hc with rfl | hc
      · exact hab
      · exact hab.trans (hb c hc)
    · rename_i hab
      refine List.pairwise_cons.mpr ⟨?_, ih hbs⟩
      intro c hc
      rcases List.mem_cons.mp ((insert_perm a bs).mem_iff.mp hc) with rfl | hc
      · exact (not_le.mp hab).le
      · exact hb c hc

instance : PriorityQueue (SortedQueue key) α (fun a b => decide (key b < key a)) where
  empty := ⟨[], .nil⟩
  push q a := ⟨insert key a q.list, insert_sorted a q.sorted⟩
  pop q := ⟨q.list.tail, q.sorted.tail⟩
  top q := q.list.head?
  items q := q.list
  items_empty := rfl
  items_push q a := Multiset.coe_eq_coe.mpr (insert_perm a q.list)
  items_of_top_none q h := by simp [List.head?_eq_none_iff.mp h]
  items_of_top q a h := by
    have hcons := List.eq_cons_of_mem_head? h
    change (q.list : Multiset α) = a ::ₘ (q.list.tail : Multiset α)
    rw [Multiset.cons_coe, ← hcons]
  top_first q a b h hb := by
    cases hq : q.list with
    | nil => simp [hq] at h
    | cons c cs =>
      have hsorted := q.sorted
      rw [hq] at h hb hsorted
      obtain rfl : c = a := by simpa using h
      rcases List.mem_cons.mp hb with rfl | hb
      · simp
      · simpa using (List.pairwise_cons.mp hsorted).1 b hb

end SortedQueue

end SortedQueue

end Collections
