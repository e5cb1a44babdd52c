import Optrace.Lib.Run
import Mathlib.Data.List.Perm.Basic

/-!
# Signals of a process

A process with a signal mask, handlers and pending signals. A signal that comes while it is blocked
is kept; a standard one is kept once however often it comes, a queued one each time. It is delivered
when the mask lets it through: a handler runs, or the default action is taken.
-/

set_option autoImplicit false

namespace SignalMask

universe u

/-- What the signals are: the ones that queue, the ones whose default action ends the process, and
the ones that can be neither blocked nor handled. -/
structure Kinds where
  queues : Int → Bool
  fatal : Int → Bool
  forced : Int → Bool

/-- A process. What its handlers change is its own state. -/
structure Process (σ : Type u) where
  blocked : Int → Bool
  handled : List Int
  pending : List Int
  own : σ

variable (kinds : Kinds)

/-- One more signal is pending. -/
def queue (pending : List Int) (sig : Int) : List Int :=
  if sig ∈ pending ∧ kinds.queues sig = false then pending else pending ++ [sig]

variable {σ : Type u} (handler : σ → Int → σ)

/-- The process gets the signal, or is ended by it. -/
def deliver (s : Process σ) (sig : Int) : Except Int (Process σ) :=
  if sig ∈ s.handled ∧ kinds.forced sig = false then .ok { s with own := handler s.own sig }
  else if kinds.fatal sig then .error sig
  else .ok s

/-- A signal comes. -/
def raise (s : Process σ) (sig : Int) : Except Int (Process σ) :=
  if s.blocked sig && !kinds.forced sig then .ok { s with pending := queue kinds s.pending sig }
  else deliver kinds handler s sig

/-- A new mask. The pending signals it lets through are delivered, in an order that is not said. -/
def setMask (mask : Int → Bool) (order : List Int) (s : Process σ) : Except Int (Process σ) :=
  Runs.run (deliver kinds handler) { s with blocked := mask, pending := s.pending.filter mask } order

/-- The pending signals that a mask lets through, in some order. -/
def Released (mask : Int → Bool) (s : Process σ) (order : List Int) : Prop :=
  order.Perm (s.pending.filter fun sig => !mask sig)

instance (mask : Int → Bool) (s : Process σ) (order : List Int) :
    Decidable (Released mask s order) :=
  inferInstanceAs (Decidable (order.Perm _))

variable {kinds handler} {s s' : Process σ} {sig : Int}

/-! ## Pending signals -/

/-- Signals fall together with their like only. -/
theorem filter_queue (p : Int → Bool) (pending : List Int) (sig : Int) :
    (queue kinds pending sig).filter p =
      if p sig then queue kinds (pending.filter p) sig else pending.filter p := by
  unfold queue
  cases hp : p sig with
  | true =>
    have hmem : sig ∈ pending.filter p ↔ sig ∈ pending := by simp [hp]
    simp only [hmem, if_true]
    split
    · rfl
    · simp [hp]
  | false =>
    simp only [Bool.false_eq_true, if_false]
    split
    · rfl
    · simp [hp]

theorem filter_foldl_queue (p : Int → Bool) (sigs pending : List Int) :
    (sigs.foldl (queue kinds) pending).filter p =
      (sigs.filter p).foldl (queue kinds) (pending.filter p) := by
  induction sigs generalizing pending with
  | nil => rfl
  | cons sig sigs ih =>
    rw [List.foldl_cons, ih, filter_queue]
    cases hp : p sig with
    | true => rw [if_pos rfl, List.filter_cons_of_pos hp, List.foldl_cons]
    | false => rw [if_neg Bool.false_ne_true, List.filter_cons_of_neg (by simp [hp])]

/-! ## Deliveries -/

/-- The signals that have handlers. -/
def Process.handles (kinds : Kinds) (s : Process σ) (sig : Int) : Bool :=
  decide (sig ∈ s.handled) && !kinds.forced sig

theorem deliver_ok (h : deliver kinds handler s sig = .ok s') :
    s' = { s with own := if s.handles kinds sig then handler s.own sig else s.own } := by
  unfold deliver at h
  unfold Process.handles
  split at h
  · rename_i hyes
    cases h
    simp [hyes.1, hyes.2]
  · rename_i hno
    split at h
    · cases h
    · cases h
      have hfalse : (decide (sig ∈ s.handled) && !kinds.forced sig) = false := by
        simpa using hno
      rw [hfalse]
      rfl

theorem deliver_error {e : Int} (h : deliver kinds handler s sig = .error e) :
    e = sig ∧ s.handles kinds sig = false := by
  unfold deliver at h
  unfold Process.handles
  split at h
  · cases h
  · rename_i hno
    split at h
    · cases h
      exact ⟨rfl, by simpa using hno⟩
    · cases h

/-- Deliveries in a row run the handlers in that order, and change nothing else. -/
theorem deliver_run {sigs : List Int} (h : Runs.run (deliver kinds handler) s sigs = .ok s') :
    s' = { s with own := (sigs.filter (s.handles kinds)).foldl handler s.own } := by
  induction sigs generalizing s with
  | nil =>
    cases h
    rfl
  | cons sig sigs ih =>
    obtain ⟨s₁, hfirst, hrest⟩ := Runs.run_cons_ok_iff.mp h
    have hs₁ := deliver_ok hfirst
    have hhandles : s₁.handles kinds = s.handles kinds := by
      rw [hs₁]
      rfl
    rw [ih hrest, hhandles, hs₁]
    cases hsig : s.handles kinds sig with
    | true => simp [hsig]
    | false => simp [hsig]

theorem deliver_run_error {sigs : List Int} {e : Int}
    (h : Runs.run (deliver kinds handler) s sigs = .error e) :
    e ∈ sigs ∧ s.handles kinds e = false := by
  induction sigs generalizing s with
  | nil => cases h
  | cons sig sigs ih =>
    simp only [Runs.run] at h
    split at h
    · rename_i s₁ hfirst
      have hs₁ := deliver_ok hfirst
      obtain ⟨hmem, hno⟩ := ih h
      refine ⟨List.mem_cons_of_mem sig hmem, ?_⟩
      rw [hs₁] at hno
      exact hno
    · rename_i e' hfirst
      cases h
      obtain ⟨rfl, hno⟩ := deliver_error hfirst
      exact ⟨List.mem_cons_self, hno⟩

end SignalMask
