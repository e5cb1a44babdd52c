import Optrace.Types
import Optrace.Lib.SlotTable

/-!
# Shared objects

The `TFileState` and `TProcState` objects the tracker's shared pointers point to. A
reference is the number of the object, in the order of their creation; `use_count` of a file state is the number of
descriptor slots, over all process states that exist, which hold it.
-/

namespace Optrace

set_option autoImplicit false

open SlotTable

structure ProcState where
  fds : SlotTable Nat
  procInfo : ProcInfo
  deriving Inhabited

structure Heap where
  procs : Nat → ProcState
  procCount : Nat
  files : Nat → FileState
  fileCount : Nat

namespace Heap

def empty : Heap := ⟨fun _ => ⟨[], default⟩, 0, fun _ => default, 0⟩

def fds (h : Heap) (p : Nat) : SlotTable Nat := (h.procs p).fds

def useCount (h : Heap) (r : Nat) : Nat :=
  ∑ p ∈ Finset.range h.procCount, refs (h.fds p) r

def setFds (h : Heap) (p : Nat) (fds : SlotTable Nat) : Heap :=
  { h with procs := Function.update h.procs p { h.procs p with fds := fds } }

def updateFile (h : Heap) (r : Nat) (f : FileState → FileState) : Heap :=
  { h with files := Function.update h.files r (f (h.files r)) }

/-- `std::make_shared<TFileState>` for each of the given states. -/
def newFiles (h : Heap) (states : List FileState) : Heap :=
  { h with
    files := fun r => if r < h.fileCount then h.files r
      else (states[r - h.fileCount]?).getD (h.files r)
    fileCount := h.fileCount + states.length }

/-- `std::make_shared<TProcState>`; the reference is the old `procCount`. -/
def newProc (h : Heap) (proc : ProcState) : Heap :=
  { h with procs := Function.update h.procs h.procCount proc, procCount := h.procCount + 1 }

variable (h : Heap)

@[simp] theorem setFds_fds_self (p : Nat) (fds : SlotTable Nat) :
    (h.setFds p fds).fds p = fds := by simp [setFds, Heap.fds]

theorem setFds_fds (p q : Nat) (fds : SlotTable Nat) :
    (h.setFds p fds).fds q = if q = p then fds else h.fds q := by
  by_cases hq : q = p
  · subst hq
    simp
  · simp [setFds, Heap.fds, hq]

@[simp] theorem setFds_procCount (p : Nat) (fds : SlotTable Nat) :
    (h.setFds p fds).procCount = h.procCount := rfl

@[simp] theorem setFds_files (p : Nat) (fds : SlotTable Nat) :
    (h.setFds p fds).files = h.files := rfl

@[simp] theorem setFds_fileCount (p : Nat) (fds : SlotTable Nat) :
    (h.setFds p fds).fileCount = h.fileCount := rfl

@[simp] theorem setFds_procInfo (p q : Nat) (fds : SlotTable Nat) :
    ((h.setFds p fds).procs q).procInfo = (h.procs q).procInfo := by
  by_cases hq : q = p
  · subst hq
    simp [setFds]
  · simp [setFds, hq]

@[simp] theorem updateFile_fds (r : Nat) (f : FileState → FileState) (p : Nat) :
    (h.updateFile r f).fds p = h.fds p := rfl

@[simp] theorem updateFile_files_self (r : Nat) (f : FileState → FileState) :
    (h.updateFile r f).files r = f (h.files r) := by simp [updateFile]

theorem updateFile_files_ne {r s : Nat} (hs : s ≠ r) (f : FileState → FileState) :
    (h.updateFile r f).files s = h.files s := by simp [updateFile, hs]

@[simp] theorem newFiles_fds (states : List FileState) (p : Nat) :
    (h.newFiles states).fds p = h.fds p := rfl

@[simp] theorem newFiles_procs (states : List FileState) :
    (h.newFiles states).procs = h.procs := rfl

@[simp] theorem newFiles_procCount (states : List FileState) :
    (h.newFiles states).procCount = h.procCount := rfl

@[simp] theorem newFiles_fileCount (states : List FileState) :
    (h.newFiles states).fileCount = h.fileCount + states.length := rfl

theorem newFiles_files_old (states : List FileState) {r : Nat} (hr : r < h.fileCount) :
    (h.newFiles states).files r = h.files r := by simp [newFiles, hr]

theorem newFiles_files_new (states : List FileState) {i : Nat} {s : FileState}
    (hi : states[i]? = some s) : (h.newFiles states).files (h.fileCount + i) = s := by
  simp [newFiles, hi]

@[simp] theorem newFiles_nil : h.newFiles [] = h := by simp [newFiles]

@[simp] theorem newProc_files (proc : ProcState) : (h.newProc proc).files = h.files := rfl

@[simp] theorem newProc_procCount (proc : ProcState) :
    (h.newProc proc).procCount = h.procCount + 1 := rfl

@[simp] theorem newProc_fds_self (proc : ProcState) :
    (h.newProc proc).fds h.procCount = proc.fds := by simp [newProc, Heap.fds]

theorem newProc_fds_ne {q : Nat} (hq : q ≠ h.procCount) (proc : ProcState) :
    (h.newProc proc).fds q = h.fds q := by simp [newProc, Heap.fds, hq]

theorem newProc_procs_ne {q : Nat} (hq : q ≠ h.procCount) (proc : ProcState) :
    (h.newProc proc).procs q = h.procs q := by simp [newProc, hq]

theorem useCount_setFds {p : Nat} (hp : p < h.procCount) (fds : SlotTable Nat)
    (r : Nat) :
    (h.setFds p fds).useCount r + refs (h.fds p) r = h.useCount r + refs fds r := by
  have hmem : p ∈ Finset.range h.procCount := Finset.mem_range.mpr hp
  have hrest : ∑ q ∈ (Finset.range h.procCount).erase p, refs ((h.setFds p fds).fds q) r =
      ∑ q ∈ (Finset.range h.procCount).erase p, refs (h.fds q) r := by
    refine Finset.sum_congr rfl fun q hq => ?_
    rw [setFds_fds, if_neg (Finset.ne_of_mem_erase hq)]
  unfold useCount
  have hnew := Finset.add_sum_erase _ (fun q => refs ((h.setFds p fds).fds q) r) hmem
  have hold := Finset.add_sum_erase _ (fun q => refs (h.fds q) r) hmem
  simp only [setFds_fds_self] at hnew
  rw [setFds_procCount]
  omega

theorem useCount_newProc (proc : ProcState) (r : Nat) :
    (h.newProc proc).useCount r = h.useCount r + refs proc.fds r := by
  have hold : ∑ q ∈ Finset.range h.procCount, refs ((h.newProc proc).fds q) r = h.useCount r := by
    refine Finset.sum_congr rfl fun q hq => ?_
    rw [newProc_fds_ne h (by have := Finset.mem_range.mp hq; omega)]
  unfold useCount at hold ⊢
  rw [newProc_procCount, Finset.sum_range_succ, hold, newProc_fds_self]

theorem useCount_pos_iff (r : Nat) :
    0 < h.useCount r ↔ ∃ p < h.procCount, ∃ fd, slot (h.fds p) fd = some r := by
  unfold useCount
  constructor
  · intro hpos
    obtain ⟨p, hp, hrefs⟩ := Finset.exists_ne_zero_of_sum_ne_zero (Nat.ne_of_gt hpos)
    exact ⟨p, Finset.mem_range.mp hp, refs_pos_iff.mp (Nat.pos_of_ne_zero hrefs)⟩
  · rintro ⟨p, hp, hslot⟩
    have hsplit := Finset.add_sum_erase _ (fun q => refs (h.fds q) r) (Finset.mem_range.mpr hp)
    have hpos := refs_pos_iff.mpr hslot
    omega

/-! ## Copying a descriptor table -/

/-- The test of both copy loops and of `GetHighestFd`. -/
def keeps (cloexecFree : Bool) (s : FileState) : Bool := !cloexecFree || !s.isCloexecSet

/-- The loop of `GetHighestFd`, over the slots below the bound. -/
def highestFdBelow (fds : SlotTable Nat) (cloexecFree : Bool) : Nat → Int
  | 0 => -1
  | fd + 1 =>
    match slot fds fd with
    | some r => if keeps cloexecFree (h.files r) then fd else highestFdBelow fds cloexecFree fd
    | none => highestFdBelow fds cloexecFree fd

def getHighestFd (fds : SlotTable Nat) (cloexecFree : Bool) : Int :=
  h.highestFdBelow fds cloexecFree fds.length

/-- The copy loop: the new slots, and the new file states they hold, numbered from `next`. -/
def copySlots (os : Os) (cloexecFree : Bool) :
    SlotTable Nat → Nat → SlotTable Nat × List FileState
  | [], _ => ([], [])
  | none :: fds, next =>
    let (newfds, states) := copySlots os cloexecFree fds next
    (none :: newfds, states)
  | some r :: fds, next =>
    if keeps cloexecFree (h.files r) then
      let (newfds, states) := copySlots os cloexecFree fds (next + 1)
      (some next :: newfds, (h.files r).copy os :: states)
    else
      let (newfds, states) := copySlots os cloexecFree fds next
      (none :: newfds, states)

/-- A table of fresh copies, as `RegisterExec` and `RegisterProcess` make it. -/
def copyTable (os : Os) (cloexecFree : Bool) (fds : SlotTable Nat) :
    SlotTable Nat × List FileState :=
  let highestFd := h.getHighestFd fds cloexecFree
  if 0 ≤ highestFd then h.copySlots os cloexecFree (fds.take (highestFd.toNat + 1)) h.fileCount
  else ([], [])

/-- Slots from the returned one on are not copied. -/
theorem highestFdBelow_spec (fds : SlotTable Nat) (cloexecFree : Bool) (n fd : Nat)
    {r : Nat} (hfd : fd < n) (hslot : slot fds fd = some r)
    (hkeep : keeps cloexecFree (h.files r) = true) :
    (fd : Int) ≤ h.highestFdBelow fds cloexecFree n := by
  induction n with
  | zero => omega
  | succ n ih =>
    by_cases heq : fd = n
    · subst heq
      simp [highestFdBelow, hslot, hkeep]
    · have hle := ih (by omega)
      simp only [highestFdBelow]
      split
      · split
        · omega
        · exact hle
      · exact hle

/-- What a copied table is: every kept slot holds a copy of its own, numbered in order. -/
structure Copied (os : Os) (cloexecFree : Bool) (fds : SlotTable Nat) (next : Nat)
    (newfds : SlotTable Nat) (states : List FileState) : Prop where
  source : ∀ fd r', slot newfds fd = some r' → ∃ r, slot fds fd = some r ∧
    keeps cloexecFree (h.files r) = true ∧ next ≤ r' ∧
    states[r' - next]? = some ((h.files r).copy os)
  kept : ∀ fd r, slot fds fd = some r → keeps cloexecFree (h.files r) = true →
    ∃ r', slot newfds fd = some r'
  once : ∀ i < states.length, refs newfds (next + i) = 1

theorem Copied.bound {os : Os} {cloexecFree : Bool} {fds newfds : SlotTable Nat} {next : Nat}
    {states : List FileState} (hc : h.Copied os cloexecFree fds next newfds states) {fd : Nat}
    {r' : Nat} (hslot : slot newfds fd = some r') : next ≤ r' ∧ r' < next + states.length := by
  obtain ⟨r, _, _, hle, hstate⟩ := hc.source fd r' hslot
  obtain ⟨hlt, _⟩ := List.getElem?_eq_some_iff.mp hstate
  exact ⟨hle, by omega⟩

theorem refs_cons (v : Option Nat) (t : SlotTable Nat) (a : Nat) :
    refs (v :: t) a = refs t a + (if v = some a then 1 else 0) := by
  simp [refs, List.count_cons]

theorem copySlots_copied (os : Os) (cloexecFree : Bool) (fds : SlotTable Nat) (next : Nat) :
    h.Copied os cloexecFree fds next (h.copySlots os cloexecFree fds next).1
      (h.copySlots os cloexecFree fds next).2 := by
  induction fds generalizing next with
  | nil => exact ⟨by simp [copySlots], by simp, by simp [copySlots]⟩
  | cons v fds ih =>
    have hskip : ∀ (hnone : ∀ r, v = some r → keeps cloexecFree (h.files r) = false),
        h.Copied os cloexecFree (v :: fds) next
          (none :: (h.copySlots os cloexecFree fds next).1)
          (h.copySlots os cloexecFree fds next).2 := by
      intro hnone
      refine ⟨?_, ?_, ?_⟩
      · intro fd r' hslot
        cases fd with
        | zero => simp at hslot
        | succ fd => exact (ih next).source fd r' hslot
      · intro fd r hslot hkeep
        cases fd with
        | zero => simp [hnone r hslot] at hkeep
        | succ fd => exact (ih next).kept fd r hslot hkeep
      · intro i hi
        rw [refs_cons]
        simpa using (ih next).once i hi
    cases v with
    | none => exact hskip (by simp)
    | some r =>
      by_cases hkeep : keeps cloexecFree (h.files r) = true
      · simp only [copySlots, if_pos hkeep]
        have hrest := ih (next + 1)
        refine ⟨?_, ?_, ?_⟩
        · intro fd r' hslot
          cases fd with
          | zero =>
            obtain rfl : next = r' := by simpa using hslot
            exact ⟨r, rfl, hkeep, Nat.le_refl _, by simp⟩
          | succ fd =>
            obtain ⟨r₀, hr₀, hkeep₀, hle, hstate⟩ := hrest.source fd r' hslot
            refine ⟨r₀, hr₀, hkeep₀, by omega, ?_⟩
            rw [show r' - next = r' - (next + 1) + 1 by omega, List.getElem?_cons_succ]
            exact hstate
        · intro fd r₀ hslot hkeep₀
          cases fd with
          | zero => exact ⟨next, rfl⟩
          | succ fd => exact hrest.kept fd r₀ hslot hkeep₀
        · intro i hi
          rw [refs_cons]
          cases i with
          | zero =>
            have hzero : refs (h.copySlots os cloexecFree fds (next + 1)).1 next = 0 := by
              rw [refs_eq_zero_iff]
              intro fd hslot
              have := (hrest.bound h hslot).1
              omega
            simp [hzero]
          | succ i =>
            have hone := hrest.once i (by
              simp only [List.length_cons] at hi
              omega)
            rw [show next + (i + 1) = next + 1 + i by omega, hone]
            simp only [Option.some.injEq]
            rw [if_neg (by omega)]
      · simp only [copySlots, if_neg hkeep]
        apply hskip
        rintro _ ⟨⟩
        simpa using hkeep

theorem copyTable_copied (os : Os) (cloexecFree : Bool) (fds : SlotTable Nat) :
    h.Copied os cloexecFree fds h.fileCount (h.copyTable os cloexecFree fds).1
      (h.copyTable os cloexecFree fds).2 := by
  have hhigh : ∀ fd r, slot fds fd = some r → keeps cloexecFree (h.files r) = true →
      (fd : Int) ≤ h.getHighestFd fds cloexecFree := by
    intro fd r hslot hkeep
    exact h.highestFdBelow_spec fds cloexecFree fds.length fd (lt_length_of_slot hslot) hslot hkeep
  unfold copyTable
  by_cases hnonneg : 0 ≤ h.getHighestFd fds cloexecFree
  · simp only [if_pos hnonneg]
    have hcopied := h.copySlots_copied os cloexecFree
      (fds.take ((h.getHighestFd fds cloexecFree).toNat + 1)) h.fileCount
    refine ⟨?_, ?_, hcopied.once⟩
    · intro fd r' hslot
      obtain ⟨r, hr, hrest⟩ := hcopied.source fd r' hslot
      rw [slot_take] at hr
      split at hr
      · exact ⟨r, hr, hrest⟩
      · cases hr
    · intro fd r hslot hkeep
      have hle := hhigh fd r hslot hkeep
      refine hcopied.kept fd r ?_ hkeep
      rw [slot_take, if_pos (by omega)]
      exact hslot
  · simp only [if_neg hnonneg]
    refine ⟨by simp, ?_, by simp⟩
    intro fd r hslot hkeep
    have hle := hhigh fd r hslot hkeep
    omega

/-- The states in a copied table. -/
theorem copyTable_states {g : Heap} {t : SlotTable Nat} {os : Os} {cloexecFree : Bool} (fd : Nat) :
    (slot (g.copyTable os cloexecFree t).1 fd).map
        (g.newFiles (g.copyTable os cloexecFree t).2).files =
      ((slot t fd).map g.files).bind fun s =>
        if keeps cloexecFree s then some (s.copy os) else none := by
  have hcopied := g.copyTable_copied os cloexecFree t
  cases hnew : slot (g.copyTable os cloexecFree t).1 fd with
  | some r' =>
    obtain ⟨r, hr, hkeep, hle, hstate⟩ := hcopied.source fd r' hnew
    have hfile := g.newFiles_files_new _ hstate
    rw [Nat.add_sub_cancel' hle] at hfile
    simp [hr, hkeep, hfile]
  | none =>
    cases hr : slot t fd with
    | none => rfl
    | some r =>
      have hdrop : keeps cloexecFree (g.files r) = false := by
        cases hkeep : keeps cloexecFree (g.files r) with
        | false => rfl
        | true =>
          obtain ⟨r', hr'⟩ := hcopied.kept fd r hr hkeep
          rw [hnew] at hr'
          cases hr'
      simp [hdrop]

end Heap

end Optrace
