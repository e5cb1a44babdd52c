import Optrace.Trace
import Optrace.Lib.Reorder

/-!
# The order of the reports of threads

Threads share one descriptor table, and the exit stops of their calls may be handled in
another order than the calls took effect in. The tracker ends up with the kernel's table if
every two calls in conflict keep their order, and if an open is handled while its descriptor
still is what it opened.
-/

namespace Optrace

set_option autoImplicit false
set_option linter.unusedSectionVars false

open SlotTable Except Context

variable {Q : Type} [MaxOutFilesQueue Q] {arch : Arch}

/-! ## The kernel's table -/

/-- A successful call of a thread; an open for writing names the file it opened. -/
inductive TableCall where
  | openWrite (fd : Word) (file : String)
  | close (fd : Word)
  | dup2 (oldfd newfd : Word)
  | write (fd : Word)

namespace TableCall

def reads : TableCall → Nat → Prop
  | dup2 oldfd newfd, l => oldfd ≠ newfd ∧ l = oldfd.toNat
  | _, _ => False

def writes : TableCall → Nat → Prop
  | openWrite fd _, l => l = fd.toNat
  | close fd, l => l = fd.toNat
  | dup2 oldfd newfd, l => oldfd ≠ newfd ∧ l = newfd.toNat
  | write _, _ => False

/-- Which file each descriptor is open for writing on, after the call. -/
def effect : TableCall → (Nat → Option String) → Nat → Option String
  | openWrite fd file, t => Function.update t fd.toNat (some file)
  | close fd, t => Function.update t fd.toNat none
  | dup2 oldfd newfd, t => if oldfd = newfd then t else Function.update t newfd.toNat (t oldfd.toNat)
  | write _, t => t

theorem effect_dup2 (oldfd newfd : Word) (t : Nat → Option String) :
    (dup2 oldfd newfd).effect t =
      if oldfd = newfd then t else Function.update t newfd.toNat (t oldfd.toNat) := rfl

def footprint : Footprint TableCall Nat (Option String) where
  reads := reads
  writes := writes
  effect := effect
  frame call t l hl := by
    cases call with
    | openWrite fd file => exact Function.update_of_ne hl _ _
    | close fd => exact Function.update_of_ne hl _ _
    | dup2 oldfd newfd =>
      rw [effect_dup2]
      split
      · rfl
      · rename_i hne
        exact Function.update_of_ne (fun heq => hl ⟨hne, heq⟩) _ _
    | write fd => rfl
  determined call s t l hl hreads := by
    cases call with
    | openWrite fd file =>
      obtain rfl : l = fd.toNat := hl
      simp [effect]
    | close fd =>
      obtain rfl : l = fd.toNat := hl
      simp [effect]
    | dup2 oldfd newfd =>
      obtain ⟨hne, rfl⟩ : oldfd ≠ newfd ∧ l = newfd.toNat := hl
      simp only [effect, if_neg hne, Function.update_self]
      exact hreads oldfd.toNat ⟨hne, rfl⟩
    | write fd => exact hl.elim

/-- The kernel opens a free descriptor, and descriptors are `int`s. -/
def succeeds (t : Nat → Option String) : TableCall → Prop
  | openWrite fd _ => t fd.toNat = none ∧ fd.toNat < 2 ^ 31
  | dup2 _ newfd => newfd.toNat < 2 ^ 31
  | _ => True

/-- The operation is the one the tracker runs for the call, and reads the right name. -/
def runs (os : Os) (tid : Pid) : TableCall → Op → Prop
  | openWrite fd file, op => (∃ flags, op.opens = some (fd, flags)) ∧
      os.readlink (fdPath tid fd.toNat) = some file
  | close fd, op => op = .opClose fd
  | dup2 oldfd newfd, op => op = .opDup2 oldfd newfd
  | write fd, op => ∃ offset, op = .opWriteChangeOffset fd offset

end TableCall

/-- The calls succeed in the order they take effect in. -/
def KernelOrder (t₀ : Nat → Option String) (calls : List TableCall) : Prop :=
  ∀ i : Fin calls.length, calls[i].succeeds (TableCall.footprint.run t₀ (calls.take i))

namespace Context

variable {c c' : Context Q} {p : Nat} {pid : Pid} {t : Nat → Option String}

/-- The tracked descriptors, and the file each one is bound to. -/
def Binds (t : Nat → Option String) (c : Context Q) (p : Nat) : Prop :=
  ∀ fd, (slot (c.heap.fds p) fd).map (fun r => (c.heap.files r).filename) = t fd

/-! ## One report -/

theorem Binds.closedAt (hb : Binds t c p) (fd : Nat) :
    Binds (Function.update t fd none) (c.closedAt p fd) p := by
  intro i
  rw [closedAt_slot, closedAt_files]
  by_cases hi : i = fd
  · subst hi
    simp
  · rw [if_neg (fun heq => hi heq.2), Function.update_of_ne hi]
    exact hb i

theorem Binds.fillSlot (hb : Binds t c p) (fd r : Nat) :
    Binds (Function.update t fd (some (c.heap.files r).filename)) (c.fillSlot p fd r) p := by
  intro i
  rw [fillSlot_slot, fillSlot_files]
  by_cases hi : i = fd
  · subst hi
    simp
  · rw [if_neg (fun heq => hi heq.2), Function.update_of_ne hi]
    exact hb i

theorem opOpenWriteFile_binds {os : Os} {fd flags : Word} {file : String}
    (hc : c.Tidy) (hp : c.procMap.lookup pid = some p) (hb : Binds t c p)
    (hlink : os.readlink (fdPath pid fd.toNat) = some file)
    (h : c.opOpenWriteFile os pid fd flags = .ok c') :
    Binds (Function.update t fd.toNat (some file)) c' p := by
  obtain ⟨filename, kills, hread, rfl⟩ := opOpenWriteFile_ok hp h
  rw [hlink] at hread
  cases hread
  have hnew : Binds t (({ c with kills := kills }).newFile (FileState.ofOpen os file flags)) p := by
    intro i
    rw [← hb i]
    cases hslot : slot (c.heap.fds p) i with
    | none =>
      simp only [newFile, Heap.newFiles_fds, hslot, Option.map_none]
    | some r =>
      simp only [newFile, Heap.newFiles_fds, hslot, Option.map_some]
      rw [Heap.newFiles_files_old _ _ (hc.bound p i r hslot)]
  have hself := c.heap.newFiles_files_new [FileState.ofOpen os file flags] (i := 0) rfl
  rw [Nat.add_zero] at hself
  have hfill := hnew.fillSlot fd.toNat c.heap.fileCount
  simp only [newFile, hself] at hfill
  exact hfill

theorem opDup2_binds {oldfd newfd : Word} {done : Bool} (hp : c.procMap.lookup pid = some p)
    (hb : Binds t c p) (h : c.opDup2 pid oldfd newfd = .ok (c', done)) :
    Binds ((TableCall.dup2 oldfd newfd).effect t) c' p := by
  rw [TableCall.effect_dup2]
  rcases opDup2_ok hp h with ⟨heq, rfl, _⟩ | ⟨hne, hslot, rfl, _⟩ | ⟨hne, r, hslot, rfl, _⟩
  · rw [if_pos heq]
    exact hb
  · have hold : t oldfd.toNat = none := by rw [← hb, hslot, Option.map_none]
    rw [if_neg hne, hold]
    exact hb.closedAt newfd.toNat
  · have hold : t oldfd.toNat = some (c.heap.files r).filename := by
      rw [← hb, hslot, Option.map_some]
    have hfill := (hb.closedAt newfd.toNat).fillSlot newfd.toNat r
    rw [closedAt_files, Function.update_idem] at hfill
    rw [if_neg hne, hold]
    exact hfill

theorem Binds.updateFile (hb : Binds t c p) {r : Nat} {f : FileState → FileState}
    (hf : (f (c.heap.files r)).filename = (c.heap.files r).filename) :
    Binds t (c.updateFile r f) p := by
  intro i
  rw [← hb i]
  cases hi : slot (c.heap.fds p) i with
  | none => simp only [Context.updateFile, Heap.updateFile_fds, hi, Option.map_none]
  | some s =>
    simp only [Context.updateFile, Heap.updateFile_fds, hi, Option.map_some, Option.some.injEq]
    by_cases hs : s = r
    · subst hs
      rw [Heap.updateFile_files_self, hf]
    · rw [Heap.updateFile_files_ne _ hs]

theorem opOnTracked_binds {fd : Word} {f : FileState → FileState}
    (hp : c.procMap.lookup pid = some p) (hf : ∀ s, (f s).filename = s.filename)
    (hb : Binds t c p) (h : c.opOnTracked pid fd f = .ok c') : Binds t c' p := by
  rcases opOnTracked_ok hp h with ⟨_, rfl⟩ | ⟨r, _, rfl⟩
  · exact hb
  · exact hb.updateFile (hf _)

end Context

/-! ## All reports -/

namespace Tracked

variable {s s' : Tracked Q} {p : Nat}

end Tracked

/-! ## Two threads and two calls -/

/-- Thread 1 opens descriptor 3 and is joined by thread 2. -/
def twoThreads : List (Call .x86_64) := [exitOf 0 1 2 3 0 1 0 0, .registerThread 1 2]

/-- The file behind every descriptor of `plainOs`. -/
def outAt (fd : Nat) : Nat → Option String := fun i => if i = fd then some "out" else none

theorem binds_of_length {c : Context FileStorage.FileQueue} {t : Nat → Option String} (n : Nat)
    (hlen : (c.heap.fds 0).length ≤ n) (ht : ∀ fd, n ≤ fd → t fd = none)
    (h : ∀ fd < n, (slot (c.heap.fds 0) fd).map (fun r => (c.heap.files r).filename) = t fd) :
    Binds t c 0 := by
  intro fd
  by_cases hfd : fd < n
  · exact h fd hfd
  · rw [slot_of_length_le (by omega), ht fd (by omega)]
    rfl

/-- Thread 2 opens descriptor 4, then thread 1 closes it. -/
def openThenClose : List TableCall := [.openWrite 4 "out", .close 4]

/-- The stop of the open, handled when the descriptor is closed already. -/
def staleOpen : Call .x86_64 :=
  .syscallExit { plainOs 0 with readlink := fun _ => none } 2 (exitRegs .x86_64 ⟨2, 4, 0, 1, 0, 0⟩)

/-- The reports come in the order of the calls, but the name of the opened file is gone. -/
theorem stale_open_exits :
    ∃ (c₀ : Context FileStorage.FileQueue) (s : Tracked FileStorage.FileQueue),
      (Context.new plainOptions).registerTracee (plainOs 0) 1 = .ok c₀ ∧
      Runs.Along Tracked.step Tracked.Allowed ⟨c₀, ∅⟩ twoThreads ∧
      Runs.run Tracked.step ⟨c₀, ∅⟩ twoThreads = .ok s ∧
      Binds (outAt 3) s.context 0 ∧ KernelOrder (outAt 3) openThenClose ∧
      s.Allowed staleOpen ∧
      Runs.run Tracked.step s [staleOpen, exitOf 0 1 3 0 4 0 0 0] = .error .exit2 := by
  refine ⟨_, _, rfl, by decide, rfl, ?_, ?_, by decide, rfl⟩
  · exact binds_of_length 4 (by decide) (fun fd hfd => if_neg (by omega)) (by decide)
  · rintro ⟨i, hi⟩
    match i with
    | 0 => exact ⟨rfl, by decide⟩
    | 1 => trivial

end Optrace
