import Optrace.Context
import Mathlib.Logic.Relation

/-!
# What the operations do to a descriptor table

Every operation behind the syscall switch works on the table of one process state, by a
few kinds of table steps. An operation is inverted here once, into the steps it takes; the
invariants of the later modules are then checked against the kinds of steps.
-/

namespace Optrace

set_option autoImplicit false
set_option linter.unusedSectionVars false

open SlotTable Except

/-- The table after the size test and the resize that precede a write to the slot. -/
def grown (fds : SlotTable Nat) (fd : Nat) : SlotTable Nat :=
  if fds.length ≤ fd then fds.resize (fd + 1) else fds

theorem lt_length_grown (fds : SlotTable Nat) (fd : Nat) : fd < (grown fds fd).length := by
  unfold grown
  split
  · rw [length_resize]
    exact Nat.lt_succ_self fd
  · omega

@[simp] theorem slot_grown (fds : SlotTable Nat) (fd i : Nat) :
    slot (grown fds fd) i = slot fds i := by
  unfold grown
  split
  · exact slot_resize (by omega) i
  · rfl

@[simp] theorem refs_grown (fds : SlotTable Nat) (fd r : Nat) :
    refs (grown fds fd) r = refs fds r := by
  unfold grown
  split
  · exact refs_resize (by omega) r
  · rfl

/-- The descriptor an operation opens, and the flags, if it is one that does. -/
def Op.opens : Op → Option (Word × Word)
  | .opOpenWriteFile fd flags => some (fd, flags)
  | .opOpenFile fd flags => if opensForWriting flags then some (fd, flags) else none
  | _ => none

/-- The descriptor whose file state an operation changes, and how. -/
def Op.changes : Op → Option (Word × (FileState → FileState))
  | .opWriteChangeOffset fd offset => some (fd, FileState.enroll offset)
  | .opWriteNoOffsetChange fd nbytes offset => some (fd, FileState.enrollNoShift nbytes offset)
  | .opDup3 oldfd _ flags => some (oldfd, FileState.setCloexecFlag (hasFlag flags O_CLOEXEC))
  | .opSetFlag fd flags => some (fd, FileState.setFlags flags)
  | .opResize fd size => some (fd, FileState.enrollNoShift size 0)
  | .opSeek fd pos => some (fd, FileState.setCurrPos pos)
  | _ => none

namespace Context

variable {Q : Type} [MaxOutFilesQueue Q]

/-! ## The steps -/

/-- A slot is cleared, and the file state it held reported if this was the last slot. -/
def clearSlot (c : Context Q) (p fd r : Nat) : Context Q :=
  { (if c.heap.useCount r = 1 then c.report r (c.heap.procs p).procInfo else c) with
    heap := c.heap.setFds p ((c.heap.fds p).set fd none) }

def fillSlot (c : Context Q) (p fd r : Nat) : Context Q :=
  { c with heap := c.heap.setFds p ((grown (c.heap.fds p) fd).set fd (some r)) }

def updateFile (c : Context Q) (r : Nat) (f : FileState → FileState) : Context Q :=
  { c with heap := c.heap.updateFile r f }

def newFile (c : Context Q) (s : FileState) : Context Q :=
  { c with heap := c.heap.newFiles [s] }

/-- What the steps leave alone. -/
structure SameRegistry (c c' : Context Q) : Prop where
  options : c'.options = c.options
  groupLeaders : c'.groupLeaders = c.groupLeaders
  procMap : c'.procMap = c.procMap
  procCount : c'.heap.procCount = c.heap.procCount
  procInfo : ∀ p, (c'.heap.procs p).procInfo = (c.heap.procs p).procInfo

theorem SameRegistry.refl (c : Context Q) : c.SameRegistry c := ⟨rfl, rfl, rfl, rfl, fun _ => rfl⟩

theorem SameRegistry.trans {c₁ c₂ c₃ : Context Q} (h₁ : c₁.SameRegistry c₂)
    (h₂ : c₂.SameRegistry c₃) : c₁.SameRegistry c₃ :=
  ⟨h₂.options.trans h₁.options, h₂.groupLeaders.trans h₁.groupLeaders,
    h₂.procMap.trans h₁.procMap, h₂.procCount.trans h₁.procCount,
    fun p => (h₂.procInfo p).trans (h₁.procInfo p)⟩

variable (c : Context Q) (p fd r : Nat)

theorem clearSlot_sameRegistry : c.SameRegistry (c.clearSlot p fd r) := by
  unfold clearSlot
  split
  · exact ⟨rfl, rfl, rfl, rfl, fun q => by simp⟩
  · exact ⟨rfl, rfl, rfl, rfl, fun q => by simp⟩

@[simp] theorem clearSlot_heap :
    (c.clearSlot p fd r).heap = c.heap.setFds p ((c.heap.fds p).set fd none) := rfl

theorem clearSlot_reports :
    (c.clearSlot p fd r).reports = c.reports ++
      if c.heap.useCount r = 1 then
        [⟨some r, OutputFile.ofState (c.heap.files r) (c.heap.procs p).procInfo⟩]
      else [] := by
  unfold clearSlot
  split
  · rfl
  · simp

theorem clearSlot_fileStorage :
    (c.clearSlot p fd r).fileStorage =
      if c.heap.useCount r = 1 then
        c.fileStorage.addFileEntry (OutputFile.ofState (c.heap.files r) (c.heap.procs p).procInfo)
      else c.fileStorage := by
  unfold clearSlot
  split <;> rfl

theorem clearSlot_slot {c : Context Q} {p fd r : Nat} (hslot : slot (c.heap.fds p) fd = some r)
    (q i : Nat) :
    slot ((c.clearSlot p fd r).heap.fds q) i =
      if q = p ∧ i = fd then none else slot (c.heap.fds q) i := by
  rw [clearSlot_heap, Heap.setFds_fds]
  by_cases hq : q = p
  · subst hq
    rw [if_pos rfl, slot_set (lt_length_of_slot hslot)]
    by_cases hi : i = fd
    · simp [hi]
    · simp [hi, Ne.symm hi]
  · simp [hq]

theorem clearSlot_useCount {c : Context Q} {p fd r : Nat} (hp : p < c.heap.procCount)
    (hslot : slot (c.heap.fds p) fd = some r) (s : Nat) :
    (c.clearSlot p fd r).heap.useCount s + (if r = s then 1 else 0) = c.heap.useCount s := by
  have hset := c.heap.useCount_setFds hp ((c.heap.fds p).set fd none) s
  have hrefs := refs_clear hslot s
  rw [clearSlot_heap]
  omega

theorem fillSlot_sameRegistry : c.SameRegistry (c.fillSlot p fd r) :=
  ⟨rfl, rfl, rfl, rfl, fun q => by simp [fillSlot]⟩

@[simp] theorem fillSlot_files : (c.fillSlot p fd r).heap.files = c.heap.files := rfl

theorem fillSlot_slot (q i : Nat) :
    slot ((c.fillSlot p fd r).heap.fds q) i =
      if q = p ∧ i = fd then some r else slot (c.heap.fds q) i := by
  simp only [fillSlot, Heap.setFds_fds]
  by_cases hq : q = p
  · subst hq
    rw [if_pos rfl, slot_set (lt_length_grown _ _), slot_grown]
    by_cases hi : i = fd
    · simp [hi]
    · simp [hi, Ne.symm hi]
  · simp [hq]

theorem fillSlot_useCount {c : Context Q} {p fd : Nat} (hp : p < c.heap.procCount)
    (hempty : slot (c.heap.fds p) fd = none) (r s : Nat) :
    (c.fillSlot p fd r).heap.useCount s = c.heap.useCount s + (if r = s then 1 else 0) := by
  have hset := c.heap.useCount_setFds hp ((grown (c.heap.fds p) fd).set fd (some r)) s
  have hrefs := refs_fill (lt_length_grown (c.heap.fds p) fd) (by rwa [slot_grown]) r s
  rw [refs_grown] at hrefs
  simp only [fillSlot]
  omega

/-- `vector::resize` on its own. -/
def growTable (c : Context Q) (p n : Nat) : Context Q :=
  { c with heap := c.heap.setFds p ((c.heap.fds p).resize n) }

theorem growTable_sameRegistry (n : Nat) : c.SameRegistry (c.growTable p n) :=
  ⟨rfl, rfl, rfl, rfl, fun q => by simp [growTable]⟩

theorem growTable_slot {c : Context Q} {p n : Nat} (hn : (c.heap.fds p).length ≤ n) (q i : Nat) :
    slot ((c.growTable p n).heap.fds q) i = slot (c.heap.fds q) i := by
  simp only [growTable, Heap.setFds_fds]
  by_cases hq : q = p
  · subst hq
    rw [if_pos rfl, slot_resize hn]
  · rw [if_neg hq]

theorem growTable_useCount {c : Context Q} {p n : Nat} (hp : p < c.heap.procCount)
    (hn : (c.heap.fds p).length ≤ n) (r : Nat) :
    (c.growTable p n).heap.useCount r = c.heap.useCount r := by
  have hset := c.heap.useCount_setFds hp ((c.heap.fds p).resize n) r
  rw [refs_resize hn] at hset
  simp only [growTable]
  omega

theorem updateFile_sameRegistry (f : FileState → FileState) :
    c.SameRegistry (c.updateFile r f) := ⟨rfl, rfl, rfl, rfl, fun _ => rfl⟩

theorem updateFile_eq_iff {c : Context Q} {r : Nat} {f : FileState → FileState} :
    c.updateFile r f = c ↔ f (c.heap.files r) = c.heap.files r := by
  constructor
  · intro h
    have hfile := congrArg (fun c : Context Q => c.heap.files r) h
    simpa only [updateFile, Heap.updateFile_files_self] using hfile
  · intro h
    have hheap : c.heap.updateFile r f = c.heap := by
      rw [Heap.updateFile, h, Function.update_eq_self]
    rw [updateFile, hheap]

theorem newFile_sameRegistry (s : FileState) : c.SameRegistry (c.newFile s) :=
  ⟨rfl, rfl, rfl, rfl, fun _ => rfl⟩

/-- Which changes of a file state, and which new file states, a step may make. -/
structure StepKind where
  changes : FileState → FileState → Prop
  creates : FileState → Prop

def StepKind.any : StepKind := ⟨fun _ _ => True, fun _ => True⟩

/-- No file state is changed or made. -/
def StepKind.frozen : StepKind := ⟨fun _ _ => False, fun _ => False⟩

/-- One step on the table of a process state. A new file state goes into an empty slot. -/
inductive TableStep (k : StepKind) (p : Nat) (c : Context Q) : Context Q → Prop where
  | update (fd r : Nat) (f : FileState → FileState) (hslot : slot (c.heap.fds p) fd = some r)
      (hf : k.changes (c.heap.files r) (f (c.heap.files r))) : TableStep k p c (c.updateFile r f)
  | clear (fd r : Nat) (hslot : slot (c.heap.fds p) fd = some r) :
      TableStep k p c (c.clearSlot p fd r)
  | share (fd r src : Nat) (hempty : slot (c.heap.fds p) fd = none)
      (hsrc : slot (c.heap.fds p) src = some r) : TableStep k p c (c.fillSlot p fd r)
  | create (fd : Nat) (s : FileState) (hempty : slot (c.heap.fds p) fd = none)
      (hs : k.creates s) : TableStep k p c ((c.newFile s).fillSlot p fd c.heap.fileCount)
  | grow (n : Nat) (hn : (c.heap.fds p).length ≤ n) : TableStep k p c (c.growTable p n)
  | signal (kills : List (Pid × Int)) : TableStep k p c { c with kills := kills }

abbrev TableSteps (k : StepKind) (p : Nat) : Context Q → Context Q → Prop :=
  Relation.ReflTransGen (TableStep k p)

variable {c} {p} {k : StepKind}

theorem TableStep.sameRegistry {c' : Context Q} (h : TableStep k p c c') : c.SameRegistry c' := by
  cases h with
  | update fd r f _ _ => exact c.updateFile_sameRegistry r f
  | clear fd r _ => exact c.clearSlot_sameRegistry p fd r
  | share fd r src _ _ => exact c.fillSlot_sameRegistry p fd r
  | create fd s _ _ => exact (c.newFile_sameRegistry s).trans (fillSlot_sameRegistry _ p fd _)
  | grow n _ => exact c.growTable_sameRegistry p n
  | signal kills => exact ⟨rfl, rfl, rfl, rfl, fun _ => rfl⟩

theorem TableSteps.sameRegistry {c' : Context Q} (h : TableSteps k p c c') : c.SameRegistry c' := by
  induction h with
  | refl => exact SameRegistry.refl c
  | tail _ hstep ih => exact ih.trans hstep.sameRegistry

theorem TableStep.others {c' : Context Q} (h : TableStep k p c c') {q : Nat} (hq : q ≠ p) (i : Nat) :
    slot (c'.heap.fds q) i = slot (c.heap.fds q) i := by
  cases h with
  | update fd r f _ _ => rfl
  | clear fd r hslot => rw [clearSlot_slot hslot, if_neg (fun h => hq h.1)]
  | share fd r src _ _ => rw [fillSlot_slot, if_neg (fun h => hq h.1)]
  | create fd s _ _ =>
    rw [fillSlot_slot, if_neg (fun h => hq h.1)]
    rfl
  | grow n hn => exact growTable_slot hn q i
  | signal kills => rfl

theorem TableSteps.others {c' : Context Q} (h : TableSteps k p c c') {q : Nat} (hq : q ≠ p)
    (i : Nat) : slot (c'.heap.fds q) i = slot (c.heap.fds q) i := by
  induction h with
  | refl => rfl
  | tail _ hstep ih => rw [hstep.others hq, ih]

/-! ## The operations -/

theorem getProcState_ok_iff {pid : Pid} :
    c.getProcState pid = .ok p ↔ c.procMap.lookup pid = some p := by
  unfold getProcState
  cases c.procMap.lookup pid <;> simp

theorem tearDownFd_eq {fd r : Nat} (hslot : slot (c.heap.fds p) fd = some r) :
    c.tearDownFd p fd = .ok (c.clearSlot p fd r) := by
  simp only [tearDownFd, hslot]
  unfold clearSlot
  split <;> rfl

theorem opOnTracked_ok {pid : Pid} {fd : Word} {f : FileState → FileState} {c' : Context Q}
    (hp : c.procMap.lookup pid = some p) (h : c.opOnTracked pid fd f = .ok c') :
    (slot (c.heap.fds p) fd.toNat = none ∧ c' = c) ∨
      ∃ r, slot (c.heap.fds p) fd.toNat = some r ∧ c' = c.updateFile r f := by
  rw [opOnTracked, getProcState_ok_iff.mpr hp, bind_ok, pure_eq_ok_iff, onTracked] at h
  cases hslot : slot (c.heap.fds p) fd.toNat with
  | none =>
    simp only [hslot] at h
    exact Or.inl ⟨rfl, h.symm⟩
  | some r =>
    simp only [hslot] at h
    exact Or.inr ⟨r, rfl, h.symm⟩

theorem opClose_eq {pid : Pid} (hp : c.procMap.lookup pid = some p) (fd : Word) :
    c.opClose pid fd = .ok (match slot (c.heap.fds p) fd.toNat with
      | some r => c.clearSlot p fd.toNat r
      | none => c) := by
  rw [opClose, getProcState_ok_iff.mpr hp, bind_ok]
  cases hslot : slot (c.heap.fds p) fd.toNat with
  | none => rfl
  | some r => exact tearDownFd_eq hslot

/-- A size that wraps around to 0 leaves no slot to write to. -/
theorem grow_put_ok {fds fds₁ fds₂ : SlotTable Nat} {fd : Word} {r : Nat}
    (hgrow : growTo fds fd = .ok fds₁) (hput : putSlot fds₁ fd r = .ok fds₂) :
    fds₂ = (grown fds fd.toNat).set fd.toNat (some r) := by
  unfold putSlot at hput
  split at hput
  · rename_i hlt
    cases hput
    unfold growTo at hgrow
    unfold grown
    split at hgrow
    · rename_i hlen
      rw [if_pos hlen]
      unfold resizeFds at hgrow
      split at hgrow
      · cases hgrow
        rw [length_resize] at hlt
        have hone : (1 : Word).toNat = 1 := rfl
        have hadd : (fd + 1).toNat = fd.toNat + 1 := by
          rw [BitVec.toNat_add, hone] at hlt ⊢
          omega
        rw [hadd]
      · cases hgrow
    · rename_i hlen
      cases hgrow
      rw [if_neg hlen]
  · cases hput

theorem readLink_ok {os : Os} {filename target : String} (h : readLink os filename = .ok target) :
    os.readlink filename = some target := by
  unfold readLink at h
  split at h
  · rename_i hsome
    cases h
    exact hsome
  · cases h

/-- The new file state is made and put into the slot, whatever the slot held. -/
theorem opOpenWriteFile_ok {os : Os} {pid : Pid} {fd flags : Word} {c' : Context Q}
    (hp : c.procMap.lookup pid = some p) (h : c.opOpenWriteFile os pid fd flags = .ok c') :
    ∃ filename kills, os.readlink (fdPath pid fd.toNat) = some filename ∧
      c' = (({ c with kills := kills }).newFile
        (FileState.ofOpen os filename flags)).fillSlot p fd.toNat c.heap.fileCount := by
  rw [opOpenWriteFile, getProcState_ok_iff.mpr hp, bind_ok] at h
  obtain ⟨fds, hgrow, h⟩ := bind_eq_ok_iff.mp h
  obtain ⟨filename, hlink, h⟩ := bind_eq_ok_iff.mp h
  have hread := readLink_ok hlink
  have hkills : ∃ kills, (if c.options.interruptionSignal ≠ 0 then
      c.processInterruptionTarget os pid filename else c) = { c with kills := kills } := by
    unfold processInterruptionTarget
    split
    · split
      · exact ⟨_, rfl⟩
      · exact ⟨c.kills, rfl⟩
    · exact ⟨c.kills, rfl⟩
  obtain ⟨kills, hkills⟩ := hkills
  simp only [hkills] at h
  obtain ⟨fds', hput, h⟩ := bind_eq_ok_iff.mp h
  refine ⟨filename, kills, hread, ?_⟩
  rw [pure_eq_ok_iff] at h
  rw [← h, grow_put_ok hgrow hput]
  rfl

/-- The table after `dup2` has closed its target. -/
def closedAt (c : Context Q) (p fd : Nat) : Context Q :=
  match slot (c.heap.fds p) fd with
  | some r => c.clearSlot p fd r
  | none => c

theorem closedAt_sameRegistry (fd : Nat) : c.SameRegistry (c.closedAt p fd) := by
  unfold closedAt
  split
  · exact c.clearSlot_sameRegistry p fd _
  · exact SameRegistry.refl c

@[simp] theorem closedAt_files (fd : Nat) : (c.closedAt p fd).heap.files = c.heap.files := by
  unfold closedAt
  split <;> rfl

theorem closedAt_slot (fd q i : Nat) :
    slot ((c.closedAt p fd).heap.fds q) i =
      if q = p ∧ i = fd then none else slot (c.heap.fds q) i := by
  unfold closedAt
  split
  · rename_i r hslot
    exact clearSlot_slot hslot q i
  · rename_i hslot
    split
    · rename_i heq
      rw [heq.1, heq.2, hslot]
    · rfl

/-- What `OpDup2` does once the new descriptor is closed. -/
def shareSlot (c : Context Q) (p : Nat) (oldfd newfd : Word) : Except Abort (Context Q × Bool) :=
  match slot (c.heap.fds p) oldfd.toNat with
  | none => pure (c, false)
  | some r => do
    let fds ← growTo (c.heap.fds p) newfd
    let fds ← putSlot fds newfd r
    return ({ c with heap := c.heap.setFds p fds }, true)

theorem opDup2_eq {pid : Pid} {oldfd newfd : Word} (hp : c.procMap.lookup pid = some p)
    (hne : oldfd ≠ newfd) :
    c.opDup2 pid oldfd newfd = (c.closedAt p newfd.toNat).shareSlot p oldfd newfd := by
  rw [opDup2, getProcState_ok_iff.mpr hp, bind_ok, if_neg hne]
  unfold closedAt
  cases hnew : slot (c.heap.fds p) newfd.toNat with
  | none =>
    simp only [bind_ok]
    rfl
  | some r =>
    simp only [opClose_eq hp, hnew, bind_ok]
    rfl

theorem opDup2_ok {pid : Pid} {oldfd newfd : Word} {c' : Context Q} {done : Bool}
    (hp : c.procMap.lookup pid = some p) (h : c.opDup2 pid oldfd newfd = .ok (c', done)) :
    (oldfd = newfd ∧ c' = c ∧ done = false) ∨
    (oldfd ≠ newfd ∧ slot (c.heap.fds p) oldfd.toNat = none ∧
      c' = c.closedAt p newfd.toNat ∧ done = false) ∨
    (oldfd ≠ newfd ∧ ∃ r, slot (c.heap.fds p) oldfd.toNat = some r ∧
      c' = (c.closedAt p newfd.toNat).fillSlot p newfd.toNat r ∧ done = true) := by
  by_cases heq : oldfd = newfd
  · rw [opDup2, getProcState_ok_iff.mpr hp, bind_ok, if_pos heq, pure_eq_ok_iff] at h
    cases h
    exact Or.inl ⟨heq, rfl, rfl⟩
  · rw [opDup2_eq hp heq] at h
    have hold : slot ((c.closedAt p newfd.toNat).heap.fds p) oldfd.toNat =
        slot (c.heap.fds p) oldfd.toNat := by
      rw [closedAt_slot, if_neg]
      rintro ⟨_, hnat⟩
      exact heq (BitVec.toNat_inj.mp hnat)
    unfold shareSlot at h
    rw [hold] at h
    cases hslot : slot (c.heap.fds p) oldfd.toNat with
    | none =>
      simp only [hslot, pure_eq_ok_iff] at h
      cases h
      exact Or.inr (Or.inl ⟨heq, rfl, rfl, rfl⟩)
    | some r =>
      simp only [hslot] at h
      obtain ⟨fds₁, hgrow, h⟩ := bind_eq_ok_iff.mp h
      obtain ⟨fds₂, hput, h⟩ := bind_eq_ok_iff.mp h
      rw [pure_eq_ok_iff] at h
      cases h
      refine Or.inr (Or.inr ⟨heq, r, rfl, ?_, rfl⟩)
      rw [grow_put_ok hgrow hput]
      rfl

/-- `dup3` is `dup2` with the flag set on the file state the new slot shares. -/
theorem opDup3_ok {pid : Pid} {oldfd newfd flags : Word} {c' : Context Q} {done : Bool}
    (hp : c.procMap.lookup pid = some p) (h : c.opDup3 pid oldfd newfd flags = .ok (c', done)) :
    (c.opDup2 pid oldfd newfd = .ok (c', false)) ∨
    ∃ c₁ r, c.opDup2 pid oldfd newfd = .ok (c₁, true) ∧
      slot (c.heap.fds p) oldfd.toNat = some r ∧
      c' = c₁.updateFile r (FileState.setCloexecFlag (hasFlag flags O_CLOEXEC)) := by
  obtain ⟨⟨c₁, done₁⟩, hdup, h⟩ := bind_eq_ok_iff.mp h
  rw [opDup] at hdup
  cases done₁ with
  | false =>
    simp only [Bool.false_eq_true, if_false, pure_eq_ok_iff] at h
    cases h
    exact Or.inl hdup
  | true =>
    simp only [if_true] at h
    rcases opDup2_ok hp hdup with ⟨_, _, hfalse⟩ | ⟨_, _, _, hfalse⟩ | ⟨_, r, hslot, hc₁, _⟩
    · cases hfalse
    · cases hfalse
    · have hp₁ : c₁.procMap.lookup pid = some p := by
        rw [hc₁]
        have hsame : c.SameRegistry (c.closedAt p newfd.toNat) := closedAt_sameRegistry _
        exact hsame.procMap ▸ hp
      rw [getProcState_ok_iff.mpr hp₁, bind_ok, pure_eq_ok_iff] at h
      have hnew : slot (c₁.heap.fds p) newfd.toNat = some r := by
        rw [hc₁, fillSlot_slot, if_pos ⟨rfl, rfl⟩]
      simp only [onTracked, hnew] at h
      cases h
      exact Or.inr ⟨c₁, r, hdup, hslot, rfl⟩

/-! ## Operations that go through -/

theorem growTo_eq (fds : SlotTable Nat) {fd : Word} (hfd : fd.toNat < 2 ^ 31) :
    growTo fds fd = .ok (grown fds fd.toNat) := by
  have hone : (1 : Word).toNat = 1 := rfl
  have hadd : (fd + 1).toNat = fd.toNat + 1 := by
    rw [BitVec.toNat_add, hone]
    omega
  unfold growTo grown
  split
  · unfold resizeFds
    rw [if_pos (by omega), hadd]
  · rfl

theorem putSlot_grown (fds : SlotTable Nat) (fd : Word) (r : Nat) :
    putSlot (grown fds fd.toNat) fd r = .ok ((grown fds fd.toNat).set fd.toNat (some r)) :=
  if_pos (lt_length_grown fds fd.toNat)

theorem opOpenWriteFile_runs {pid : Pid} {os : Os} {fd flags : Word} {filename : String}
    (hp : c.procMap.lookup pid = some p) (hfd : fd.toNat < 2 ^ 31)
    (hlink : os.readlink (fdPath pid fd.toNat) = some filename) :
    ∃ c', c.opOpenWriteFile os pid fd flags = .ok c' := by
  have hread : readLink os (fdPath pid fd.toNat) = .ok filename := by
    unfold readLink
    rw [hlink]
  rw [opOpenWriteFile, getProcState_ok_iff.mpr hp, bind_ok, growTo_eq _ hfd, bind_ok, hread,
    bind_ok]
  simp only [putSlot_grown, bind_ok]
  exact ⟨_, rfl⟩

theorem closedAt_steps (fd : Nat) : TableSteps k p c (c.closedAt p fd) := by
  unfold closedAt
  split
  · rename_i r hslot
    exact Relation.ReflTransGen.single (.clear fd r hslot)
  · exact Relation.ReflTransGen.refl

theorem opDup2_steps {pid : Pid} {oldfd newfd : Word} {c' : Context Q} {done : Bool}
    (hp : c.procMap.lookup pid = some p) (h : c.opDup2 pid oldfd newfd = .ok (c', done)) :
    TableSteps k p c c' := by
  rcases opDup2_ok hp h with ⟨_, rfl, _⟩ | ⟨_, _, rfl, _⟩ | ⟨hne, r, hslot, rfl, _⟩
  · exact Relation.ReflTransGen.refl
  · exact closedAt_steps _
  · refine (closedAt_steps newfd.toNat).tail (.share newfd.toNat r oldfd.toNat ?_ ?_)
    · rw [closedAt_slot, if_pos ⟨rfl, rfl⟩]
    · rw [closedAt_slot, if_neg]
      · exact hslot
      · rintro ⟨_, hnat⟩
        exact hne (BitVec.toNat_inj.mp hnat)

theorem opDup3_steps {pid : Pid} {oldfd newfd flags : Word} {c' : Context Q} {done : Bool}
    (hp : c.procMap.lookup pid = some p)
    (hk : ∀ r, slot (c.heap.fds p) oldfd.toNat = some r → k.changes (c.heap.files r)
      (FileState.setCloexecFlag (hasFlag flags O_CLOEXEC) (c.heap.files r)))
    (h : c.opDup3 pid oldfd newfd flags = .ok (c', done)) : TableSteps k p c c' := by
  rcases opDup3_ok hp h with hdup | ⟨c₁, r, hdup, hslot, rfl⟩
  · exact opDup2_steps hp hdup
  · apply (opDup2_steps hp hdup).tail
    rcases opDup2_ok hp hdup with ⟨_, _, hfalse⟩ | ⟨_, _, _, hfalse⟩ | ⟨_, r', hslot', rfl, _⟩
    · cases hfalse
    · cases hfalse
    · refine .update newfd.toNat r _ ?_ ?_
      · rw [fillSlot_slot, if_pos ⟨rfl, rfl⟩, ← hslot', hslot]
      · rw [fillSlot_files, closedAt_files]
        exact hk r hslot

theorem opOnTracked_steps {pid : Pid} {fd : Word} {f : FileState → FileState} {c' : Context Q}
    (hp : c.procMap.lookup pid = some p)
    (hk : ∀ r, slot (c.heap.fds p) fd.toNat = some r →
      k.changes (c.heap.files r) (f (c.heap.files r)))
    (h : c.opOnTracked pid fd f = .ok c') : TableSteps k p c c' := by
  rcases opOnTracked_ok hp h with ⟨_, rfl⟩ | ⟨r, hslot, rfl⟩
  · exact Relation.ReflTransGen.refl
  · exact Relation.ReflTransGen.single (.update fd.toNat r f hslot (hk r hslot))

theorem opOpenWriteFile_steps {os : Os} {pid : Pid} {fd flags : Word} {c' : Context Q}
    (hp : c.procMap.lookup pid = some p) (hempty : slot (c.heap.fds p) fd.toNat = none)
    (hk : ∀ filename, os.readlink (fdPath pid fd.toNat) = some filename →
      k.creates (FileState.ofOpen os filename flags))
    (h : c.opOpenWriteFile os pid fd flags = .ok c') : TableSteps k p c c' := by
  obtain ⟨filename, kills, hlink, rfl⟩ := opOpenWriteFile_ok hp h
  exact (Relation.ReflTransGen.single (.signal kills)).tail
    (.create fd.toNat (FileState.ofOpen os filename flags) hempty (hk filename hlink))

/-- The operation stays within a kind of steps: it opens into an empty slot, and what it
changes and creates is permitted. -/
structure Within (k : StepKind) (os : Os) (c : Context Q) (pid : Pid) (p : Nat) (op : Op) :
    Prop where
  empty : ∀ fd flags, op.opens = some (fd, flags) → slot (c.heap.fds p) fd.toNat = none
  creates : ∀ fd flags filename, op.opens = some (fd, flags) →
    os.readlink (fdPath pid fd.toNat) = some filename → k.creates (FileState.ofOpen os filename flags)
  changes : ∀ fd f r, op.changes = some (fd, f) → slot (c.heap.fds p) fd.toNat = some r →
    k.changes (c.heap.files r) (f (c.heap.files r))

theorem perform_steps {os : Os} {pid : Pid} {op : Op} {c' : Context Q}
    (hp : c.procMap.lookup pid = some p) (hk : Within k os c pid p op)
    (h : c.perform os pid op = .ok c') : TableSteps k p c c' := by
  cases op with
  | opWriteChangeOffset fd offset =>
    exact opOnTracked_steps hp (fun r => hk.changes fd _ r rfl) h
  | opWriteNoOffsetChange fd nbytes offset =>
    exact opOnTracked_steps hp (fun r => hk.changes fd _ r rfl) h
  | opOpenWriteFile fd flags =>
    exact opOpenWriteFile_steps hp (hk.empty fd flags rfl)
      (fun filename => hk.creates fd flags filename rfl) h
  | opOpenFile fd flags =>
    simp only [perform, opOpenFile] at h
    split at h
    · rename_i hwrite
      have hopens : (Op.opOpenFile fd flags).opens = some (fd, flags) := if_pos hwrite
      exact opOpenWriteFile_steps hp (hk.empty fd flags hopens)
        (fun filename => hk.creates fd flags filename hopens) h
    · cases h
      exact Relation.ReflTransGen.refl
  | opClose fd =>
    rw [perform, opClose_eq hp] at h
    cases h
    exact (closedAt_steps fd.toNat : TableSteps k p c (c.closedAt p fd.toNat))
  | opDup fd newfd =>
    obtain ⟨⟨c₁, done⟩, hdup, h⟩ := bind_eq_ok_iff.mp h
    cases h
    exact opDup2_steps hp hdup
  | opDup2 oldfd newfd =>
    obtain ⟨⟨c₁, done⟩, hdup, h⟩ := bind_eq_ok_iff.mp h
    cases h
    exact opDup2_steps hp hdup
  | opDup3 oldfd newfd flags =>
    obtain ⟨⟨c₁, done⟩, hdup, h⟩ := bind_eq_ok_iff.mp h
    cases h
    exact opDup3_steps hp (fun r => hk.changes oldfd _ r rfl) hdup
  | opSetFlag fd flags => exact opOnTracked_steps hp (fun r => hk.changes fd _ r rfl) h
  | opResize fd size => exact opOnTracked_steps hp (fun r => hk.changes fd _ r rfl) h
  | opSeek fd pos => exact opOnTracked_steps hp (fun r => hk.changes fd _ r rfl) h

theorem syscallExit_steps {arch : Arch} {os : Os} {pid : Pid} {registers : UserRegs arch}
    {c' : Context Q} (hp : c.procMap.lookup pid = some p)
    (hk : ∀ op, syscallSwitch arch (syscallRegs arch registers) = some op →
      Within k os c pid p op)
    (h : c.syscallExit arch os pid registers = .ok c') : TableSteps k p c c' := by
  unfold syscallExit at h
  cases hop : syscallSwitch arch (syscallRegs arch registers) with
  | none =>
    rw [hop] at h
    cases h
    exact Relation.ReflTransGen.refl
  | some op =>
    rw [hop] at h
    exact perform_steps hp (hk op hop) h

/-- Without an entry in `ProcMap` only a call that dispatches to nothing gets through. -/
theorem syscallExit_unmapped {arch : Arch} {os : Os} {pid : Pid} {registers : UserRegs arch}
    {c' : Context Q} (hp : c.procMap.lookup pid = none)
    (h : c.syscallExit arch os pid registers = .ok c') : c' = c := by
  have hfail : ∀ {β : Type} (f : Nat → Except Abort β) (b : β),
      c.getProcState pid >>= f ≠ .ok b := by
    intro β f b hb
    obtain ⟨p, hok, _⟩ := bind_eq_ok_iff.mp hb
    rw [getProcState_ok_iff, hp] at hok
    cases hok
  unfold syscallExit at h
  split at h
  · cases h
    rfl
  · rename_i op _
    cases op with
    | opOpenFile fd flags =>
      simp only [perform, opOpenFile] at h
      split at h
      · exact absurd h (hfail _ _)
      · cases h
        rfl
    | opDup fd newfd =>
      obtain ⟨_, hdup, _⟩ := bind_eq_ok_iff.mp h
      exact absurd hdup (hfail _ _)
    | opDup2 oldfd newfd =>
      obtain ⟨_, hdup, _⟩ := bind_eq_ok_iff.mp h
      exact absurd hdup (hfail _ _)
    | opDup3 oldfd newfd flags =>
      obtain ⟨_, hdup3, _⟩ := bind_eq_ok_iff.mp h
      obtain ⟨_, hdup, _⟩ := bind_eq_ok_iff.mp hdup3
      exact absurd hdup (hfail _ _)
    | _ => exact absurd h (hfail _ _)

/-! ## Filling a new table -/

theorem fillFdsBelow_steps {os : Os} {pid : Pid} (n : Nat) {c c' : Context Q}
    (hlen : n ≤ (c.heap.fds p).length) (hempty : ∀ i < n, slot (c.heap.fds p) i = none)
    (h : fillFdsBelow os p pid n c = .ok c') : TableSteps .any p c c' := by
  induction n generalizing c with
  | zero =>
    cases h
    exact Relation.ReflTransGen.refl
  | succ fd ih =>
    simp only [fillFdsBelow] at h
    split at h
    · exact ih (by omega) (fun i hi => hempty i (by omega)) h
    · rename_i flags _
      split at h
      · obtain ⟨filename, _, h⟩ := bind_eq_ok_iff.mp h
        have hgrown : grown (c.heap.fds p) fd = c.heap.fds p := if_neg (by omega)
        have hstep := @TableStep.create Q _ .any p c fd (FileState.ofOpen os filename flags)
          (hempty fd (by omega)) trivial
        refine Relation.ReflTransGen.head hstep (ih ?_ ?_ ?_)
        · simp only [newFile, fillSlot, Heap.setFds_fds_self, Heap.newFiles_fds,
            List.length_set, hgrown]
          omega
        · intro i hi
          rw [fillSlot_slot, if_neg (by omega)]
          exact hempty i (by omega)
        · simp only [newFile, fillSlot, Heap.newFiles_fds, hgrown]
          exact h
      · exact ih (by omega) (fun i hi => hempty i (by omega)) h

theorem fillFds_ok {os : Os} {pid : Pid} {c' : Context Q} (h : c.fillFds os p pid = .ok c') :
    (os.myHighestFd.toInt < 0 ∧ c' = c) ∨
      (0 ≤ os.myHighestFd.toInt ∧ fillFdsBelow os p pid (os.myHighestFd.toInt.toNat + 1)
        (c.growTable p (os.myHighestFd.toInt.toNat + 1)) = .ok c') := by
  unfold fillFds at h
  simp only at h
  split at h
  · rename_i hneg
    cases h
    exact Or.inl ⟨hneg, rfl⟩
  · split at h
    · cases h
    · rename_i hneg hzero
      obtain ⟨fds, hresize, h⟩ := bind_eq_ok_iff.mp h
      have hbound := @BitVec.toInt_lt 32 os.myHighestFd
      have hlength : (BitVec.ofInt 64 (os.myHighestFd.toInt + 1)).toNat =
          os.myHighestFd.toInt.toNat + 1 := by
        rw [BitVec.toNat_ofInt]
        omega
      unfold resizeFds at hresize
      rw [hlength] at hresize
      split at hresize
      · cases hresize
        exact Or.inr ⟨not_lt.mp hneg, h⟩
      · cases hresize

theorem fillFds_steps {os : Os} {pid : Pid} {c' : Context Q} (hnil : c.heap.fds p = [])
    (h : c.fillFds os p pid = .ok c') : TableSteps .any p c c' := by
  rcases fillFds_ok h with ⟨_, rfl⟩ | ⟨_, h⟩
  · exact Relation.ReflTransGen.refl
  · have hgrow : TableStep .any p c (c.growTable p (os.myHighestFd.toInt.toNat + 1)) :=
      .grow _ (by simp [hnil])
    refine Relation.ReflTransGen.head hgrow (fillFdsBelow_steps _ ?_ ?_ h)
    · simp [growTable]
    · intro i _
      rw [growTable_slot (by simp [hnil]), hnil, slot_nil]

/-! ## Tearing a table down -/

/-- The table is empty, and nothing else happened but reports. -/
structure TornDown (p : Nat) (c c' : Context Q) : Prop where
  steps : TableSteps .frozen p c c'
  empty : ∀ fd, slot (c'.heap.fds p) fd = none
  others : ∀ q, q ≠ p → c'.heap.fds q = c.heap.fds q
  files : c'.heap.files = c.heap.files
  fileCount : c'.heap.fileCount = c.heap.fileCount

theorem tearDownFrom_ok (fd n : Nat) (c : Context Q) :
    ∃ c', tearDownFrom p fd n c = .ok c' ∧ TableSteps .frozen p c c' ∧
      (∀ i, slot (c'.heap.fds p) i =
        if fd ≤ i ∧ i < fd + n then none else slot (c.heap.fds p) i) ∧
      (∀ q, q ≠ p → c'.heap.fds q = c.heap.fds q) ∧ c'.heap.files = c.heap.files ∧
      c'.heap.fileCount = c.heap.fileCount := by
  induction n generalizing fd c with
  | zero =>
    refine ⟨c, rfl, Relation.ReflTransGen.refl, ?_, fun _ _ => rfl, rfl, rfl⟩
    intro i
    rw [if_neg (by omega)]
  | succ n ih =>
    simp only [tearDownFrom]
    cases hslot : slot (c.heap.fds p) fd with
    | none =>
      obtain ⟨c', hrun, hsteps, hslots, hrest⟩ := ih (fd + 1) c
      refine ⟨c', hrun, hsteps, ?_, hrest⟩
      intro i
      rw [hslots i]
      by_cases hi : i = fd
      · subst hi
        rw [hslot, ite_self, ite_self]
      · have hiff : (fd + 1 ≤ i ∧ i < fd + 1 + n) ↔ (fd ≤ i ∧ i < fd + (n + 1)) := by omega
        simp only [hiff]
    | some r =>
      obtain ⟨c', hrun, hsteps, hslots, hothers, hfiles, hcount⟩ :=
        ih (fd + 1) (c.clearSlot p fd r)
      simp only [tearDownFd_eq hslot, bind_ok]
      refine ⟨c', hrun, Relation.ReflTransGen.head (.clear fd r hslot) hsteps, ?_, ?_, ?_, ?_⟩
      · intro i
        rw [hslots i, clearSlot_slot hslot]
        by_cases hi : i = fd
        · subst hi
          simp
        · have hiff : (fd + 1 ≤ i ∧ i < fd + 1 + n) ↔ (fd ≤ i ∧ i < fd + (n + 1)) := by omega
          simp only [hiff, hi, and_false, if_false]
      · intro q hq
        rw [hothers q hq, clearSlot_heap, Heap.setFds_fds, if_neg hq]
      · rw [hfiles]
        rfl
      · rw [hcount]
        rfl

/-- `VanishProcess` has nothing left to fail on once its pid is in `ProcMap`. -/
theorem vanishLeader_ok {pid : Pid} (hp : c.procMap.lookup pid = some p) :
    ∃ c₁, TornDown p c c₁ ∧
      c.vanishLeader pid = .ok { c₁ with groupLeaders := c.groupLeaders.erase pid } := by
  obtain ⟨c₁, hrun, hsteps, hslots, hothers, hfiles, hcount⟩ :=
    @tearDownFrom_ok Q _ p 0 (c.heap.fds p).length c
  refine ⟨c₁, ⟨hsteps, ?_, hothers, hfiles, hcount⟩, ?_⟩
  · intro fd
    rw [hslots fd]
    split
    · rfl
    · exact slot_of_length_le (by omega)
  · rw [vanishLeader, getProcState_ok_iff.mpr hp, bind_ok, hrun, bind_ok,
      hsteps.sameRegistry.groupLeaders]
    rfl

/-- The entry of a pid goes, and the process state with it if that was the last one. -/
def dropPid (c : Context Q) (pid : Pid) (p : Nat) : Context Q :=
  releaseProc { c with
    groupLeaders := c.groupLeaders.erase pid
    procMap := c.procMap.erase pid } p

theorem vanishProcess_ok {pid : Pid} (hp : c.procMap.lookup pid = some p) :
    ∃ c₁, c.vanishProcess pid = .ok (c₁.dropPid pid p) ∧
      ((pid ∉ c.groupLeaders ∧ c₁ = c) ∨ (pid ∈ c.groupLeaders ∧ TornDown p c c₁)) := by
  by_cases hlead : pid ∈ c.groupLeaders
  · obtain ⟨c₁, htorn, hrun⟩ := vanishLeader_ok hp
    have hsame := htorn.steps.sameRegistry
    refine ⟨c₁, ?_, Or.inr ⟨hlead, htorn⟩⟩
    simp only [vanishProcess, if_pos hlead, hrun, bind_ok, hsame.procMap, hp]
    simp only [dropPid, hsame.procMap, hsame.groupLeaders]
    rfl
  · refine ⟨c, ?_, Or.inl ⟨hlead, rfl⟩⟩
    simp only [vanishProcess, if_neg hlead, bind_ok, hp, dropPid,
      Finset.erase_eq_of_notMem hlead]
    rfl

theorem vanishProcess_mapped {pid : Pid} {c' : Context Q} (h : c.vanishProcess pid = .ok c') :
    ∃ p, c.procMap.lookup pid = some p := by
  cases hp : c.procMap.lookup pid with
  | some p => exact ⟨p, rfl⟩
  | none =>
    by_cases hlead : pid ∈ c.groupLeaders
    · simp only [vanishProcess, if_pos hlead] at h
      obtain ⟨_, hleader, _⟩ := bind_eq_ok_iff.mp h
      obtain ⟨p, hok, _⟩ := bind_eq_ok_iff.mp hleader
      rw [getProcState_ok_iff, hp] at hok
      cases hok
    · simp only [vanishProcess, if_neg hlead, bind_ok, hp] at h
      cases h

/-- What letting go of a process state changes: nothing, or the slots of that one. -/
theorem releaseProc_cases (c : Context Q) (p : Nat) :
    c.releaseProc p = c ∨
      (c.releaseProc p = { c with heap := c.heap.setFds p [] } ∧
        ∀ pid, c.procMap.lookup pid ≠ some p) := by
  unfold releaseProc
  split
  · exact Or.inl rfl
  · rename_i hnone
    refine Or.inr ⟨rfl, ?_⟩
    intro pid hpid
    exact hnone ⟨pid, Finmap.mem_keys.mpr (Finmap.mem_of_lookup_eq_some hpid), hpid⟩

theorem releaseProc_sameRegistry (c : Context Q) (p : Nat) : c.SameRegistry (c.releaseProc p) := by
  rcases releaseProc_cases c p with hc | ⟨hc, _⟩
  · rw [hc]
    exact SameRegistry.refl c
  · rw [hc]
    exact ⟨rfl, rfl, rfl, rfl, fun q => by simp⟩

/-- With no slot in use, nothing at all can be seen of it. -/
theorem releaseProc_slot {p : Nat} (hempty : ∀ fd, slot (c.heap.fds p) fd = none) (q fd : Nat) :
    slot ((c.releaseProc p).heap.fds q) fd = slot (c.heap.fds q) fd := by
  rcases releaseProc_cases c p with hc | ⟨hc, _⟩
  · rw [hc]
  · simp only [hc, Heap.setFds_fds]
    by_cases hq : q = p
    · subst hq
      rw [if_pos rfl, slot_nil, hempty]
    · rw [if_neg hq]

theorem releaseProc_useCount {p : Nat} (hp : p < c.heap.procCount)
    (hempty : ∀ fd, slot (c.heap.fds p) fd = none) (r : Nat) :
    (c.releaseProc p).heap.useCount r = c.heap.useCount r := by
  rcases releaseProc_cases c p with hc | ⟨hc, _⟩
  · rw [hc]
  · have hset := c.heap.useCount_setFds hp [] r
    have hrefs : refs (c.heap.fds p) r = 0 := refs_eq_zero_iff.mpr (by simp [hempty])
    rw [hc]
    simp only [hrefs, refs_nil] at hset
    exact hset

theorem releaseProc_reports (c : Context Q) (p : Nat) :
    (c.releaseProc p).reports = c.reports ∧ (c.releaseProc p).fileStorage = c.fileStorage ∧
      (c.releaseProc p).heap.files = c.heap.files ∧
      (c.releaseProc p).heap.fileCount = c.heap.fileCount := by
  rcases releaseProc_cases c p with hc | ⟨hc, _⟩
  · rw [hc]
    exact ⟨rfl, rfl, rfl, rfl⟩
  · rw [hc]
    exact ⟨rfl, rfl, rfl, rfl⟩

/-- A pid is gone: with it the slots of its process state if it led one, and no other slot. -/
structure Vanished (pid : Pid) (p : Nat) (c c' : Context Q) : Prop where
  options : c'.options = c.options
  groupLeaders : c'.groupLeaders = c.groupLeaders.erase pid
  procMap : c'.procMap = c.procMap.erase pid
  procCount : c'.heap.procCount = c.heap.procCount
  procInfo : ∀ q, (c'.heap.procs q).procInfo = (c.heap.procs q).procInfo
  files : c'.heap.files = c.heap.files
  fileCount : c'.heap.fileCount = c.heap.fileCount
  slots : ∀ q fd, slot (c'.heap.fds q) fd =
    if q = p ∧ pid ∈ c.groupLeaders then none else slot (c.heap.fds q) fd
  steps : ∃ c₁, TableSteps .frozen p c c₁ ∧ c'.reports = c₁.reports ∧ c'.fileStorage = c₁.fileStorage ∧
    c'.heap.fileCount = c₁.heap.fileCount ∧ c'.heap.files = c₁.heap.files ∧
    ∀ r, c'.heap.useCount r = c₁.heap.useCount r

/-- What is left in a slot was there before. -/
theorem Vanished.slot_old {pid : Pid} {p q fd r : Nat} {c c' : Context Q} (hv : Vanished pid p c c')
    (hslot : slot (c'.heap.fds q) fd = some r) : slot (c.heap.fds q) fd = some r := by
  rw [hv.slots] at hslot
  split at hslot
  · cases hslot
  · exact hslot

theorem dropPid_vanished {pid : Pid} {c₁ : Context Q} (hsteps : TableSteps .frozen p c c₁)
    (hp : p < c.heap.procCount) (hfiles : c₁.heap.files = c.heap.files)
    (hcount : c₁.heap.fileCount = c.heap.fileCount)
    (hslots : ∀ q fd, slot (c₁.heap.fds q) fd =
      if q = p ∧ pid ∈ c.groupLeaders then none else slot (c.heap.fds q) fd)
    (hkept : (∀ fd, slot (c₁.heap.fds p) fd = none) ∨ ∃ tid ≠ pid, c.procMap.lookup tid = some p) :
    Vanished pid p c (c₁.dropPid pid p) := by
  have hsame := hsteps.sameRegistry
  -- the part of `dropPid` before the process state is let go
  have hdrop : ∃ c₂, c₁.dropPid pid p = releaseProc c₂ p ∧ c₂.heap = c₁.heap ∧
      c₂.reports = c₁.reports ∧ c₂.fileStorage = c₁.fileStorage ∧ c₂.options = c₁.options ∧
      c₂.groupLeaders = c₁.groupLeaders.erase pid ∧ c₂.procMap = c₁.procMap.erase pid :=
    ⟨_, rfl, rfl, rfl, rfl, rfl, rfl, rfl⟩
  obtain ⟨c₂, heq, hheap, hreports, hstorage, hoptions, hleaders, hmap⟩ := hdrop
  have hrelease : (∀ q fd, slot ((c₂.releaseProc p).heap.fds q) fd = slot (c₁.heap.fds q) fd) ∧
      ∀ r, (c₂.releaseProc p).heap.useCount r = c₁.heap.useCount r := by
    rcases hkept with hempty | ⟨tid, hne, htid⟩
    · rw [← hheap] at hempty ⊢
      have hp₂ : p < c₂.heap.procCount := by
        rw [hheap, hsame.procCount]
        exact hp
      exact ⟨releaseProc_slot hempty, releaseProc_useCount hp₂ hempty⟩
    · rcases releaseProc_cases c₂ p with hc | ⟨_, hnone⟩
      · rw [hc, hheap]
        exact ⟨fun _ _ => rfl, fun _ => rfl⟩
      · refine absurd ?_ (hnone tid)
        rw [hmap, PidMap.lookup_erase, if_neg hne, hsame.procMap]
        exact htid
  have hreg := releaseProc_sameRegistry c₂ p
  obtain ⟨hrep, hsto, hfil, hcnt⟩ := releaseProc_reports c₂ p
  rw [heq]
  refine ⟨?_, ?_, ?_, ?_, ?_, ?_, ?_, ?_, ?_⟩
  · rw [hreg.options, hoptions, hsame.options]
  · rw [hreg.groupLeaders, hleaders, hsame.groupLeaders]
  · rw [hreg.procMap, hmap, hsame.procMap]
  · rw [hreg.procCount, hheap, hsame.procCount]
  · intro q
    rw [hreg.procInfo, hheap, hsame.procInfo]
  · rw [hfil, hheap, hfiles]
  · rw [hcnt, hheap, hcount]
  · intro q fd
    rw [hrelease.1, hslots]
  · refine ⟨c₁, hsteps, ?_, ?_, ?_, ?_, hrelease.2⟩
    · rw [hrep, hreports]
    · rw [hsto, hstorage]
    · rw [hcnt, hheap]
    · rw [hfil, hheap]

/-- The spec of `VanishProcess`. Where a thread is the last one to point to its process state,
that has to be empty already. -/
theorem vanishProcess_vanished {pid : Pid} (hp : c.procMap.lookup pid = some p)
    (halloc : p < c.heap.procCount)
    (hkept : pid ∉ c.groupLeaders →
      (∀ fd, slot (c.heap.fds p) fd = none) ∨ ∃ tid ≠ pid, c.procMap.lookup tid = some p) :
    ∃ c', c.vanishProcess pid = .ok c' ∧ Vanished pid p c c' := by
  obtain ⟨c₁, hrun, ⟨hlead, rfl⟩ | ⟨hlead, htorn⟩⟩ := vanishProcess_ok hp
  · refine ⟨_, hrun, dropPid_vanished Relation.ReflTransGen.refl halloc rfl rfl ?_ (hkept hlead)⟩
    intro q fd
    rw [if_neg (fun h => hlead h.2)]
  · refine ⟨_, hrun, dropPid_vanished htorn.steps halloc htorn.files htorn.fileCount ?_
      (Or.inl htorn.empty)⟩
    intro q fd
    by_cases hq : q = p
    · subst hq
      rw [htorn.empty, if_pos ⟨rfl, hlead⟩]
    · rw [htorn.others q hq, if_neg (fun h => hq h.1)]

/-! ## Registration -/

theorem copyProc_eq (os : Os) (c : Context Q) (src : Nat) (cloexecFree : Bool) (pid ppid : Pid) :
    c.copyProc os src cloexecFree pid ppid =
      (c.heap.newFiles (c.heap.copyTable os cloexecFree (c.heap.fds src)).2).newProc
        ⟨(c.heap.copyTable os cloexecFree (c.heap.fds src)).1, c.newProcState os pid ppid⟩ := rfl

theorem copyProc_fds_self (os : Os) (c : Context Q) (src : Nat) (cloexecFree : Bool)
    (pid ppid : Pid) : (c.copyProc os src cloexecFree pid ppid).fds c.heap.procCount =
      (c.heap.copyTable os cloexecFree (c.heap.fds src)).1 := by
  rw [copyProc_eq]
  exact Heap.newProc_fds_self _ _

theorem copyProc_fds_ne (os : Os) (c : Context Q) (src : Nat) (cloexecFree : Bool)
    (pid ppid : Pid) {q : Nat} (hq : q ≠ c.heap.procCount) :
    (c.copyProc os src cloexecFree pid ppid).fds q = c.heap.fds q := by
  rw [copyProc_eq]
  exact Heap.newProc_fds_ne (c.heap.newFiles _) hq _

theorem copyProc_files_old (os : Os) (c : Context Q) (src : Nat) (cloexecFree : Bool)
    (pid ppid : Pid) {r : Nat} (hr : r < c.heap.fileCount) :
    (c.copyProc os src cloexecFree pid ppid).files r = c.heap.files r :=
  c.heap.newFiles_files_old _ hr

/-- The states of the new process state. -/
theorem copyProc_states (os : Os) (c : Context Q) (src : Nat) (cloexecFree : Bool) (pid ppid : Pid)
    (fd : Nat) : (slot ((c.copyProc os src cloexecFree pid ppid).fds c.heap.procCount) fd).map
        (c.copyProc os src cloexecFree pid ppid).files =
      ((slot (c.heap.fds src) fd).map c.heap.files).bind fun s =>
        if Heap.keeps cloexecFree s then some (s.copy os) else none := by
  rw [copyProc_fds_self]
  exact Heap.copyTable_states fd

theorem copyProc_source {os : Os} {c : Context Q} {src : Nat} {cloexecFree : Bool} {pid ppid : Pid}
    {fd r : Nat} (h : slot ((c.copyProc os src cloexecFree pid ppid).fds c.heap.procCount) fd = some r) :
    ∃ r₀, slot (c.heap.fds src) fd = some r₀ ∧ Heap.keeps cloexecFree (c.heap.files r₀) = true ∧
      (c.copyProc os src cloexecFree pid ppid).files r = (c.heap.files r₀).copy os := by
  have hstates := copyProc_states os c src cloexecFree pid ppid fd
  rw [h, Option.map_some, eq_comm, Option.bind_eq_some_iff] at hstates
  obtain ⟨s, hs, hcopy⟩ := hstates
  obtain ⟨r₀, hr₀, rfl⟩ := Option.map_eq_some_iff.mp hs
  rw [Option.ite_none_right_eq_some] at hcopy
  exact ⟨r₀, hr₀, hcopy.1, (Option.some.inj hcopy.2).symm⟩

theorem registerProcess_ok {os : Os} {parent child : Pid} {c' : Context Q}
    (h : c.registerProcess os parent child = .ok c') :
    ∃ p, c.procMap.lookup parent = some p ∧ c.procMap.lookup child = none ∧
      c' = { c with
        heap := c.copyProc os p false child parent
        groupLeaders := insert child c.groupLeaders
        procMap := c.procMap.insert child c.heap.procCount } := by
  unfold registerProcess at h
  split at h
  · cases h
  · rename_i hchild
    obtain ⟨p, hp, h⟩ := bind_eq_ok_iff.mp h
    rw [pure_eq_ok_iff] at h
    exact ⟨p, getProcState_ok_iff.mp hp, Finmap.lookup_eq_none.mpr hchild, h.symm⟩

theorem registerExec_ok {os : Os} {pid execpid : Pid} {c' : Context Q}
    (h : c.registerExec os pid execpid = .ok c') :
    ∃ p c₁, c.procMap.lookup pid = some p ∧
      { c with
        heap := c.copyProc os p true pid (c.heap.procs p).procInfo.ppid }.vanishProcess pid =
        .ok c₁ ∧
      c' = { c₁ with
        groupLeaders := insert pid c₁.groupLeaders
        procMap := c₁.procMap.insert pid c.heap.procCount } := by
  obtain ⟨p, hp, h⟩ := bind_eq_ok_iff.mp h
  obtain ⟨c₁, hvanish, h⟩ := bind_eq_ok_iff.mp h
  rw [pure_eq_ok_iff] at h
  exact ⟨p, c₁, getProcState_ok_iff.mp hp, hvanish, h.symm⟩

/-- The process state the thread pointed to before is let go only when it is empty anyway. -/
theorem registerThread_ok {pid thread : Pid} {c' : Context Q}
    (hkept : ∀ old, c.procMap.lookup thread = some old →
      (∀ fd, slot (c.heap.fds old) fd = none) ∨ ∃ tid ≠ thread, c.procMap.lookup tid = some old)
    (h : c.registerThread pid thread = .ok c') :
    ∃ p, c.procMap.lookup pid = some p ∧
      (c' = { c with procMap := c.procMap.insert thread p } ∨
        ∃ old, c.procMap.lookup thread = some old ∧ (∀ fd, slot (c.heap.fds old) fd = none) ∧
          c' = { c with procMap := c.procMap.insert thread p }.releaseProc old) := by
  unfold registerThread at h
  cases hp : c.procMap.lookup pid with
  | none =>
    rw [hp] at h
    cases h
  | some p =>
    simp only [hp] at h
    refine ⟨p, rfl, ?_⟩
    cases hold : c.procMap.lookup thread with
    | none =>
      simp only [hold] at h
      cases h
      exact Or.inl rfl
    | some old =>
      simp only [hold] at h
      cases h
      rcases hkept old hold with hempty | ⟨tid, hne, htid⟩
      · exact Or.inr ⟨old, rfl, hempty, rfl⟩
      · rcases releaseProc_cases { c with procMap := c.procMap.insert thread p } old with
          hc | ⟨_, hnone⟩
        · exact Or.inl hc
        · refine absurd ?_ (hnone tid)
          rw [PidMap.lookup_insert, if_neg hne]
          exact htid

theorem registerTracee_ok {os : Os} {pid : Pid} {c' : Context Q}
    (h : c.registerTracee os pid = .ok c') :
    c.procMap.lookup pid = none ∧
      TableSteps .any c.heap.procCount { c with
        heap := c.heap.newProc ⟨[], c.newProcState os pid 0⟩
        groupLeaders := insert pid c.groupLeaders
        procMap := c.procMap.insert pid c.heap.procCount } c' := by
  unfold registerTracee at h
  split at h
  · cases h
  · rename_i hpid
    exact ⟨Finmap.lookup_eq_none.mpr hpid, fillFds_steps (Heap.newProc_fds_self _ _) h⟩

end Context

end Optrace
