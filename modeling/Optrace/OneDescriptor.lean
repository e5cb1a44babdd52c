import Optrace.Trace
import Optrace.Lib.RegularFile

/-!
# A regular file used through one descriptor

The calls a process makes on one descriptor of a regular file, what they do to the file and to the
offset in the kernel, and what the tracker makes of them.
-/

namespace Optrace

set_option autoImplicit false
set_option linter.unusedSectionVars false

open SlotTable Except RegularFile

variable {Q : Type} [MaxOutFilesQueue Q] {arch : Arch}

def RWF_APPEND : Word := 0x10
def FALLOC_FL_KEEP_SIZE : Word := 0x1
def FALLOC_FL_COLLAPSE_RANGE : Word := 0x8
def FALLOC_FL_INSERT_RANGE : Word := 0x20

/-- The exit of a call; the sixth argument is one only the kernel looks at. -/
structure FileExit (arch : Arch) where
  os : Os
  tid : Pid
  registers : UserRegs arch
  arg5 : Word

namespace FileExit

def regs (e : FileExit arch) : SyscallRegs := syscallRegs arch e.registers

def sys (e : FileExit arch) : Option Sys := syscallOf arch e.regs.nr

/-- How the kernel reads the mode of `fallocate`; a hole is punched only with the size kept. -/
def allocMode (mode : Word) : AllocMode :=
  if hasFlag mode FALLOC_FL_KEEP_SIZE then .keepSize
  else if hasFlag mode FALLOC_FL_COLLAPSE_RANGE then .collapse
  else if hasFlag mode FALLOC_FL_INSERT_RANGE then .insert
  else .extend

/-- What the kernel did. The offset -1 of `pwritev2` stands for the current one. -/
def effect (e : FileExit arch) : Effect :=
  if e.regs.retdata.toInt < 0 then .nothing
  else
    match e.sys with
    | some .SYS_write | some .SYS_writev => .write e.regs.retdata.toNat false
    | some .SYS_pwrite64 | some .SYS_pwritev =>
      .writeAt e.regs.retdata.toNat e.regs.arg3.toNat false
    | some .SYS_pwritev2 =>
      if e.regs.arg3 = -1 then .write e.regs.retdata.toNat (hasFlag e.arg5 RWF_APPEND)
      else .writeAt e.regs.retdata.toNat e.regs.arg3.toNat (hasFlag e.arg5 RWF_APPEND)
    | some .SYS_lseek => .seek e.regs.retdata.toNat
    | some .SYS_ftruncate => .truncate e.regs.arg1.toNat
    | some .SYS_fallocate =>
      .allocate (allocMode e.regs.arg1) e.regs.arg2.toNat e.regs.arg3.toNat
    | some .SYS_fcntl => .setAppend (hasFlag e.regs.arg2 O_APPEND)
    | _ => .nothing

/-- What the kernel guarantees about the words: a return word below zero is an error, the calls
that only succeed or fail return 0, and no position passes the largest `loff_t`. -/
structure Legal (f : File) (e : FileExit arch) : Prop where
  error : -4095 ≤ e.regs.retdata.toInt
  zero : e.sys = some .SYS_ftruncate ∨ e.sys = some .SYS_fallocate ∨ e.sys = some .SYS_fcntl →
    e.regs.retdata.toInt ≤ 0
  fits : e.effect.Fits (2 ^ 63) f
  setsFlags : e.sys = some .SYS_fcntl → e.regs.arg1.setWidth 32 = F_SETFL.setWidth 32

instance (f : File) (e : FileExit arch) : Decidable (e.Legal f) :=
  decidable_of_iff (-4095 ≤ e.regs.retdata.toInt ∧
    (e.sys = some .SYS_ftruncate ∨ e.sys = some .SYS_fallocate ∨ e.sys = some .SYS_fcntl →
      e.regs.retdata.toInt ≤ 0) ∧
    e.effect.Fits (2 ^ 63) f ∧
    (e.sys = some .SYS_fcntl → e.regs.arg1.setWidth 32 = F_SETFL.setWidth 32))
    ⟨fun ⟨h₁, h₂, h₃, h₄⟩ => ⟨h₁, h₂, h₃, h₄⟩, fun ⟨h₁, h₂, h₃, h₄⟩ => ⟨h₁, h₂, h₃, h₄⟩⟩

end FileExit

/-- The tracker, and the file as it is. -/
structure Watched (Q : Type) where
  context : Context Q
  file : File

namespace Watched

def step (s : Watched Q) (e : FileExit arch) : Except Abort (Watched Q) := do
  let c ← s.context.syscallExit arch e.os e.tid e.registers
  return ⟨c, s.file.after e.effect⟩

/-- A thread of the process makes one of the calls on the descriptor. -/
structure Calls (sys : List Sys) (p : Nat) (fd : Word) (s : Watched Q) (e : FileExit arch) :
    Prop where
  thread : s.context.procMap.lookup e.tid = some p
  descriptor : e.regs.arg0 = fd
  one : ∃ x ∈ sys, e.sys = some x
  legal : e.Legal s.file

instance (sys : List Sys) (p : Nat) (fd : Word) (s : Watched Q) (e : FileExit arch) :
    Decidable (s.Calls sys p fd e) :=
  decidable_of_iff (s.context.procMap.lookup e.tid = some p ∧ e.regs.arg0 = fd ∧
    (∃ x ∈ sys, e.sys = some x) ∧ e.Legal s.file)
    ⟨fun ⟨h₁, h₂, h₃, h₄⟩ => ⟨h₁, h₂, h₃, h₄⟩, fun ⟨h₁, h₂, h₃, h₄⟩ => ⟨h₁, h₂, h₃, h₄⟩⟩

end Watched

/-- The calls that move positions or set the flags. -/
def fileCalls : List Sys :=
  [.SYS_write, .SYS_writev, .SYS_pwritev, .SYS_pwrite64, .SYS_pwritev2, .SYS_fcntl, .SYS_fallocate,
    .SYS_ftruncate, .SYS_lseek]

namespace FileState

/-- What `SyscallExit` makes of a file state the call is on. -/
def exited (arch : Arch) (r : SyscallRegs) (s : FileState) : FileState :=
  match (syscallSwitch arch r).bind Op.changes with
  | some (_, change) => change s
  | none => s

theorem enroll_maxPos (nbytes : Word) (s : FileState) :
    (s.enroll nbytes).maxPos.toNat = max s.maxPos.toNat (s.currPos + nbytes).toNat := by
  unfold enroll
  simp only [BitVec.lt_def]
  split <;> omega

theorem enrollNoShift_maxPos (nbytes offset : Word) (s : FileState) :
    (s.enrollNoShift nbytes offset).maxPos.toNat = max s.maxPos.toNat (offset + nbytes).toNat := by
  unfold enrollNoShift
  simp only [BitVec.lt_def]
  split <;> omega

end FileState

namespace Context

variable {c : Context Q}

theorem opOnTracked_eq {tid : Pid} {p r : Nat} {fd : Word} (f : FileState → FileState)
    (hp : c.procMap.lookup tid = some p) (hslot : slot (c.heap.fds p) fd.toNat = some r) :
    c.opOnTracked tid fd f = .ok (c.updateFile r f) := by
  rw [opOnTracked, getProcState_ok_iff.mpr hp, bind_ok, onTracked]
  simp only [hslot]
  rfl

end Context

/-- `F_SETFL` is passed on if the whole word says so. -/
theorem switch_of_setFlags {e : FileExit arch} {f : File} (hsys : e.sys = some .SYS_fcntl)
    (hlegal : e.Legal f) : syscallSwitch arch e.regs = none ∨
      syscallSwitch arch e.regs = some (.opSetFlag e.regs.arg0 e.regs.arg2) := by
  have hsys' : syscallOf arch e.regs.nr = some .SYS_fcntl := hsys
  have hcmd := hlegal.setsFlags hsys
  have hdup : e.regs.arg1 ≠ F_DUPFD := fun h => absurd (h ▸ hcmd) (by decide)
  have hdup3 : e.regs.arg1 ≠ F_DUPFD_CLOEXEC := fun h => absurd (h ▸ hcmd) (by decide)
  rw [syscallSwitch, hsys']
  simp only
  split
  · rw [fcntlSwitch, if_neg hdup, if_neg hdup3]
    split
    · exact Or.inr rfl
    · exact Or.inl rfl
  · exact Or.inl rfl

/-- Where the call dispatches to nothing or changes the file state of its descriptor only. -/
theorem switch_of_fileCall {e : FileExit arch} {f : File} {x : Sys} (hx : x ∈ fileCalls)
    (hsys : e.sys = some x) (hlegal : e.Legal f) :
    syscallSwitch arch e.regs = none ∨ ∃ op change, syscallSwitch arch e.regs = some op ∧
      op.changes = some (e.regs.arg0, change) ∧
      ∀ (c : Context Q), c.perform e.os e.tid op = c.opOnTracked e.tid e.regs.arg0 change := by
  have hsys' : syscallOf arch e.regs.nr = some x := hsys
  cases x with
  | SYS_fcntl =>
    rcases switch_of_setFlags hsys hlegal with hnone | hset
    · exact Or.inl hnone
    · exact Or.inr ⟨_, _, hset, rfl, fun _ => rfl⟩
  | _ =>
    first
    | exact absurd hx (by decide)
    | rw [syscallSwitch, hsys']
      simp only
      split
      · exact Or.inr ⟨_, _, rfl, rfl, fun _ => rfl⟩
      · exact Or.inl rfl

namespace Watched

variable {s s' : Watched Q} {e : FileExit arch} {p r : Nat} {fd : Word} {allowed : List Sys}

/-- The call changes the file state of the descriptor, and nothing else of the tracker. -/
theorem step_ok (hallowed : allowed ⊆ fileCalls)
    (hslot : slot (s.context.heap.fds p) fd.toNat = some r) (h : s.Calls allowed p fd e) :
    s.step e = .ok ⟨s.context.updateFile r (FileState.exited arch e.regs),
      s.file.after e.effect⟩ := by
  obtain ⟨hthread, rfl, ⟨x, hx, hsys⟩, hlegal⟩ := h
  have hexit : s.context.syscallExit arch e.os e.tid e.registers =
      .ok (s.context.updateFile r (FileState.exited arch e.regs)) := by
    have hregs : syscallRegs arch e.registers = e.regs := rfl
    rw [Context.syscallExit, hregs]
    rcases switch_of_fileCall (Q := Q) (hallowed hx) hsys hlegal with
      hnone | ⟨op, change, hop, hchange, hrun⟩
    · have hid : FileState.exited arch e.regs = id := by
        funext file
        simp [FileState.exited, hnone]
      rw [hnone, hid, Context.updateFile_eq_iff.mpr rfl]
    · have hexited : FileState.exited arch e.regs = change := by
        funext file
        simp [FileState.exited, hop, hchange]
      rw [hop, hexited]
      exact (hrun s.context).trans (Context.opOnTracked_eq change hthread hslot)
  rw [step, hexit]
  rfl

end Watched

namespace Context

/-- The file state behind a descriptor. -/
def fileAt (c : Context Q) (p : Nat) (fd : Word) : Option FileState :=
  (slot (c.heap.fds p) fd.toNat).map c.heap.files

theorem fileAt_updateFile {c : Context Q} {p r : Nat} {fd : Word} (f : FileState → FileState)
    (hslot : slot (c.heap.fds p) fd.toNat = some r) :
    (c.updateFile r f).fileAt p fd = some (f (c.heap.files r)) := by
  have hslot' : slot ((c.updateFile r f).heap.fds p) fd.toNat = some r := hslot
  rw [fileAt, hslot', Option.map_some, updateFile, Heap.updateFile_files_self]

/-- The exit of a call by which a thread of the process opens a regular file for writing. -/
structure Opens (os : Os) (c : Context Q) (tid : Pid) (registers : UserRegs arch) (p : Nat)
    (fd flags : Word) (length : Nat) (c' : Context Q) : Prop where
  thread : c.procMap.lookup tid = some p
  opens : ∃ op, syscallSwitch arch (syscallRegs arch registers) = some op ∧
    op.opens = some (fd, flags)
  length : ∀ filename, os.readlink (fdPath tid fd.toNat) = some filename →
    (getFileLength os filename).toNat = length
  exit : c.syscallExit arch os tid registers = .ok c'

/-- The descriptor has a file state of its own then. -/
theorem Opens.opened {os : Os} {c c' : Context Q} {tid : Pid} {registers : UserRegs arch} {p : Nat}
    {fd flags : Word} {length : Nat} (h : c.Opens os tid registers p fd flags length c') :
    ∃ filename kills, (FileState.ofOpen os filename flags).initSize.toNat = length ∧
      c' = (({ c with kills := kills }).newFile
        (FileState.ofOpen os filename flags)).fillSlot p fd.toNat c.heap.fileCount := by
  obtain ⟨op, hop, hopens⟩ := h.opens
  have hrun : c.opOpenWriteFile os tid fd flags = .ok c' := by
    have hexit := h.exit
    rw [Context.syscallExit, hop] at hexit
    cases op with
    | opOpenWriteFile fd' flags' =>
      cases hopens
      exact hexit
    | opOpenFile fd' flags' =>
      simp only [Op.opens] at hopens
      split at hopens
      · rename_i hwrite
        cases hopens
        simp only [perform, opOpenFile, if_pos hwrite] at hexit
        exact hexit
      · cases hopens
    | _ => cases hopens
  obtain ⟨filename, kills, hlink, hc'⟩ := opOpenWriteFile_ok h.thread hrun
  exact ⟨filename, kills, h.length filename hlink, hc'⟩

variable {os : Os} {c c' : Context Q} {tid : Pid} {registers : UserRegs arch} {p : Nat}
  {fd flags : Word} {length : Nat}

theorem Opens.slot_self (h : c.Opens os tid registers p fd flags length c') :
    slot (c'.heap.fds p) fd.toNat = some c.heap.fileCount := by
  obtain ⟨filename, kills, _, rfl⟩ := h.opened
  rw [fillSlot_slot, if_pos ⟨rfl, rfl⟩]

theorem Opens.fileAt (h : c.Opens os tid registers p fd flags length c') :
    ∃ filename, (FileState.ofOpen os filename flags).initSize.toNat = length ∧
      c'.fileAt p fd = some (FileState.ofOpen os filename flags) := by
  have hslot := h.slot_self
  obtain ⟨filename, kills, hlength, hc'⟩ := h.opened
  have hfile : c'.heap.files c.heap.fileCount = FileState.ofOpen os filename flags := by
    rw [hc']
    exact Heap.newFiles_files_new (i := 0) c.heap [FileState.ofOpen os filename flags] rfl
  exact ⟨filename, hlength, by rw [Context.fileAt, hslot, Option.map_some, hfile]⟩

end Context

/-! ## What one call makes of the file state -/

namespace FileState

variable {r : SyscallRegs} {file : FileState}

/-- A case of the switch that is one operation behind one test. -/
theorem exited_case {test : Prop} [Decidable test] {op : Op} {fd : Word}
    {change : FileState → FileState} (h : syscallSwitch arch r = if test then some op else none)
    (hop : op.changes = some (fd, change)) :
    exited arch r file = if test then change file else file := by
  rw [exited, h]
  split
  · rename_i hchange
    split at hchange
    · rename_i htest
      rw [Option.bind_some, hop] at hchange
      cases hchange
      rw [if_pos htest]
    · cases hchange
  · rename_i hnone
    split at hnone
    · rw [Option.bind_some, hop] at hnone
      cases hnone
    · rename_i htest
      rw [if_neg htest]

theorem exited_write
    (h : syscallOf arch r.nr = some .SYS_write ∨ syscallOf arch r.nr = some .SYS_writev) :
    exited arch r file = if 0 < asSsize r.retdata then file.enroll r.retdata else file := by
  rcases h with h | h
  · exact exited_case (by rw [syscallSwitch, h]) rfl
  · exact exited_case (by rw [syscallSwitch, h]) rfl

theorem exited_writeAt (h : syscallOf arch r.nr = some .SYS_pwritev ∨
    syscallOf arch r.nr = some .SYS_pwrite64 ∨ syscallOf arch r.nr = some .SYS_pwritev2) :
    exited arch r file =
      if 0 < asSsize r.retdata then file.enrollNoShift r.retdata r.arg3 else file := by
  rcases h with h | h | h
  · exact exited_case (by rw [syscallSwitch, h]) rfl
  · exact exited_case (by rw [syscallSwitch, h]) rfl
  · exact exited_case (by rw [syscallSwitch, h]) rfl

theorem exited_allocate (h : syscallOf arch r.nr = some .SYS_fallocate) :
    exited arch r file =
      if 0 ≤ asInt r.retdata then file.enrollNoShift (r.arg2 + r.arg3) 0 else file :=
  exited_case (by rw [syscallSwitch, h]) rfl

theorem exited_truncate (h : syscallOf arch r.nr = some .SYS_ftruncate) :
    exited arch r file = if 0 ≤ asInt r.retdata then file.enrollNoShift r.arg1 0 else file :=
  exited_case (by rw [syscallSwitch, h]) rfl

theorem exited_seek (h : syscallOf arch r.nr = some .SYS_lseek) :
    exited arch r file = if 0 ≤ asInt r.retdata then file.setCurrPos r.retdata else file :=
  exited_case (by rw [syscallSwitch, h]) rfl

end FileState

/-! ## A file of the tracee 1 -/

/-- The exit of `open` by the tracee 1, which gets the descriptor 3. -/
def openRegs (flags : Word) : UserRegs .x86_64 := exitRegs .x86_64 ⟨2, 3, 0, flags, 0, 0⟩

open FileStorage in
/-- The tracker after it. -/
def openStart (length flags : Word) : Context FileQueue :=
  match plainStart.syscallExit .x86_64 (plainOs length) 1 (openRegs flags) with
  | .ok c => c
  | .error _ => plainStart

/-- The exit of a call by the tracee 1 on that descriptor. -/
def exitOn (nr retdata arg1 arg2 arg3 : Word) : FileExit .x86_64 :=
  ⟨plainOs 0, 1, exitRegs .x86_64 ⟨nr, retdata, 3, arg1, arg2, arg3⟩, 0⟩

open FileStorage in
theorem openStart_opens (length flags : Word) (hwrite : opensForWriting flags = true) :
    plainStart.Opens (plainOs length) 1 (openRegs flags) 0 3 flags length.toNat
      (openStart length flags) := by
  refine ⟨rfl, ⟨.opOpenFile 3 flags, rfl, if_pos hwrite⟩, fun _ _ => rfl, ?_⟩
  have hrun : plainStart.syscallExit .x86_64 (plainOs length) 1 (openRegs flags) =
      plainStart.opOpenWriteFile (plainOs length) 1 3 flags := if_pos hwrite
  obtain ⟨c, hc⟩ : ∃ c, plainStart.opOpenWriteFile (plainOs length) 1 3 flags = .ok c := ⟨_, rfl⟩
  rw [openStart, hrun, hc]

end Optrace
