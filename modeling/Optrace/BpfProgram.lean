import Optrace.Syscall
import Optrace.Lib.Bpf

/-!
# The seccomp filter

`bpf_program.cpp`: the program `InstallBpfProgram` assembles, what it answers for every
call, and how that compares with the switch of `SyscallExit`.
-/

namespace Optrace

set_option autoImplicit false

open Bpf

def SECCOMP_RET_ALLOW : BitVec 32 := 0x7fff0000
def SECCOMP_RET_TRACE : BitVec 32 := 0x7ff00000

structure SeccompData where
  nr : BitVec 32
  arch : BitVec 32
  instructionPointer : Word
  args : Fin 6 → Word

def highWord (w : Word) : BitVec 32 := (w >>> 32).setWidth 32

def lowWord (w : Word) : BitVec 32 := w.setWidth 32

/-- A 32-bit load at a byte offset of the (little-endian) record. -/
def SeccompData.load (d : SeccompData) (off : Nat) : BitVec 32 :=
  if off = 0 then d.nr
  else if off = 4 then d.arch
  else if off = 8 then lowWord d.instructionPointer
  else if off = 12 then highWord d.instructionPointer
  else if h : (off - 16) / 8 < 6 then
    if off % 8 = 0 then lowWord (d.args ⟨(off - 16) / 8, h⟩)
    else highWord (d.args ⟨(off - 16) / 8, h⟩)
  else 0

/-- `offsetof(struct seccomp_data, args[i])`. -/
def offsetofArgs (i : Nat) : Nat := 16 + 8 * i

/-- A call number as the constant of an instruction. -/
def sysK (arch : Arch) (s : Sys) : BitVec 32 := BitVec.ofNat 32 ((Sys.number arch s).getD 0)

def tracingSyscalls (arch : Arch) : List Sys :=
  (if arch = .x86_64 then [.SYS_creat, .SYS_dup2] else []) ++
    [.SYS_write, .SYS_writev, .SYS_pwritev, .SYS_pwrite64, .SYS_pwritev2, .SYS_close, .SYS_dup,
      .SYS_dup3, .SYS_fallocate, .SYS_ftruncate, .SYS_lseek]

/-- The filter handed to `prctl(PR_SET_SECCOMP, ...)`. -/
def installBpfProgram (arch : Arch) : List Insn :=
  [.ldWAbs 0] ++
  -- syscall open exists only at x86_64
  (if arch = .x86_64 then
    [.jeqK (sysK arch .SYS_open) 0 4,
     .ldWAbs (offsetofArgs 1),
     .jsetK (lowWord O_WRONLY) 1 0,
     .jsetK (lowWord O_RDWR) 0 1,
     .retK SECCOMP_RET_TRACE]
   else []) ++
  [.jeqK (sysK arch .SYS_openat) 0 4,
   .ldWAbs (offsetofArgs 2),
   .jsetK (lowWord O_WRONLY) 1 0,
   .jsetK (lowWord O_RDWR) 0 1,
   .retK SECCOMP_RET_TRACE] ++
  [.jeqK (sysK arch .SYS_fcntl) 0 6,
   .ldWAbs (offsetofArgs 1),
   .jsetK (lowWord F_DUPFD) 3 0,
   .jsetK (lowWord F_DUPFD_CLOEXEC) 2 0,
   .jsetK (lowWord F_SETFL) 1 0,
   .jsetK (lowWord F_SETFD) 0 1,
   .retK SECCOMP_RET_TRACE] ++
  (tracingSyscalls arch).flatMap (fun s => [.jeqK (sysK arch s) 0 1, .retK SECCOMP_RET_TRACE]) ++
  [.retK SECCOMP_RET_ALLOW]

/-! ## What the filter answers -/

def accessModes : List (BitVec 32) := [lowWord O_WRONLY, lowWord O_RDWR]

def fcntlCommands : List (BitVec 32) :=
  [lowWord F_DUPFD, lowWord F_DUPFD_CLOEXEC, lowWord F_SETFL, lowWord F_SETFD]

theorem accessModes_ne_nil : accessModes ≠ [] := List.cons_ne_nil _ _

theorem fcntlCommands_ne_nil : fcntlCommands ≠ [] := List.cons_ne_nil _ _

/-- The filter from the comparisons with `tracingSyscalls` on. -/
def tailBlock (arch : Arch) : List Insn :=
  returnOn ((tracingSyscalls arch).map (sysK arch)) SECCOMP_RET_TRACE ++ [.retK SECCOMP_RET_ALLOW]

def fcntlBlock (arch : Arch) : List Insn :=
  argTest (sysK arch .SYS_fcntl) (offsetofArgs 1) fcntlCommands SECCOMP_RET_TRACE ++ tailBlock arch

def openatBlock (arch : Arch) : List Insn :=
  argTest (sysK arch .SYS_openat) (offsetofArgs 2) accessModes SECCOMP_RET_TRACE ++ fcntlBlock arch

/-- The filter as blocks of the library. -/
theorem installBpfProgram_eq (arch : Arch) :
    installBpfProgram arch = .ldWAbs 0 ::
      ((if arch = .x86_64 then
          argTest (sysK arch .SYS_open) (offsetofArgs 1) accessModes SECCOMP_RET_TRACE else []) ++
        openatBlock arch) := by
  cases arch <;> rfl

def tailVerdict (arch : Arch) (acc : BitVec 32) : BitVec 32 :=
  if acc ∈ (tracingSyscalls arch).map (sysK arch) then SECCOMP_RET_TRACE else SECCOMP_RET_ALLOW

/-- A guarded argument test, and what the rest of the program makes of the accumulator. -/
def argTestVerdict (nr word : BitVec 32) (masks : List (BitVec 32))
    (rest : BitVec 32 → BitVec 32) (acc : BitVec 32) : BitVec 32 :=
  if acc = nr then
    if ∃ mask ∈ masks, word &&& mask ≠ 0#32 then SECCOMP_RET_TRACE else rest word
  else rest acc

def fcntlVerdict (arch : Arch) (arg1 acc : BitVec 32) : BitVec 32 :=
  argTestVerdict (sysK arch .SYS_fcntl) arg1 fcntlCommands (tailVerdict arch) acc

def openatVerdict (arch : Arch) (arg1 arg2 acc : BitVec 32) : BitVec 32 :=
  argTestVerdict (sysK arch .SYS_openat) arg2 accessModes (fcntlVerdict arch arg1) acc

/-- The verdict on a call, given its number and the low words of its second and third argument. -/
def filterVerdict (arch : Arch) (nr arg1 arg2 : BitVec 32) : BitVec 32 :=
  if arch = .x86_64 then
    argTestVerdict (sysK arch .SYS_open) arg1 accessModes (openatVerdict arch arg1 arg2) nr
  else openatVerdict arch arg1 arg2 nr

theorem load_nr (d : SeccompData) : d.load 0 = d.nr := rfl

theorem load_args (d : SeccompData) (i : Fin 6) : d.load (offsetofArgs i) = lowWord (d.args i) := by
  have hindex : (16 + 8 * i.val - 16) / 8 = i.val := by omega
  have halign : (16 + 8 * i.val) % 8 = 0 := by omega
  unfold SeccompData.load offsetofArgs
  rw [if_neg (by omega), if_neg (by omega), if_neg (by omega), if_neg (by omega),
    dif_pos (by omega), if_pos halign]
  simp only [hindex]

section Runs

variable (arch : Arch) (d : SeccompData)

theorem exec_tailBlock (acc : BitVec 32) :
    exec d.load (tailBlock arch) 0 acc = some (tailVerdict arch acc) := by
  rw [tailBlock, exec_returnOn, tailVerdict, apply_ite some]
  simp only [exec]

theorem exec_argTest_verdict (nr : BitVec 32) (i : Fin 6) {masks : List (BitVec 32)}
    (hmasks : masks ≠ []) {program : List Insn} {rest : BitVec 32 → BitVec 32}
    (hrest : ∀ acc, exec d.load program 0 acc = some (rest acc)) (acc : BitVec 32) :
    exec d.load (argTest nr (offsetofArgs i) masks SECCOMP_RET_TRACE ++ program) 0 acc =
      some (argTestVerdict nr (lowWord (d.args i)) masks rest acc) := by
  rw [exec_argTest d.load nr _ masks hmasks, hrest, hrest, load_args, argTestVerdict,
    apply_ite some, apply_ite some]

theorem exec_fcntlBlock (acc : BitVec 32) :
    exec d.load (fcntlBlock arch) 0 acc =
      some (fcntlVerdict arch (lowWord (d.args 1)) acc) :=
  exec_argTest_verdict d (sysK arch .SYS_fcntl) 1 fcntlCommands_ne_nil (exec_tailBlock arch d) acc

theorem exec_openatBlock (acc : BitVec 32) :
    exec d.load (openatBlock arch) 0 acc =
      some (openatVerdict arch (lowWord (d.args 1)) (lowWord (d.args 2)) acc) :=
  exec_argTest_verdict d (sysK arch .SYS_openat) 2 accessModes_ne_nil (exec_fcntlBlock arch d) acc

theorem run_installBpfProgram :
    run d.load (installBpfProgram arch) =
      some (filterVerdict arch d.nr (lowWord (d.args 1)) (lowWord (d.args 2))) := by
  rw [installBpfProgram_eq, run]
  simp only [exec, load_nr]
  unfold filterVerdict
  cases arch with
  | x86_64 =>
    simp only [if_true]
    exact exec_argTest_verdict d (sysK .x86_64 .SYS_open) 1 accessModes_ne_nil
      (exec_openatBlock .x86_64 d) d.nr
  | aarch64 =>
    simp only [reduceCtorEq, if_false, List.nil_append]
    exact exec_openatBlock .aarch64 d d.nr

end Runs

/-! ## The filter against the switch -/

/-- `SyscallExit` hands the call to one of its `Op*` functions; an open that is not for
writing ends in `OpOpenFile`. -/
def Dispatches (arch : Arch) (r : SyscallRegs) : Prop :=
  ∃ op, syscallSwitch arch r = some op ∧
    ∀ fd flags, op = .opOpenFile fd flags → opensForWriting flags = true

/-- The words of a call at its exit stop. -/
def callRegs (nr : Word) (args : Fin 6 → Word) (retdata : Word) : SyscallRegs :=
  ⟨nr, retdata, args 0, args 1, args 2, args 3⟩

/-- Kernel errors are the words from -4095 to -1. -/
def Successful (retdata : Word) : Prop := ¬ (-4095 ≤ retdata.toInt ∧ retdata.toInt ≤ -1)

theorem zero_successful : Successful 0 := by
  rintro ⟨-, hle⟩
  exact absurd hle (by decide)

theorem asInt_zero : 0 ≤ asInt 0 := by decide

theorem sysK_eq {arch : Arch} {nr : Word} {s : Sys} (h : syscallOf arch nr = some s) :
    lowWord nr = sysK arch s := by
  have hnum := (syscallOf_eq_some_iff arch nr s).mp h
  apply BitVec.eq_of_toNat_eq
  rw [sysK, hnum, Option.getD_some, lowWord, BitVec.toNat_setWidth, BitVec.toNat_ofNat]

theorem hasFlag_iff_lowWord {flags mask : Word} (hmask : mask.toNat < 2 ^ 32) :
    hasFlag flags mask = true ↔ lowWord flags &&& lowWord mask ≠ 0#32 := by
  have hand : lowWord flags &&& lowWord mask = lowWord (flags &&& mask) := BitVec.setWidth_and.symm
  have hlt : (flags &&& mask).toNat < 2 ^ 32 := by
    rw [BitVec.toNat_and]
    exact Nat.lt_of_le_of_lt Nat.and_le_right hmask
  have hzero : lowWord (flags &&& mask) = 0#32 ↔ flags &&& mask = 0 := by
    rw [← BitVec.toNat_inj, ← BitVec.toNat_inj, lowWord, BitVec.toNat_setWidth,
      Nat.mod_eq_of_lt hlt]
    simp
  rw [hand, ne_eq, hzero]
  simp [hasFlag]

theorem opensForWriting_iff (flags : Word) :
    opensForWriting flags = true ↔ ∃ mask ∈ accessModes, lowWord flags &&& mask ≠ 0#32 := by
  have hw := @hasFlag_iff_lowWord flags O_WRONLY (by decide)
  have hrw := @hasFlag_iff_lowWord flags O_RDWR (by decide)
  simp only [opensForWriting, Bool.or_eq_true, hw, hrw, accessModes, List.mem_cons,
    List.not_mem_nil, or_false, exists_eq_or_imp, exists_eq_left]

theorem tracing_ne {arch : Arch} {s : Sys} (h : s ∈ tracingSyscalls arch) :
    sysK arch s ≠ sysK arch .SYS_open ∧ sysK arch s ≠ sysK arch .SYS_openat ∧
      sysK arch s ≠ sysK arch .SYS_fcntl := by
  cases arch <;> cases s <;> first | decide | exact absurd h (by decide)

theorem filterVerdict_tracing {arch : Arch} {s : Sys} (h : s ∈ tracingSyscalls arch)
    (arg1 arg2 : BitVec 32) : filterVerdict arch (sysK arch s) arg1 arg2 = SECCOMP_RET_TRACE := by
  obtain ⟨hopen, hopenat, hfcntl⟩ := tracing_ne h
  have htail : tailVerdict arch (sysK arch s) = SECCOMP_RET_TRACE :=
    if_pos (List.mem_map_of_mem h)
  simp only [filterVerdict, openatVerdict, fcntlVerdict, argTestVerdict, if_neg hopen,
    if_neg hopenat, if_neg hfcntl, htail, ite_self]

/-- Every call of the switch is traced outright or has its argument tested. -/
theorem handled_cases {arch : Arch} {nr : Word} {s : Sys} (h : syscallOf arch nr = some s) :
    s ∈ tracingSyscalls arch ∨ (s = .SYS_open ∧ arch = .x86_64) ∨ s = .SYS_openat ∨
      s = .SYS_fcntl := by
  have hnum := (syscallOf_eq_some_iff arch nr s).mp h
  cases arch <;> cases s <;> first | decide | exact absurd hnum (by simp [Sys.number])

theorem filterVerdict_open (arg1 arg2 : BitVec 32)
    (h : ∃ mask ∈ accessModes, arg1 &&& mask ≠ 0#32) :
    filterVerdict .x86_64 (sysK .x86_64 .SYS_open) arg1 arg2 = SECCOMP_RET_TRACE := by
  simp only [filterVerdict, if_true, argTestVerdict, if_pos h]

theorem filterVerdict_openat (arch : Arch) (arg1 arg2 : BitVec 32)
    (h : ∃ mask ∈ accessModes, arg2 &&& mask ≠ 0#32) :
    filterVerdict arch (sysK arch .SYS_openat) arg1 arg2 = SECCOMP_RET_TRACE := by
  have hne : sysK arch .SYS_openat ≠ sysK arch .SYS_open := by cases arch <;> decide
  simp only [filterVerdict, openatVerdict, argTestVerdict, if_neg hne, if_true, if_pos h, ite_self]

/-- A command is looked at only through the bits it shares with the four tested ones. -/
theorem filterVerdict_fcntl (arch : Arch) (arg1 arg2 : BitVec 32) :
    filterVerdict arch (sysK arch .SYS_fcntl) arg1 arg2 =
      if ∃ mask ∈ fcntlCommands, arg1 &&& mask ≠ 0#32 then SECCOMP_RET_TRACE
      else tailVerdict arch arg1 := by
  have hopen : sysK arch .SYS_fcntl ≠ sysK arch .SYS_open := by cases arch <;> decide
  have hopenat : sysK arch .SYS_fcntl ≠ sysK arch .SYS_openat := by cases arch <;> decide
  simp only [filterVerdict, openatVerdict, fcntlVerdict, argTestVerdict, if_neg hopen,
    if_neg hopenat, if_true, ite_self]

/-- `F_DUPFD` is 0 and shares a bit with nothing. -/
theorem filterVerdict_dupfd (arch : Arch) (arg2 : BitVec 32) :
    filterVerdict arch (sysK arch .SYS_fcntl) (lowWord F_DUPFD) arg2 = SECCOMP_RET_ALLOW := by
  have hnone : ¬ ∃ mask ∈ fcntlCommands, lowWord F_DUPFD &&& mask ≠ 0#32 := by
    rintro ⟨mask, _, hmask⟩
    exact hmask BitVec.zero_and
  have htail : lowWord F_DUPFD ∉ (tracingSyscalls arch).map (sysK arch) := by
    cases arch <;> decide
  rw [filterVerdict_fcntl, if_neg hnone, tailVerdict, if_neg htail]

theorem filterVerdict_command (arch : Arch) {command : Word} (arg2 : BitVec 32)
    (h : command = F_DUPFD_CLOEXEC ∨ command = F_SETFL ∨ command = F_SETFD) :
    filterVerdict arch (sysK arch .SYS_fcntl) (lowWord command) arg2 = SECCOMP_RET_TRACE := by
  rw [filterVerdict_fcntl]
  refine if_pos ⟨lowWord command, ?_, ?_⟩
  · rcases h with rfl | rfl | rfl <;> simp [fcntlCommands]
  · rcases h with rfl | rfl | rfl <;> decide

section Calls

variable {arch : Arch} {r : SyscallRegs}

theorem dispatches_open (hs : syscallOf arch r.nr = some .SYS_open) (h : Dispatches arch r) :
    opensForWriting r.arg1 = true := by
  obtain ⟨op, hop, hwrite⟩ := h
  simp only [syscallSwitch, hs] at hop
  split at hop
  · exact hwrite _ _ (Option.some.inj hop).symm
  · cases hop

theorem dispatches_openat (hs : syscallOf arch r.nr = some .SYS_openat) (h : Dispatches arch r) :
    opensForWriting r.arg2 = true := by
  obtain ⟨op, hop, hwrite⟩ := h
  simp only [syscallSwitch, hs] at hop
  split at hop
  · exact hwrite _ _ (Option.some.inj hop).symm
  · cases hop

theorem dispatches_fcntl (hs : syscallOf arch r.nr = some .SYS_fcntl) (h : Dispatches arch r) :
    r.arg1 = F_DUPFD ∨ r.arg1 = F_DUPFD_CLOEXEC ∨ r.arg1 = F_SETFL ∨ r.arg1 = F_SETFD := by
  obtain ⟨op, hop, _⟩ := h
  simp only [syscallSwitch, hs] at hop
  obtain ⟨_, hop⟩ := Option.ite_none_right_eq_some.mp hop
  rcases fcntlSwitch_ok hop with ⟨hcmd, _⟩ | ⟨hcmd, _⟩ | ⟨hcmd, _⟩
  · exact .inl hcmd
  · exact .inr (.inl hcmd)
  · exact .inr (.inr hcmd)

theorem dupfd_dispatches (hs : syscallOf arch r.nr = some .SYS_fcntl) (hcmd : r.arg1 = F_DUPFD)
    (hret : 0 ≤ asInt r.retdata) : Dispatches arch r := by
  refine ⟨.opDup r.arg0 r.retdata, ?_, by simp⟩
  simp only [syscallSwitch, hs, if_pos hret, fcntlSwitch, if_pos hcmd]

end Calls

/-- The filter traces every call the switch would act on after some success, except a
`fcntl` with the command `F_DUPFD`. -/
theorem traced_iff_not_dupfd (arch : Arch) (nr : Word) (args : Fin 6 → Word)
    (auditArch : BitVec 32) (instructionPointer : Word) :
    ((∃ retdata, Successful retdata ∧ Dispatches arch (callRegs nr args retdata)) →
        run (SeccompData.load ⟨lowWord nr, auditArch, instructionPointer, args⟩)
          (installBpfProgram arch) = some SECCOMP_RET_TRACE) ↔
      ¬ (syscallOf arch nr = some .SYS_fcntl ∧ args 1 = F_DUPFD) := by
  rw [run_installBpfProgram]
  constructor
  · rintro htraced ⟨hs, hcmd⟩
    have hrun := htraced ⟨0, zero_successful,
      @dupfd_dispatches arch (callRegs nr args 0) hs hcmd asInt_zero⟩
    simp only [sysK_eq hs, hcmd, filterVerdict_dupfd] at hrun
    exact absurd (Option.some.inj hrun) (by decide)
  · rintro hnot ⟨retdata, _, hdispatch⟩
    congr 1
    cases hs : syscallOf arch nr with
    | none =>
      obtain ⟨op, hop, _⟩ := hdispatch
      rw [syscallSwitch_none (by exact hs)] at hop
      cases hop
    | some s =>
      simp only [sysK_eq hs]
      rcases handled_cases hs with htracing | ⟨rfl, rfl⟩ | rfl | rfl
      · exact filterVerdict_tracing htracing _ _
      · exact filterVerdict_open _ _
          ((opensForWriting_iff _).mp (@dispatches_open _ (callRegs nr args retdata) hs hdispatch))
      · exact filterVerdict_openat arch _ _
          ((opensForWriting_iff _).mp (@dispatches_openat _ (callRegs nr args retdata) hs hdispatch))
      · rcases @dispatches_fcntl _ (callRegs nr args retdata) hs hdispatch with hcmd | hcmd
        · exact absurd ⟨hs, hcmd⟩ hnot
        · exact filterVerdict_command arch _ hcmd

/-- `fcntl(0, F_DUPFD, 10)` on x86_64 is let through untraced. -/
theorem dupfd_untraced :
    ¬ ∀ (arch : Arch) (nr : Word) (args : Fin 6 → Word) (auditArch : BitVec 32)
        (instructionPointer : Word),
      (∃ retdata, Successful retdata ∧ Dispatches arch (callRegs nr args retdata)) →
        run (SeccompData.load ⟨lowWord nr, auditArch, instructionPointer, args⟩)
          (installBpfProgram arch) = some SECCOMP_RET_TRACE := by
  intro h
  have hs : syscallOf .x86_64 72 = some .SYS_fcntl := by decide
  have hrun := h .x86_64 72 (fun i => if i = 2 then 10 else 0) 0xc000003e 0
    ⟨0, zero_successful, dupfd_dispatches hs rfl asInt_zero⟩
  rw [run_installBpfProgram] at hrun
  simp only [sysK_eq hs] at hrun
  exact absurd ((filterVerdict_dupfd .x86_64 _).symm.trans (Option.some.inj hrun)) (by decide)

end Optrace
