import Optrace.Types

/-!
# Registers and the syscall switch

`syscall.h`, `regs.h` and the switch of `TContext::SyscallExit`. The switch only picks
one of the `Op*` functions and its arguments, so it is kept apart from what they do.
-/

namespace Optrace

set_option autoImplicit false

inductive Arch where
  | x86_64
  | aarch64
  deriving DecidableEq

/-- The calls with a case in the switch. -/
inductive Sys where
  | SYS_write
  | SYS_writev
  | SYS_pwritev
  | SYS_pwrite64
  | SYS_pwritev2
  | SYS_creat
  | SYS_open
  | SYS_openat
  | SYS_close
  | SYS_fcntl
  | SYS_dup
  | SYS_dup2
  | SYS_dup3
  | SYS_fallocate
  | SYS_ftruncate
  | SYS_lseek
  deriving DecidableEq

namespace Sys

def all : List Sys :=
  [SYS_write, SYS_writev, SYS_pwritev, SYS_pwrite64, SYS_pwritev2, SYS_creat, SYS_open, SYS_openat,
    SYS_close, SYS_fcntl, SYS_dup, SYS_dup2, SYS_dup3, SYS_fallocate, SYS_ftruncate, SYS_lseek]

/-- Call numbers; `creat`, `open` and `dup2` exist on x86_64 only. -/
def number : Arch → Sys → Option Nat
  | .x86_64, SYS_write => some 1
  | .x86_64, SYS_writev => some 20
  | .x86_64, SYS_pwritev => some 296
  | .x86_64, SYS_pwrite64 => some 18
  | .x86_64, SYS_pwritev2 => some 328
  | .x86_64, SYS_creat => some 85
  | .x86_64, SYS_open => some 2
  | .x86_64, SYS_openat => some 257
  | .x86_64, SYS_close => some 3
  | .x86_64, SYS_fcntl => some 72
  | .x86_64, SYS_dup => some 32
  | .x86_64, SYS_dup2 => some 33
  | .x86_64, SYS_dup3 => some 292
  | .x86_64, SYS_fallocate => some 285
  | .x86_64, SYS_ftruncate => some 77
  | .x86_64, SYS_lseek => some 8
  | .aarch64, SYS_write => some 64
  | .aarch64, SYS_writev => some 66
  | .aarch64, SYS_pwritev => some 70
  | .aarch64, SYS_pwrite64 => some 68
  | .aarch64, SYS_pwritev2 => some 287
  | .aarch64, SYS_openat => some 56
  | .aarch64, SYS_close => some 57
  | .aarch64, SYS_fcntl => some 25
  | .aarch64, SYS_dup => some 23
  | .aarch64, SYS_dup3 => some 24
  | .aarch64, SYS_fallocate => some 47
  | .aarch64, SYS_ftruncate => some 46
  | .aarch64, SYS_lseek => some 62
  | .aarch64, SYS_creat => none
  | .aarch64, SYS_open => none
  | .aarch64, SYS_dup2 => none

end Sys

/-- The case label a call number matches: a comparison of whole 64-bit words. -/
def syscallOf (arch : Arch) (nr : Word) : Option Sys :=
  Sys.all.find? fun s => Sys.number arch s == some nr.toNat

theorem syscallOf_eq_some_iff (arch : Arch) (nr : Word) (s : Sys) :
    syscallOf arch nr = some s ↔ Sys.number arch s = some nr.toNat := by
  constructor
  · intro h
    simpa using List.find?_some h
  · intro h
    unfold syscallOf
    rw [← h]
    cases arch <;> cases s <;> first | rfl | exact absurd h (by simp [Sys.number])

/-! ## Registers -/

structure X86Regs where
  r15 : Word
  r14 : Word
  r13 : Word
  r12 : Word
  rbp : Word
  rbx : Word
  r11 : Word
  r10 : Word
  r9 : Word
  r8 : Word
  rax : Word
  rcx : Word
  rdx : Word
  rsi : Word
  rdi : Word
  orig_rax : Word
  rip : Word
  cs : Word
  eflags : Word
  rsp : Word
  ss : Word
  fs_base : Word
  gs_base : Word
  ds : Word
  es : Word
  fs : Word
  gs : Word

structure Aarch64Regs where
  regs : Fin 31 → Word
  sp : Word
  pc : Word
  pstate : Word

/-- Register numbers are written as numerals. -/
instance aarch64Regs_neZero : NeZero 31 := ⟨by decide⟩

/-- `user_regs_struct`. -/
def UserRegs : Arch → Type
  | .x86_64 => X86Regs
  | .aarch64 => Aarch64Regs

/-- The words the `SYSCALL_*` macros name. -/
structure SyscallRegs where
  nr : Word
  retdata : Word
  arg0 : Word
  arg1 : Word
  arg2 : Word
  arg3 : Word
  deriving DecidableEq

/-- On aarch64 the first argument is where the entry handler saved it. -/
def syscallRegs : (arch : Arch) → UserRegs arch → SyscallRegs
  | .x86_64, r => ⟨X86Regs.orig_rax r, X86Regs.rax r, X86Regs.rdi r, X86Regs.rsi r,
      X86Regs.rdx r, X86Regs.r10 r⟩
  | .aarch64, r => ⟨Aarch64Regs.regs r 8, Aarch64Regs.regs r 0, Aarch64Regs.regs r 9,
      Aarch64Regs.regs r 1, Aarch64Regs.regs r 2, Aarch64Regs.regs r 3⟩

/-- The registers of an exit stop with the given words, and zeros everywhere else. -/
def exitRegs : (arch : Arch) → SyscallRegs → UserRegs arch
  | .x86_64, r => ({ r15 := 0, r14 := 0, r13 := 0, r12 := 0, rbp := 0, rbx := 0, r11 := 0,
                     r10 := r.arg3, r9 := 0, r8 := 0, rax := r.retdata, rcx := 0, rdx := r.arg2,
                     rsi := r.arg1, rdi := r.arg0, orig_rax := r.nr, rip := 0, cs := 0, eflags := 0,
                     rsp := 0, ss := 0, fs_base := 0, gs_base := 0, ds := 0, es := 0, fs := 0,
                     gs := 0 } : X86Regs)
  | .aarch64, r => ({ regs := fun i =>
                        if i = 0 then r.retdata else if i = 1 then r.arg1 else if i = 2 then r.arg2
                        else if i = 3 then r.arg3 else if i = 8 then r.nr
                        else if i = 9 then r.arg0 else 0
                      sp := 0, pc := 0, pstate := 0 } : Aarch64Regs)

@[simp] theorem syscallRegs_exitRegs (arch : Arch) (r : SyscallRegs) :
    syscallRegs arch (exitRegs arch r) = r := by
  cases arch <;> rfl

/-! ## The switch -/

def F_DUPFD : Word := 0
def F_SETFD : Word := 2
def F_SETFL : Word := 4
def F_DUPFD_CLOEXEC : Word := 1030

/-- A call of one of the `Op*` functions. -/
inductive Op where
  | opWriteChangeOffset (fd offset : Word)
  | opWriteNoOffsetChange (fd nbytes offset : Word)
  | opOpenWriteFile (fd flags : Word)
  | opOpenFile (fd flags : Word)
  | opClose (fd : Word)
  | opDup (fd newfd : Word)
  | opDup2 (oldfd newfd : Word)
  | opDup3 (oldfd newfd flags : Word)
  | opSetFlag (fd flags : Word)
  | opResize (fd size : Word)
  | opSeek (fd pos : Word)
  deriving DecidableEq

/-- The nested `switch (arg1)` of `SYS_fcntl`. -/
def fcntlSwitch (r : SyscallRegs) : Option Op :=
  if r.arg1 = F_DUPFD then some (.opDup r.arg0 r.retdata)
  else if r.arg1 = F_DUPFD_CLOEXEC then some (.opDup3 r.arg0 r.retdata O_CLOEXEC)
  else if r.arg1 = F_SETFL ∨ r.arg1 = F_SETFD then some (.opSetFlag r.arg0 r.arg2)
  else none

/-- The `switch (syscall)` of `SyscallExit`, with each case's own test of the return word. -/
def syscallSwitch (arch : Arch) (r : SyscallRegs) : Option Op :=
  match syscallOf arch r.nr with
  | none => none
  | some .SYS_write | some .SYS_writev =>
    if 0 < asSsize r.retdata then some (.opWriteChangeOffset r.arg0 r.retdata) else none
  | some .SYS_pwritev | some .SYS_pwrite64 | some .SYS_pwritev2 =>
    if 0 < asSsize r.retdata then some (.opWriteNoOffsetChange r.arg0 r.retdata r.arg3) else none
  | some .SYS_creat => if 0 ≤ asInt r.retdata then some (.opOpenWriteFile r.retdata r.arg1) else none
  | some .SYS_open => if 0 ≤ asInt r.retdata then some (.opOpenFile r.retdata r.arg1) else none
  | some .SYS_openat => if 0 ≤ asInt r.retdata then some (.opOpenFile r.retdata r.arg2) else none
  | some .SYS_close => some (.opClose r.arg0)
  | some .SYS_fcntl => if 0 ≤ asInt r.retdata then fcntlSwitch r else none
  | some .SYS_dup => if 0 ≤ asInt r.retdata then some (.opDup r.arg0 r.retdata) else none
  | some .SYS_dup2 => if 0 ≤ asInt r.retdata then some (.opDup2 r.arg0 r.arg1) else none
  | some .SYS_dup3 => if 0 ≤ asInt r.retdata then some (.opDup3 r.arg0 r.arg1 r.arg2) else none
  | some .SYS_fallocate =>
    if 0 ≤ asInt r.retdata then some (.opResize r.arg0 (r.arg2 + r.arg3)) else none
  | some .SYS_ftruncate => if 0 ≤ asInt r.retdata then some (.opResize r.arg0 r.arg1) else none
  | some .SYS_lseek => if 0 ≤ asInt r.retdata then some (.opSeek r.arg0 r.retdata) else none

/-- The access mode test of `OpOpenFile`. -/
def opensForWriting (flags : Word) : Bool := hasFlag flags O_WRONLY || hasFlag flags O_RDWR

/-- What the `switch` of `fcntl` does, in so many cases. -/
theorem fcntlSwitch_ok {r : SyscallRegs} {op : Op} (h : fcntlSwitch r = some op) :
    (r.arg1 = F_DUPFD ∧ op = .opDup r.arg0 r.retdata) ∨
      (r.arg1 = F_DUPFD_CLOEXEC ∧ op = .opDup3 r.arg0 r.retdata O_CLOEXEC) ∨
        ((r.arg1 = F_SETFL ∨ r.arg1 = F_SETFD) ∧ op = .opSetFlag r.arg0 r.arg2) := by
  unfold fcntlSwitch at h
  split at h
  · rename_i hdup
    cases h
    exact Or.inl ⟨hdup, rfl⟩
  · split at h
    · rename_i hdup3
      cases h
      exact Or.inr (Or.inl ⟨hdup3, rfl⟩)
    · obtain ⟨hset, h⟩ := Option.ite_none_right_eq_some.mp h
      cases h
      exact Or.inr (Or.inr ⟨hset, rfl⟩)

theorem write_pos {arch : Arch} {r : SyscallRegs} {fd offset : Word}
    (h : syscallSwitch arch r = some (.opWriteChangeOffset fd offset)) : 0 < offset.toNat := by
  have hpos : 0 < asSsize offset := by
    unfold syscallSwitch fcntlSwitch at h
    split at h <;> grind
  unfold asSsize at hpos
  by_contra hzero
  have hnil : offset = 0 := BitVec.eq_of_toNat_eq (by simpa using hzero)
  rw [hnil] at hpos
  exact absurd hpos (by decide)

theorem syscallSwitch_none {arch : Arch} {r : SyscallRegs} (h : syscallOf arch r.nr = none) :
    syscallSwitch arch r = none := by
  simp [syscallSwitch, h]

end Optrace
