import Optrace.Trace

/-!
# Arguments the kernel takes as 32-bit values

A descriptor, the command of `fcntl` and the flags of an open are read by the kernel from the low half
of their register. The tracker uses the whole word.
-/

namespace Optrace

set_option autoImplicit false
set_option linter.unusedSectionVars false

open SlotTable Except

variable {Q : Type} [MaxOutFilesQueue Q] {arch : Arch}

def lowHalf (w : Word) : Word := (w.setWidth 32).setWidth 64

/-- The words of a call as the kernel takes them. -/
def seenByKernel (sys : Sys) (r : SyscallRegs) : SyscallRegs :=
  match sys with
  | .SYS_creat => r
  | .SYS_open => { r with arg1 := lowHalf r.arg1 }
  | .SYS_openat => { r with arg2 := lowHalf r.arg2 }
  | .SYS_fcntl | .SYS_dup2 => { r with arg0 := lowHalf r.arg0, arg1 := lowHalf r.arg1 }
  | .SYS_dup3 =>
    { r with arg0 := lowHalf r.arg0, arg1 := lowHalf r.arg1, arg2 := lowHalf r.arg2 }
  | _ => { r with arg0 := lowHalf r.arg0 }

/-- The kernel goes by the low half of the number too. -/
def kernelCall (arch : Arch) (r : SyscallRegs) : Option Sys := syscallOf arch (lowHalf r.nr)

/-- The call returns a descriptor when it succeeds. -/
def ReturnsFd (r : SyscallRegs) : Sys → Prop
  | .SYS_creat | .SYS_open | .SYS_openat | .SYS_dup | .SYS_dup2 | .SYS_dup3 => True
  | .SYS_fcntl => lowHalf r.arg1 = F_DUPFD ∨ lowHalf r.arg1 = F_DUPFD_CLOEXEC
  | _ => False

/-- What the exit of a call does depends on what the kernel sees of it only, and asks for no table
longer than the kernel's. -/
structure Context.LowBitsOnly (arch : Arch) (os : Os) (pid : Pid) (maxFd : Nat) (sys : Sys)
    (c : Context Q) (registers : UserRegs arch) : Prop where
  same : ∀ registers' : UserRegs arch,
    seenByKernel sys (syscallRegs arch registers') = seenByKernel sys (syscallRegs arch registers) →
      c.syscallExit arch os pid registers' = c.syscallExit arch os pid registers
  resized : ∀ c', c.syscallExit arch os pid registers = .ok c' →
    ∀ p, (c'.heap.fds p).length ≤ max (c.heap.fds p).length (maxFd + 1)
  possible : c.syscallExit arch os pid registers ≠ .error .terminate

namespace Context

/-- No word the kernel takes for the same descriptor is one of a tracked slot. -/
def Untracked (c : Context Q) (p : Nat) (fd : Word) : Prop :=
  ∀ v, lowHalf v = lowHalf fd → slot (c.heap.fds p) v.toNat = none

/-- Or the change leaves the file state there as it is. -/
def LeftAsIs (c : Context Q) (p : Nat) (fd : Word) (change : FileState → FileState) : Prop :=
  ∀ v r, lowHalf v = lowHalf fd → slot (c.heap.fds p) v.toNat = some r →
    change (c.heap.files r) = c.heap.files r

/-- The call has nothing to do with a tracked descriptor, and opens none. -/
def Unconcerned (os : Os) (c : Context Q) (pid : Pid) (p : Nat) (r : SyscallRegs) : Sys → Prop
  | .SYS_write | .SYS_writev =>
    0 < asSsize r.retdata → c.LeftAsIs p r.arg0 (FileState.enroll r.retdata)
  | .SYS_pwritev | .SYS_pwrite64 | .SYS_pwritev2 =>
    0 < asSsize r.retdata → c.LeftAsIs p r.arg0 (FileState.enrollNoShift r.retdata r.arg3)
  | .SYS_creat => True
  | .SYS_open => 0 ≤ asInt r.retdata → opensForWriting r.arg1 = true →
    os.readlink (fdPath pid r.retdata.toNat) = none
  | .SYS_openat => 0 ≤ asInt r.retdata → opensForWriting r.arg2 = true →
    os.readlink (fdPath pid r.retdata.toNat) = none
  | .SYS_close => c.Untracked p r.arg0
  | .SYS_fcntl => 0 ≤ asInt r.retdata →
    (lowHalf r.arg1 = F_DUPFD ∨ lowHalf r.arg1 = F_DUPFD_CLOEXEC →
      c.Untracked p r.arg0 ∧ slot (c.heap.fds p) r.retdata.toNat = none) ∧
    (lowHalf r.arg1 = F_SETFL ∨ lowHalf r.arg1 = F_SETFD →
      c.LeftAsIs p r.arg0 (FileState.setFlags r.arg2))
  | .SYS_dup => 0 ≤ asInt r.retdata → c.Untracked p r.arg0
  | .SYS_dup2 | .SYS_dup3 =>
    0 ≤ asInt r.retdata → c.Untracked p r.arg0 ∧ c.Untracked p r.arg1
  | .SYS_fallocate => 0 ≤ asInt r.retdata →
    c.LeftAsIs p r.arg0 (FileState.enrollNoShift (r.arg2 + r.arg3) 0)
  | .SYS_ftruncate => 0 ≤ asInt r.retdata →
    c.LeftAsIs p r.arg0 (FileState.enrollNoShift r.arg1 0)
  | .SYS_lseek => 0 ≤ asInt r.retdata → c.LeftAsIs p r.arg0 (FileState.setCurrPos r.retdata)

end Context

/-! ## Words with the same low half -/

theorem lowHalf_toNat (w : Word) : (lowHalf w).toNat = w.toNat % 2 ^ 32 := by
  simp only [lowHalf, BitVec.toNat_setWidth]
  omega

theorem lowHalf_eq_iff {v w : Word} :
    lowHalf v = lowHalf w ↔ v.toNat % 2 ^ 32 = w.toNat % 2 ^ 32 := by
  rw [← BitVec.toNat_inj, lowHalf_toNat, lowHalf_toNat]

theorem lowHalf_of_lt {w : Word} (h : w.toNat < 2 ^ 32) : lowHalf w = w := by
  apply BitVec.eq_of_toNat_eq
  rw [lowHalf_toNat, Nat.mod_eq_of_lt h]

/-- A case of the switch is a call of the kernel. -/
theorem kernelCall_of_syscallOf {r : SyscallRegs} {s : Sys} (h : syscallOf arch r.nr = some s) :
    lowHalf r.nr = r.nr ∧ kernelCall arch r = some s := by
  have hsmall : r.nr.toNat < 2 ^ 32 := by
    rw [syscallOf_eq_some_iff] at h
    cases arch <;> cases s <;> simp only [Sys.number, Option.some.injEq, reduceCtorEq] at h <;> omega
  have hlow := lowHalf_of_lt hsmall
  exact ⟨hlow, by rw [kernelCall, hlow, h]⟩

/-- The commands of `fcntl` that the tracker knows are plain words. -/
theorem lowHalf_command {r : SyscallRegs} {op : Op} (h : fcntlSwitch r = some op) :
    lowHalf r.arg1 = r.arg1 := by
  rcases fcntlSwitch_ok h with ⟨hcmd, _⟩ | ⟨hcmd, _⟩ | ⟨hcmd | hcmd, _⟩ <;> rw [hcmd] <;> decide

/-- The word with another high half. -/
def withHigh (high : Nat) (w : Word) : Word := BitVec.ofNat 64 (high * 2 ^ 32 + w.toNat % 2 ^ 32)

theorem withHigh_toNat {high : Nat} (h : high < 2 ^ 32) (w : Word) :
    (withHigh high w).toNat = high * 2 ^ 32 + w.toNat % 2 ^ 32 := by
  rw [withHigh, BitVec.toNat_ofNat]
  omega

theorem lowHalf_withHigh {high : Nat} (h : high < 2 ^ 32) (w : Word) :
    lowHalf (withHigh high w) = lowHalf w := by
  rw [lowHalf_eq_iff, withHigh_toNat h]
  omega

/-- A low bit is the same in both. -/
theorem hasFlag_lowHalf {v w mask : Word} (h : lowHalf v = lowHalf w) (hmask : lowHalf mask = mask) :
    hasFlag v mask = hasFlag w mask := by
  have hand : ∀ x : Word, x &&& mask = lowHalf x &&& mask := by
    intro x
    rw [← hmask]
    ext i hi
    simp [lowHalf]
    grind
  rw [hasFlag, hasFlag, hand v, hand w, h]

namespace Context

variable {c : Context Q} {os : Os} {pid : Pid} {p maxFd : Nat} {sys : Sys} {r : SyscallRegs}

/-- A word from 2 ^ 63 on is no index of a vector. -/
theorem slot_withHigh (hroom : (c.heap.fds p).length < 2 ^ 59) {high : Nat} (hlow : 2 ^ 31 ≤ high)
    (hhigh : high < 2 ^ 32) (w : Word) : slot (c.heap.fds p) (withHigh high w).toNat = none :=
  slot_of_length_le (by rw [withHigh_toNat hhigh]; omega)

/-- `SyscallExit` on the words the macros name. -/
def exitWith (arch : Arch) (os : Os) (c : Context Q) (pid : Pid) (r : SyscallRegs) :
    Except Abort (Context Q) :=
  match syscallSwitch arch r with
  | none => .ok c
  | some op => c.perform os pid op

theorem syscallExit_exitRegs (r : SyscallRegs) :
    c.syscallExit arch os pid (exitRegs arch r) = c.exitWith arch os pid r := by
  rw [syscallExit, syscallRegs_exitRegs]
  rfl

theorem LowBitsOnly.alike {registers : UserRegs arch} {r' : SyscallRegs}
    (h : c.LowBitsOnly arch os pid maxFd sys registers)
    (hr' : seenByKernel sys r' = seenByKernel sys (syscallRegs arch registers)) :
    c.exitWith arch os pid r' = c.syscallExit arch os pid registers := by
  have hsame := h.same (exitRegs arch r') (by rwa [syscallRegs_exitRegs])
  rwa [syscallExit_exitRegs] at hsame

/-- All words the kernel takes for the same end alike. -/
theorem lowBitsOnly_of_alike {registers : UserRegs arch} {x : Except Abort (Context Q)}
    (halike : ∀ r', seenByKernel sys r' = seenByKernel sys (syscallRegs arch registers) →
      c.exitWith arch os pid r' = x)
    (hlen : ∀ c', x = .ok c' → ∀ q,
      (c'.heap.fds q).length ≤ max (c.heap.fds q).length (maxFd + 1))
    (hpossible : x ≠ .error .terminate) : c.LowBitsOnly arch os pid maxFd sys registers := by
  have hself : c.syscallExit arch os pid registers = x := halike _ rfl
  refine ⟨fun registers' hr' => (halike _ hr').trans hself.symm, fun c' hc' => ?_, ?_⟩
  · exact hlen c' (hself.symm.trans hc')
  · rwa [hself]

/-! ## Calls that may leave the tracker as it is -/

/-- If some words the kernel takes for the same leave the tracker alone, all of them have to. -/
theorem lowBitsOnly_iff_idle {registers : UserRegs arch} {r₀ : SyscallRegs}
    (hsame : seenByKernel sys r₀ = seenByKernel sys (syscallRegs arch registers))
    (hidle : c.exitWith arch os pid r₀ = .ok c) :
    c.LowBitsOnly arch os pid maxFd sys registers ↔
      ∀ r', seenByKernel sys r' = seenByKernel sys (syscallRegs arch registers) →
        c.exitWith arch os pid r' = .ok c := by
  constructor
  · intro h r' hr'
    exact (h.alike hr').trans ((h.alike hsame).symm.trans hidle)
  · intro h
    refine lowBitsOnly_of_alike h ?_ (by simp)
    intro c' hc' q
    cases hc'
    exact le_max_left _ _

theorem exitWith_case {guard : Prop} [Decidable guard] {op : Op}
    (h : syscallSwitch arch r = if guard then some op else none) :
    c.exitWith arch os pid r = if guard then c.perform os pid op else .ok c := by
  rw [exitWith, h]
  by_cases hguard : guard
  · simp only [if_pos hguard]
  · simp only [if_neg hguard]

theorem seen_arg0_iff (hseen : ∀ r, seenByKernel sys r = { r with arg0 := lowHalf r.arg0 })
    {r' : SyscallRegs} : seenByKernel sys r' = seenByKernel sys r ↔
      ∃ v, lowHalf v = lowHalf r.arg0 ∧ r' = { r with arg0 := v } := by
  rw [hseen, hseen]
  constructor
  · intro h
    obtain ⟨nr, retdata, arg0, arg1, arg2, arg3⟩ := r'
    simp only [SyscallRegs.mk.injEq] at h
    obtain ⟨rfl, rfl, harg0, rfl, rfl, rfl⟩ := h
    exact ⟨arg0, harg0, rfl⟩
  · rintro ⟨v, hv, rfl⟩
    rw [hv]

theorem lowBitsOnly_iff_arg0 {registers : UserRegs arch} {v₀ : Word}
    (hseen : ∀ r, seenByKernel sys r = { r with arg0 := lowHalf r.arg0 })
    (hr : syscallRegs arch registers = r) (hv₀ : lowHalf v₀ = lowHalf r.arg0)
    (hidle : c.exitWith arch os pid { r with arg0 := v₀ } = .ok c) :
    c.LowBitsOnly arch os pid maxFd sys registers ↔
      ∀ v, lowHalf v = lowHalf r.arg0 → c.exitWith arch os pid { r with arg0 := v } = .ok c := by
  subst hr
  rw [lowBitsOnly_iff_idle ((seen_arg0_iff hseen).mpr ⟨v₀, hv₀, rfl⟩) hidle]
  constructor
  · intro h v hv
    exact h _ ((seen_arg0_iff hseen).mpr ⟨v, hv, rfl⟩)
  · intro h r' hr'
    obtain ⟨v, hv, rfl⟩ := (seen_arg0_iff hseen).mp hr'
    exact h v hv

theorem opOnTracked_idle_iff (hp : c.procMap.lookup pid = some p) {v : Word}
    {f : FileState → FileState} :
    c.opOnTracked pid v f = .ok c ↔
      ∀ r, slot (c.heap.fds p) v.toNat = some r → f (c.heap.files r) = c.heap.files r := by
  rw [opOnTracked, getProcState_ok_iff.mpr hp, bind_ok, pure_eq_ok_iff, onTracked]
  cases hslot : slot (c.heap.fds p) v.toNat with
  | none =>
    simp
  | some r =>
    have hiff := updateFile_eq_iff (c := c) (r := r) (f := f)
    simp only [Option.some.injEq, forall_eq']
    exact hiff

/-- The calls that change one file state. -/
theorem lowBitsOnly_change_iff {registers : UserRegs arch} {f : FileState → FileState} {guard : Prop}
    [Decidable guard] (op : Word → Op) (hp : c.procMap.lookup pid = some p)
    (hroom : (c.heap.fds p).length < 2 ^ 59)
    (hseen : ∀ r, seenByKernel sys r = { r with arg0 := lowHalf r.arg0 })
    (hr : syscallRegs arch registers = r)
    (hswitch : ∀ v, syscallSwitch arch { r with arg0 := v } = if guard then some (op v) else none)
    (hop : ∀ v, c.perform os pid (op v) = c.opOnTracked pid v f) :
    c.LowBitsOnly arch os pid maxFd sys registers ↔ (guard → c.LeftAsIs p r.arg0 f) := by
  have hexit : ∀ v, c.exitWith arch os pid { r with arg0 := v } =
      if guard then c.opOnTracked pid v f else .ok c :=
    fun v => (exitWith_case (hswitch v)).trans (by rw [hop])
  have hfar : c.exitWith arch os pid { r with arg0 := withHigh (2 ^ 31) r.arg0 } = .ok c := by
    rw [hexit]
    split
    · rw [opOnTracked_idle_iff hp, slot_withHigh hroom le_rfl (by decide)]
      intro _ hnone
      cases hnone
    · rfl
  rw [lowBitsOnly_iff_arg0 hseen hr (lowHalf_withHigh (by decide) _) hfar]
  simp only [hexit]
  constructor
  · intro h hguard v s hv hslot
    have hidle := h v hv
    rw [if_pos hguard, opOnTracked_idle_iff hp] at hidle
    exact hidle s hslot
  · intro h v hv
    split
    · rename_i hguard
      rw [opOnTracked_idle_iff hp]
      exact fun s hslot => h hguard v s hv hslot
    · rfl

theorem lowBitsOnly_close_iff {registers : UserRegs arch}
    (hp : c.procMap.lookup pid = some p) (hroom : (c.heap.fds p).length < 2 ^ 59)
    (hr : syscallRegs arch registers = r) (hsys : syscallOf arch r.nr = some .SYS_close) :
    c.LowBitsOnly arch os pid maxFd .SYS_close registers ↔ c.Untracked p r.arg0 := by
  have hexit : ∀ v, c.exitWith arch os pid { r with arg0 := v } = .ok c ↔
      slot (c.heap.fds p) v.toNat = none := by
    intro v
    have hclose : c.exitWith arch os pid { r with arg0 := v } = c.opClose pid v := by
      rw [exitWith, syscallSwitch, hsys]
      rfl
    rw [hclose, opClose_eq hp]
    cases hslot : slot (c.heap.fds p) v.toNat with
    | none => simp
    | some s =>
      simp only [Except.ok.injEq, reduceCtorEq, iff_false]
      intro h
      have hclear := clearSlot_slot hslot p v.toNat
      rw [h, if_pos ⟨rfl, rfl⟩, hslot] at hclear
      cases hclear
  rw [lowBitsOnly_iff_arg0 (fun _ => rfl) hr (lowHalf_withHigh (by decide) r.arg0)
    ((hexit _).mpr (slot_withHigh hroom le_rfl (by decide) _))]
  simp only [hexit]
  rfl

/-! ## Calls that copy a descriptor -/

theorem opDup2_idle {oldfd newfd : Word} (hp : c.procMap.lookup pid = some p)
    (hold : slot (c.heap.fds p) oldfd.toNat = none) (hnew : slot (c.heap.fds p) newfd.toNat = none) :
    c.opDup2 pid oldfd newfd = .ok (c, false) := by
  by_cases heq : oldfd = newfd
  · rw [opDup2, getProcState_ok_iff.mpr hp, bind_ok, if_pos heq]
    rfl
  · have hclosed : c.closedAt p newfd.toNat = c := by
      simp only [closedAt, hnew]
    rw [opDup2_eq hp heq, hclosed, shareSlot]
    simp only [hold]
    rfl

/-- A copy between two slots of which one is free leaves the tracker alone only if both are. -/
theorem free_of_opDup2 {oldfd newfd : Word} {done : Bool}
    (hp : c.procMap.lookup pid = some p) (hne : oldfd ≠ newfd)
    (hfree : slot (c.heap.fds p) oldfd.toNat = none ∨ slot (c.heap.fds p) newfd.toNat = none)
    (h : c.opDup2 pid oldfd newfd = .ok (c, done)) :
    slot (c.heap.fds p) oldfd.toNat = none ∧ slot (c.heap.fds p) newfd.toNat = none := by
  rcases opDup2_ok hp h with ⟨heq, _⟩ | ⟨_, hold, hc, _⟩ | ⟨_, s, hold, hc, _⟩
  · exact absurd heq hne
  · refine ⟨hold, ?_⟩
    rw [hc, closedAt_slot, if_pos ⟨rfl, rfl⟩]
  · have hnew : slot (c.heap.fds p) newfd.toNat = some s := by
      rw [hc, fillSlot_slot, if_pos ⟨rfl, rfl⟩]
    rw [hold, hnew] at hfree
    rcases hfree with hfree | hfree
    · cases hfree
    · cases hfree

theorem opDup3_idle {oldfd newfd flags : Word} (hp : c.procMap.lookup pid = some p)
    (hold : slot (c.heap.fds p) oldfd.toNat = none) (hnew : slot (c.heap.fds p) newfd.toNat = none) :
    c.opDup3 pid oldfd newfd flags = .ok (c, false) := by
  rw [opDup3, opDup, opDup2_idle hp hold hnew]
  rfl

theorem free_of_opDup3 {oldfd newfd flags : Word} {done : Bool}
    (hp : c.procMap.lookup pid = some p) (hne : oldfd ≠ newfd)
    (hfree : slot (c.heap.fds p) oldfd.toNat = none ∨ slot (c.heap.fds p) newfd.toNat = none)
    (h : c.opDup3 pid oldfd newfd flags = .ok (c, done)) :
    slot (c.heap.fds p) oldfd.toNat = none ∧ slot (c.heap.fds p) newfd.toNat = none := by
  rcases opDup3_ok hp h with hdup | ⟨c₁, s, hdup, hold, hc⟩
  · exact free_of_opDup2 hp hne hfree hdup
  · rcases opDup2_ok hp hdup with ⟨_, _, hfalse⟩ | ⟨_, _, _, hfalse⟩ | ⟨_, s', _, hc₁, _⟩
    · cases hfalse
    · cases hfalse
    · have hnew : slot (c.heap.fds p) newfd.toNat = some s' := by
        have hslots : c.heap.fds p = c₁.heap.fds p := by
          rw [hc]
          rfl
        rw [hslots, hc₁, fillSlot_slot, if_pos ⟨rfl, rfl⟩]
      rw [hold, hnew] at hfree
      rcases hfree with hfree | hfree
      · cases hfree
      · cases hfree

/-- Both arguments of a copy may be any words of their low halves. -/
theorem lowBitsOnly_copy_iff {registers : UserRegs arch} {guard : Prop} [Decidable guard]
    (copy : Word → Word → Word → Except Abort (Context Q × Bool))
    (hroom : (c.heap.fds p).length < 2 ^ 59) (hr : syscallRegs arch registers = r)
    (hvaries : ∀ r', seenByKernel sys r' = seenByKernel sys r → ∃ v₀ v₁ v₂,
      lowHalf v₀ = lowHalf r.arg0 ∧ lowHalf v₁ = lowHalf r.arg1 ∧
        r' = { r with arg0 := v₀, arg1 := v₁, arg2 := v₂ })
    (hseen : ∀ v₀ v₁, lowHalf v₀ = lowHalf r.arg0 → lowHalf v₁ = lowHalf r.arg1 →
      seenByKernel sys { r with arg0 := v₀, arg1 := v₁ } = seenByKernel sys r)
    (hexit : ∀ v₀ v₁ v₂, c.exitWith arch os pid { r with arg0 := v₀, arg1 := v₁, arg2 := v₂ } =
      if guard then do return (← copy v₀ v₁ v₂).1 else .ok c)
    (hidle : ∀ v₀ v₁ v₂, slot (c.heap.fds p) v₀.toNat = none → slot (c.heap.fds p) v₁.toNat = none →
      copy v₀ v₁ v₂ = .ok (c, false))
    (hfree : ∀ v₀ v₁ v₂ done, v₀ ≠ v₁ →
      (slot (c.heap.fds p) v₀.toNat = none ∨ slot (c.heap.fds p) v₁.toNat = none) →
      copy v₀ v₁ v₂ = .ok (c, done) →
        slot (c.heap.fds p) v₀.toNat = none ∧ slot (c.heap.fds p) v₁.toNat = none) :
    c.LowBitsOnly arch os pid maxFd sys registers ↔
      (guard → c.Untracked p r.arg0 ∧ c.Untracked p r.arg1) := by
  subst hr
  have hfar : ∀ w : Word, slot (c.heap.fds p) (withHigh (2 ^ 31) w).toNat = none :=
    slot_withHigh hroom le_rfl (by decide)
  have hlow : ∀ w : Word, lowHalf (withHigh (2 ^ 31) w) = lowHalf w := lowHalf_withHigh (by decide)
  have hboth : ∀ v₀ v₁ v₂, slot (c.heap.fds p) v₀.toNat = none →
      slot (c.heap.fds p) v₁.toNat = none →
      c.exitWith arch os pid { syscallRegs arch registers with
        arg0 := v₀, arg1 := v₁, arg2 := v₂ } = .ok c := by
    intro v₀ v₁ v₂ h₀ h₁
    rw [hexit]
    split
    · rw [hidle v₀ v₁ v₂ h₀ h₁]
      rfl
    · rfl
  rw [lowBitsOnly_iff_idle (hseen _ _ (hlow _) (hlow _)) (hboth _ _ _ (hfar _) (hfar _))]
  constructor
  · intro h hguard
    have hslots : ∀ v₀ v₁, lowHalf v₀ = lowHalf (syscallRegs arch registers).arg0 →
        lowHalf v₁ = lowHalf (syscallRegs arch registers).arg1 → v₀ ≠ v₁ →
        (slot (c.heap.fds p) v₀.toNat = none ∨ slot (c.heap.fds p) v₁.toNat = none) →
        slot (c.heap.fds p) v₀.toNat = none ∧ slot (c.heap.fds p) v₁.toNat = none := by
      intro v₀ v₁ h₀ h₁ hne hone
      have hrun := h _ (hseen v₀ v₁ h₀ h₁)
      rw [hexit, if_pos hguard] at hrun
      obtain ⟨⟨c', done⟩, hcopy, hc'⟩ := bind_eq_ok_iff.mp hrun
      rw [pure_eq_ok_iff] at hc'
      subst hc'
      exact hfree v₀ v₁ _ done hne hone hcopy
    constructor
    · intro v hv
      by_cases hne : v = withHigh (2 ^ 31) (syscallRegs arch registers).arg1
      · rw [hne]
        exact hfar _
      · exact (hslots v _ hv (hlow _) hne (Or.inr (hfar _))).1
    · intro v hv
      by_cases hne : withHigh (2 ^ 31) (syscallRegs arch registers).arg0 = v
      · rw [← hne]
        exact hfar _
      · exact (hslots _ v (hlow _) hv hne (Or.inl (hfar _))).2
  · intro h r' hr'
    obtain ⟨v₀, v₁, v₂, h₀, h₁, rfl⟩ := hvaries r' hr'
    by_cases hguard : guard
    · exact hboth v₀ v₁ v₂ ((h hguard).1 v₀ h₀) ((h hguard).2 v₁ h₁)
    · rw [hexit, if_neg hguard]

theorem closedAt_length (fd q : Nat) :
    ((c.closedAt p fd).heap.fds q).length = (c.heap.fds q).length := by
  unfold closedAt
  split
  · rw [clearSlot_heap, Heap.setFds_fds]
    split
    · rename_i hq
      rw [hq, List.length_set]
    · rfl
  · rfl

/-- The copy of a descriptor that is not tracked only closes the other one. -/
theorem opDup2_closes {oldfd newfd : Word} (hp : c.procMap.lookup pid = some p)
    (hold : slot (c.heap.fds p) oldfd.toNat = none) :
    c.opDup2 pid oldfd newfd = .ok (c.closedAt p newfd.toNat, false) := by
  by_cases heq : oldfd = newfd
  · have hclosed : c.closedAt p newfd.toNat = c := by
      rw [← heq]
      simp only [closedAt, hold]
    rw [opDup2, getProcState_ok_iff.mpr hp, bind_ok, if_pos heq, hclosed]
    rfl
  · have hold' : slot ((c.closedAt p newfd.toNat).heap.fds p) oldfd.toNat = none := by
      rw [closedAt_slot, hold]
      split <;> rfl
    rw [opDup2_eq hp heq, shareSlot]
    simp only [hold']
    rfl

theorem untracked_of_closing {oldfd newfd : Word} {done : Bool}
    (hp : c.procMap.lookup pid = some p)
    (h : c.opDup2 pid oldfd newfd = .ok (c.closedAt p newfd.toNat, done)) :
    slot (c.heap.fds p) oldfd.toNat = none := by
  have hclosed : slot ((c.closedAt p newfd.toNat).heap.fds p) newfd.toNat = none := by
    rw [closedAt_slot, if_pos ⟨rfl, rfl⟩]
  rcases opDup2_ok hp h with ⟨rfl, hc, _⟩ | ⟨_, hold, _⟩ | ⟨_, s, _, hc, _⟩
  · rwa [hc] at hclosed
  · exact hold
  · rw [hc, fillSlot_slot, if_pos ⟨rfl, rfl⟩] at hclosed
    cases hclosed

theorem lowBitsOnly_dup_iff {registers : UserRegs arch}
    (hp : c.procMap.lookup pid = some p) (hroom : (c.heap.fds p).length < 2 ^ 59)
    (hr : syscallRegs arch registers = r) (hsys : syscallOf arch r.nr = some .SYS_dup) :
    c.LowBitsOnly arch os pid maxFd .SYS_dup registers ↔
      (0 ≤ asInt r.retdata → c.Untracked p r.arg0) := by
  subst hr
  have hexit : ∀ v, c.exitWith arch os pid { syscallRegs arch registers with arg0 := v } =
      if 0 ≤ asInt (syscallRegs arch registers).retdata then
        do return (← c.opDup2 pid v (syscallRegs arch registers).retdata).1
      else .ok c := by
    intro v
    have hswitch : syscallSwitch arch { syscallRegs arch registers with arg0 := v } =
        if 0 ≤ asInt (syscallRegs arch registers).retdata then
          some (.opDup v (syscallRegs arch registers).retdata)
        else none := by
      rw [syscallSwitch, hsys]
    exact exitWith_case hswitch
  by_cases hguard : 0 ≤ asInt (syscallRegs arch registers).retdata
  · simp only [if_pos hguard] at hexit
    constructor
    · intro h _ v hv
      by_contra htracked
      obtain ⟨s, hs⟩ := Option.ne_none_iff_exists'.mp htracked
      have hfar := slot_withHigh hroom (le_refl (2 ^ 31)) (by decide) (syscallRegs arch registers).arg0
      have hlow : lowHalf (withHigh (2 ^ 31) (syscallRegs arch registers).arg0) =
          lowHalf (syscallRegs arch registers).arg0 := lowHalf_withHigh (by decide) _
      have hsame : ∀ w, lowHalf w = lowHalf (syscallRegs arch registers).arg0 →
          c.exitWith arch os pid { syscallRegs arch registers with arg0 := w } =
            c.syscallExit arch os pid registers :=
        fun w hw => h.alike ((seen_arg0_iff fun _ => rfl).mpr ⟨w, hw, rfl⟩)
      have hrun := (hsame v hv).trans (hsame _ hlow).symm
      rw [hexit, hexit, opDup2_closes hp hfar, bind_ok] at hrun
      obtain ⟨⟨c', done⟩, hdup, hc'⟩ := bind_eq_ok_iff.mp hrun
      obtain rfl : c' = c.closedAt p (syscallRegs arch registers).retdata.toNat :=
        pure_eq_ok_iff.mp hc'
      rw [untracked_of_closing hp hdup] at hs
      cases hs
    · intro h
      have halike : ∀ r', seenByKernel .SYS_dup r' =
          seenByKernel .SYS_dup (syscallRegs arch registers) → c.exitWith arch os pid r' =
            .ok (c.closedAt p (syscallRegs arch registers).retdata.toNat) := by
        intro r' hseen
        obtain ⟨v, hv, rfl⟩ := (seen_arg0_iff fun _ => rfl).mp hseen
        rw [hexit, opDup2_closes hp (h hguard v hv)]
        rfl
      refine lowBitsOnly_of_alike halike ?_ (by simp)
      intro c' hc' q
      cases hc'
      rw [closedAt_length]
      exact le_max_left _ _
  · simp only [if_neg hguard] at hexit
    rw [lowBitsOnly_iff_arg0 (fun _ => rfl) rfl rfl (hexit _)]
    simp [hexit, hguard]

/-! ## Calls that open a file -/

theorem fillSlot_length (c : Context Q) (p fd r q : Nat) :
    ((c.fillSlot p fd r).heap.fds q).length ≤ max (c.heap.fds q).length (fd + 1) := by
  simp only [fillSlot, Heap.setFds_fds]
  split
  · rename_i hq
    rw [hq, List.length_set, grown]
    split
    · rw [length_resize]
      exact le_max_right _ _
    · exact le_max_left _ _
  · exact le_max_left _ _

/-- An open that goes through makes the table as long as the descriptor needs. -/
theorem opOpenWriteFile_length {fd flags : Word} {c' : Context Q}
    (hp : c.procMap.lookup pid = some p) (h : c.opOpenWriteFile os pid fd flags = .ok c') (q : Nat) :
    (c'.heap.fds q).length ≤ max (c.heap.fds q).length (fd.toNat + 1) := by
  obtain ⟨filename, kills, _, rfl⟩ := opOpenWriteFile_ok hp h
  exact fillSlot_length _ p fd.toNat _ q

/-- If the link cannot be read the program ends. -/
theorem opOpenWriteFile_exits {fd flags : Word} (hp : c.procMap.lookup pid = some p)
    (hfd : fd.toNat < 2 ^ 31) (hlink : os.readlink (fdPath pid fd.toNat) = none) :
    c.opOpenWriteFile os pid fd flags = .error .exit2 := by
  have hread : readLink os (fdPath pid fd.toNat) = .error .exit2 := by
    unfold readLink
    rw [hlink]
  rw [opOpenWriteFile, getProcState_ok_iff.mpr hp, bind_ok, growTo_eq _ hfd, bind_ok, hread]
  rfl

theorem opOpenWriteFile_possible {fd flags : Word} (hp : c.procMap.lookup pid = some p)
    (hfd : fd.toNat < 2 ^ 31) : c.opOpenWriteFile os pid fd flags ≠ .error .terminate := by
  cases hlink : os.readlink (fdPath pid fd.toNat) with
  | none =>
    rw [opOpenWriteFile_exits hp hfd hlink]
    simp
  | some filename =>
    obtain ⟨c', h⟩ : ∃ c', c.opOpenWriteFile os pid fd flags = .ok c' :=
      opOpenWriteFile_runs hp hfd hlink
    rw [h]
    simp

theorem lowBitsOnly_creat {registers : UserRegs arch} (hp : c.procMap.lookup pid = some p)
    (hmax : maxFd < 2 ^ 31) (hr : syscallRegs arch registers = r)
    (hsys : syscallOf arch r.nr = some .SYS_creat)
    (hret : 0 ≤ asInt r.retdata → r.retdata.toNat ≤ maxFd) :
    c.LowBitsOnly arch os pid maxFd .SYS_creat registers := by
  subst hr
  have halike : ∀ r', seenByKernel .SYS_creat r' =
      seenByKernel .SYS_creat (syscallRegs arch registers) → c.exitWith arch os pid r' =
        if 0 ≤ asInt (syscallRegs arch registers).retdata then
          c.opOpenWriteFile os pid (syscallRegs arch registers).retdata
            (syscallRegs arch registers).arg1
        else .ok c := by
    rintro r' (rfl : r' = syscallRegs arch registers)
    have hswitch : syscallSwitch arch (syscallRegs arch registers) =
        if 0 ≤ asInt (syscallRegs arch registers).retdata then
          some (.opOpenWriteFile (syscallRegs arch registers).retdata
            (syscallRegs arch registers).arg1)
        else none := by
      rw [syscallSwitch, hsys]
    exact exitWith_case hswitch
  refine lowBitsOnly_of_alike halike ?_ ?_
  · intro c' hc' q
    split at hc'
    · rename_i hguard
      have hlen := opOpenWriteFile_length hp hc' q
      have hfd := hret hguard
      omega
    · cases hc'
      exact le_max_left _ _
  · split
    · rename_i hguard
      exact opOpenWriteFile_possible hp (lt_of_le_of_lt (hret hguard) hmax)
    · simp

/-- Two opens with different words for flags leave different file states. -/
theorem flags_eq_of_opOpenWriteFile {fd flags flags' : Word} {c' : Context Q}
    (hp : c.procMap.lookup pid = some p) (h : c.opOpenWriteFile os pid fd flags = .ok c')
    (h' : c.opOpenWriteFile os pid fd flags' = .ok c') : flags = flags' := by
  obtain ⟨filename, kills, _, hc⟩ := opOpenWriteFile_ok hp h
  obtain ⟨filename', kills', _, hc'⟩ := opOpenWriteFile_ok hp h'
  have hnew := Heap.newFiles_files_new (i := 0) c.heap [FileState.ofOpen os filename flags] rfl
  have hnew' := Heap.newFiles_files_new (i := 0) c.heap [FileState.ofOpen os filename' flags'] rfl
  have hfile : c'.heap.files c.heap.fileCount = FileState.ofOpen os filename flags := by
    rw [hc]
    exact hnew
  have hfile' : c'.heap.files c.heap.fileCount = FileState.ofOpen os filename' flags' := by
    rw [hc']
    exact hnew'
  exact congrArg FileState.flags (hfile.symm.trans hfile')

theorem opensForWriting_lowHalf {v w : Word} (h : lowHalf v = lowHalf w) :
    opensForWriting v = opensForWriting w := by
  rw [opensForWriting, opensForWriting, hasFlag_lowHalf h (by decide), hasFlag_lowHalf h (by decide)]

/-- The flags are kept as a whole word, so only an open that makes no file state is one of the low
bits. -/
theorem lowBitsOnly_open_iff {registers : UserRegs arch} {flags : Word} (put : Word → SyscallRegs)
    (hp : c.procMap.lookup pid = some p) (hmax : maxFd < 2 ^ 31)
    (hr : syscallRegs arch registers = r)
    (hseen : ∀ r', seenByKernel sys r' = seenByKernel sys r ↔
      ∃ v, lowHalf v = lowHalf flags ∧ r' = put v)
    (hexit : ∀ v, c.exitWith arch os pid (put v) =
      if 0 ≤ asInt r.retdata then c.opOpenFile os pid r.retdata v else .ok c)
    (hret : 0 ≤ asInt r.retdata → r.retdata.toNat ≤ maxFd) :
    c.LowBitsOnly arch os pid maxFd sys registers ↔
      (0 ≤ asInt r.retdata → opensForWriting flags = true →
        os.readlink (fdPath pid r.retdata.toNat) = none) := by
  subst hr
  have hflags : seenByKernel sys (put flags) = seenByKernel sys (syscallRegs arch registers) :=
    (hseen _).mpr ⟨flags, rfl, rfl⟩
  by_cases hopens : 0 ≤ asInt (syscallRegs arch registers).retdata ∧ opensForWriting flags = true
  · obtain ⟨hguard, hwrite⟩ := hopens
    have hfd : (syscallRegs arch registers).retdata.toNat < 2 ^ 31 :=
      lt_of_le_of_lt (hret hguard) hmax
    have hrun : ∀ v, lowHalf v = lowHalf flags → c.exitWith arch os pid (put v) =
        c.opOpenWriteFile os pid (syscallRegs arch registers).retdata v := by
      intro v hv
      rw [hexit, if_pos hguard, opOpenFile, opensForWriting_lowHalf hv, if_pos hwrite]
    constructor
    · intro h _ _
      by_contra hlink
      obtain ⟨filename, hlink⟩ := Option.ne_none_iff_exists'.mp hlink
      have hsame : ∀ high < 2 ^ 32,
          c.opOpenWriteFile os pid (syscallRegs arch registers).retdata (withHigh high flags) =
            c.syscallExit arch os pid registers := by
        intro high hhigh
        have hlow := lowHalf_withHigh hhigh flags
        rw [← hrun _ hlow]
        exact h.alike ((hseen _).mpr ⟨_, hlow, rfl⟩)
      obtain ⟨c', hc'⟩ : ∃ c', c.opOpenWriteFile os pid (syscallRegs arch registers).retdata
          (withHigh 0 flags) = .ok c' := opOpenWriteFile_runs hp hfd hlink
      have hother := ((hsame 1 (by decide)).trans (hsame 0 (by decide)).symm).trans hc'
      have hnat := congrArg BitVec.toNat (flags_eq_of_opOpenWriteFile hp hc' hother)
      rw [withHigh_toNat (by decide), withHigh_toNat (by decide)] at hnat
      omega
    · intro h
      have halike : ∀ r', seenByKernel sys r' = seenByKernel sys (syscallRegs arch registers) →
          c.exitWith arch os pid r' = .error .exit2 := by
        intro r' hr'
        obtain ⟨v, hv, rfl⟩ := (hseen _).mp hr'
        rw [hrun v hv, opOpenWriteFile_exits hp hfd (h hguard hwrite)]
      exact lowBitsOnly_of_alike halike (by simp) (by simp)
  · have hidle : ∀ v, lowHalf v = lowHalf flags → c.exitWith arch os pid (put v) = .ok c := by
      intro v hv
      rw [hexit, opOpenFile, opensForWriting_lowHalf hv]
      split
      · rename_i hguard
        rw [if_neg fun hwrite => hopens ⟨hguard, hwrite⟩]
      · rfl
    rw [lowBitsOnly_iff_idle hflags (hidle flags rfl)]
    constructor
    · intro _ hguard hwrite
      exact absurd ⟨hguard, hwrite⟩ hopens
    · intro _ r' hr'
      obtain ⟨v, hv, rfl⟩ := (hseen _).mp hr'
      exact hidle v hv

/-! ## The commands of `fcntl` -/

/-- A copy to the same descriptor from every word of the low half. -/
theorem untracked_of_copies {copy : Word → Except Abort (Context Q × Bool)} {fd newfd : Word}
    (hroom : (c.heap.fds p).length < 2 ^ 59) (hnew : newfd.toNat < 2 ^ 31)
    (hfree : ∀ v done, v ≠ newfd →
      (slot (c.heap.fds p) v.toNat = none ∨ slot (c.heap.fds p) newfd.toNat = none) →
      copy v = .ok (c, done) →
        slot (c.heap.fds p) v.toNat = none ∧ slot (c.heap.fds p) newfd.toNat = none)
    (h : ∀ v, lowHalf v = lowHalf fd → (do return (← copy v).1) = .ok c) :
    c.Untracked p fd ∧ slot (c.heap.fds p) newfd.toNat = none := by
  have hcopy : ∀ v, lowHalf v = lowHalf fd → ∃ done, copy v = .ok (c, done) := by
    intro v hv
    obtain ⟨⟨c', done⟩, hrun, hc'⟩ := bind_eq_ok_iff.mp (h v hv)
    obtain rfl : c' = c := pure_eq_ok_iff.mp hc'
    exact ⟨done, hrun⟩
  have hclosed : slot (c.heap.fds p) newfd.toNat = none := by
    obtain ⟨done, hrun⟩ := hcopy (withHigh (2 ^ 31) fd) (lowHalf_withHigh (by decide) fd)
    refine (hfree _ done ?_ (Or.inl (slot_withHigh hroom le_rfl (by decide) fd)) hrun).2
    intro heq
    have hnat := congrArg BitVec.toNat heq
    rw [withHigh_toNat (by decide)] at hnat
    omega
  refine ⟨fun v hv => ?_, hclosed⟩
  by_cases heq : v = newfd
  · rw [heq]
    exact hclosed
  · obtain ⟨done, hrun⟩ := hcopy v hv
    exact (hfree v done heq (Or.inr hclosed) hrun).1

theorem exitWith_fcntl (hsys : syscallOf arch r.nr = some .SYS_fcntl)
    (hguard : 0 ≤ asInt r.retdata) (fd cmd : Word) :
    c.exitWith arch os pid { r with arg0 := fd, arg1 := cmd } =
      if cmd = F_DUPFD then do return (← c.opDup2 pid fd r.retdata).1
      else if cmd = F_DUPFD_CLOEXEC then do return (← c.opDup3 pid fd r.retdata O_CLOEXEC).1
      else if cmd = F_SETFL ∨ cmd = F_SETFD then
        c.opOnTracked pid fd (FileState.setFlags r.arg2)
      else .ok c := by
  have hswitch : syscallSwitch arch { r with arg0 := fd, arg1 := cmd } =
      fcntlSwitch { r with arg0 := fd, arg1 := cmd } := by
    rw [syscallSwitch, hsys]
    exact if_pos hguard
  rw [exitWith, hswitch, fcntlSwitch]
  by_cases hdup : cmd = F_DUPFD
  · simp only [if_pos hdup]
    rfl
  · by_cases hcloexec : cmd = F_DUPFD_CLOEXEC
    · simp only [if_neg hdup, if_pos hcloexec]
      rfl
    · by_cases hset : cmd = F_SETFL ∨ cmd = F_SETFD
      · simp only [if_neg hdup, if_neg hcloexec, if_pos hset]
        rfl
      · simp only [if_neg hdup, if_neg hcloexec, if_neg hset]

theorem lowHalf_command {cmd : Word}
    (h : cmd = F_DUPFD ∨ cmd = F_DUPFD_CLOEXEC ∨ cmd = F_SETFL ∨ cmd = F_SETFD) :
    lowHalf cmd = cmd := by
  rcases h with rfl | rfl | rfl | rfl
  all_goals decide

theorem withHigh_ne_command {cmd w : Word} (h : lowHalf cmd = cmd) : withHigh 1 w ≠ cmd := by
  rintro rfl
  have hnat := congrArg BitVec.toNat h
  rw [lowHalf_toNat, withHigh_toNat (by decide)] at hnat
  omega

theorem unconcerned_of_fcntl {cmd : Word} (hp : c.procMap.lookup pid = some p)
    (hroom : (c.heap.fds p).length < 2 ^ 59) (hsys : syscallOf arch r.nr = some .SYS_fcntl)
    (hguard : 0 ≤ asInt r.retdata)
    (hret : cmd = F_DUPFD ∨ cmd = F_DUPFD_CLOEXEC → r.retdata.toNat < 2 ^ 31)
    (h : ∀ fd, lowHalf fd = lowHalf r.arg0 →
      c.exitWith arch os pid { r with arg0 := fd, arg1 := cmd } = .ok c) :
    (cmd = F_DUPFD ∨ cmd = F_DUPFD_CLOEXEC →
      c.Untracked p r.arg0 ∧ slot (c.heap.fds p) r.retdata.toNat = none) ∧
    (cmd = F_SETFL ∨ cmd = F_SETFD → c.LeftAsIs p r.arg0 (FileState.setFlags r.arg2)) := by
  simp only [exitWith_fcntl hsys hguard] at h
  constructor
  · rintro (rfl | rfl)
    · refine untracked_of_copies hroom (hret (Or.inl rfl))
        (fun fd done hne hfree => free_of_opDup2 hp hne hfree) fun fd hfd => ?_
      have hrun := h fd hfd
      rwa [if_pos rfl] at hrun
    · refine untracked_of_copies hroom (hret (Or.inr rfl))
        (fun fd done hne hfree => @free_of_opDup3 _ _ c pid p fd r.retdata O_CLOEXEC done hp hne hfree)
        fun fd hfd => ?_
      have hrun := h fd hfd
      rwa [if_neg (by decide), if_pos rfl] at hrun
  · intro hcmd fd s hfd hslot
    have hrun := h fd hfd
    rw [if_neg (by rcases hcmd with rfl | rfl <;> decide),
      if_neg (by rcases hcmd with rfl | rfl <;> decide), if_pos hcmd] at hrun
    exact (opOnTracked_idle_iff hp).mp hrun s hslot

theorem fcntl_idle {fd cmd : Word} (hp : c.procMap.lookup pid = some p)
    (hsys : syscallOf arch r.nr = some .SYS_fcntl) (hguard : 0 ≤ asInt r.retdata)
    (hcopy : cmd = F_DUPFD ∨ cmd = F_DUPFD_CLOEXEC →
      c.Untracked p r.arg0 ∧ slot (c.heap.fds p) r.retdata.toNat = none)
    (hset : cmd = F_SETFL ∨ cmd = F_SETFD → c.LeftAsIs p r.arg0 (FileState.setFlags r.arg2))
    (hfd : lowHalf fd = lowHalf r.arg0) :
    c.exitWith arch os pid { r with arg0 := fd, arg1 := cmd } = .ok c := by
  rw [exitWith_fcntl hsys hguard]
  split
  · rename_i hcmd
    obtain ⟨hold, hnew⟩ := hcopy (Or.inl hcmd)
    rw [opDup2_idle hp (hold fd hfd) hnew]
    rfl
  · split
    · rename_i hcmd
      obtain ⟨hold, hnew⟩ := hcopy (Or.inr hcmd)
      rw [opDup3_idle hp (hold fd hfd) hnew]
      rfl
    · split
      · rename_i hcmd
        rw [opOnTracked_idle_iff hp]
        exact fun s hslot => hset hcmd fd s hfd hslot
      · rfl

theorem seen_fcntl_iff {r' : SyscallRegs} :
    seenByKernel .SYS_fcntl r' = seenByKernel .SYS_fcntl r ↔
      ∃ fd cmd, lowHalf fd = lowHalf r.arg0 ∧ lowHalf cmd = lowHalf r.arg1 ∧
        r' = { r with arg0 := fd, arg1 := cmd } := by
  constructor
  · intro h
    obtain ⟨nr, retdata, arg0, arg1, arg2, arg3⟩ := r'
    simp only [seenByKernel, SyscallRegs.mk.injEq] at h
    obtain ⟨rfl, rfl, harg0, harg1, rfl, rfl⟩ := h
    exact ⟨arg0, arg1, harg0, harg1, rfl⟩
  · rintro ⟨fd, cmd, hfd, hcmd, rfl⟩
    simp only [seenByKernel, hfd, hcmd]

theorem lowBitsOnly_fcntl_iff {registers : UserRegs arch}
    (hp : c.procMap.lookup pid = some p) (hroom : (c.heap.fds p).length < 2 ^ 59)
    (hr : syscallRegs arch registers = r) (hsys : syscallOf arch r.nr = some .SYS_fcntl)
    (hret : ReturnsFd r .SYS_fcntl → 0 ≤ asInt r.retdata → r.retdata.toNat < 2 ^ 31) :
    c.LowBitsOnly arch os pid maxFd .SYS_fcntl registers ↔
      c.Unconcerned os pid p r .SYS_fcntl := by
  by_cases hguard : 0 ≤ asInt r.retdata
  · have hother : ∀ cmd, lowHalf cmd = cmd → withHigh 1 r.arg1 ≠ cmd :=
      fun cmd hcmd => withHigh_ne_command hcmd
    have hidle : c.exitWith arch os pid { r with arg0 := r.arg0, arg1 := withHigh 1 r.arg1 } =
        .ok c := by
      refine fcntl_idle hp hsys hguard ?_ ?_ rfl
      · rintro (hcmd | hcmd)
        · exact absurd hcmd (hother _ (by decide))
        · exact absurd hcmd (hother _ (by decide))
      · rintro (hcmd | hcmd)
        · exact absurd hcmd (hother _ (by decide))
        · exact absurd hcmd (hother _ (by decide))
    have hsame : seenByKernel .SYS_fcntl { r with arg0 := r.arg0, arg1 := withHigh 1 r.arg1 } =
        seenByKernel .SYS_fcntl (syscallRegs arch registers) := by
      rw [hr]
      exact seen_fcntl_iff.mpr ⟨_, _, rfl, lowHalf_withHigh (by decide) _, rfl⟩
    rw [lowBitsOnly_iff_idle hsame hidle, hr]
    constructor
    · intro h _
      -- the command as the kernel reads it is one of the words to try
      have hlow : lowHalf (lowHalf r.arg1) = lowHalf r.arg1 := by
        rw [lowHalf_eq_iff, lowHalf_toNat]
        omega
      exact unconcerned_of_fcntl hp hroom hsys hguard (fun hcmd => hret hcmd hguard)
        fun fd hfd => h _ (seen_fcntl_iff.mpr ⟨fd, _, hfd, hlow, rfl⟩)
    · intro h r' hr'
      obtain ⟨fd, cmd, hfd, hcmd, rfl⟩ := seen_fcntl_iff.mp hr'
      obtain ⟨hcopy, hset⟩ := h hguard
      refine fcntl_idle hp hsys hguard (fun hdup => hcopy ?_) (fun hflags => hset ?_) hfd
      · rwa [← hcmd, lowHalf_command (hdup.imp_right Or.inl)]
      · rwa [← hcmd, lowHalf_command (Or.inr (Or.inr hflags))]
  · have hidle : ∀ fd cmd, c.exitWith arch os pid { r with arg0 := fd, arg1 := cmd } = .ok c := by
      intro fd cmd
      have hswitch : syscallSwitch arch { r with arg0 := fd, arg1 := cmd } = none := by
        rw [syscallSwitch, hsys]
        exact if_neg hguard
      rw [exitWith, hswitch]
    rw [lowBitsOnly_iff_idle (by rw [hr]) (hidle r.arg0 r.arg1), hr]
    constructor
    · intro _ hnonneg
      exact absurd hnonneg hguard
    · intro _ r' hr'
      obtain ⟨fd, cmd, _, _, rfl⟩ := seen_fcntl_iff.mp hr'
      exact hidle fd cmd

/-! ## Every call -/

variable {registers : UserRegs arch}

theorem lowBitsOnly_dup2_iff (hp : c.procMap.lookup pid = some p)
    (hroom : (c.heap.fds p).length < 2 ^ 59) (hr : syscallRegs arch registers = r)
    (hsys : syscallOf arch r.nr = some .SYS_dup2) :
    c.LowBitsOnly arch os pid maxFd .SYS_dup2 registers ↔
      c.Unconcerned os pid p r .SYS_dup2 := by
  refine lowBitsOnly_copy_iff (fun v₀ v₁ _ => c.opDup2 pid v₀ v₁) hroom hr ?_ ?_ ?_
    (fun _ _ _ hold hnew => opDup2_idle hp hold hnew)
    fun _ _ _ _ hne hfree => free_of_opDup2 hp hne hfree
  · intro r' h
    obtain ⟨nr, retdata, arg0, arg1, arg2, arg3⟩ := r'
    simp only [seenByKernel, SyscallRegs.mk.injEq] at h
    obtain ⟨rfl, rfl, h₀, h₁, rfl, rfl⟩ := h
    exact ⟨arg0, arg1, _, h₀, h₁, rfl⟩
  · intro v₀ v₁ h₀ h₁
    simp only [seenByKernel, h₀, h₁]
  · intro v₀ v₁ v₂
    have hswitch : syscallSwitch arch { r with arg0 := v₀, arg1 := v₁, arg2 := v₂ } =
        if 0 ≤ asInt r.retdata then some (.opDup2 v₀ v₁) else none := by
      rw [syscallSwitch, hsys]
    exact exitWith_case hswitch

theorem lowBitsOnly_dup3_iff (hp : c.procMap.lookup pid = some p)
    (hroom : (c.heap.fds p).length < 2 ^ 59) (hr : syscallRegs arch registers = r)
    (hsys : syscallOf arch r.nr = some .SYS_dup3) :
    c.LowBitsOnly arch os pid maxFd .SYS_dup3 registers ↔
      c.Unconcerned os pid p r .SYS_dup3 := by
  refine lowBitsOnly_copy_iff (fun v₀ v₁ v₂ => c.opDup3 pid v₀ v₁ v₂) hroom hr ?_ ?_ ?_
    (fun _ _ _ hold hnew => opDup3_idle hp hold hnew)
    fun _ _ _ _ hne hfree => free_of_opDup3 hp hne hfree
  · intro r' h
    obtain ⟨nr, retdata, arg0, arg1, arg2, arg3⟩ := r'
    simp only [seenByKernel, SyscallRegs.mk.injEq] at h
    obtain ⟨rfl, rfl, h₀, h₁, h₂, rfl⟩ := h
    exact ⟨arg0, arg1, arg2, h₀, h₁, rfl⟩
  · intro v₀ v₁ h₀ h₁
    simp only [seenByKernel, h₀, h₁]
  · intro v₀ v₁ v₂
    have hswitch : syscallSwitch arch { r with arg0 := v₀, arg1 := v₁, arg2 := v₂ } =
        if 0 ≤ asInt r.retdata then some (.opDup3 v₀ v₁ v₂) else none := by
      rw [syscallSwitch, hsys]
    exact exitWith_case hswitch

theorem lowBitsOnly_openAt_iff (hp : c.procMap.lookup pid = some p) (hmax : maxFd < 2 ^ 31)
    (hr : syscallRegs arch registers = r) (hsys : syscallOf arch r.nr = some .SYS_openat)
    (hret : 0 ≤ asInt r.retdata → r.retdata.toNat ≤ maxFd) :
    c.LowBitsOnly arch os pid maxFd .SYS_openat registers ↔
      c.Unconcerned os pid p r .SYS_openat := by
  refine lowBitsOnly_open_iff (fun v => { r with arg2 := v }) hp hmax hr ?_ ?_ hret
  · intro r'
    constructor
    · intro h
      obtain ⟨nr, retdata, arg0, arg1, arg2, arg3⟩ := r'
      simp only [seenByKernel, SyscallRegs.mk.injEq] at h
      obtain ⟨rfl, rfl, rfl, rfl, h₂, rfl⟩ := h
      exact ⟨arg2, h₂, rfl⟩
    · rintro ⟨v, hv, rfl⟩
      simp only [seenByKernel, hv]
  · intro v
    have hswitch : syscallSwitch arch { r with arg2 := v } =
        if 0 ≤ asInt r.retdata then some (.opOpenFile r.retdata v) else none := by
      rw [syscallSwitch, hsys]
    exact exitWith_case hswitch

theorem lowBitsOnly_openPath_iff (hp : c.procMap.lookup pid = some p) (hmax : maxFd < 2 ^ 31)
    (hr : syscallRegs arch registers = r) (hsys : syscallOf arch r.nr = some .SYS_open)
    (hret : 0 ≤ asInt r.retdata → r.retdata.toNat ≤ maxFd) :
    c.LowBitsOnly arch os pid maxFd .SYS_open registers ↔ c.Unconcerned os pid p r .SYS_open := by
  refine lowBitsOnly_open_iff (fun v => { r with arg1 := v }) hp hmax hr ?_ ?_ hret
  · intro r'
    constructor
    · intro h
      obtain ⟨nr, retdata, arg0, arg1, arg2, arg3⟩ := r'
      simp only [seenByKernel, SyscallRegs.mk.injEq] at h
      obtain ⟨rfl, rfl, rfl, h₁, rfl, rfl⟩ := h
      exact ⟨arg1, h₁, rfl⟩
    · rintro ⟨v, hv, rfl⟩
      simp only [seenByKernel, hv]
  · intro v
    have hswitch : syscallSwitch arch { r with arg1 := v } =
        if 0 ≤ asInt r.retdata then some (.opOpenFile r.retdata v) else none := by
      rw [syscallSwitch, hsys]
    exact exitWith_case hswitch

/-- What the exit of a call does depends on the bits the kernel looks at only, and no table outgrows
the kernel's, if and only if the call has nothing to do with a tracked descriptor and opens none. -/
theorem lowBitsOnly_iff (hmax : maxFd < 2 ^ 31) (hp : c.procMap.lookup pid = some p)
    (hroom : (c.heap.fds p).length < 2 ^ 59)
    (hsys : syscallOf arch (syscallRegs arch registers).nr = some sys)
    (hret : ReturnsFd (syscallRegs arch registers) sys →
      0 ≤ asInt (syscallRegs arch registers).retdata →
        (syscallRegs arch registers).retdata.toNat ≤ maxFd) :
    c.LowBitsOnly arch os pid maxFd sys registers ↔
      c.Unconcerned os pid p (syscallRegs arch registers) sys := by
  generalize hr : syscallRegs arch registers = r at hsys hret ⊢
  cases sys with
  | SYS_write | SYS_writev =>
    exact lowBitsOnly_change_iff (fun v => .opWriteChangeOffset v r.retdata) hp hroom (fun _ => rfl) hr
      (fun v => by rw [syscallSwitch, hsys]) fun v => rfl
  | SYS_pwritev | SYS_pwrite64 | SYS_pwritev2 =>
    exact lowBitsOnly_change_iff (fun v => .opWriteNoOffsetChange v r.retdata r.arg3) hp hroom
      (fun _ => rfl) hr (fun v => by rw [syscallSwitch, hsys]) fun v => rfl
  | SYS_fallocate =>
    exact lowBitsOnly_change_iff (fun v => .opResize v (r.arg2 + r.arg3)) hp hroom (fun _ => rfl) hr
      (fun v => by rw [syscallSwitch, hsys]) fun v => rfl
  | SYS_ftruncate =>
    exact lowBitsOnly_change_iff (fun v => .opResize v r.arg1) hp hroom (fun _ => rfl) hr
      (fun v => by rw [syscallSwitch, hsys]) fun v => rfl
  | SYS_lseek =>
    exact lowBitsOnly_change_iff (fun v => .opSeek v r.retdata) hp hroom (fun _ => rfl) hr
      (fun v => by rw [syscallSwitch, hsys]) fun v => rfl
  | SYS_close => exact lowBitsOnly_close_iff hp hroom hr hsys
  | SYS_dup => exact lowBitsOnly_dup_iff hp hroom hr hsys
  | SYS_dup2 => exact lowBitsOnly_dup2_iff hp hroom hr hsys
  | SYS_dup3 => exact lowBitsOnly_dup3_iff hp hroom hr hsys
  | SYS_creat => exact iff_of_true (lowBitsOnly_creat hp hmax hr hsys (hret trivial)) trivial
  | SYS_open => exact lowBitsOnly_openPath_iff hp hmax hr hsys (hret trivial)
  | SYS_openat => exact lowBitsOnly_openAt_iff hp hmax hr hsys (hret trivial)
  | SYS_fcntl =>
    exact lowBitsOnly_fcntl_iff hp hroom hr hsys fun hcmd hguard =>
      lt_of_le_of_lt (hret hcmd hguard) hmax

end Context

/-! ## Two writes on fixed inputs -/

/-- The exits of `open` for writing, which returns 3, of a write of 10 bytes to the descriptor, and of
`dup2` to it. -/
def openThree : UserRegs .x86_64 := exitRegs .x86_64 ⟨2, 3, 0, O_WRONLY, 0, 0⟩

def writeTen (fd : Word) : UserRegs .x86_64 := exitRegs .x86_64 ⟨1, 10, fd, 0, 10, 0⟩

def dupThree (fd : Word) : UserRegs .x86_64 := exitRegs .x86_64 ⟨33, 4, 3, fd, 0, 0⟩

open FileStorage in
/-- While descriptor 3 is tracked, a write to descriptor 4 is no matter of the tracker. -/
theorem lowBitsOnly_writeFour :
    ∃ c : Context FileQueue, plainStart.syscallExit .x86_64 (plainOs 0) 1 openThree = .ok c ∧
      slot (c.heap.fds 0) 3 = some 0 ∧
      c.LowBitsOnly .x86_64 (plainOs 0) 1 1023 .SYS_write (writeTen 4) := by
  refine ⟨_, rfl, by decide, ?_⟩
  refine (@Context.lowBitsOnly_iff FileQueue _ .x86_64 _ (plainOs 0) 1 0 1023 .SYS_write
    (writeTen 4) (by decide) (by decide) (by decide) (by decide) fun hret _ => False.elim hret).mpr ?_
  intro _ v r hv hslot
  have hfour : v.toNat % 2 ^ 32 = 4 := lowHalf_eq_iff.mp hv
  rw [slot_of_length_le] at hslot
  · cases hslot
  · exact le_trans (show _ ≤ 4 by decide) (by omega)

open FileStorage in
/-- The kernel writes to descriptor 3 in both calls, and copies it to 4 in the last one. -/
theorem upper_bits_tell :
    ∃ c c' : Context FileQueue,
      plainStart.syscallExit .x86_64 (plainOs 0) 1 openThree = .ok c ∧
      c.syscallExit .x86_64 (plainOs 0) 1 (writeTen 3) = .ok c' ∧
      c'.heap.files 0 = ⟨0xa, 0xa, O_WRONLY, 0, "out"⟩ ∧
      c.syscallExit .x86_64 (plainOs 0) 1 (writeTen 0x100000003) = .ok c ∧
      c.heap.files 0 = ⟨0, 0, O_WRONLY, 0, "out"⟩ ∧
      c.syscallExit .x86_64 (plainOs 0) 1 (dupThree 0x1000000000000004) = .error .terminate ∧
      ¬c.LowBitsOnly .x86_64 (plainOs 0) 1 1023 .SYS_write (writeTen 3) := by
  refine ⟨_, _, rfl, rfl, rfl, rfl, rfl, rfl, ?_⟩
  intro h
  have hsame := h.same (writeTen 0x100000003) rfl
  have hfiles := congrArg (fun x => x.map fun c => (c.heap.files 0).currPos) hsame
  exact absurd hfiles (by decide)

end Optrace
