import Optrace.FirstTable
import Optrace.OneDescriptor

/-!
# Descriptors the tracee inherits

`FillFds` makes a file state for each regular file the tracer has open. It is compared with the one
`SyscallExit` makes when the tracee opens the file itself.
-/

namespace Optrace

set_option autoImplicit false
set_option linter.unusedSectionVars false

open SlotTable Except Context

variable {Q : Type} [MaxOutFilesQueue Q] {arch : Arch}

/-- A descriptor as the kernel has it: the flags it was opened with, and where it stands. -/
structure Descriptor where
  fd : Word
  flags : Word
  offset : Word

/-- What the tracer sees of a descriptor it has open. -/
structure Descriptor.HeldBy (d : Descriptor) (os : Os) : Prop where
  flags : os.fdFlags d.fd.toNat = some (if hasFlag d.flags O_CLOEXEC then FD_CLOEXEC else 0)
  highest : (d.fd.toNat : Int) ≤ os.myHighestFd.toInt

/-- The exit of a call by which the tracee gets the descriptor. -/
structure Descriptor.OpenedBy (d : Descriptor) (arch : Arch) (r : SyscallRegs) : Prop where
  call : syscallOf arch r.nr = some .SYS_open ∧ r.arg1 = d.flags ∨
    syscallOf arch r.nr = some .SYS_openat ∧ r.arg2 = d.flags
  descriptor : r.retdata = d.fd

/-- The exit of the call by which it goes to the offset. -/
structure Descriptor.SeekedBy (d : Descriptor) (arch : Arch) (r : SyscallRegs) : Prop where
  call : syscallOf arch r.nr = some .SYS_lseek
  descriptor : r.arg0 = d.fd
  offset : r.retdata = d.offset

/-- A tracker follows a process through both calls; the descriptor was free before. -/
structure Descriptor.Followed (d : Descriptor) (arch : Arch) (os : Os) (pid : Pid) (p : Nat)
    (c c' : Context Q) : Prop where
  process : c.procMap.lookup pid = some p
  free : slot (c.heap.fds p) d.fd.toNat = none
  exits : ∃ (opened seeked : UserRegs arch) (c₁ : Context Q),
    d.OpenedBy arch (syscallRegs arch opened) ∧ c.syscallExit arch os pid opened = .ok c₁ ∧
    d.SeekedBy arch (syscallRegs arch seeked) ∧ c₁.syscallExit arch os pid seeked = .ok c'

namespace FileState

/-- Two file states no later call tells apart by their flags or their offset. -/
structure Alike (a b : FileState) : Prop where
  append : a.isAppendSet = b.isAppendSet
  cloexec : a.isCloexecSet = b.isCloexecSet
  currPos : a.currPos = b.currPos

end FileState

namespace Descriptor

variable {d : Descriptor} {os : Os} {pid : Pid} {p : Nat} {c c' : Context Q}

theorem HeldBy.small (h : d.HeldBy os) : d.fd.toNat < 2 ^ 31 := by
  have hhigh := h.highest
  have hint := BitVec.toInt_lt (x := os.myHighestFd)
  omega

theorem HeldBy.nonneg (h : d.HeldBy os) : 0 ≤ asInt d.fd := by
  have hsmall := h.small
  rw [asInt, BitVec.toInt_eq_toNat_cond, BitVec.toNat_setWidth]
  split <;> omega

theorem OpenedBy.switch {r : SyscallRegs} (h : d.OpenedBy arch r) (hfd : 0 ≤ asInt d.fd) :
    syscallSwitch arch r = some (.opOpenFile d.fd d.flags) := by
  rw [← h.descriptor] at hfd
  rcases h.call with ⟨hsys, hflags⟩ | ⟨hsys, hflags⟩
  · rw [syscallSwitch, hsys]
    simp only
    rw [if_pos hfd, h.descriptor, hflags]
  · rw [syscallSwitch, hsys]
    simp only
    rw [if_pos hfd, h.descriptor, hflags]

theorem SeekedBy.switch {r : SyscallRegs} (h : d.SeekedBy arch r) :
    syscallSwitch arch r =
      if 0 ≤ asInt d.offset then some (.opSeek d.fd d.offset) else none := by
  rw [syscallSwitch, h.call]
  simp only
  rw [h.descriptor, h.offset]

/-- A seek goes to the offset, if the low half of it is not negative as an `int`. -/
theorem SeekedBy.fileAt {seeked : UserRegs arch} (h : d.SeekedBy arch (syscallRegs arch seeked))
    (hp : c.procMap.lookup pid = some p) (hexit : c.syscallExit arch os pid seeked = .ok c') :
    c'.fileAt p d.fd = (c.fileAt p d.fd).map fun file =>
      if 0 ≤ asInt d.offset then file.setCurrPos d.offset else file := by
  rw [syscallExit, h.switch] at hexit
  by_cases hoffset : 0 ≤ asInt d.offset
  · simp only [if_pos hoffset] at hexit ⊢
    cases hslot : slot (c.heap.fds p) d.fd.toNat with
    | none =>
      rw [perform, opSeek, opOnTracked, getProcState_ok_iff.mpr hp, bind_ok, onTracked] at hexit
      simp only [hslot] at hexit
      cases hexit
      rw [Context.fileAt, hslot]
      rfl
    | some r =>
      rw [perform, opSeek, opOnTracked_eq _ hp hslot] at hexit
      cases hexit
      rw [fileAt_updateFile _ hslot, Context.fileAt, hslot]
      rfl
  · simp only [if_neg hoffset] at hexit ⊢
    cases hexit
    rw [Option.map_id']

/-- A file state is made of a descriptor that can be written to, and of no other. -/
theorem OpenedBy.fileAt {opened : UserRegs arch} (h : d.OpenedBy arch (syscallRegs arch opened))
    (hfd : 0 ≤ asInt d.fd) (hp : c.procMap.lookup pid = some p)
    (hexit : c.syscallExit arch os pid opened = .ok c') :
    c'.procMap.lookup pid = some p ∧ ∃ filename, c'.fileAt p d.fd =
      if opensForWriting d.flags then some (FileState.ofOpen os filename d.flags)
      else c.fileAt p d.fd := by
  rw [syscallExit, h.switch hfd] at hexit
  by_cases hwrite : opensForWriting d.flags = true
  · simp only [perform, opOpenFile, if_pos hwrite] at hexit ⊢
    obtain ⟨filename, kills, _, rfl⟩ := opOpenWriteFile_ok hp hexit
    refine ⟨hp, filename, ?_⟩
    rw [Context.fileAt, fillSlot_slot, if_pos ⟨rfl, rfl⟩, Option.map_some]
    exact congrArg some
      (Heap.newFiles_files_new (i := 0) c.heap [FileState.ofOpen os filename d.flags] rfl)
  · simp only [perform, opOpenFile, if_neg hwrite] at hexit ⊢
    cases hexit
    exact ⟨hp, "", rfl⟩

/-- What `SyscallExit` holds of a descriptor the tracee opened itself. -/
theorem Followed.fileAt (h : d.Followed arch os pid p c c') (hfd : 0 ≤ asInt d.fd) :
    ∃ filename, c'.fileAt p d.fd =
      if opensForWriting d.flags then
        some (if 0 ≤ asInt d.offset
          then (FileState.ofOpen os filename d.flags).setCurrPos d.offset
          else FileState.ofOpen os filename d.flags)
      else none := by
  obtain ⟨opened, seeked, c₁, hopened, hopen, hseeked, hseek⟩ := h.exits
  obtain ⟨hp, filename, hfile⟩ := hopened.fileAt hfd h.process hopen
  refine ⟨filename, ?_⟩
  rw [hseeked.fileAt hp hseek, hfile, Context.fileAt, h.free]
  split
  · split
    · rfl
    · rfl
  · split
    · rfl
    · rfl

end Descriptor

namespace FileState

/-- Either value of the descriptor flags is neither of the two flags a file state looks at. -/
theorem ofOpen_fdFlags (os : Os) (filename : String) (cloexec : Bool) :
    (ofOpen os filename (if cloexec then FD_CLOEXEC else 0)).isAppendSet = false ∧
      (ofOpen os filename (if cloexec then FD_CLOEXEC else 0)).isCloexecSet = false ∧
      (ofOpen os filename (if cloexec then FD_CLOEXEC else 0)).currPos = 0 := by
  have happend : hasFlag (if cloexec then FD_CLOEXEC else 0) O_APPEND = false := by
    cases cloexec <;> decide
  have hcloexec : hasFlag (if cloexec then FD_CLOEXEC else 0) O_CLOEXEC = false := by
    cases cloexec <;> decide
  refine ⟨happend, hcloexec, ?_⟩
  rw [ofOpen, happend]
  rfl

/-- An inherited file state against the one of an open and a seek. -/
theorem alike_seeked_iff {os : Os} {filename filename' : String} {cloexec : Bool}
    {flags offset : Word} :
    Alike (ofOpen os filename (if cloexec then FD_CLOEXEC else 0))
        (if 0 ≤ asInt offset then (ofOpen os filename' flags).setCurrPos offset
          else ofOpen os filename' flags) ↔
      hasFlag flags O_APPEND = false ∧ hasFlag flags O_CLOEXEC = false ∧
        (offset = 0 ∨ asInt offset < 0) := by
  obtain ⟨happend, hcloexec, hpos⟩ := ofOpen_fdFlags os filename cloexec
  by_cases hoffset : 0 ≤ asInt offset
  · rw [if_pos hoffset]
    constructor
    · rintro ⟨h₁, h₂, h₃⟩
      exact ⟨h₁.symm.trans happend, h₂.symm.trans hcloexec, Or.inl (h₃.symm.trans hpos)⟩
    · rintro ⟨h₁, h₂, h₃ | h₃⟩
      · exact ⟨happend.trans h₁.symm, hcloexec.trans h₂.symm, hpos.trans h₃.symm⟩
      · omega
  · rw [if_neg hoffset]
    constructor
    · rintro ⟨h₁, h₂, h₃⟩
      exact ⟨h₁.symm.trans happend, h₂.symm.trans hcloexec, Or.inr (by omega)⟩
    · rintro ⟨h₁, h₂, -⟩
      refine ⟨happend.trans h₁.symm, hcloexec.trans h₂.symm, hpos.trans ?_⟩
      simp [ofOpen, h₁]

end FileState

/-- The first table holds of a descriptor what it would had the tracee opened it if and only if it is
of a regular file opened for writing, neither to append nor closed on exec, and at the offset 0 (or
at one the seek is not followed to); or else of no regular file, and not opened for writing. -/
theorem inherited_alike_iff {c c' f f' : Context Q} {os : Os} {pid : Pid} {p : Nat}
    {d : Descriptor} (hstart : c.registerTracee os pid = .ok c') (hheld : d.HeldBy os)
    (hfollowed : d.Followed arch os pid p f f') :
    ∃ q, c'.procMap.lookup pid = some q ∧
      (Option.Rel FileState.Alike (c'.fileAt q d.fd) (f'.fileAt p d.fd) ↔
        os.isFile d.fd.toNat = opensForWriting d.flags ∧
          (opensForWriting d.flags = true → hasFlag d.flags O_APPEND = false ∧
            hasFlag d.flags O_CLOEXEC = false ∧ (d.offset = 0 ∨ asInt d.offset < 0))) := by
  have hprocess : c'.procMap.lookup pid = some c.heap.procCount := by
    rw [(registerTracee_ok hstart).2.sameRegistry.procMap]
    exact Finmap.lookup_insert _
  obtain ⟨filename, hopened⟩ := hfollowed.fileAt hheld.nonneg
  have hinherited : c'.fileAt c.heap.procCount d.fd = inheritedState os pid d.fd.toNat := by
    rw [Context.fileAt, registerTracee_fileAt hstart, if_pos hheld.highest]
  refine ⟨c.heap.procCount, hprocess, ?_⟩
  rw [hinherited, hopened, inheritedState, hheld.flags, Option.bind_some]
  cases hfile : os.isFile d.fd.toNat with
  | false =>
    rw [if_neg Bool.false_ne_true]
    cases opensForWriting d.flags with
    | false => simp
    | true => simp
  | true =>
    obtain ⟨target, hlink⟩ := registerTracee_reads hstart hheld.highest hheld.flags hfile
    rw [if_pos rfl, hlink, Option.map_some]
    cases opensForWriting d.flags with
    | false => simp
    | true =>
      rw [if_pos rfl, Option.rel_some_some, FileState.alike_seeked_iff]
      simp

/-! ## Inherited and opened on fixed inputs -/

/-- The tracer has the descriptor 1 of a regular file open. -/
def redirectedOs (length : Word) : Os :=
  { plainOs length with
    fdFlags := fun fd => if fd = 1 then some 0 else none
    myHighestFd := 1 }

/-- The exits of `open` and of `lseek` on it. -/
def openOne (flags : Word) : UserRegs .x86_64 := exitRegs .x86_64 ⟨2, 1, 0, flags, 0, 0⟩

def seekOne (offset : Word) : UserRegs .x86_64 := exitRegs .x86_64 ⟨8, offset, 1, 0, 0, 0⟩

open FileStorage in
/-- `>log`, of a file that was empty before. -/
theorem inherited_alike_redirected :
    ∃ (c' f' : Context FileQueue) (q : Nat),
      (Context.new plainOptions).registerTracee (redirectedOs 0) 1 = .ok c' ∧
      (⟨1, O_WRONLY, 0⟩ : Descriptor).Followed .x86_64 (redirectedOs 0) 1 0 plainStart f' ∧
      c'.procMap.lookup 1 = some q ∧
      (Option.Rel FileState.Alike (c'.fileAt q 1) (f'.fileAt 0 1) ↔
        (redirectedOs 0).isFile 1 = opensForWriting O_WRONLY ∧
          (opensForWriting O_WRONLY = true → hasFlag O_WRONLY O_APPEND = false ∧
            hasFlag O_WRONLY O_CLOEXEC = false ∧ ((0 : Word) = 0 ∨ asInt 0 < 0))) := by
  obtain ⟨c', hstart⟩ : ∃ c' : Context FileQueue,
      (Context.new plainOptions).registerTracee (redirectedOs 0) 1 = .ok c' := ⟨_, rfl⟩
  obtain ⟨f', hfollowed⟩ : ∃ f', (⟨1, O_WRONLY, 0⟩ : Descriptor).Followed .x86_64
      (redirectedOs 0) 1 0 plainStart f' :=
    ⟨_, rfl, rfl, openOne O_WRONLY, seekOne 0, _, ⟨by decide, rfl⟩, rfl, ⟨by decide, rfl, rfl⟩, rfl⟩
  obtain ⟨q, hq, hiff⟩ := inherited_alike_iff hstart ⟨by decide, by decide⟩ hfollowed
  exact ⟨c', f', q, hstart, hfollowed, hq, hiff⟩

open FileStorage in
/-- `>>log`, of a file of 100 bytes: the offset and the mode to append are lost. -/
theorem appended_not_alike :
    ∃ (c' f' : Context FileQueue),
      (Context.new plainOptions).registerTracee (redirectedOs 100) 1 = .ok c' ∧
      (⟨1, O_WRONLY ||| O_APPEND, 100⟩ : Descriptor).HeldBy (redirectedOs 100) ∧
      (⟨1, O_WRONLY ||| O_APPEND, 100⟩ : Descriptor).Followed .x86_64 (redirectedOs 100) 1 0
        plainStart f' ∧
      c'.procMap.lookup 1 = some 0 ∧
      (c'.fileAt 0 1).map (fun s => (s.isAppendSet, s.currPos)) = some (false, 0) ∧
      (f'.fileAt 0 1).map (fun s => (s.isAppendSet, s.currPos)) = some (true, 100) ∧
      ¬Option.Rel FileState.Alike (c'.fileAt 0 1) (f'.fileAt 0 1) := by
  refine ⟨_, _, rfl, ⟨by decide, by decide⟩, ⟨rfl, rfl, openOne (O_WRONLY ||| O_APPEND), seekOne 100,
    _, ⟨by decide, rfl⟩, rfl, ⟨by decide, rfl, rfl⟩, rfl⟩, rfl, rfl, rfl, ?_⟩
  intro halike
  cases halike with
  | some h => exact absurd h.append (by decide)

end Optrace
