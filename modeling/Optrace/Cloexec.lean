import Optrace.FirstTable
import Optrace.Narrowing

/-!
# What an exec closes

The kernel keeps a close-on-exec flag for each descriptor, the tracker one word of flags for
each file state. The two agree on the tracked descriptors as long as no call sets the flag of
one descriptor through the word of several, or through the bit of another flag, and none has
upper halves that the kernel does not look at.
-/

namespace Optrace

set_option autoImplicit false
set_option linter.unusedSectionVars false

open SlotTable Except Context

variable {Q : Type} [MaxOutFilesQueue Q] {arch : Arch}

/-! ## The kernel's descriptor tables -/

/-- Which descriptors of a process are open, and whether an exec closes them. -/
abbrev KernelFds := Nat → Option Bool

def KernelFds.exec (k : KernelFds) : KernelFds :=
  fun fd => if k fd = some false then some false else none

/-- A successful call that opens, closes or marks descriptors. -/
inductive FdCall where
  | creat (fd mode : Word)
  | openAt (fd flags : Word)
  | close (fd : Word)
  | dup (fd newfd : Word)
  | dup2 (oldfd newfd : Word)
  | dup3 (oldfd newfd flags : Word)
  | setFd (fd arg : Word)
  | setFl (fd arg : Word)

def fcntlCallOf (r : SyscallRegs) : Option FdCall :=
  if r.arg1 = F_DUPFD then some (.dup r.arg0 r.retdata)
  else if r.arg1 = F_DUPFD_CLOEXEC then some (.dup3 r.arg0 r.retdata O_CLOEXEC)
  else if r.arg1 = F_SETFD then some (.setFd r.arg0 r.arg2)
  else if r.arg1 = F_SETFL then some (.setFl r.arg0 r.arg2)
  else none

def fdCallOf (arch : Arch) (r : SyscallRegs) : Option FdCall :=
  if 0 ≤ asInt r.retdata then
    match syscallOf arch r.nr with
    | some .SYS_creat => some (.creat r.retdata r.arg1)
    | some .SYS_open => some (.openAt r.retdata r.arg1)
    | some .SYS_openat => some (.openAt r.retdata r.arg2)
    | some .SYS_close => some (.close r.arg0)
    | some .SYS_fcntl => fcntlCallOf r
    | some .SYS_dup => some (.dup r.arg0 r.retdata)
    | some .SYS_dup2 => some (.dup2 r.arg0 r.arg1)
    | some .SYS_dup3 => some (.dup3 r.arg0 r.arg1 r.arg2)
    | _ => none
  else none

/-- The words of a call as the kernel takes them. -/
def kernelRegs (arch : Arch) (r : SyscallRegs) : SyscallRegs :=
  match kernelCall arch r with
  | some sys => { seenByKernel sys r with nr := lowHalf r.nr }
  | none => r

def kernelFdCallOf (arch : Arch) (r : SyscallRegs) : Option FdCall :=
  fdCallOf arch (kernelRegs arch r)

namespace FdCall

/-- The table after the call. -/
def exit (k : KernelFds) : FdCall → KernelFds
  | creat fd _ => Function.update k fd.toNat (some false)
  | openAt fd flags => Function.update k fd.toNat (some (hasFlag flags O_CLOEXEC))
  | close fd => Function.update k fd.toNat none
  | dup _ newfd => Function.update k newfd.toNat (some false)
  | dup2 oldfd newfd =>
    if oldfd = newfd then k else Function.update k newfd.toNat (some false)
  | dup3 _ newfd flags => Function.update k newfd.toNat (some (hasFlag flags O_CLOEXEC))
  | setFd fd arg => Function.update k fd.toNat (some (hasFlag arg FD_CLOEXEC))
  | setFl _ _ => k

/-- What a successful call found in the table. -/
def succeeds (k : KernelFds) : FdCall → Bool
  | creat fd _ => (k fd.toNat).isNone
  | openAt fd _ => (k fd.toNat).isNone
  | close fd => (k fd.toNat).isSome
  | dup fd newfd => (k fd.toNat).isSome && (k newfd.toNat).isNone
  | dup2 oldfd _ => (k oldfd.toNat).isSome
  | dup3 oldfd newfd _ => (k oldfd.toNat).isSome && oldfd != newfd
  | setFd fd _ => (k fd.toNat).isSome
  | setFl fd _ => (k fd.toNat).isSome

/-- The operation the tracker runs for it. -/
def op : FdCall → Op
  | creat fd mode => .opOpenWriteFile fd mode
  | openAt fd flags => .opOpenFile fd flags
  | close fd => .opClose fd
  | dup fd newfd => .opDup fd newfd
  | dup2 oldfd newfd => .opDup2 oldfd newfd
  | dup3 oldfd newfd flags => .opDup3 oldfd newfd flags
  | setFd fd arg => .opSetFlag fd arg
  | setFl fd arg => .opSetFlag fd arg

/-- The one word of flags is enough for the call: a duplicate gets the flag its source has, and
a flag is set on a file state only as the kernel sets it on all descriptors that share it. -/
def flagsKept (k : KernelFds) (c : Context Q) (p : Nat) : FdCall → Bool
  | creat _ mode => !hasFlag mode O_CLOEXEC
  | openAt _ _ => true
  | close _ => true
  | dup fd _ => (slot (c.heap.fds p) fd.toNat).all fun _ => k fd.toNat == some false
  | dup2 oldfd newfd => oldfd == newfd ||
    (slot (c.heap.fds p) oldfd.toNat).all fun _ => k oldfd.toNat == some false
  | dup3 oldfd _ flags => (slot (c.heap.fds p) oldfd.toNat).all fun _ =>
    k oldfd.toNat == some (hasFlag flags O_CLOEXEC)
  | setFd fd arg => (slot (c.heap.fds p) fd.toNat).all fun r =>
    hasFlag arg O_CLOEXEC == hasFlag arg FD_CLOEXEC &&
      (c.heap.useCount r == 1 || k fd.toNat == some (hasFlag arg FD_CLOEXEC))
  | setFl fd arg => (slot (c.heap.fds p) fd.toNat).all fun _ =>
    k fd.toNat == some (hasFlag arg O_CLOEXEC)

end FdCall

/-- An operation that neither moves a slot nor touches the flags. -/
def Op.keepsFlags : Op → Bool
  | .opWriteChangeOffset _ _ => true
  | .opWriteNoOffsetChange _ _ _ => true
  | .opResize _ _ => true
  | .opSeek _ _ => true
  | _ => false

theorem fcntlSwitch_fdCall {r : SyscallRegs} {call : FdCall} (h : fcntlCallOf r = some call) :
    fcntlSwitch r = some call.op := by
  unfold fcntlCallOf at h
  unfold fcntlSwitch
  grind [FdCall.op]

theorem syscallSwitch_fdCall {r : SyscallRegs} {call : FdCall} (h : fdCallOf arch r = some call) :
    syscallSwitch arch r = some call.op := by
  unfold fdCallOf at h
  split at h
  · unfold syscallSwitch
    split at h <;> simp_all only [if_true, Option.some.injEq, reduceCtorEq]
    all_goals try (subst h; rfl)
    exact fcntlSwitch_fdCall h
  · cases h

/-- The words of a case of the switch, with an argument that is read whole. -/
theorem kernelRegs_of_syscallOf {r : SyscallRegs} {sys : Sys} (h : syscallOf arch r.nr = some sys) :
    kernelRegs arch r = seenByKernel sys r ∧ (seenByKernel sys r).nr = r.nr ∧
      (seenByKernel sys r).retdata = r.retdata := by
  obtain ⟨hlow, hcall⟩ := kernelCall_of_syscallOf h
  rw [kernelRegs, hcall, hlow]
  cases sys <;> exact ⟨rfl, rfl, rfl⟩

/-- A command the tracker knows is one the kernel knows. -/
theorem fcntlCallOf_seen {r : SyscallRegs} {call : FdCall} (h : fcntlCallOf r = some call) :
    (fcntlCallOf (seenByKernel .SYS_fcntl r)).isSome = true := by
  have hlow := lowHalf_command (fcntlSwitch_fdCall h)
  unfold fcntlCallOf at h ⊢
  simp only [seenByKernel, hlow]
  grind

/-- What the tracker takes for such a call is one for the kernel; what is opened has the same
number for both. -/
theorem kernelFdCallOf_some {r : SyscallRegs} {call : FdCall} (h : fdCallOf arch r = some call) :
    ∃ call', kernelFdCallOf arch r = some call' ∧ ∀ (k : KernelFds) fd flags,
      call.op.opens = some (fd, flags) → call'.succeeds k = true → k fd.toNat = none := by
  obtain ⟨hguard, h⟩ := Option.ite_none_right_eq_some.mp h
  cases hsys : syscallOf arch r.nr with
  | none =>
    rw [hsys] at h
    cases h
  | some sys =>
    obtain ⟨hregs, hnr, hret⟩ := kernelRegs_of_syscallOf hsys
    rw [hsys] at h
    rw [kernelFdCallOf, hregs, fdCallOf, hret, if_pos hguard, hnr, hsys]
    cases sys with
    | SYS_creat | SYS_open | SYS_openat =>
      cases h
      refine ⟨_, rfl, fun k fd flags hopens hfree => ?_⟩
      have hfd : r.retdata = fd := by
        simp only [FdCall.op, Op.opens] at hopens
        grind
      simpa [FdCall.succeeds, hret, hfd] using hfree
    | SYS_fcntl =>
      obtain ⟨call', hcall'⟩ := Option.isSome_iff_exists.mp (fcntlCallOf_seen h)
      refine ⟨call', hcall', fun k fd flags hopens _ => ?_⟩
      unfold fcntlCallOf at h
      grind [FdCall.op, Op.opens]
    | SYS_close | SYS_dup | SYS_dup2 | SYS_dup3 =>
      cases h
      exact ⟨_, rfl, fun k fd flags hopens => by cases hopens⟩
    | _ => cases h

/-- Every other operation is a write, a resize or a seek; only a failed close is neither. -/
theorem syscallSwitch_noFdCall {r : SyscallRegs} {op : Op} (h : fdCallOf arch r = none)
    (hclose : syscallOf arch r.nr = some .SYS_close → 0 ≤ asInt r.retdata)
    (hop : syscallSwitch arch r = some op) : op.keepsFlags = true := by
  unfold fdCallOf fcntlCallOf at h
  unfold syscallSwitch fcntlSwitch at hop
  split at hop <;> grind [Op.keepsFlags]

/-! ## One table -/

namespace Context

variable {c c' : Context Q} {p : Nat} {k : KernelFds}

/-- A tracked descriptor is open, and its file state has the descriptor's flag. -/
def FlagsAgree (k : KernelFds) (c : Context Q) (p : Nat) : Prop :=
  ∀ fd r, slot (c.heap.fds p) fd = some r → k fd = some (c.heap.files r).isCloexecSet

namespace FlagsAgree

theorem closedAt (h : FlagsAgree k c p) (fd : Nat) (v : Option Bool) :
    FlagsAgree (Function.update k fd v) (c.closedAt p fd) p := by
  intro i r hslot
  rw [closedAt_slot] at hslot
  split at hslot
  · cases hslot
  · rename_i hne
    have hi : i ≠ fd := fun heq => hne ⟨rfl, heq⟩
    rw [Function.update_of_ne hi, closedAt_files]
    exact h i r hslot

theorem fillSlot (h : FlagsAgree k c p) {r : Nat} {b : Bool}
    (hr : (c.heap.files r).isCloexecSet = b) (fd : Nat) :
    FlagsAgree (Function.update k fd (some b)) (c.fillSlot p fd r) p := by
  intro i s hslot
  rw [fillSlot_slot] at hslot
  rw [fillSlot_files]
  by_cases hi : i = fd
  · subst hi
    rw [if_pos ⟨rfl, rfl⟩] at hslot
    cases hslot
    rw [Function.update_self, hr]
  · rw [if_neg (fun heq => hi heq.2)] at hslot
    rw [Function.update_of_ne hi]
    exact h i s hslot

theorem updateFile (h : FlagsAgree k c p) {r : Nat} {f : FileState → FileState}
    (hf : (f (c.heap.files r)).isCloexecSet = (c.heap.files r).isCloexecSet) :
    FlagsAgree k (c.updateFile r f) p := by
  intro i s hslot
  have hold := h i s hslot
  by_cases hs : s = r
  · subst hs
    rw [Context.updateFile, Heap.updateFile_files_self, hf]
    exact hold
  · rw [Context.updateFile, Heap.updateFile_files_ne _ hs]
    exact hold

theorem createFile (h : FlagsAgree k c p) (hc : c.Tidy) {fd : Nat} {s : FileState} {b : Bool}
    (hs : s.isCloexecSet = b) :
    FlagsAgree (Function.update k fd (some b)) ((c.newFile s).fillSlot p fd c.heap.fileCount) p := by
  have hnew : FlagsAgree k (c.newFile s) p := by
    intro i r hslot
    rw [newFile, Heap.newFiles_files_old _ _ (hc.bound p i r hslot)]
    exact h i r hslot
  refine hnew.fillSlot ?_ fd
  have hself := c.heap.newFiles_files_new [s] (i := 0) rfl
  rw [newFile, show c.heap.fileCount = c.heap.fileCount + 0 from rfl, hself]
  exact hs

end FlagsAgree

/-- A file state with one reference is in one slot. -/
theorem eq_of_useCount_one (hc : c.Tidy) {fd i r : Nat} (hone : c.heap.useCount r = 1)
    (hfd : slot (c.heap.fds p) fd = some r) (hi : slot (c.heap.fds p) i = some r) : i = fd := by
  by_contra hne
  have halloc := hc.alloc p fd r hfd
  have hcount := clearSlot_useCount halloc hfd r
  rw [if_pos rfl, hone] at hcount
  have hpos : 0 < (c.clearSlot p fd r).heap.useCount r := by
    rw [Heap.useCount_pos_iff]
    refine ⟨p, halloc, i, ?_⟩
    rw [clearSlot_slot hfd, if_neg (fun heq => hne heq.2)]
    exact hi
  omega

variable {pid : Pid}

theorem opDup2_agree (hp : c.procMap.lookup pid = some p) (hk : FlagsAgree k c p)
    {oldfd newfd : Word} (hne : oldfd ≠ newfd) {b : Bool}
    (hkept : ∀ r, slot (c.heap.fds p) oldfd.toNat = some r → k oldfd.toNat = some b)
    {done : Bool} (h : c.opDup2 pid oldfd newfd = .ok (c', done)) :
    FlagsAgree (Function.update k newfd.toNat (some b)) c' p := by
  rcases opDup2_ok hp h with ⟨heq, _⟩ | ⟨_, _, rfl, _⟩ | ⟨_, r, hslot, rfl, _⟩
  · exact absurd heq hne
  · exact hk.closedAt newfd.toNat (some b)
  · have hflag : (c.heap.files r).isCloexecSet = b := by
      have hboth := (hk oldfd.toNat r hslot).symm.trans (hkept r hslot)
      exact Option.some.inj hboth
    have hclosed := hk.closedAt newfd.toNat (some b)
    rw [← closedAt_files (c := c) (p := p) newfd.toNat] at hflag
    have hfill := hclosed.fillSlot hflag newfd.toNat
    rwa [Function.update_idem] at hfill

theorem opDup3_agree (hp : c.procMap.lookup pid = some p) (hk : FlagsAgree k c p)
    {oldfd newfd flags : Word} (hne : oldfd ≠ newfd)
    (hkept : ∀ r, slot (c.heap.fds p) oldfd.toNat = some r →
      k oldfd.toNat = some (hasFlag flags O_CLOEXEC))
    {done : Bool} (h : c.opDup3 pid oldfd newfd flags = .ok (c', done)) :
    FlagsAgree (Function.update k newfd.toNat (some (hasFlag flags O_CLOEXEC))) c' p := by
  rcases opDup3_ok hp h with hdup | ⟨c₁, r, hdup, hslot, rfl⟩
  · exact opDup2_agree hp hk hne hkept hdup
  · -- the flag the call sets on the shared state is the one it had
    apply (opDup2_agree hp hk hne hkept hdup).updateFile
    have hfiles : c₁.heap.files = c.heap.files := by
      rcases opDup2_ok hp hdup with ⟨_, rfl, _⟩ | ⟨_, _, rfl, _⟩ | ⟨_, _, _, rfl, _⟩
      · rfl
      · exact closedAt_files _
      · exact closedAt_files _
    rw [FileState.isCloexecSet_setCloexecFlag, hfiles]
    exact Option.some.inj ((hkept r hslot).symm.trans (hk oldfd.toNat r hslot))

theorem opOpenWriteFile_agree (hc : c.Tidy) (hp : c.procMap.lookup pid = some p)
    (hk : FlagsAgree k c p) {os : Os} {fd flags : Word}
    (h : c.opOpenWriteFile os pid fd flags = .ok c') :
    FlagsAgree (Function.update k fd.toNat (some (hasFlag flags O_CLOEXEC))) c' p := by
  obtain ⟨filename, kills, _, rfl⟩ := opOpenWriteFile_ok hp h
  have hsignal : FlagsAgree k { c with kills := kills } p := hk
  have hc' : { c with kills := kills }.Tidy := hc.congr rfl rfl rfl rfl
  exact hsignal.createFile hc' (b := hasFlag flags O_CLOEXEC) rfl

theorem opSetFlag_agree (hc : c.Tidy) (hp : c.procMap.lookup pid = some p)
    (hk : FlagsAgree k c p) {fd arg : Word} {b : Bool}
    (hkept : ∀ r, slot (c.heap.fds p) fd.toNat = some r → hasFlag arg O_CLOEXEC = b ∧
      (c.heap.useCount r = 1 ∨ k fd.toNat = some b))
    (h : c.opSetFlag pid fd arg = .ok c') :
    FlagsAgree (Function.update k fd.toNat (some b)) c' p := by
  rcases opOnTracked_ok hp h with ⟨hnone, rfl⟩ | ⟨r, hslot, rfl⟩
  · intro i s hs
    have hi : i ≠ fd.toNat := by
      rintro rfl
      rw [hnone] at hs
      cases hs
    rw [Function.update_of_ne hi]
    exact hk i s hs
  · obtain ⟨hflag, hone | hsame⟩ := hkept r hslot
    · intro i s hs
      by_cases hsr : s = r
      · subst hsr
        obtain rfl : i = fd.toNat := eq_of_useCount_one hc hone hslot hs
        rw [Function.update_self, Context.updateFile, Heap.updateFile_files_self, ← hflag]
        rfl
      · have hi : i ≠ fd.toNat := by
          rintro rfl
          exact hsr (Option.some.inj (hs.symm.trans hslot))
        rw [Function.update_of_ne hi, Context.updateFile, Heap.updateFile_files_ne _ hsr]
        exact hk i s hs
    · rw [← hsame, Function.update_eq_self]
      apply hk.updateFile
      have hboth := hsame.symm.trans (hk fd.toNat r hslot)
      exact hflag.trans (Option.some.inj hboth)

/-- The tracker keeps up with a call the one word of flags is enough for. -/
theorem perform_agree (hc : c.Tidy) (hp : c.procMap.lookup pid = some p)
    (hk : FlagsAgree k c p) {os : Os} {call : FdCall} (hsucceeds : call.succeeds k = true)
    (hkept : call.flagsKept k c p = true) (h : c.perform os pid call.op = .ok c') :
    FlagsAgree (call.exit k) c' p := by
  cases call with
  | creat fd mode =>
    have hmode : hasFlag mode O_CLOEXEC = false := by simpa [FdCall.flagsKept] using hkept
    have hopen := opOpenWriteFile_agree hc hp hk h
    rwa [hmode] at hopen
  | openAt fd flags =>
    simp only [FdCall.op, perform, opOpenFile] at h
    split at h
    · exact opOpenWriteFile_agree hc hp hk h
    · cases h
      have hfree : k fd.toNat = none := by simpa [FdCall.succeeds] using hsucceeds
      intro i r hslot
      have hi : i ≠ fd.toNat := by
        rintro rfl
        have hopen := hk _ r hslot
        rw [hfree] at hopen
        cases hopen
      rw [FdCall.exit, Function.update_of_ne hi]
      exact hk i r hslot
  | close fd =>
    rw [FdCall.op, perform, opClose_eq hp] at h
    cases h
    exact hk.closedAt fd.toNat none
  | dup fd newfd =>
    obtain ⟨⟨c₁, done⟩, hdup, h⟩ := bind_eq_ok_iff.mp h
    cases h
    simp only [FdCall.succeeds, Bool.and_eq_true, Option.isSome_iff_exists,
      Option.isNone_iff_eq_none] at hsucceeds
    obtain ⟨⟨b, hopen⟩, hfree⟩ := hsucceeds
    have hne : fd ≠ newfd := by
      rintro rfl
      rw [hfree] at hopen
      cases hopen
    refine opDup2_agree hp hk hne (fun r hslot => ?_) hdup
    simpa [FdCall.flagsKept, hslot] using hkept
  | dup2 oldfd newfd =>
    obtain ⟨⟨c₁, done⟩, hdup, h⟩ := bind_eq_ok_iff.mp h
    cases h
    by_cases heq : oldfd = newfd
    · rw [FdCall.exit, if_pos heq]
      rcases opDup2_ok hp hdup with ⟨_, rfl, _⟩ | ⟨hne, _⟩ | ⟨hne, _⟩
      · exact hk
      · exact absurd heq hne
      · exact absurd heq hne
    · rw [FdCall.exit, if_neg heq]
      refine opDup2_agree hp hk heq (fun r hslot => ?_) hdup
      simpa [FdCall.flagsKept, heq, hslot] using hkept
  | dup3 oldfd newfd flags =>
    obtain ⟨⟨c₁, done⟩, hdup, h⟩ := bind_eq_ok_iff.mp h
    cases h
    simp only [FdCall.succeeds, Bool.and_eq_true, bne_iff_ne] at hsucceeds
    refine opDup3_agree hp hk hsucceeds.2 (fun r hslot => ?_) hdup
    simpa [FdCall.flagsKept, hslot] using hkept
  | setFd fd arg =>
    refine opSetFlag_agree hc hp hk (fun r hslot => ?_) h
    simpa [FdCall.flagsKept, hslot] using hkept
  | setFl fd arg =>
    -- the kernel's table stays as it is
    have hset : ∀ r, slot (c.heap.fds p) fd.toNat = some r →
        k fd.toNat = some (hasFlag arg O_CLOEXEC) := by
      intro r hslot
      simpa [FdCall.flagsKept, hslot] using hkept
    rcases opOnTracked_ok hp h with ⟨_, rfl⟩ | ⟨r, hslot, rfl⟩
    · exact hk
    · apply hk.updateFile
      exact Option.some.inj ((hset r hslot).symm.trans (hk fd.toNat r hslot))

/-- Calls on one process leave the tables of the others alone. -/
theorem FlagsAgree.other {q : Nat} (hk : FlagsAgree k c p) (hc : c.Tidy)
    (hq : q < c.heap.procCount) (hne : p ≠ q) {kind : StepKind} (h : TableSteps kind q c c') :
    FlagsAgree k c' p := by
  intro fd r hslot
  rw [h.others hne] at hslot
  rw [h.other hc hq hne fd r hslot]
  exact hk fd r hslot

/-- What only lets go of slots. -/
theorem FlagsAgree.of_slots (hk : FlagsAgree k c p) (hfiles : c'.heap.files = c.heap.files)
    (hslots : ∀ fd r, slot (c'.heap.fds p) fd = some r → slot (c.heap.fds p) fd = some r) :
    FlagsAgree k c' p := by
  intro fd r hslot
  rw [hfiles]
  exact hk fd r (hslots fd r hslot)

theorem keepsFlags_agree (hp : c.procMap.lookup pid = some p) (hk : FlagsAgree k c p) {os : Os}
    {op : Op} (hop : op.keepsFlags = true) (h : c.perform os pid op = .ok c') :
    FlagsAgree k c' p := by
  have hset : ∀ (fd : Word) (f : FileState → FileState), (∀ s, (f s).flags = s.flags) →
      c.opOnTracked pid fd f = .ok c' → FlagsAgree k c' p := by
    intro fd f hf h
    rcases opOnTracked_ok hp h with ⟨_, rfl⟩ | ⟨r, _, rfl⟩
    · exact hk
    · apply hk.updateFile
      simp only [FileState.isCloexecSet, hf]
  cases op with
  | opWriteChangeOffset fd offset => exact hset fd (FileState.enroll offset) (fun _ => rfl) h
  | opWriteNoOffsetChange fd nbytes offset =>
    exact hset fd (FileState.enrollNoShift nbytes offset) (fun _ => rfl) h
  | opResize fd size => exact hset fd (FileState.enrollNoShift size 0) (fun _ => rfl) h
  | opSeek fd pos => exact hset fd (FileState.setCurrPos pos) (fun _ => rfl) h
  | _ => cases hop

/-! ## Copied tables -/

theorem copyProc_agree {os : Os} {src : Nat} {cloexecFree : Bool} {copied ppid : Pid}
    (hk : FlagsAgree k c src) :
    FlagsAgree (if cloexecFree then k.exec else k)
      { c with heap := c.copyProc os src cloexecFree copied ppid } c.heap.procCount := by
  intro fd r hslot
  obtain ⟨r₀, hslot₀, hkeep, hself⟩ := copyProc_source hslot
  have hflag : ((c.heap.files r₀).copy os).isCloexecSet = (c.heap.files r₀).isCloexecSet := rfl
  have hold := hk fd r₀ hslot₀
  simp only [hself, hflag]
  cases cloexecFree with
  | false => exact hold
  | true =>
    have hclear : (c.heap.files r₀).isCloexecSet = false := by simpa [Heap.keeps] using hkeep
    rw [hclear] at hold ⊢
    exact if_pos hold

theorem FlagsAgree.copyProc {os : Os} {src : Nat} {cloexecFree : Bool} {copied ppid : Pid}
    (hk : FlagsAgree k c p) (hc : c.Tidy) (hne : p ≠ c.heap.procCount) :
    FlagsAgree k { c with heap := c.copyProc os src cloexecFree copied ppid } p := by
  intro fd r hslot
  rw [copyProc_fds_ne os c src cloexecFree copied ppid hne] at hslot
  simp only [copyProc_files_old os c src cloexecFree copied ppid (hc.bound p fd r hslot)]
  exact hk fd r hslot

theorem FlagsAgree.vanished {q : Nat} (hk : FlagsAgree k c p) (hv : Vanished pid q c c') :
    FlagsAgree k c' p :=
  hk.of_slots hv.files fun _ _ hslot => hv.slot_old hslot

/-- A process state is made with copies of another's file states, and the kernel's table for it is
made of the other's. -/
theorem FlagsAgree.copied {kernel : Nat → KernelFds} (hk : ∀ q, FlagsAgree (kernel q) c q)
    (hc : c.Tidy) (os : Os) (src : Nat) (cloexecFree : Bool) (copied ppid : Pid) (q : Nat) :
    FlagsAgree (Function.update kernel c.heap.procCount
        (if cloexecFree then (kernel src).exec else kernel src) q)
      { c with heap := c.copyProc os src cloexecFree copied ppid } q := by
  by_cases hq : q = c.heap.procCount
  · subst hq
    rw [Function.update_self]
    exact copyProc_agree (hk src)
  · rw [Function.update_of_ne hq]
    exact (hk q).copyProc hc hq

/-! ## The first table -/

/-- The states of the first table have the flags the tracer's own descriptors have. -/
theorem registerTracee_flags {os : Os} (h : c.registerTracee os pid = .ok c') {fd r : Nat}
    (hslot : slot (c'.heap.fds c.heap.procCount) fd = some r) :
    os.fdFlags fd = some (c'.heap.files r).flags ∧ os.isFile fd = true := by
  have hfile := registerTracee_fileAt h fd
  rw [hslot, Option.map_some] at hfile
  split at hfile
  · obtain ⟨flags, hflags, hfile⟩ := Option.bind_eq_some_iff.mp hfile.symm
    split at hfile
    · rename_i hregular
      obtain ⟨filename, _, hstate⟩ := Option.map_eq_some_iff.mp hfile
      rw [← hstate, hflags]
      exact ⟨rfl, hregular⟩
    · cases hfile
  · cases hfile

end Context

/-! ## Runs -/

/-- A trace, and the kernel's descriptor table behind each process state. -/
structure Mirrored (Q : Type) where
  tracked : Tracked Q
  kernel : Nat → KernelFds

/-- What the kernel has done to the tables when a call is made on the tracker. -/
def Call.mirror (c : Context Q) (kernel : Nat → KernelFds) : Call arch → Nat → KernelFds
  | .syscallExit _ pid registers =>
    match c.procMap.lookup pid, kernelFdCallOf arch (syscallRegs arch registers) with
    | some p, some call => Function.update kernel p (call.exit (kernel p))
    | _, _ => kernel
  | .registerProcess _ parent _ =>
    match c.procMap.lookup parent with
    | some p => Function.update kernel c.heap.procCount (kernel p)
    | none => kernel
  | .registerExec _ pid _ =>
    match c.procMap.lookup pid with
    | some p => Function.update kernel c.heap.procCount (kernel p).exec
    | none => kernel
  | _ => kernel

namespace Mirrored

def step (s : Mirrored Q) (call : Call arch) : Except Abort (Mirrored Q) := do
  let tracked ← s.tracked.step call
  return ⟨tracked, call.mirror s.tracked.context s.kernel⟩

/-- The call succeeded in the kernel. -/
def succeeds (s : Mirrored Q) (pid : Pid) (registers : UserRegs arch) : Bool :=
  match s.tracked.context.procMap.lookup pid, kernelFdCallOf arch (syscallRegs arch registers) with
  | some p, some call => call.succeeds (s.kernel p)
  | _, _ => kernelCall arch (syscallRegs arch registers) != some .SYS_close

/-- What the kernel guarantees about a call. -/
def Allowed (s : Mirrored Q) : Call arch → Prop
  | .syscallExit _ pid registers => pid ∉ s.tracked.retired ∧ s.succeeds pid registers = true
  | call => s.tracked.Allowed call

instance (s : Mirrored Q) : (call : Call arch) → Decidable (s.Allowed call)
  | .syscallExit _ pid registers =>
    inferInstanceAs (Decidable (pid ∉ s.tracked.retired ∧ s.succeeds pid registers = true))
  | .registerThread pid thread =>
    inferInstanceAs (Decidable (s.tracked.Allowed (.registerThread pid thread : Call arch)))
  | .registerProcess os parent child =>
    inferInstanceAs (Decidable (s.tracked.Allowed (.registerProcess os parent child : Call arch)))
  | .registerExec os pid execpid =>
    inferInstanceAs (Decidable (s.tracked.Allowed (.registerExec os pid execpid : Call arch)))
  | .registerCoreDump _ _ _ => isTrue trivial
  | .vanishProcess _ => isTrue trivial

/-- The tracker reads the call as the kernel does, and the one word of flags is enough for it. -/
def flagsKept (s : Mirrored Q) : Call arch → Bool
  | .syscallExit _ pid registers =>
    match s.tracked.context.procMap.lookup pid, kernelFdCallOf arch (syscallRegs arch registers) with
    | some p, some call =>
      decide (kernelRegs arch (syscallRegs arch registers) = syscallRegs arch registers) &&
        call.flagsKept (s.kernel p) s.tracked.context p
    | _, _ => true
  | _ => true

/-- The invariant of a run: every tracked descriptor has the flag the kernel has for it. -/
structure Inv (s : Mirrored Q) : Prop where
  tracked : s.tracked.Inv
  agree : ∀ p, FlagsAgree (s.kernel p) s.tracked.context p

/-- A close that succeeded has not failed. -/
theorem close_ok {s : Mirrored Q} {pid : Pid} {registers : UserRegs arch}
    (h : s.succeeds pid registers = true)
    (hclose : syscallOf arch (syscallRegs arch registers).nr = some .SYS_close) :
    0 ≤ asInt (syscallRegs arch registers).retdata := by
  unfold succeeds at h
  split at h
  · rename_i p call hp hcall
    obtain ⟨hregs, _, hret⟩ := kernelRegs_of_syscallOf hclose
    rw [kernelFdCallOf, hregs] at hcall
    rw [← hret]
    exact (Option.ite_none_right_eq_some.mp hcall).1
  · simp [(kernelCall_of_syscallOf hclose).2] at h

/-- A descriptor the kernel just opened is not tracked. -/
theorem Inv.allowed {s : Mirrored Q} (hs : s.Inv) {call : Call arch} (h : s.Allowed call) :
    s.tracked.Allowed call := by
  cases call with
  | syscallExit os pid registers =>
    refine ⟨h.1, ?_⟩
    have hsucceeds := h.2
    unfold opensFree
    split
    · rename_i fd flags p hopens hp
      obtain ⟨op, hop, hfd⟩ := Option.bind_eq_some_iff.mp hopens
      have hfree : ∀ fd : Word, s.kernel p fd.toNat = none →
          (slot (s.tracked.context.heap.fds p) fd.toNat).isNone = true := by
        intro fd hnone
        rw [Option.isNone_iff_eq_none]
        by_contra hne
        obtain ⟨r, hslot⟩ := Option.ne_none_iff_exists'.mp hne
        have hopen := hs.agree p _ r hslot
        rw [hnone] at hopen
        cases hopen
      cases hcall : fdCallOf arch (syscallRegs arch registers) with
      | none =>
        have hkeeps := syscallSwitch_noFdCall hcall (close_ok hsucceeds) hop
        cases op <;> simp_all [Op.opens, Op.keepsFlags]
      | some call =>
        obtain ⟨call', hcall', hopened⟩ := kernelFdCallOf_some hcall
        simp only [succeeds, hp, hcall'] at hsucceeds
        rw [syscallSwitch_fdCall hcall] at hop
        cases hop
        exact hfree fd (hopened _ fd flags hfd hsucceeds)
    · rfl
  | _ => exact h

theorem inv_syscallExit {s : Mirrored Q} (hs : s.Inv) {os : Os} {pid : Pid}
    {registers : UserRegs arch} (hallowed : s.Allowed (.syscallExit os pid registers))
    (hkept : s.flagsKept (.syscallExit os pid registers) = true) {c' : Context Q}
    (h : s.tracked.context.syscallExit arch os pid registers = .ok c') (q : Nat) :
    FlagsAgree ((Call.syscallExit os pid registers).mirror s.tracked.context s.kernel q) c' q := by
  have howned : s.tracked.context.Owned s.tracked.retired := hs.tracked
  have hfree := (hs.allowed hallowed).2
  have hsucceeds := hallowed.2
  cases hp : s.tracked.context.procMap.lookup pid with
  | none =>
    rw [syscallExit_unmapped hp h]
    simp only [Call.mirror, hp]
    exact hs.agree q
  | some p =>
    have hsteps := syscallExit_steps hp (within_any hfree hp) h
    have hother : q ≠ p → FlagsAgree (s.kernel q) c' q := fun hne =>
      (hs.agree q).other howned.tidy (howned.registered.alloc pid p hp) hne hsteps
    unfold flagsKept at hkept
    unfold syscallExit at h
    cases hkernel : kernelFdCallOf arch (syscallRegs arch registers) with
    | none =>
      have hcall : fdCallOf arch (syscallRegs arch registers) = none := by
        rw [Option.eq_none_iff_forall_ne_some]
        intro call hcall
        obtain ⟨call', hcall', _⟩ := kernelFdCallOf_some hcall
        rw [hkernel] at hcall'
        cases hcall'
      simp only [Call.mirror, hp, hkernel]
      by_cases hq : q = p
      · subst hq
        split at h
        · cases h
          exact hs.agree q
        · rename_i op hop
          have hkeeps := syscallSwitch_noFdCall hcall (close_ok hsucceeds) hop
          exact keepsFlags_agree hp (hs.agree q) hkeeps h
      · exact hother hq
    | some call =>
      simp only [Call.mirror, hp, hkernel]
      simp only [hp, hkernel, Bool.and_eq_true, decide_eq_true_eq] at hkept
      have hcall : fdCallOf arch (syscallRegs arch registers) = some call := by
        rw [← hkernel, kernelFdCallOf, hkept.1]
      rw [syscallSwitch_fdCall hcall] at h
      by_cases hq : q = p
      · subst hq
        rw [Function.update_self]
        simp only [succeeds, hp, hkernel] at hsucceeds
        exact perform_agree howned.tidy hp (hs.agree q) hsucceeds hkept.2 h
      · rw [Function.update_of_ne hq]
        exact hother hq

theorem inv_step (s : Mirrored Q) (call : Call arch) (s' : Mirrored Q) (hs : s.Inv)
    (hcond : s.Allowed call ∧ s.flagsKept call = true) (h : s.step call = .ok s') : s'.Inv := by
  obtain ⟨hallowed, hkept⟩ := hcond
  obtain ⟨t, htracked, h⟩ := bind_eq_ok_iff.mp h
  rw [pure_eq_ok_iff] at h
  subst h
  refine ⟨Tracked.inv_step _ call t hs.tracked (hs.allowed hallowed) htracked, fun q => ?_⟩
  have howned : s.tracked.context.Owned s.tracked.retired := hs.tracked
  obtain ⟨c', hcall, ht⟩ := bind_eq_ok_iff.mp htracked
  rw [pure_eq_ok_iff] at ht
  subst ht
  cases call with
  | syscallExit os pid registers => exact inv_syscallExit hs hallowed hkept hcall q
  | registerThread pid thread =>
    obtain ⟨p, _, hcases⟩ :=
      registerThread_ok (fun old _ => howned.registered.kept hallowed.2 old) hcall
    rcases hcases with rfl | ⟨old, _, hempty, rfl⟩
    · exact hs.agree q
    · obtain ⟨_, _, hfiles, _⟩ := releaseProc_reports
        { s.tracked.context with procMap := s.tracked.context.procMap.insert thread p } old
      refine (hs.agree q).of_slots hfiles fun fd r hslot => ?_
      rwa [@releaseProc_slot Q _ { s.tracked.context with
        procMap := s.tracked.context.procMap.insert thread p } old hempty] at hslot
  | registerProcess os parent child =>
    obtain ⟨p, hp, _, rfl⟩ := registerProcess_ok hcall
    simp only [Call.mirror, hp]
    have hcopied := FlagsAgree.copied hs.agree howned.tidy os p false child parent q
    exact hcopied
  | registerExec os pid execpid =>
    have hexec : s.tracked.context.registerExec os pid execpid = .ok c' := hcall
    obtain ⟨p, c₁, hp, hv, rfl⟩ := howned.registered.registerExec_vanished hallowed hexec
    simp only [Call.mirror, hp]
    have hcopied := FlagsAgree.copied hs.agree howned.tidy os p true pid
      (s.tracked.context.heap.procs p).procInfo.ppid q
    have hagree := hcopied.vanished hv
    exact hagree
  | registerCoreDump os pid termSig =>
    obtain ⟨_, hheap, _, _⟩ := howned.tidy.registerCoreDump hcall
    apply (hs.agree q).of_slots
    · rw [hheap]
    · rw [hheap]
      exact fun _ _ h => h
  | vanishProcess pid =>
    obtain ⟨p, hp⟩ := vanishProcess_mapped hcall
    obtain ⟨c'', hrun, hv, _⟩ := @Owned.vanish Q _ arch _ _ howned _ _ hp
    rw [Call.apply, hrun] at hcall
    cases hcall
    exact (hs.agree q).vanished hv

/-- The tracee starts with the tracer's own descriptors. -/
def start (os : Os) (c₀ : Context Q) : Mirrored Q :=
  ⟨⟨c₀, ∅⟩, fun _ fd => (os.fdFlags fd).map fun flags => hasFlag flags FD_CLOEXEC⟩

/-- `FillFds` keeps what `F_GETFD` returns as a word of open flags, where close-on-exec is
another bit. -/
def FirstKept (os : Os) : Prop :=
  ∀ fd flags, os.fdFlags fd = some flags → os.isFile fd = true →
    hasFlag flags O_CLOEXEC = hasFlag flags FD_CLOEXEC

theorem inv_start {opts : Options} {os : Os} {tracee : Pid} {c₀ : Context Q}
    (hstart : (Context.new opts : Context Q).registerTracee os tracee = .ok c₀)
    (hfirst : FirstKept os) : (start os c₀).Inv := by
  have hc₀ := (Owned.new opts).registerTracee hstart
  rw [Finset.erase_empty] at hc₀
  refine ⟨hc₀, fun p fd r hslot => ?_⟩
  have hslot : slot (c₀.heap.fds p) fd = some r := hslot
  by_cases hp : p = (Context.new opts : Context Q).heap.procCount
  · subst hp
    obtain ⟨hsome, hfile⟩ := registerTracee_flags hstart hslot
    have hagree := hfirst fd _ hsome hfile
    show (os.fdFlags fd).map _ = some _
    rw [hsome, Option.map_some, ← hagree]
    rfl
  · have hsteps := (registerTracee_ok hstart).2
    rw [hsteps.others hp] at hslot
    simp only [Context.new, Heap.empty] at hslot hp
    rw [Heap.newProc_fds_ne _ hp] at hslot
    cases hslot

/-- An exec keeps exactly the tracked descriptors the kernel keeps, in every run in which one
word of flags was enough for each call. -/
theorem tracked_after_exec_iff {opts : Options} {os₀ : Os} {tracee : Pid} {c₀ : Context Q}
    {calls : List (Call arch)} {s s' : Mirrored Q} {os : Os} {pid execpid : Pid}
    (hstart : (Context.new opts : Context Q).registerTracee os₀ tracee = .ok c₀)
    (hfirst : FirstKept os₀)
    (hallowed : Runs.Along step Allowed (start os₀ c₀) calls)
    (hkept : Runs.Along step (fun s call => s.flagsKept call = true) (start os₀ c₀) calls)
    (hrun : Runs.run step (start os₀ c₀) calls = .ok s)
    (hexec : s.Allowed (.registerExec os pid execpid : Call arch))
    (h : s.step (.registerExec os pid execpid : Call arch) = .ok s') :
    ∃ p p', s.tracked.context.procMap.lookup pid = some p ∧
      s'.tracked.context.procMap.lookup pid = some p' ∧
      ∀ fd r, slot (s.tracked.context.heap.fds p) fd = some r →
        ((slot (s'.tracked.context.heap.fds p') fd).isSome ↔ s.kernel p fd = some false) := by
  have hs : s.Inv := by
    refine Runs.run_invariant inv_step (inv_start hstart hfirst) ?_ hrun
    exact hallowed.and hkept
  have howned : s.tracked.context.Owned s.tracked.retired := hs.tracked
  obtain ⟨t, htracked, h⟩ := bind_eq_ok_iff.mp h
  rw [pure_eq_ok_iff] at h
  subst h
  obtain ⟨c', hcall, ht⟩ := bind_eq_ok_iff.mp htracked
  rw [pure_eq_ok_iff] at ht
  subst ht
  have hregister : s.tracked.context.registerExec os pid execpid = .ok c' := hcall
  obtain ⟨p, c₁, hp, hv, rfl⟩ := howned.registered.registerExec_vanished hexec hregister
  refine ⟨p, s.tracked.context.heap.procCount, hp, ?_, fun fd r hslot => ?_⟩
  · exact Finmap.lookup_insert _
  · have hcopied := s.tracked.context.heap.copyTable_copied os true
      (s.tracked.context.heap.fds p)
    have halloc := howned.registered.alloc pid p hp
    have hnew : slot (c₁.heap.fds s.tracked.context.heap.procCount) fd =
        slot (s.tracked.context.heap.copyTable os true (s.tracked.context.heap.fds p)).1 fd := by
      rw [hv.slots, if_neg (fun heq => Nat.ne_of_gt halloc heq.1), copyProc_fds_self]
    have hkeeps : s.kernel p fd = some false ↔
        Heap.keeps true (s.tracked.context.heap.files r) = true := by
      rw [hs.agree p fd r hslot]
      simp [Heap.keeps]
    simp only [hnew]
    rw [hkeeps, Option.isSome_iff_exists]
    constructor
    · rintro ⟨r', hr'⟩
      obtain ⟨r₀, hslot₀, hkeep, _⟩ := hcopied.source fd r' hr'
      rw [hslot] at hslot₀
      cases hslot₀
      exact hkeep
    · exact hcopied.kept fd r hslot

end Mirrored

/-! ## Two runs on fixed inputs -/

/-- Descriptor 3 is opened with close-on-exec, 4 without, and 4 is duplicated to 5. -/
def openTwice : List (Call .x86_64) :=
  [exitOf 0 1 2 3 0 0o2000001 0 0, exitOf 0 1 2 4 0 1 0 0, exitOf 0 1 32 5 4 0 0 0]

open FileStorage in
theorem tracked_after_exec_openTwice :
    ∃ (c₀ : Context FileQueue) (s s' : Mirrored FileQueue),
      (Context.new plainOptions).registerTracee (plainOs 0) 1 = .ok c₀ ∧
      Runs.run Mirrored.step (Mirrored.start (plainOs 0) c₀) openTwice = .ok s ∧
      s.step (.registerExec (plainOs 0) 1 1 : Call .x86_64) = .ok s' ∧
      ∃ p p', s.tracked.context.procMap.lookup 1 = some p ∧
        s'.tracked.context.procMap.lookup 1 = some p' ∧
        ∀ fd r, slot (s.tracked.context.heap.fds p) fd = some r →
          ((slot (s'.tracked.context.heap.fds p') fd).isSome ↔ s.kernel p fd = some false) := by
  refine ⟨_, _, _, rfl, rfl, rfl, ?_⟩
  refine @Mirrored.tracked_after_exec_iff FileQueue _ .x86_64 plainOptions (plainOs 0) 1 _
    openTwice _ _ (plainOs 0) 1 1 rfl ?_ (by decide) (by decide) rfl (by decide) rfl
  intro fd flags hsome
  cases hsome

/-- `fcntl(3, F_SETFD, FD_CLOEXEC)` is stored as a word of open flags, where it does not mean
close-on-exec: descriptor 3 stays tracked over an exec that closes it. -/
theorem setFd_still_tracked :
    ∃ (c₀ : Context FileStorage.FileQueue) (s s' : Mirrored FileStorage.FileQueue),
      (Context.new plainOptions).registerTracee (plainOs 0) 1 = .ok c₀ ∧
      Mirrored.FirstKept (plainOs 0) ∧
      Runs.Along Mirrored.step Mirrored.Allowed (Mirrored.start (plainOs 0) c₀)
        [exitOf 0 1 2 3 0 1 0 0, exitOf 0 1 72 0 3 2 1 0] ∧
      Runs.run Mirrored.step (Mirrored.start (plainOs 0) c₀)
        [exitOf 0 1 2 3 0 1 0 0, exitOf 0 1 72 0 3 2 1 0] = .ok s ∧
      s.Allowed (.registerExec (plainOs 0) 1 1 : Call .x86_64) ∧
      s.step (.registerExec (plainOs 0) 1 1 : Call .x86_64) = .ok s' ∧
      s.tracked.context.procMap.lookup 1 = some 0 ∧ s'.tracked.context.procMap.lookup 1 = some 1 ∧
      (slot (s.tracked.context.heap.fds 0) 3).isSome ∧ s.kernel 0 3 = some true ∧
      (slot (s'.tracked.context.heap.fds 1) 3).isSome := by
  refine ⟨_, _, _, rfl, ?_, by decide, rfl, by decide, rfl, rfl, rfl, by decide, by decide,
    by decide⟩
  intro fd flags hsome
  cases hsome

end Optrace
