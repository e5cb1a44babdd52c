import Optrace.Accounting
import Optrace.Narrowing
import Optrace.ThreadReports

/-!
# The processes that hold a file

The kernel's side of a file that is open once: the descriptors that refer to it, of which
processes, and its length. The kernel goes by the low half of the number of a call and of a
descriptor, and a process is named by its leader. While the calls that close descriptors name
them by plain words, the tracker has a state of the file in the slots of just these descriptors.
-/

namespace Optrace

set_option autoImplicit false
set_option linter.unusedSectionVars false

open SlotTable Except Context

variable {Q : Type} [MaxOutFilesQueue Q] {arch : Arch}

/-! ## What the kernel does for a call -/

def O_ACCMODE : Word := 0o3
def O_CREAT : Word := 0o100
def O_TRUNC : Word := 0o1000

/-- The call ended in an error. -/
def failed (r : SyscallRegs) : Bool :=
  decide (-4095 ≤ r.retdata.toInt) && decide (r.retdata.toInt < 0)

/-- The flags a call opens a file with; `creat` has none of its own. -/
def openFlags (arch : Arch) (r : SyscallRegs) : Option Word :=
  match kernelCall arch r with
  | some .SYS_creat => some (O_CREAT ||| O_WRONLY ||| O_TRUNC)
  | some .SYS_open => some r.arg1
  | some .SYS_openat => some r.arg2
  | _ => none

/-- The descriptor a call closes, by itself or to put a copy of another in its place. A `close`
that fails has closed its descriptor too, if there was one. -/
def closedBy (arch : Arch) (r : SyscallRegs) : Option Word :=
  match kernelCall arch r with
  | some .SYS_close => some r.arg0
  | some .SYS_dup2 | some .SYS_dup3 =>
    if 0 ≤ asInt r.retdata ∧ lowHalf r.arg0 ≠ lowHalf r.arg1 then some r.arg1 else none
  | _ => none

/-- The group leader each tid has after a call on the tracker. -/
def Call.regroup (leader : Pid → Pid) : Call arch → Pid → Pid
  | .registerThread pid thread => Function.update leader thread (leader pid)
  | .registerProcess _ _ child => Function.update leader child child
  | _ => leader

/-- The open file: the leader of each thread, the descriptors that refer to the file, each with
the leader of its process, whether an exec closes them, and the length. -/
structure HeldFile where
  leader : Pid → Pid
  held : Finset (Pid × Nat)
  cloexec : Bool
  length : Nat

namespace HeldFile

/-- The word names a descriptor of the file. -/
def names (k : HeldFile) (tid : Pid) (fd : Word) : Bool :=
  decide ((k.leader tid, (lowHalf fd).toNat) ∈ k.held)

/-- The bytes a call has written to the file. -/
def bytesWritten (k : HeldFile) (arch : Arch) (tid : Pid) (r : SyscallRegs) : Nat :=
  match kernelCall arch r with
  | some .SYS_write | some .SYS_writev =>
    if k.names tid r.arg0 ∧ 0 < r.retdata.toInt then r.retdata.toNat else 0
  | _ => 0

/-- Each write goes to the end of the file, where the one offset stands. -/
def exit (k : HeldFile) (arch : Arch) (tid : Pid) (r : SyscallRegs) : HeldFile :=
  { k with
    length := k.length + k.bytesWritten arch tid r
    held := match closedBy arch r with
      | some fd => k.held.erase (k.leader tid, (lowHalf fd).toNat)
      | none => k.held }

/-- The child has copies of its parent's descriptors. -/
def fork (k : HeldFile) (parent child : Pid) : HeldFile :=
  { k with
    leader := Function.update k.leader child child
    held := k.held ∪ (k.held.filter fun d => d.1 = k.leader parent).image fun d => (child, d.2) }

def exec (k : HeldFile) (pid : Pid) : HeldFile :=
  if k.cloexec then { k with held := k.held.filter fun d => d.1 ≠ k.leader pid } else k

/-- A process is gone when its leader is. -/
def vanish (k : HeldFile) (pid : Pid) : HeldFile :=
  if k.leader pid = pid then { k with held := k.held.filter fun d => d.1 ≠ pid } else k

/-- The file just after an open that leaves it empty. -/
def opened (leader : Pid → Pid) (arch : Arch) (tid : Pid) (r : SyscallRegs) : HeldFile where
  leader := leader
  held := {(leader tid, r.retdata.toNat)}
  cloexec := (openFlags arch r).any fun flags => hasFlag flags O_CLOEXEC
  length := 0

/-- What the kernel has done when the call is made on the tracker. -/
def after (k : HeldFile) : Call arch → HeldFile
  | .syscallExit _ tid registers => k.exit arch tid (syscallRegs arch registers)
  | .registerThread pid thread =>
    { k with leader := Function.update k.leader thread (k.leader pid) }
  | .registerProcess _ parent child => k.fork parent child
  | .registerExec _ pid _ => k.exec pid
  | .registerCoreDump _ _ _ => k
  | .vanishProcess pid => k.vanish pid

/-- The call opens other files only, and does nothing with a descriptor of this one but to write
or to close; a descriptor it returns was free. Calls of other numbers have nothing to do with it. -/
def leavesAlone (k : HeldFile) (arch : Arch) (filename : String) (os : Os) (tid : Pid)
    (r : SyscallRegs) : Bool :=
  failed r ||
  match kernelCall arch r with
  | none | some .SYS_write | some .SYS_writev | some .SYS_close => true
  | some .SYS_creat | some .SYS_open | some .SYS_openat =>
    (openFlags arch r).all fun flags =>
      !hasFlag flags O_ACCMODE || os.readlink (fdPath tid r.retdata.toNat) != some filename
  | some .SYS_fcntl =>
    if lowHalf r.arg1 = F_DUPFD ∨ lowHalf r.arg1 = F_DUPFD_CLOEXEC then
      !k.names tid r.arg0 && !k.names tid r.retdata
    else !decide (lowHalf r.arg1 = F_SETFL ∨ lowHalf r.arg1 = F_SETFD) || !k.names tid r.arg0
  | some .SYS_dup => !k.names tid r.arg0 && !k.names tid r.retdata
  | some .SYS_dup2 | some .SYS_dup3 | some .SYS_pwritev | some .SYS_pwrite64 | some .SYS_pwritev2
  | some .SYS_fallocate | some .SYS_ftruncate | some .SYS_lseek => !k.names tid r.arg0

/-- A call that closes a descriptor of the file has plain words for its number and for the
descriptor. -/
def closesPlainly (k : HeldFile) (arch : Arch) (tid : Pid) (r : SyscallRegs) : Bool :=
  (closedBy arch r).all fun fd =>
    !k.names tid fd || (decide (lowHalf r.nr = r.nr) && decide (lowHalf fd = fd))

end HeldFile

namespace HeldFile

variable (k : HeldFile) (call : Call arch)

theorem after_cloexec : (k.after call).cloexec = k.cloexec := by
  cases call with
  | registerExec os pid execpid =>
    simp only [after, exec]
    split <;> rfl
  | vanishProcess pid =>
    simp only [after, vanish]
    split <;> rfl
  | _ => rfl

theorem after_leader : (k.after call).leader = call.regroup k.leader := by
  cases call with
  | registerExec os pid execpid =>
    simp only [after, exec]
    split <;> rfl
  | vanishProcess pid =>
    simp only [after, vanish]
    split <;> rfl
  | _ => rfl

/-- The file grows by system calls only. -/
theorem after_length : (k.after call).length = k.length + match call with
    | .syscallExit _ tid registers => k.bytesWritten arch tid (syscallRegs arch registers)
    | _ => 0 := by
  cases call with
  | registerExec os pid execpid =>
    simp only [after, exec]
    split <;> rfl
  | vanishProcess pid =>
    simp only [after, vanish]
    split <;> rfl
  | _ => rfl

end HeldFile

/-! ## Plain words -/

theorem opensForWriting_accmode {flags : Word} (h : opensForWriting flags = true) :
    hasFlag flags O_ACCMODE = true := by
  by_contra hzero
  have hmode : flags &&& O_ACCMODE = 0 := by simpa [hasFlag] using hzero
  have hpart : ∀ mask, O_ACCMODE &&& mask = mask → hasFlag flags mask = false := by
    intro mask hmask
    rw [hasFlag, ← hmask, ← BitVec.and_assoc, hmode]
    simp
  rw [opensForWriting, hpart O_WRONLY (by decide), hpart O_RDWR (by decide)] at h
  cases h

theorem opensForWriting_of_accmode {flags : Word} (h : hasFlag flags O_ACCMODE = true) :
    opensForWriting flags = true := by
  have hmode : flags &&& O_ACCMODE = flags &&& O_WRONLY ||| flags &&& O_RDWR := by
    rw [← BitVec.and_or_distrib_left]
    rfl
  by_contra hzero
  simp only [opensForWriting, hasFlag, Bool.or_eq_true, bne_iff_ne, ne_eq, not_or, not_not] at hzero
  simp [hasFlag, hmode, hzero.1, hzero.2] at h

theorem not_failed {r : SyscallRegs} (h : 0 ≤ asInt r.retdata ∨ 0 < r.retdata.toInt) :
    failed r = false := by
  unfold failed
  by_contra hfails
  simp only [Bool.not_eq_false, Bool.and_eq_true, decide_eq_true_eq] at hfails
  have hneg := asInt_error hfails.1 hfails.2
  omega

/-! ## The names of the files in a table -/

/-- Which file is in each slot after an operation. -/
def Op.moves (os : Os) (pid : Pid) (t : Nat → Option String) : Op → Nat → Option String
  | .opOpenWriteFile fd _ => Function.update t fd.toNat (os.readlink (fdPath pid fd.toNat))
  | .opOpenFile fd flags =>
    if opensForWriting flags then Function.update t fd.toNat (os.readlink (fdPath pid fd.toNat))
    else t
  | .opClose fd => Function.update t fd.toNat none
  | .opDup fd newfd => (TableCall.dup2 fd newfd).effect t
  | .opDup2 oldfd newfd => (TableCall.dup2 oldfd newfd).effect t
  | .opDup3 oldfd newfd _ => (TableCall.dup2 oldfd newfd).effect t
  | _ => t

theorem Op.moves_of_opens {os : Os} {pid : Pid} {t : Nat → Option String} {op : Op}
    {fd flags : Word} (h : op.opens = some (fd, flags)) :
    op.moves os pid t = Function.update t fd.toNat (os.readlink (fdPath pid fd.toNat)) := by
  cases op with
  | opOpenWriteFile fd' flags' =>
    cases h
    rfl
  | opOpenFile fd' flags' =>
    obtain ⟨hwrite, h⟩ := Option.ite_none_right_eq_some.mp h
    cases h
    exact if_pos hwrite
  | _ => cases h

namespace Context

variable {c c' : Context Q} {p : Nat} {pid : Pid}

/-- The file whose state is in a slot. -/
def nameAt (c : Context Q) (p fd : Nat) : Option String :=
  (slot (c.heap.fds p) fd).map fun r => (c.heap.files r).filename

theorem nameAt_eq_some_iff {fd : Nat} {filename : String} : c.nameAt p fd = some filename ↔
    ∃ r, slot (c.heap.fds p) fd = some r ∧ (c.heap.files r).filename = filename := by
  rw [nameAt, Option.map_eq_some_iff]

theorem opDup3_binds {oldfd newfd flags : Word} {done : Bool} {t : Nat → Option String}
    (hp : c.procMap.lookup pid = some p) (hb : Binds t c p)
    (h : c.opDup3 pid oldfd newfd flags = .ok (c', done)) :
    Binds ((TableCall.dup2 oldfd newfd).effect t) c' p := by
  rcases opDup3_ok hp h with hdup | ⟨c₁, r, hdup, _, rfl⟩
  · exact opDup2_binds hp hb hdup
  · exact (opDup2_binds hp hb hdup).updateFile rfl

theorem perform_moves {os : Os} {op : Op} {t : Nat → Option String} (hc : c.Tidy)
    (hp : c.procMap.lookup pid = some p) (hb : Binds t c p)
    (h : c.perform os pid op = .ok c') : Binds (op.moves os pid t) c' p := by
  have hopen : ∀ fd flags : Word, c.opOpenWriteFile os pid fd flags = .ok c' →
      Binds (Function.update t fd.toNat (os.readlink (fdPath pid fd.toNat))) c' p := by
    intro fd flags h
    obtain ⟨filename, _, hlink, _⟩ := opOpenWriteFile_ok hp h
    rw [hlink]
    exact opOpenWriteFile_binds hc hp hb hlink h
  cases op with
  | opOpenWriteFile fd flags => exact hopen fd flags h
  | opOpenFile fd flags =>
    rw [perform, opOpenFile] at h
    rw [Op.moves]
    split
    · rename_i hwrite
      rw [if_pos hwrite] at h
      exact hopen fd flags h
    · rename_i hread
      rw [if_neg hread] at h
      cases h
      exact hb
  | opClose fd =>
    rw [perform, opClose_eq hp] at h
    cases h
    exact hb.closedAt fd.toNat
  | opDup fd newfd =>
    obtain ⟨⟨c₁, done⟩, hdup, h⟩ := bind_eq_ok_iff.mp h
    cases h
    exact opDup2_binds hp hb hdup
  | opDup2 oldfd newfd =>
    obtain ⟨⟨c₁, done⟩, hdup, h⟩ := bind_eq_ok_iff.mp h
    cases h
    exact opDup2_binds hp hb hdup
  | opDup3 oldfd newfd flags =>
    obtain ⟨⟨c₁, done⟩, hdup, h⟩ := bind_eq_ok_iff.mp h
    cases h
    exact opDup3_binds hp hb hdup
  | opWriteChangeOffset fd offset =>
    exact opOnTracked_binds (f := FileState.enroll offset) hp (fun _ => rfl) hb h
  | opWriteNoOffsetChange fd nbytes offset =>
    exact opOnTracked_binds (f := FileState.enrollNoShift nbytes offset) hp (fun _ => rfl) hb h
  | opSetFlag fd flags =>
    exact opOnTracked_binds (f := FileState.setFlags flags) hp (fun _ => rfl) hb h
  | opResize fd size =>
    exact opOnTracked_binds (f := FileState.enrollNoShift size 0) hp (fun _ => rfl) hb h
  | opSeek fd pos =>
    exact opOnTracked_binds (f := FileState.setCurrPos pos) hp (fun _ => rfl) hb h

end Context

/-! ## One system call -/

namespace HeldFile

variable {k : HeldFile} {filename : String} {os : Os} {tid : Pid} {r : SyscallRegs}
  {t : Nat → Option String}

/-- The slots of one table that have a state of the file are the descriptors the process has. -/
structure Matches (k : HeldFile) (filename : String) (tid : Pid) (t : Nat → Option String) :
    Prop where
  small : ∀ d ∈ k.held, d.2 < 2 ^ 32
  slots : ∀ fd, t fd = some filename ↔ (k.leader tid, fd) ∈ k.held

theorem Matches.names_of_slot (h : k.Matches filename tid t) {fd : Word}
    (hfd : t fd.toNat = some filename) : lowHalf fd = fd ∧ k.names tid fd = true := by
  have hmem := (h.slots fd.toNat).mp hfd
  have hlow := lowHalf_of_lt (h.small _ hmem)
  exact ⟨hlow, by rw [names, hlow]; exact decide_eq_true hmem⟩

theorem Matches.slot_ne (h : k.Matches filename tid t) {fd : Word}
    (hnames : k.names tid fd = false) : t fd.toNat ≠ some filename := by
  intro hfd
  rw [(h.names_of_slot hfd).2] at hnames
  cases hnames

/-- A slot that gets another file or none. -/
theorem update_eq_some_iff {fd i : Nat} {v : Option String} (hv : v ≠ some filename) :
    Function.update t fd v i = some filename ↔ i ≠ fd ∧ t i = some filename := by
  by_cases hi : i = fd
  · subst hi
    simp [hv]
  · rw [Function.update_of_ne hi]
    exact ⟨fun h => ⟨hi, h⟩, fun h => h.2⟩

theorem Matches.update_other (h : k.Matches filename tid t) {fd : Nat} {v : Option String}
    (hv : v ≠ some filename) (hfd : t fd ≠ some filename) (i : Nat) :
    Function.update t fd v i = some filename ↔ (k.leader tid, i) ∈ k.held := by
  rw [update_eq_some_iff hv, ← h.slots]
  refine ⟨fun hi => hi.2, fun hi => ⟨?_, hi⟩⟩
  rintro rfl
  exact hfd hi

/-- What is closed under a plain word is closed by both. -/
theorem Matches.update_closed (h : k.Matches filename tid t) {fd : Word} {v : Option String}
    (hv : v ≠ some filename) (hplain : k.names tid fd = true → lowHalf fd = fd) (i : Nat) :
    Function.update t fd.toNat v i = some filename ↔
      (k.leader tid, i) ∈ k.held.erase (k.leader tid, (lowHalf fd).toNat) := by
  rw [Finset.mem_erase]
  by_cases hnames : k.names tid fd = true
  · rw [hplain hnames, update_eq_some_iff hv, h.slots]
    simp
  · rw [h.update_other hv (h.slot_ne (by simpa using hnames))]
    refine ⟨fun hi => ⟨?_, hi⟩, fun hi => hi.2⟩
    intro heq
    rw [heq] at hi
    exact hnames (decide_eq_true hi)

theorem exit_held_none (h : closedBy arch r = none) : (k.exit arch tid r).held = k.held := by
  rw [exit, h]

theorem exit_held_some {fd : Word} (h : closedBy arch r = some fd) :
    (k.exit arch tid r).held = k.held.erase (k.leader tid, (lowHalf fd).toNat) := by
  rw [exit, h]

theorem plain_of_closes (hplain : k.closesPlainly arch tid r = true) {fd : Word}
    (hclosed : closedBy arch r = some fd) (hnames : k.names tid fd = true) :
    lowHalf r.nr = r.nr ∧ lowHalf fd = fd := by
  simpa [closesPlainly, hclosed, hnames] using hplain

/-- Nothing is closed but by words that name no descriptor of the file. -/
theorem exit_held_idle (hplain : k.closesPlainly arch tid r = true)
    (hidle : lowHalf r.nr = r.nr → closedBy arch r = none) :
    (k.exit arch tid r).held = k.held := by
  cases hclosed : closedBy arch r with
  | none => exact exit_held_none hclosed
  | some fd =>
    have hnot : (k.leader tid, (lowHalf fd).toNat) ∉ k.held := by
      intro hmem
      obtain ⟨hnr, _⟩ := plain_of_closes hplain hclosed (decide_eq_true hmem)
      rw [hidle hnr] at hclosed
      cases hclosed
    rw [exit_held_some hclosed, Finset.erase_eq_of_notMem hnot]

theorem Matches.exit_dup2 (h : k.Matches filename tid t)
    (hplain : k.closesPlainly arch tid r = true) {oldfd newfd : Word}
    (hold : k.names tid oldfd = false)
    (hclosed : closedBy arch r = if lowHalf oldfd ≠ lowHalf newfd then some newfd else none)
    (i : Nat) : (TableCall.dup2 oldfd newfd).effect t i = some filename ↔
      (k.leader tid, i) ∈ (k.exit arch tid r).held := by
  have hv : t oldfd.toNat ≠ some filename := h.slot_ne hold
  rw [TableCall.effect_dup2]
  by_cases hlow : lowHalf oldfd = lowHalf newfd
  · rw [if_neg (not_not.mpr hlow)] at hclosed
    rw [exit_held_none hclosed]
    split
    · exact h.slots i
    · -- two words for one descriptor, which is not one of the file's
      have hnew : k.names tid newfd = false := by
        rw [← hold, names, names, hlow]
      exact h.update_other hv (h.slot_ne hnew) i
  · have hne : oldfd ≠ newfd := fun heq => hlow (heq ▸ rfl)
    rw [if_pos hlow] at hclosed
    rw [if_neg hne, exit_held_some hclosed]
    exact h.update_closed hv (fun hnames => (plain_of_closes hplain hclosed hnames).2) i

/-- A descriptor the kernel hands out was free. -/
theorem Matches.exit_dup (h : k.Matches filename tid t) {oldfd newfd : Word}
    (hold : k.names tid oldfd = false) (hnew : k.names tid newfd = false)
    (hclosed : closedBy arch r = none) (i : Nat) :
    (TableCall.dup2 oldfd newfd).effect t i = some filename ↔
      (k.leader tid, i) ∈ (k.exit arch tid r).held := by
  rw [TableCall.effect_dup2, exit_held_none hclosed]
  split
  · exact h.slots i
  · exact h.update_other (h.slot_ne hold) (h.slot_ne hnew) i

/-- A file opened for writing is another one. -/
theorem opens_other (hleaves : k.leavesAlone arch filename os tid r = true)
    (hfails : failed r = false) {flags : Word} (hflags : openFlags arch r = some flags)
    (hwrite : hasFlag flags O_ACCMODE = true) :
    os.readlink (fdPath tid r.retdata.toNat) ≠ some filename := by
  rw [leavesAlone, hfails, Bool.false_or] at hleaves
  unfold openFlags at hflags
  split at hflags
  all_goals
    rename_i hcall
    first
    | cases hflags
      simpa [hcall, openFlags, hwrite] using hleaves
    | cases hflags

/-- A plain number under which the switch does nothing is one of a call that closes nothing. -/
theorem closedBy_of_idle (hnone : syscallSwitch arch r = none) (hnr : lowHalf r.nr = r.nr) :
    closedBy arch r = none := by
  cases hsys : syscallOf arch r.nr with
  | none => rw [closedBy, kernelCall, hnr, hsys]
  | some s =>
    have hcall := (kernelCall_of_syscallOf hsys).2
    rw [syscallSwitch, hsys] at hnone
    cases s <;> simp only [closedBy, hcall]
    case SYS_close => cases hnone
    all_goals
      simp only [ite_eq_right_iff, reduceCtorEq, imp_false] at hnone
      exact if_neg fun hdone => hnone hdone.1

theorem Matches.exit_unclosed (h : k.Matches filename tid t) (hclosed : closedBy arch r = none)
    (i : Nat) : t i = some filename ↔ (k.leader tid, i) ∈ (k.exit arch tid r).held := by
  rw [exit_held_none hclosed]
  exact h.slots i

/-- An open puts another file into a free slot, or nothing. -/
theorem Matches.exit_open (h : k.Matches filename tid t)
    (hleaves : k.leavesAlone arch filename os tid r = true) (hok : 0 ≤ asInt r.retdata)
    {flags : Word} (hflags : openFlags arch r = some flags) (hclosed : closedBy arch r = none)
    (hfree : opensForWriting flags = true → t r.retdata.toNat = none) (i : Nat) :
    (if opensForWriting flags then
        Function.update t r.retdata.toNat (os.readlink (fdPath tid r.retdata.toNat))
      else t) i = some filename ↔ (k.leader tid, i) ∈ (k.exit arch tid r).held := by
  rw [exit_held_none hclosed]
  split
  · rename_i hwrite
    have hother := opens_other hleaves (not_failed (Or.inl hok)) hflags
      (opensForWriting_accmode hwrite)
    exact h.update_other hother (by simp [hfree hwrite]) i
  · exact h.slots i

/-- An operation leaves the tracker with the slots of the descriptors that are left in the
kernel. -/
theorem Matches.exit_moves (h : k.Matches filename tid t)
    (hleaves : k.leavesAlone arch filename os tid r = true)
    (hplain : k.closesPlainly arch tid r = true) {op : Op} (hop : syscallSwitch arch r = some op)
    (hfree : ∀ fd flags, op.opens = some (fd, flags) → t fd.toNat = none) (i : Nat) :
    op.moves os tid t i = some filename ↔ (k.leader tid, i) ∈ (k.exit arch tid r).held := by
  cases hsys : syscallOf arch r.nr with
  | none =>
    rw [syscallSwitch_none hsys] at hop
    cases hop
  | some s =>
    have hcall := (kernelCall_of_syscallOf hsys).2
    rw [syscallSwitch, hsys] at hop
    cases s with
    | SYS_creat =>
      obtain ⟨hok, rfl⟩ : 0 ≤ asInt r.retdata ∧ Op.opOpenWriteFile r.retdata r.arg1 = op := by
        simpa using hop
      have hflags : openFlags arch r = some (O_CREAT ||| O_WRONLY ||| O_TRUNC) := by
        rw [openFlags, hcall]
      exact h.exit_open hleaves hok hflags (by rw [closedBy, hcall]) (fun _ => hfree _ _ rfl) i
    | SYS_open =>
      obtain ⟨hok, rfl⟩ : 0 ≤ asInt r.retdata ∧ Op.opOpenFile r.retdata r.arg1 = op := by
        simpa using hop
      exact h.exit_open hleaves hok (by rw [openFlags, hcall]) (by rw [closedBy, hcall])
        (fun hwrite => hfree _ _ (if_pos hwrite)) i
    | SYS_openat =>
      obtain ⟨hok, rfl⟩ : 0 ≤ asInt r.retdata ∧ Op.opOpenFile r.retdata r.arg2 = op := by
        simpa using hop
      exact h.exit_open hleaves hok (by rw [openFlags, hcall]) (by rw [closedBy, hcall])
        (fun hwrite => hfree _ _ (if_pos hwrite)) i
    | SYS_close =>
      cases hop
      have hclosed : closedBy arch r = some r.arg0 := by rw [closedBy, hcall]
      rw [exit_held_some hclosed]
      exact h.update_closed (by simp) (fun hnames => (plain_of_closes hplain hclosed hnames).2) i
    | SYS_dup2 =>
      obtain ⟨hok, rfl⟩ : 0 ≤ asInt r.retdata ∧ Op.opDup2 r.arg0 r.arg1 = op := by simpa using hop
      rw [leavesAlone, not_failed (Or.inl hok), hcall] at hleaves
      refine h.exit_dup2 hplain (by simpa using hleaves) ?_ i
      simp only [closedBy, hcall, hok, true_and]
    | SYS_dup3 =>
      obtain ⟨hok, rfl⟩ : 0 ≤ asInt r.retdata ∧ Op.opDup3 r.arg0 r.arg1 r.arg2 = op := by
        simpa using hop
      rw [leavesAlone, not_failed (Or.inl hok), hcall] at hleaves
      refine h.exit_dup2 hplain (by simpa using hleaves) ?_ i
      simp only [closedBy, hcall, hok, true_and]
    | SYS_dup =>
      obtain ⟨hok, rfl⟩ : 0 ≤ asInt r.retdata ∧ Op.opDup r.arg0 r.retdata = op := by
        simpa using hop
      rw [leavesAlone, not_failed (Or.inl hok), hcall] at hleaves
      simp only [Bool.false_or, Bool.and_eq_true, Bool.not_eq_true'] at hleaves
      exact h.exit_dup hleaves.1 hleaves.2 (by rw [closedBy, hcall]) i
    | SYS_fcntl =>
      obtain ⟨hok, hop⟩ : 0 ≤ asInt r.retdata ∧ fcntlSwitch r = some op := by simpa using hop
      have hclosed : closedBy arch r = none := by rw [closedBy, hcall]
      rw [leavesAlone, not_failed (Or.inl hok), hcall] at hleaves
      rw [lowHalf_command hop] at hleaves
      rcases fcntlSwitch_ok hop with ⟨hcmd, rfl⟩ | ⟨hcmd, rfl⟩ | ⟨_, rfl⟩
      · have hfree : k.names tid r.arg0 = false ∧ k.names tid r.retdata = false := by
          simpa [hcmd] using hleaves
        exact h.exit_dup hfree.1 hfree.2 hclosed i
      · have hfree : k.names tid r.arg0 = false ∧ k.names tid r.retdata = false := by
          simpa [hcmd] using hleaves
        exact h.exit_dup hfree.1 hfree.2 hclosed i
      · exact h.exit_unclosed hclosed i
    | _ =>
      obtain ⟨_, rfl⟩ := (by simpa using hop : _ ∧ _ = op)
      exact h.exit_unclosed (by rw [closedBy, hcall]) i

/-- What an operation changes is a state of the file only if the call is a write. -/
theorem changes_written (hleaves : k.leavesAlone arch filename os tid r = true) {op : Op}
    (hop : syscallSwitch arch r = some op) {fd : Word} {f : FileState → FileState}
    (hchange : op.changes = some (fd, f)) (hnames : k.names tid fd = true) :
    fd = r.arg0 ∧ op = .opWriteChangeOffset r.arg0 r.retdata ∧
      k.bytesWritten arch tid r = r.retdata.toNat := by
  cases hsys : syscallOf arch r.nr with
  | none =>
    rw [syscallSwitch_none hsys] at hop
    cases hop
  | some s =>
    have hcall := (kernelCall_of_syscallOf hsys).2
    rw [leavesAlone, hcall] at hleaves
    rw [syscallSwitch, hsys] at hop
    -- every other operation that changes a state is on the first argument
    have hother : 0 ≤ asInt r.retdata ∨ 0 < r.retdata.toInt →
        (failed r || !k.names tid r.arg0) = true → fd ≠ r.arg0 := by
      rintro hok huses rfl
      rw [not_failed hok, hnames] at huses
      cases huses
    cases s with
    | SYS_write =>
      obtain ⟨hpos, hop⟩ := Option.ite_none_right_eq_some.mp hop
      cases hop
      cases hchange
      exact ⟨rfl, rfl, by rw [bytesWritten, hcall]; exact if_pos ⟨hnames, hpos⟩⟩
    | SYS_writev =>
      obtain ⟨hpos, hop⟩ := Option.ite_none_right_eq_some.mp hop
      cases hop
      cases hchange
      exact ⟨rfl, rfl, by rw [bytesWritten, hcall]; exact if_pos ⟨hnames, hpos⟩⟩
    | SYS_close =>
      cases hop
      cases hchange
    | SYS_fcntl =>
      obtain ⟨hok, hop⟩ := Option.ite_none_right_eq_some.mp hop
      rw [not_failed (Or.inl hok), Bool.false_or] at hleaves
      rw [lowHalf_command hop] at hleaves
      rcases fcntlSwitch_ok hop with ⟨_, rfl⟩ | ⟨hcmd, rfl⟩ | ⟨hcmd, rfl⟩
      · cases hchange
      · cases hchange
        simp [hcmd, hnames] at hleaves
      · cases hchange
        have hdup : ¬(r.arg1 = F_DUPFD ∨ r.arg1 = F_DUPFD_CLOEXEC) := by
          rcases hcmd with hcmd | hcmd <;> rw [hcmd] <;> decide
        rw [if_neg hdup] at hleaves
        simp [hcmd, hnames] at hleaves
    | SYS_creat | SYS_open | SYS_openat | SYS_dup | SYS_dup2 =>
      obtain ⟨_, hop⟩ := Option.ite_none_right_eq_some.mp hop
      cases hop
      cases hchange
    | SYS_pwritev | SYS_pwrite64 | SYS_pwritev2 =>
      obtain ⟨hpos, hop⟩ := Option.ite_none_right_eq_some.mp hop
      cases hop
      cases hchange
      exact absurd rfl (hother (Or.inr hpos) hleaves)
    | SYS_dup3 | SYS_fallocate | SYS_ftruncate | SYS_lseek =>
      obtain ⟨hok, hop⟩ := Option.ite_none_right_eq_some.mp hop
      cases hop
      cases hchange
      exact absurd rfl (hother (Or.inl hok) hleaves)

/-- A write to the file under a plain number is one for the tracker. -/
theorem written_switch (hbytes : 0 < k.bytesWritten arch tid r) (hnr : lowHalf r.nr = r.nr) :
    syscallSwitch arch r = some (.opWriteChangeOffset r.arg0 r.retdata) ∧
      k.names tid r.arg0 = true ∧ k.bytesWritten arch tid r = r.retdata.toNat := by
  have hwrite : ∀ sys, kernelCall arch r = some sys → sys = .SYS_write ∨ sys = .SYS_writev →
      k.names tid r.arg0 = true ∧ 0 < r.retdata.toInt ∧
        k.bytesWritten arch tid r = r.retdata.toNat := by
    intro sys hcall hsys
    have hcount : k.bytesWritten arch tid r =
        if k.names tid r.arg0 ∧ 0 < r.retdata.toInt then r.retdata.toNat else 0 := by
      rcases hsys with rfl | rfl <;> rw [bytesWritten, hcall]
    rw [hcount] at hbytes ⊢
    split at hbytes
    · rename_i hdone
      exact ⟨hdone.1, hdone.2, if_pos hdone⟩
    · cases hbytes
  cases hcall : kernelCall arch r with
  | none => simp [bytesWritten, hcall] at hbytes
  | some sys =>
    have hsys : syscallOf arch r.nr = some sys := by rw [← hcall, kernelCall, hnr]
    cases sys with
    | SYS_write | SYS_writev =>
      obtain ⟨hnames, hpos, hcount⟩ := hwrite _ hcall (by simp)
      exact ⟨by rw [syscallSwitch, hsys]; exact if_pos hpos, hnames, hcount⟩
    | _ => simp [bytesWritten, hcall] at hbytes

/-- An operation that opens a file stems from an open in the kernel. -/
theorem switch_opens {op : Op} (hop : syscallSwitch arch r = some op) {fd flags : Word}
    (hopens : op.opens = some (fd, flags)) : fd = r.retdata ∧ 0 ≤ asInt r.retdata ∧
      ∃ flags', openFlags arch r = some flags' ∧ opensForWriting flags' = true := by
  cases hsys : syscallOf arch r.nr with
  | none =>
    rw [syscallSwitch_none hsys] at hop
    cases hop
  | some s =>
    have hcall := (kernelCall_of_syscallOf hsys).2
    rw [syscallSwitch, hsys] at hop
    cases s with
    | SYS_creat =>
      obtain ⟨hok, hop⟩ := Option.ite_none_right_eq_some.mp hop
      cases hop
      cases hopens
      exact ⟨rfl, hok, O_CREAT ||| O_WRONLY ||| O_TRUNC, by rw [openFlags, hcall], by decide⟩
    | SYS_open | SYS_openat =>
      obtain ⟨hok, hop⟩ := Option.ite_none_right_eq_some.mp hop
      cases hop
      obtain ⟨hwrite, hopens⟩ := Option.ite_none_right_eq_some.mp hopens
      cases hopens
      exact ⟨rfl, hok, _, by rw [openFlags, hcall], hwrite⟩
    | SYS_close =>
      cases hop
      cases hopens
    | SYS_fcntl =>
      obtain ⟨_, hop⟩ := Option.ite_none_right_eq_some.mp hop
      rcases fcntlSwitch_ok hop with ⟨_, rfl⟩ | ⟨_, rfl⟩ | ⟨_, rfl⟩ <;> cases hopens
    | _ =>
      obtain ⟨_, hop⟩ := Option.ite_none_right_eq_some.mp hop
      cases hop
      cases hopens

/-- The tracker sees an open for writing under a plain number. What `creat` takes for the flags is
the mode. -/
theorem opens_switch (hnr : lowHalf r.nr = r.nr) (hok : 0 ≤ asInt r.retdata) {flags : Word}
    (hflags : openFlags arch r = some flags) (hwrite : hasFlag flags O_ACCMODE = true)
    (hmode : kernelCall arch r = some .SYS_creat → hasFlag r.arg1 O_CLOEXEC = false) :
    ∃ op flags', syscallSwitch arch r = some op ∧ op.opens = some (r.retdata, flags') ∧
      hasFlag flags' O_CLOEXEC = hasFlag flags O_CLOEXEC := by
  have hopens := opensForWriting_of_accmode hwrite
  have hsys : ∀ s, kernelCall arch r = some s → syscallOf arch r.nr = some s := by
    intro s hs
    rw [← hs, kernelCall, hnr]
  unfold openFlags at hflags
  split at hflags
  · rename_i hcall
    cases hflags
    refine ⟨.opOpenWriteFile r.retdata r.arg1, r.arg1, ?_, rfl, ?_⟩
    · simp [syscallSwitch, hsys _ hcall, hok]
    · rw [hmode hcall]
      rfl
  · rename_i hcall
    cases hflags
    exact ⟨.opOpenFile r.retdata r.arg1, r.arg1, by simp [syscallSwitch, hsys _ hcall, hok],
      if_pos hopens, rfl⟩
  · rename_i hcall
    cases hflags
    exact ⟨.opOpenFile r.retdata r.arg2, r.arg2, by simp [syscallSwitch, hsys _ hcall, hok],
      if_pos hopens, rfl⟩
  · cases hflags

theorem opens_unwritten (hleaves : k.leavesAlone arch filename os tid r = true) {op : Op}
    (hop : syscallSwitch arch r = some op) {fd flags : Word} (hopens : op.opens = some (fd, flags)) :
    os.readlink (fdPath tid fd.toNat) ≠ some filename := by
  obtain ⟨rfl, hok, flags', hflags, hwrite⟩ := switch_opens hop hopens
  exact opens_other hleaves (not_failed (Or.inl hok)) hflags (opensForWriting_accmode hwrite)

end HeldFile

/-! ## The whole system -/

/-- Every tid the tracker gets calls for has the process state of its leader. -/
def Follows (leader : Pid → Pid) (s : Tracked Q) : Prop :=
  ∀ tid p, s.context.procMap.lookup tid = some p → tid ∉ s.retired →
    leader tid ∈ s.context.groupLeaders ∧ s.context.procMap.lookup (leader tid) = some p

/-- A descriptor of the file in the kernel is a slot with a state of the file, in the process
state of its leader. -/
structure Mirrors (k : HeldFile) (filename : String) (s : Tracked Q) : Prop where
  small : ∀ d ∈ k.held, d.2 < 2 ^ 32
  slots : ∀ l fd, (l, fd) ∈ k.held ↔ l ∈ s.context.groupLeaders ∧
    ∃ p, s.context.procMap.lookup l = some p ∧ s.context.nameAt p fd = some filename

variable {s s' : Tracked Q} {k : HeldFile} {filename : String}

theorem Follows.own {leader : Pid → Pid} (h : Follows leader s) (hs : s.Inv) {l : Pid}
    (hl : l ∈ s.context.groupLeaders) : leader l = l := by
  obtain ⟨p, hp⟩ := hs.registered.mapped l hl
  obtain ⟨hlead, hlookup⟩ := h l p hp (hs.registered.active l hl)
  exact hs.registered.distinct _ hlead l hl (hlookup.trans hp.symm)

theorem Mirrors.matched (h : Mirrors k filename s) (hfollows : Follows k.leader s) {tid : Pid}
    {p : Nat} (hp : s.context.procMap.lookup tid = some p) (htid : tid ∉ s.retired) :
    k.Matches filename tid (s.context.nameAt p) := by
  obtain ⟨hlead, hlookup⟩ := hfollows tid p hp htid
  refine ⟨h.small, fun fd => ?_⟩
  rw [h.slots]
  constructor
  · exact fun hname => ⟨hlead, p, hlookup, hname⟩
  · rintro ⟨_, q, hq, hname⟩
    rw [hlookup] at hq
    cases hq
    exact hname

/-- A step that leaves the leaders their process states, and the names in them. -/
theorem Mirrors.congr (h : Mirrors k filename s)
    (hleaders : s'.context.groupLeaders = s.context.groupLeaders)
    (hlookup : ∀ l ∈ s.context.groupLeaders,
      s'.context.procMap.lookup l = s.context.procMap.lookup l)
    (hnames : ∀ p fd, s'.context.nameAt p fd = s.context.nameAt p fd) : Mirrors k filename s' := by
  refine ⟨h.small, fun l fd => ?_⟩
  rw [h.slots, hleaders]
  refine and_congr_right fun hl => ?_
  simp only [hlookup l hl, hnames]

/-- With no descriptor left in the kernel, no slot holds a state of the file. -/
theorem Mirrors.not_holds (h : Mirrors k filename s) (hs : s.Inv) (hnone : k.held = ∅) :
    ¬ s.context.Holds filename := by
  rintro ⟨p, fd, r, hslot, hname⟩
  obtain ⟨l, hl, hlookup⟩ := hs.registered.owned p fd r hslot
  have hmem := (h.slots l fd).mpr ⟨hl, p, hlookup, nameAt_eq_some_iff.mpr ⟨r, hslot, hname⟩⟩
  rw [hnone] at hmem
  exact Finset.notMem_empty _ hmem

/-- A pid gets another process state or none. -/
theorem Follows.reassigned {leader leader' : Pid → Pid} (h : Follows leader s) {pid : Pid}
    {new : Option Nat} (hr : Reassigned pid new s.context s'.context)
    (hself : new.isSome → leader' pid = pid) (hleader : ∀ tid ≠ pid, leader' tid = leader tid)
    (hsub : ∀ tid ≠ pid, tid ∉ s'.retired → tid ∉ s.retired ∧ (pid ∈ s.context.groupLeaders →
      s.context.procMap.lookup tid ≠ s.context.procMap.lookup pid)) : Follows leader' s' := by
  intro tid p hp htid
  rw [hr.lookup] at hp
  split at hp
  · rename_i heq
    subst heq
    have hsome : new.isSome = true := by rw [hp, Option.isSome_some]
    rw [hself hsome, hr.leaders, hr.lookup, if_pos rfl]
    exact ⟨Or.inl ⟨rfl, hsome⟩, hp⟩
  · rename_i hne
    obtain ⟨hretired, hother⟩ := hsub tid hne htid
    obtain ⟨hlead, hlookup⟩ := h tid p hp hretired
    have hlne : leader tid ≠ pid := fun heq => hother (heq ▸ hlead) (heq ▸ hp.trans hlookup.symm)
    rw [hleader tid hne, hr.leaders, hr.lookup, if_neg hlne]
    exact ⟨Or.inr ⟨hlne, hlead⟩, hlookup⟩

/-- What `RegisterThread` does to the maps and to the slots. -/
theorem registerThread_same {c c' : Context Q} {retired : Finset Pid} (hc : c.Owned retired)
    {pid thread : Pid} (hthread : thread ∉ c.groupLeaders)
    (h : c.registerThread pid thread = .ok c') :
    ∃ p, c.procMap.lookup pid = some p ∧ c'.procMap = c.procMap.insert thread p ∧
      c'.groupLeaders = c.groupLeaders ∧ ∀ q fd, c'.nameAt q fd = c.nameAt q fd := by
  obtain ⟨p, hp, hcases⟩ := registerThread_ok (fun old _ => hc.registered.kept hthread old) h
  refine ⟨p, hp, ?_⟩
  rcases hcases with rfl | ⟨old, _, hempty, rfl⟩
  · exact ⟨rfl, rfl, fun _ _ => rfl⟩
  · have hsame := releaseProc_sameRegistry { c with procMap := c.procMap.insert thread p } old
    obtain ⟨_, _, hfiles, _⟩ := releaseProc_reports { c with procMap := c.procMap.insert thread p } old
    have hslots := @releaseProc_slot Q _ { c with procMap := c.procMap.insert thread p } old hempty
    refine ⟨hsame.procMap, hsame.groupLeaders, fun q fd => ?_⟩
    rw [nameAt, hfiles, hslots]
    rfl

theorem Follows.start {opts : Options} {os : Os} {tracee : Pid} {c : Context Q}
    (h : (Context.new opts : Context Q).registerTracee os tracee = .ok c) :
    Follows (fun tid => tid) ⟨c, ∅⟩ := by
  obtain ⟨_, hsteps⟩ := registerTracee_ok h
  intro tid p hp _
  rw [hsteps.sameRegistry.procMap] at hp
  rw [hsteps.sameRegistry.procMap, hsteps.sameRegistry.groupLeaders]
  refine ⟨?_, hp⟩
  rw [PidMap.lookup_insert] at hp
  split at hp
  · rename_i heq
    exact heq ▸ Finset.mem_insert_self _ _
  · cases hp

theorem registerProcess_reassigned {c c' : Context Q} {os : Os} {parent child : Pid}
    (h : c.registerProcess os parent child = .ok c') :
    c.procMap.lookup child = none ∧ Reassigned child (some c.heap.procCount) c c' := by
  obtain ⟨p, _, hchild, rfl⟩ := registerProcess_ok h
  refine ⟨hchild, reassigned_newProc hchild rfl rfl (fun q hq => ?_) rfl⟩
  exact copyProc_fds_ne os c p false child parent hq

theorem Follows.step {leader : Pid → Pid} (h : Follows leader s) (hs : s.Inv) {call : Call arch}
    (hallowed : s.Allowed call) (hstep : s.step call = .ok s') :
    Follows (call.regroup leader) s' := by
  obtain ⟨c', hcall, hstep⟩ := bind_eq_ok_iff.mp hstep
  rw [pure_eq_ok_iff] at hstep
  subst hstep
  have hregistered : s.context.Registered s.retired := hs.registered
  cases call with
  | syscallExit os pid registers =>
    cases hp : s.context.procMap.lookup pid with
    | none =>
      rw [syscallExit_unmapped hp hcall]
      exact h
    | some p =>
      have hsame := (syscallExit_steps hp (within_any hallowed.2 hp) hcall).sameRegistry
      intro tid q hq htid
      rw [hsame.procMap] at hq
      rw [hsame.procMap, hsame.groupLeaders]
      exact h tid q hq htid
  | registerThread pid thread =>
    obtain ⟨p, hp, hmap, hleaders, _⟩ := registerThread_same hs hallowed.2 hcall
    intro tid q hq htid
    have hled : ∀ l ∈ s.context.groupLeaders, c'.procMap.lookup l = s.context.procMap.lookup l := by
      intro l hl
      rw [hmap, PidMap.lookup_insert, if_neg]
      rintro rfl
      exact hallowed.2 hl
    rw [hmap, PidMap.lookup_insert] at hq
    rw [hleaders]
    split at hq
    · rename_i heq
      cases hq
      obtain ⟨hlead, hlookup⟩ := h pid p hp hallowed.1
      rw [heq, Call.regroup, Function.update_self, hled _ hlead]
      exact ⟨hlead, hlookup⟩
    · rename_i hne
      obtain ⟨hlead, hlookup⟩ := h tid q hq fun hmem => htid (Finset.mem_erase.mpr ⟨hne, hmem⟩)
      rw [Call.regroup, Function.update_of_ne hne, hled _ hlead]
      exact ⟨hlead, hlookup⟩
  | registerProcess os parent child =>
    obtain ⟨hchild, hr⟩ := registerProcess_reassigned hcall
    refine h.reassigned hr (fun _ => Function.update_self _ _ _)
      (fun tid hne => Function.update_of_ne hne _ _) fun tid hne htid => ⟨?_, fun hlead => ?_⟩
    · exact fun hmem => htid (Finset.mem_erase.mpr ⟨hne, hmem⟩)
    · obtain ⟨q, hq⟩ := hregistered.mapped child hlead
      rw [hchild] at hq
      cases hq
  | registerExec os pid execpid =>
    obtain ⟨p, hp⟩ := hregistered.mapped pid hallowed
    have hexec : s.context.registerExec os pid execpid = .ok c' := hcall
    have hr := hregistered.registerExec_reassigned hallowed hexec
    refine h.reassigned hr (fun _ => h.own hs hallowed) (fun _ _ => rfl) fun tid hne htid => ?_
    obtain ⟨hretired, hother⟩ := apart_of_notMem hp hne htid
    exact ⟨hretired, fun _ => hother⟩
  | registerCoreDump os pid termSig =>
    obtain ⟨_, _, hleaders, hmap⟩ := hs.tidy.registerCoreDump hcall
    intro tid p hp htid
    rw [hmap] at hp
    rw [hmap, hleaders]
    exact h tid p hp htid
  | vanishProcess pid =>
    obtain ⟨p, hp⟩ := vanishProcess_mapped hcall
    obtain ⟨c'', hrun, hv, _⟩ := @Owned.vanish Q _ arch _ _ hs _ _ hp
    rw [Call.apply, hrun] at hcall
    cases hcall
    refine h.reassigned (hv.reassigned hp) (by simp) (fun _ _ => rfl) fun tid hne htid => ?_
    exact @apart_of_vanish Q _ arch _ _ _ _ _ hp hne htid

theorem Follows.run {leader : Pid → Pid} (h : Follows leader s) (hs : s.Inv)
    {calls : List (Call arch)} (hallowed : Runs.Along Tracked.step Tracked.Allowed s calls)
    (hrun : Runs.run Tracked.step s calls = .ok s') :
    Follows (calls.foldl Call.regroup leader) s' := by
  induction calls generalizing leader s with
  | nil =>
    cases hrun
    exact h
  | cons call calls ih =>
    obtain ⟨s₁, hs₁, hrun⟩ := Runs.run_cons_ok_iff.mp hrun
    have hinv := Tracked.inv_step s call s₁ hs hallowed.1 hs₁
    exact ih (h.step hs hallowed.1 hs₁) hinv (hallowed.2 s₁ hs₁) hrun

/-- A pid gets another process state or none, and the kernel gives its process another table. -/
theorem Mirrors.reassigned (h : Mirrors k filename s) {k' : HeldFile} {pid : Pid}
    {new : Option Nat} (hr : Reassigned pid new s.context s'.context)
    (hsmall : ∀ d ∈ k'.held, d.2 < 2 ^ 32)
    (hothers : ∀ l ≠ pid, ∀ fd, (l, fd) ∈ k'.held ↔ (l, fd) ∈ k.held)
    (hnames : ∀ l ∈ s.context.groupLeaders, l ≠ pid → ∀ p, s.context.procMap.lookup l = some p →
      ∀ fd, s'.context.nameAt p fd = s.context.nameAt p fd)
    (hself : ∀ fd, (pid, fd) ∈ k'.held ↔
      ∃ p, new = some p ∧ s'.context.nameAt p fd = some filename) : Mirrors k' filename s' := by
  refine ⟨hsmall, fun l fd => ?_⟩
  rw [hr.leaders, hr.lookup]
  by_cases hl : l = pid
  · subst hl
    rw [hself, if_pos rfl]
    constructor
    · rintro ⟨p, hp, hname⟩
      exact ⟨Or.inl ⟨rfl, by rw [hp, Option.isSome_some]⟩, p, hp, hname⟩
    · exact fun hslot => hslot.2
  · rw [hothers l hl, h.slots, if_neg hl]
    constructor
    · rintro ⟨hlead, p, hp, hname⟩
      exact ⟨Or.inr ⟨hl, hlead⟩, p, hp, (hnames l hlead hl p hp fd).trans hname⟩
    · rintro ⟨hlead | hlead, p, hp, hname⟩
      · exact absurd hlead.1 hl
      · exact ⟨hlead.2, p, hp, (hnames l hlead.2 hl p hp fd).symm.trans hname⟩

namespace Context

variable {c c' : Context Q} {p : Nat}

/-- Steps on one table leave the names in another alone. -/
theorem TableSteps.nameAt_other {kind : StepKind} {q : Nat} (hc : c.Tidy)
    (hp : p < c.heap.procCount) (hne : q ≠ p) (h : TableSteps kind p c c') (fd : Nat) :
    c'.nameAt q fd = c.nameAt q fd := by
  unfold nameAt
  rw [h.others hne]
  cases hslot : slot (c.heap.fds q) fd with
  | none => rfl
  | some r => rw [Option.map_some, Option.map_some, h.other hc hp hne fd r hslot]

theorem nameAt_copyProc_ne (hc : c.Tidy) (os : Os) (src : Nat) (cloexecFree : Bool)
    (copied ppid : Pid) {q : Nat} (hq : q ≠ c.heap.procCount) (fd : Nat) :
    { c with heap := c.copyProc os src cloexecFree copied ppid }.nameAt q fd = c.nameAt q fd := by
  simp only [nameAt, copyProc_fds_ne os c src cloexecFree copied ppid hq]
  cases hslot : slot (c.heap.fds q) fd with
  | none => rfl
  | some r =>
    have hr := hc.bound q fd r hslot
    simp only [Option.map_some, copyProc_files_old os c src cloexecFree copied ppid hr]

theorem nameAt_copyProc (os : Os) (src : Nat) (cloexecFree : Bool) (copied ppid : Pid)
    (fd : Nat) {filename : String} :
    { c with heap := c.copyProc os src cloexecFree copied ppid }.nameAt c.heap.procCount fd =
        some filename ↔
      ∃ r, slot (c.heap.fds src) fd = some r ∧ Heap.keeps cloexecFree (c.heap.files r) = true ∧
        (c.heap.files r).filename = filename := by
  have hstates := copyProc_states os c src cloexecFree copied ppid fd
  have hname : { c with heap := c.copyProc os src cloexecFree copied ppid }.nameAt
      c.heap.procCount fd = ((slot ((c.copyProc os src cloexecFree copied ppid).fds
        c.heap.procCount) fd).map (c.copyProc os src cloexecFree copied ppid).files).map
          FileState.filename := by
    rw [Option.map_map]
    rfl
  rw [hname, hstates]
  cases hslot : slot (c.heap.fds src) fd with
  | none => simp
  | some r =>
    cases hkeep : Heap.keeps cloexecFree (c.heap.files r) with
    | false => simp [hkeep]
    | true => simp [hkeep]

end Context

/-- The calls of a run that the tracker can follow: what is done with the file is to write and to
close, and closes have plain words. -/
def HeldFile.Followed (k : HeldFile) (filename : String) : Call arch → Prop
  | .syscallExit os tid registers =>
    k.leavesAlone arch filename os tid (syscallRegs arch registers) = true ∧
      k.closesPlainly arch tid (syscallRegs arch registers) = true
  | _ => True

namespace Mirrors

/-- A call of a tid the tracker does not know closes nothing, or fails. -/
theorem exit_unmapped {os : Os} {c c' : Context Q} {tid : Pid} {registers : UserRegs arch}
    (hp : c.procMap.lookup tid = none)
    (hplain : k.closesPlainly arch tid (syscallRegs arch registers) = true)
    (h : c.syscallExit arch os tid registers = .ok c') :
    (k.exit arch tid (syscallRegs arch registers)).held = k.held := by
  refine HeldFile.exit_held_idle hplain fun hnr => ?_
  rw [closedBy, kernelCall, hnr]
  split
  · rename_i hsys
    simp [Context.syscallExit, syscallSwitch, hsys, perform, opClose, getProcState, hp, bind,
      Except.bind] at h
  · rename_i hsys
    refine if_neg fun hdone => ?_
    simp [Context.syscallExit, syscallSwitch, hsys, hdone.1, perform, opDup2, getProcState, hp,
      bind, Except.bind] at h
  · rename_i hsys
    refine if_neg fun hdone => ?_
    simp [Context.syscallExit, syscallSwitch, hsys, hdone.1, perform, opDup3, opDup, opDup2,
      getProcState, hp, bind, Except.bind] at h
  · rfl

theorem syscallExit (h : Mirrors k filename s) (hfollows : Follows k.leader s) (hs : s.Inv)
    {os : Os} {tid : Pid} {registers : UserRegs arch}
    (hallowed : s.Allowed (.syscallExit os tid registers))
    (hleaves : k.leavesAlone arch filename os tid (syscallRegs arch registers) = true)
    (hplain : k.closesPlainly arch tid (syscallRegs arch registers) = true) {c' : Context Q}
    (hexit : s.context.syscallExit arch os tid registers = .ok c') :
    Mirrors (k.exit arch tid (syscallRegs arch registers)) filename ⟨c', s.retired⟩ := by
  have hsub : ∀ d ∈ (k.exit arch tid (syscallRegs arch registers)).held, d ∈ k.held := by
    intro d hd
    cases hclosed : closedBy arch (syscallRegs arch registers) with
    | none => rwa [HeldFile.exit_held_none hclosed] at hd
    | some fd =>
      rw [HeldFile.exit_held_some hclosed] at hd
      exact Finset.mem_of_mem_erase hd
  cases hp : s.context.procMap.lookup tid with
  | none =>
    obtain rfl := syscallExit_unmapped hp hexit
    have hheld := exit_unmapped (k := k) hp hplain hexit
    refine ⟨fun d hd => h.small d (hsub d hd), fun l fd => ?_⟩
    rw [hheld]
    exact h.slots l fd
  | some p =>
    have howned : s.context.Owned s.retired := hs
    have hsteps := syscallExit_steps hp (within_any hallowed.2 hp) hexit
    have hsame := hsteps.sameRegistry
    have hmatch := h.matched hfollows hp hallowed.1
    obtain ⟨hlead, hlookup⟩ := hfollows tid p hp hallowed.1
    -- the table of the process itself
    have hself : ∀ fd, c'.nameAt p fd = some filename ↔
        (k.leader tid, fd) ∈ (k.exit arch tid (syscallRegs arch registers)).held := by
      intro fd
      cases hop : syscallSwitch arch (syscallRegs arch registers) with
      | none =>
        simp only [Context.syscallExit, hop] at hexit
        cases hexit
        rw [HeldFile.exit_held_idle hplain (HeldFile.closedBy_of_idle hop)]
        exact hmatch.slots fd
      | some op =>
        simp only [Context.syscallExit, hop] at hexit
        have hmoves := perform_moves howned.tidy hp (fun _ => rfl) hexit
        have hname : c'.nameAt p fd = op.moves os tid (s.context.nameAt p) fd := hmoves fd
        rw [hname]
        refine hmatch.exit_moves hleaves hplain hop (fun fd flags hfd => ?_) fd
        rw [nameAt, slot_of_opensFree hallowed.2 hop hfd hp, Option.map_none]
    refine ⟨fun d hd => h.small d (hsub d hd), fun l fd => ?_⟩
    rw [hsame.groupLeaders, hsame.procMap]
    by_cases hl : l = k.leader tid
    · subst hl
      rw [← hself]
      constructor
      · exact fun hname => ⟨hlead, p, hlookup, hname⟩
      · rintro ⟨_, q, hq, hname⟩
        rw [hlookup] at hq
        cases hq
        exact hname
    · -- the other tables stay as they are
      have hkept : (l, fd) ∈ (k.exit arch tid (syscallRegs arch registers)).held ↔
          (l, fd) ∈ k.held := by
        refine ⟨hsub _, fun hmem => ?_⟩
        cases hclosed : closedBy arch (syscallRegs arch registers) with
        | none => rwa [HeldFile.exit_held_none hclosed]
        | some fd =>
          rw [HeldFile.exit_held_some hclosed]
          exact Finset.mem_erase.mpr ⟨fun heq => hl (Prod.mk.inj heq).1, hmem⟩
      rw [hkept, h.slots]
      refine and_congr_right fun hlead' => exists_congr fun q => and_congr_right fun hq => ?_
      have hne : q ≠ p := by
        rintro rfl
        exact hl (howned.registered.distinct l hlead' _ hlead (hq.trans hlookup.symm))
      rw [hsteps.nameAt_other howned.tidy (howned.registered.alloc tid p hp) hne]

/-- A new process has the descriptors of the one that made it. -/
theorem registerProcess (h : Mirrors k filename s) (hfollows : Follows k.leader s) (hs : s.Inv)
    {os : Os} {parent child : Pid} (hparent : parent ∉ s.retired) {c' : Context Q}
    (hfork : s.context.registerProcess os parent child = .ok c') {retired : Finset Pid} :
    Mirrors (k.fork parent child) filename ⟨c', retired⟩ := by
  have howned : s.context.Owned s.retired := hs
  obtain ⟨p, hp, hchild, rfl⟩ := registerProcess_ok hfork
  obtain ⟨_, hr⟩ := registerProcess_reassigned hfork
  have hmatch := h.matched hfollows hp hparent
  have hheld : ∀ d, d ∈ (k.fork parent child).held ↔
      d ∈ k.held ∨ (k.leader parent, d.2) ∈ k.held ∧ d.1 = child := by
    rintro ⟨l, fd⟩
    simp only [HeldFile.fork, Finset.mem_union, Finset.mem_image, Finset.mem_filter, Prod.mk.injEq,
      Prod.exists]
    refine or_congr_right ⟨?_, ?_⟩
    · rintro ⟨_, _, ⟨hd, rfl⟩, rfl, rfl⟩
      exact ⟨hd, rfl⟩
    · rintro ⟨hd, rfl⟩
      exact ⟨_, _, ⟨hd, rfl⟩, rfl, rfl⟩
  refine h.reassigned hr ?_ ?_ ?_ ?_
  · intro d hd
    rcases (hheld d).mp hd with hd | ⟨hd, _⟩
    · exact h.small d hd
    · exact h.small (k.leader parent, d.2) hd
  · intro l hl fd
    rw [hheld, or_iff_left fun hnew => hl hnew.2]
  · intro l _ _ q hq fd
    have hlt := howned.registered.alloc l q hq
    exact nameAt_copyProc_ne howned.tidy os p false child parent (Nat.ne_of_lt hlt) fd
  · intro fd
    have hnone : (child, fd) ∉ k.held := by
      rw [h.slots]
      rintro ⟨_, q, hq, _⟩
      rw [hchild] at hq
      cases hq
    rw [hheld, or_iff_right hnone, and_iff_left rfl, ← hmatch.slots, nameAt_eq_some_iff]
    simp only [Option.some.injEq, exists_eq_left']
    refine Iff.trans ?_ (nameAt_copyProc os p false child parent fd).symm
    simp [Heap.keeps]

theorem vanishProcess (h : Mirrors k filename s) (hfollows : Follows k.leader s) (hs : s.Inv)
    {pid : Pid} {p : Nat} (hp : s.context.procMap.lookup pid = some p) {c' : Context Q}
    (hv : Vanished pid p s.context c') {retired : Finset Pid} :
    Mirrors (k.vanish pid) filename ⟨c', retired⟩ := by
  have howned : s.context.Owned s.retired := hs
  have hheld : ∀ d, d ∈ (k.vanish pid).held ↔ d ∈ k.held ∧ d.1 ≠ pid := by
    intro d
    unfold HeldFile.vanish
    split
    · rw [Finset.mem_filter]
    · -- the tid is no leader
      rename_i hother
      refine ⟨fun hd => ⟨hd, ?_⟩, fun hd => hd.1⟩
      rintro rfl
      obtain ⟨hlead, _⟩ := (h.slots d.1 d.2).mp hd
      exact hother (hfollows.own hs hlead)
  refine h.reassigned (hv.reassigned hp) ?_ ?_ ?_ ?_
  · exact fun d hd => h.small d ((hheld d).mp hd).1
  · intro l hl fd
    rw [hheld, and_iff_left hl]
  · intro l hlead hl q hq fd
    have hne : ¬(q = p ∧ pid ∈ s.context.groupLeaders) := by
      rintro ⟨rfl, hpid⟩
      exact hl (howned.registered.distinct l hlead pid hpid (hq.trans hp.symm))
    simp only [nameAt, hv.files, hv.slots, if_neg hne]
  · intro fd
    rw [hheld]
    simp

/-- An exec closes all descriptors of the file or none, in the kernel and in the tracker. -/
theorem registerExec (h : Mirrors k filename s) (hfollows : Follows k.leader s) (hs : s.Inv)
    {os : Os} {pid execpid : Pid} (hlead : pid ∈ s.context.groupLeaders)
    (hflags : ∀ p fd r, slot (s.context.heap.fds p) fd = some r →
      (s.context.heap.files r).filename = filename →
      (s.context.heap.files r).isCloexecSet = k.cloexec) {c' : Context Q}
    (hexec : s.context.registerExec os pid execpid = .ok c') {retired : Finset Pid} :
    Mirrors (k.exec pid) filename ⟨c', retired⟩ := by
  have howned : s.context.Owned s.retired := hs
  have hr := howned.registered.registerExec_reassigned hlead hexec
  obtain ⟨p, c₁, hp, hv, rfl⟩ := howned.registered.registerExec_vanished hlead hexec
  have hmatch := h.matched hfollows hp (howned.registered.active pid hlead)
  have hheld : ∀ d, d ∈ (k.exec pid).held ↔ d ∈ k.held ∧ ¬(d.1 = pid ∧ k.cloexec = true) := by
    intro d
    have hown := hfollows.own hs hlead
    unfold HeldFile.exec
    split
    · rename_i hset
      rw [Finset.mem_filter, hown, hset]
      simp
    · rename_i hclear
      simp [hclear]
  have hnames : ∀ q fd, ¬(q = p ∧ pid ∈ s.context.groupLeaders) → c₁.nameAt q fd =
      { s.context with
        heap := s.context.copyProc os p true pid (s.context.heap.procs p).procInfo.ppid }.nameAt q
          fd := by
    intro q fd hne
    simp only [nameAt, hv.files, hv.slots, if_neg hne]
  refine h.reassigned hr ?_ ?_ ?_ ?_
  · exact fun d hd => h.small d ((hheld d).mp hd).1
  · intro l hl fd
    rw [hheld, and_iff_left fun heq => hl heq.1]
  · intro l hl hne q hq fd
    have hqp : ¬(q = p ∧ pid ∈ s.context.groupLeaders) := by
      rintro ⟨rfl, _⟩
      exact hne (howned.registered.distinct l hl pid hlead (hq.trans hp.symm))
    have hlt := howned.registered.alloc l q hq
    exact (hnames q fd hqp).trans (nameAt_copyProc_ne howned.tidy os p true pid _ (Nat.ne_of_lt hlt) fd)
  · intro fd
    have hnew : ¬(s.context.heap.procCount = p ∧ pid ∈ s.context.groupLeaders) := by
      rintro ⟨heq, _⟩
      have hlt := howned.registered.alloc pid p hp
      omega
    simp only [Option.some.injEq, exists_eq_left']
    refine Iff.trans ?_ (Iff.of_eq (congrArg (· = some filename) (hnames _ fd hnew))).symm
    have hown := hfollows.own hs hlead
    have hslots := hmatch.slots fd
    rw [hown, nameAt_eq_some_iff] at hslots
    rw [hheld, nameAt_copyProc, ← hslots]
    constructor
    · rintro ⟨⟨r, hslot, hname⟩, hkept⟩
      have hflag := hflags p fd r hslot hname
      exact ⟨r, hslot, by simpa [Heap.keeps, hflag] using hkept, hname⟩
    · rintro ⟨r, hslot, hkept, hname⟩
      have hflag := hflags p fd r hslot hname
      exact ⟨⟨r, hslot, hname⟩, by simpa [Heap.keeps, hflag] using hkept⟩

theorem step (h : Mirrors k filename s) (hfollows : Follows k.leader s) (hs : s.Inv)
    {call : Call arch} (hallowed : s.Allowed call) (hfollowed : k.Followed filename call)
    (hflags : ∀ p fd r, slot (s.context.heap.fds p) fd = some r →
      (s.context.heap.files r).filename = filename →
      (s.context.heap.files r).isCloexecSet = k.cloexec) (hstep : s.step call = .ok s') :
    Mirrors (k.after call) filename s' := by
  obtain ⟨c', hcall, hstep⟩ := bind_eq_ok_iff.mp hstep
  rw [pure_eq_ok_iff] at hstep
  subst hstep
  cases call with
  | syscallExit os tid registers =>
    exact h.syscallExit hfollows hs hallowed hfollowed.1 hfollowed.2 hcall
  | registerThread pid thread =>
    obtain ⟨p, hp, hmap, hleaders, hnames⟩ := registerThread_same hs hallowed.2 hcall
    have hsame : Mirrors k filename ⟨c', s.retired.erase thread⟩ := by
      refine h.congr hleaders (fun l hl => ?_) hnames
      rw [hmap, PidMap.lookup_insert, if_neg]
      rintro rfl
      exact hallowed.2 hl
    exact ⟨hsame.small, hsame.slots⟩
  | registerProcess os parent child => exact h.registerProcess hfollows hs hallowed hcall
  | registerExec os pid execpid =>
    have hexec : s.context.registerExec os pid execpid = .ok c' := hcall
    exact h.registerExec hfollows hs hallowed hflags hexec
  | registerCoreDump os pid termSig =>
    obtain ⟨_, hheap, hleaders, hmap⟩ := hs.tidy.registerCoreDump hcall
    exact h.congr hleaders (fun l _ => by rw [hmap]) fun p fd => by rw [nameAt, hheap]; rfl
  | vanishProcess pid =>
    obtain ⟨p, hp⟩ := vanishProcess_mapped hcall
    obtain ⟨c'', hrun, hv, _⟩ := @Owned.vanish Q _ arch _ _ hs _ _ hp
    rw [Call.apply, hrun] at hcall
    cases hcall
    exact h.vanishProcess hfollows hs hp hv

end Mirrors

end Optrace
