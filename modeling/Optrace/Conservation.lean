import Optrace.Holders

/-!
# The bytes written through an inherited descriptor

A file is opened once, empty, and only written to and closed, by any tree of processes that
inherit the descriptor through forks and execs. The kernel counts its length. The account the
tracker keeps of it falls behind exactly at a write through a state that was copied from one
that had not seen all earlier writes, and at a write whose words are not plain.
-/

namespace Optrace

set_option autoImplicit false
set_option linter.unusedSectionVars false

open SlotTable Except Context FileStorage

variable {Q : Type} [MaxOutFilesQueue Q] {arch : Arch}

/-- A tracker, and the file as the kernel has it. -/
structure FileRun (Q : Type) where
  tracked : Tracked Q
  kernel : HeldFile

namespace FileRun

def step (s : FileRun Q) (call : Call arch) : Except Abort (FileRun Q) := do
  let tracked ← s.tracked.step call
  return ⟨tracked, s.kernel.after call⟩

/-- The file is written to and closed through the descriptors of the family, and nothing else
is done with it; its length is what `stat` says when a process state is copied. -/
def Family (filename : String) (s : FileRun Q) (call : Call arch) : Prop :=
  s.tracked.Allowed call ∧ (s.kernel.after call).length < 2 ^ 63 ∧
  match call with
  | .syscallExit os tid registers =>
    s.kernel.leavesAlone arch filename os tid (syscallRegs arch registers) = true
  | .registerProcess os _ _ => os.stat filename = some (BitVec.ofNat 64 s.kernel.length)
  | .registerExec os _ _ => os.stat filename = some (BitVec.ofNat 64 s.kernel.length)
  | _ => True

instance (filename : String) (s : FileRun Q) (call : Call arch) :
    Decidable (s.Family filename call) :=
  match call with
  | .syscallExit _ _ _ => inferInstanceAs (Decidable (_ ∧ _ ∧ _ = true))
  | .registerProcess os _ _ => inferInstanceAs (Decidable (_ ∧ _ ∧ os.stat _ = _))
  | .registerExec os _ _ => inferInstanceAs (Decidable (_ ∧ _ ∧ os.stat _ = _))
  | .registerThread _ _ => inferInstanceAs (Decidable (_ ∧ _ ∧ True))
  | .registerCoreDump _ _ _ => inferInstanceAs (Decidable (_ ∧ _ ∧ True))
  | .vanishProcess _ => inferInstanceAs (Decidable (_ ∧ _ ∧ True))

def ClosesPlainly (s : FileRun Q) : Call arch → Prop
  | .syscallExit _ tid registers =>
    s.kernel.closesPlainly arch tid (syscallRegs arch registers) = true
  | _ => True

instance (s : FileRun Q) : (call : Call arch) → Decidable (s.ClosesPlainly call)
  | .syscallExit _ _ _ => inferInstanceAs (Decidable (_ = true))
  | .registerThread _ _ => isTrue trivial
  | .registerProcess _ _ _ => isTrue trivial
  | .registerExec _ _ _ => isTrue trivial
  | .registerCoreDump _ _ _ => isTrue trivial
  | .vanishProcess _ => isTrue trivial

/-- What the kernel writes to the file is written under plain words, and through a state that
starts counting no later than where it stands. -/
def WritesInStep (s : FileRun Q) : Call arch → Prop
  | .syscallExit _ tid registers =>
    0 < s.kernel.bytesWritten arch tid (syscallRegs arch registers) →
      lowHalf (syscallRegs arch registers).nr = (syscallRegs arch registers).nr ∧
      lowHalf (syscallRegs arch registers).arg0 = (syscallRegs arch registers).arg0 ∧
      ∀ p ∈ s.tracked.context.procMap.lookup tid,
        ∀ r ∈ slot (s.tracked.context.heap.fds p) (syscallRegs arch registers).arg0.toNat,
          (s.tracked.context.heap.files r).initSize ≤ (s.tracked.context.heap.files r).maxPos
  | _ => True

instance (s : FileRun Q) : (call : Call arch) → Decidable (s.WritesInStep call)
  | .syscallExit _ _ _ => inferInstanceAs (Decidable (_ → _ ∧ _ ∧ ∀ p ∈ _, ∀ r ∈ _, _ ≤ _))
  | .registerThread _ _ => isTrue trivial
  | .registerProcess _ _ _ => isTrue trivial
  | .registerExec _ _ _ => isTrue trivial
  | .registerCoreDump _ _ _ => isTrue trivial
  | .vanishProcess _ => isTrue trivial

/-- What is known of a state of the file. -/
def Counts (length : Nat) (cloexec : Bool) (s : FileState) : Prop :=
  s.currPos = s.maxPos ∧ s.maxPos.toNat ≤ length ∧ s.initSize.toNat ≤ length ∧
    s.isCloexecSet = cloexec

structure Inv (filename : String) (s : FileRun Q) : Prop where
  tracked : s.tracked.Inv
  small : s.kernel.length < 2 ^ 63
  follows : Follows s.kernel.leader s.tracked
  mirrors : Mirrors s.kernel filename s.tracked
  counts : ∀ p fd r, slot (s.tracked.context.heap.fds p) fd = some r →
    (s.tracked.context.heap.files r).filename = filename →
    Counts s.kernel.length s.kernel.cloexec (s.tracked.context.heap.files r)

/-- What the account of the file is behind its length. -/
def behind (filename : String) (s : FileRun Q) : Int :=
  s.kernel.length - s.tracked.context.tally filename

end FileRun

theorem Counts.mono {length length' : Nat} {cloexec : Bool} (h : length ≤ length') {s : FileState}
    (hs : FileRun.Counts length cloexec s) : FileRun.Counts length' cloexec s :=
  ⟨hs.1, Nat.le_trans hs.2.1 h, Nat.le_trans hs.2.2.1 h, hs.2.2.2⟩

theorem copy_counts {os : Os} {length : Nat} {cloexec : Bool} (hlength : length < 2 ^ 63)
    {s : FileState} (hstat : os.stat s.filename = some (BitVec.ofNat 64 length))
    (hs : FileRun.Counts length cloexec s) :
    (s.copy os).getOutputSize = 0 ∧ FileRun.Counts length cloexec (s.copy os) := by
  have hinit : (s.copy os).initSize.toNat = length := by
    rw [FileState.copy_initSize, getFileLength, hstat, Option.getD_some, BitVec.toNat_ofNat]
    omega
  obtain ⟨hpos, hmax, _, hflag⟩ := hs
  refine ⟨?_, hpos, hmax, Nat.le_of_eq hinit, hflag⟩
  rw [FileState.getOutputSize_eq_zero_iff, hinit]
  exact hmax

/-- A write through a state of the file moves its end along. -/
theorem enroll_counts {length : Nat} {cloexec : Bool} {s : FileState} {n : Word}
    (hs : FileRun.Counts length cloexec s) (hn : 0 < n.toNat)
    (hlength : length + n.toNat < 2 ^ 63) :
    FileRun.Counts (length + n.toNat) cloexec (s.enroll n) ∧
      (s.enroll n).maxPos.toNat = s.maxPos.toNat + n.toNat ∧
      (s.enroll n).initSize = s.initSize := by
  obtain ⟨hpos, hmax, hinit, hflag⟩ := hs
  have hadd : (s.maxPos + n).toNat = s.maxPos.toNat + n.toNat := by
    rw [BitVec.toNat_add]
    omega
  have hlt : s.maxPos < s.maxPos + n := by
    rw [BitVec.lt_def, hadd]
    omega
  have hnew : (s.enroll n).maxPos = s.maxPos + n := by
    simp only [FileState.enroll, hpos, if_pos hlt]
  have hcurr : (s.enroll n).currPos = s.maxPos + n := by
    simp only [FileState.enroll, hpos]
  refine ⟨⟨by rw [hcurr, hnew], ?_, ?_, hflag⟩, by rw [hnew, hadd], rfl⟩
  · rw [hnew, hadd]
    omega
  · exact Nat.le_trans hinit (Nat.le_add_right _ _)

namespace Context

variable {c c' : Context Q} {filename : String}

theorem tally_updateFile {r : Nat} (hr : r < c.heap.fileCount) {f : FileState → FileState}
    (hname : (c.heap.files r).filename = filename)
    (hf : (f (c.heap.files r)).filename = filename) :
    (c.updateFile r f).tally filename + (c.heap.files r).getOutputSize.toNat =
      c.tally filename + (f (c.heap.files r)).getOutputSize.toNat := by
  have hmem : r ∈ Finset.range c.heap.fileCount := Finset.mem_range.mpr hr
  have hrest : ∑ q ∈ (Finset.range c.heap.fileCount).erase r, (c.updateFile r f).worth filename q =
      ∑ q ∈ (Finset.range c.heap.fileCount).erase r, c.worth filename q := by
    refine Finset.sum_congr rfl fun q hq => ?_
    unfold worth
    rw [updateFile, Heap.updateFile_files_ne _ (Finset.ne_of_mem_erase hq)]
  have hnew := Finset.add_sum_erase _ (fun q => (c.updateFile r f).worth filename q) hmem
  have hold := Finset.add_sum_erase _ (fun q => c.worth filename q) hmem
  have hself : (c.updateFile r f).worth filename r = (f (c.heap.files r)).getOutputSize.toNat := by
    rw [worth, updateFile, Heap.updateFile_files_self, if_pos hf]
  have hwas : c.worth filename r = (c.heap.files r).getOutputSize.toNat := by
    rw [worth, if_pos hname]
  have hcount : (c.updateFile r f).heap.fileCount = c.heap.fileCount := rfl
  simp only [hself, hwas] at hnew hold
  unfold tally
  rw [hcount]
  omega

end Context

theorem Context.opens_mapped {c c' : Context Q} {os : Os} {tid : Pid} {op : Op} {fd flags : Word}
    (hopens : op.opens = some (fd, flags)) (h : c.perform os tid op = .ok c') :
    ∃ p, c.procMap.lookup tid = some p := by
  by_contra hnone
  have hp : c.procMap.lookup tid = none := by
    rw [Option.eq_none_iff_forall_ne_some]
    exact fun p hp => hnone ⟨p, hp⟩
  cases op with
  | opOpenWriteFile fd' flags' =>
    simp [perform, opOpenWriteFile, getProcState, hp, bind, Except.bind] at h
  | opOpenFile fd' flags' =>
    have hwrite := (Option.ite_none_right_eq_some.mp hopens).1
    simp [perform, opOpenFile, hwrite, opOpenWriteFile, getProcState, hp, bind, Except.bind] at h
  | _ => cases hopens

theorem Op.changes_filename {op : Op} {fd : Word} {f : FileState → FileState}
    (h : op.changes = some (fd, f)) (s : FileState) : (f s).filename = s.filename := by
  cases op <;> simp only [Op.changes, Option.some.injEq, Prod.mk.injEq, reduceCtorEq] at h <;>
    (obtain ⟨_, rfl⟩ := h; rfl)

namespace FileRun

variable {filename : String} {s : FileRun Q}

/-- What a new state of the file is like: it counts from where the file ends. -/
def Fresh (length : Nat) (cloexec : Bool) (s : FileState) : Prop :=
  s.getOutputSize = 0 ∧ Counts length cloexec s

/-- What changes a state of the file is a write to the file under plain words. -/
theorem changes_plain (hs : s.Inv filename) {os : Os} {tid : Pid} {registers : UserRegs arch}
    (hfamily : s.Family filename (.syscallExit os tid registers)) {p r : Nat}
    (hp : s.tracked.context.procMap.lookup tid = some p) {op : Op}
    (hop : syscallSwitch arch (syscallRegs arch registers) = some op) {fd : Word}
    {f : FileState → FileState} (hchange : op.changes = some (fd, f))
    (hslot : slot (s.tracked.context.heap.fds p) fd.toNat = some r)
    (hname : (s.tracked.context.heap.files r).filename = filename) :
    0 < s.kernel.bytesWritten arch tid (syscallRegs arch registers) ∧
      lowHalf (syscallRegs arch registers).nr = (syscallRegs arch registers).nr ∧
      lowHalf (syscallRegs arch registers).arg0 = (syscallRegs arch registers).arg0 := by
  have hmatch := hs.mirrors.matched hs.follows hp hfamily.1.1
  obtain ⟨hlow, hnames⟩ := hmatch.names_of_slot (nameAt_eq_some_iff.mpr ⟨r, hslot, hname⟩)
  obtain ⟨rfl, rfl, hbytes⟩ := HeldFile.changes_written hfamily.2.2 hop hchange hnames
  rw [hbytes]
  refine ⟨write_pos hop, ?_, hlow⟩
  cases hsys : syscallOf arch (syscallRegs arch registers).nr with
  | none =>
    rw [syscallSwitch_none hsys] at hop
    cases hop
  | some x => exact (kernelCall_of_syscallOf hsys).1

/-- Every other system call leaves the states of the file as they are. -/
theorem unwritten_carries (hs : s.Inv filename) {os : Os} {tid : Pid} {registers : UserRegs arch}
    (hfamily : s.Family filename (.syscallExit os tid registers)) {c' : Context Q}
    (h : s.tracked.context.syscallExit arch os tid registers = .ok c')
    (hw : ¬(0 < s.kernel.bytesWritten arch tid (syscallRegs arch registers) ∧
      lowHalf (syscallRegs arch registers).nr = (syscallRegs arch registers).nr ∧
      lowHalf (syscallRegs arch registers).arg0 = (syscallRegs arch registers).arg0)) :
    Carries filename (Fresh s.kernel.length s.kernel.cloexec) s.tracked.context c' := by
  cases hp : s.tracked.context.procMap.lookup tid with
  | none =>
    rw [syscallExit_unmapped hp h]
    exact Carries.refl _
  | some p =>
    have hwithin : ∀ op, syscallSwitch arch (syscallRegs arch registers) = some op →
        Within (.apart filename) os s.tracked.context tid p op := by
      intro op hop
      refine ⟨?_, ?_, ?_⟩
      · exact fun fd flags hfd => slot_of_opensFree hfamily.1.2 hop hfd hp
      · intro fd flags target hfd hlink htarget
        have hother := HeldFile.opens_unwritten hfamily.2.2 hop hfd
        exact hother (hlink.trans (congrArg some htarget))
      · intro fd f r hf hslot
        refine ⟨fun hname => ?_, Op.changes_filename hf _⟩
        exact hw (changes_plain hs hfamily hp hop hf hslot hname)
    have hsteps := syscallExit_steps hp hwithin h
    exact (hsteps.carries fun _ _ h => h).mono fun _ hname hapart => absurd hname hapart

/-- A write to the file under plain words adds the bytes to the state in the slot. -/
theorem written_enrolls (hs : s.Inv filename) {os : Os} {tid : Pid} {registers : UserRegs arch}
    (hfamily : s.Family filename (.syscallExit os tid registers)) {c' : Context Q}
    (h : s.tracked.context.syscallExit arch os tid registers = .ok c')
    (hbytes : 0 < s.kernel.bytesWritten arch tid (syscallRegs arch registers))
    (hnr : lowHalf (syscallRegs arch registers).nr = (syscallRegs arch registers).nr)
    (hfd : lowHalf (syscallRegs arch registers).arg0 = (syscallRegs arch registers).arg0) :
    ∃ p r, s.tracked.context.procMap.lookup tid = some p ∧
      slot (s.tracked.context.heap.fds p) (syscallRegs arch registers).arg0.toNat = some r ∧
      (s.tracked.context.heap.files r).filename = filename ∧
      s.kernel.bytesWritten arch tid (syscallRegs arch registers) =
        (syscallRegs arch registers).retdata.toNat ∧
      c' = s.tracked.context.updateFile r
        (FileState.enroll (syscallRegs arch registers).retdata) := by
  obtain ⟨hop, hnames, hcount⟩ := HeldFile.written_switch hbytes hnr
  simp only [syscallExit, hop, perform] at h
  cases hp : s.tracked.context.procMap.lookup tid with
  | none => simp [opWriteChangeOffset, opOnTracked, getProcState, hp, bind, Except.bind] at h
  | some p =>
    have hmatch := hs.mirrors.matched hs.follows hp hfamily.1.1
    have hmem := of_decide_eq_true hnames
    rw [hfd, ← hmatch.slots, nameAt_eq_some_iff] at hmem
    obtain ⟨r, hslot, hname⟩ := hmem
    refine ⟨p, r, rfl, hslot, hname, hcount, ?_⟩
    rcases opOnTracked_ok hp h with ⟨hnone, _⟩ | ⟨r', hslot', hc'⟩
    · rw [hslot] at hnone
      cases hnone
    · rw [hslot] at hslot'
      cases hslot'
      exact hc'

/-- Every call either writes through one state of the file, or leaves them all as they are. -/
theorem writes_or_carries (hs : s.Inv filename) {call : Call arch}
    (hfamily : s.Family filename call) {c' : Context Q}
    (h : call.apply s.tracked.context = .ok c') :
    (∃ p fd r offset, slot (s.tracked.context.heap.fds p) fd = some r ∧
      (s.tracked.context.heap.files r).filename = filename ∧ 0 < offset.toNat ∧
      (s.kernel.after call).length = s.kernel.length + offset.toNat ∧
      c' = s.tracked.context.updateFile r (FileState.enroll offset) ∧
      (s.WritesInStep call ↔ (s.tracked.context.heap.files r).initSize ≤
        (s.tracked.context.heap.files r).maxPos)) ∨
    (Carries filename (Fresh s.kernel.length s.kernel.cloexec) s.tracked.context c' ∧
      (s.WritesInStep call ↔ (s.kernel.after call).length = s.kernel.length)) := by
  have howned : s.tracked.context.Owned s.tracked.retired := hs.tracked
  have hlength := s.kernel.after_length call
  cases call with
  | syscallExit os tid registers =>
    simp only at hlength
    by_cases hw : 0 < s.kernel.bytesWritten arch tid (syscallRegs arch registers) ∧
      lowHalf (syscallRegs arch registers).nr = (syscallRegs arch registers).nr ∧
      lowHalf (syscallRegs arch registers).arg0 = (syscallRegs arch registers).arg0
    · obtain ⟨p, r, hp, hslot, hname, hcount, hc'⟩ :=
        written_enrolls hs hfamily h hw.1 hw.2.1 hw.2.2
      rw [hcount] at hlength
      refine Or.inl ⟨p, _, r, _, hslot, hname, hcount ▸ hw.1, hlength, hc', ?_⟩
      constructor
      · exact fun hstep => (hstep hw.1).2.2 p hp r hslot
      · intro hle _
        refine ⟨hw.2.1, hw.2.2, fun q hq r' hslot' => ?_⟩
        rw [hp] at hq
        cases hq
        rw [hslot] at hslot'
        cases hslot'
        exact hle
    · refine Or.inr ⟨unwritten_carries hs hfamily h hw, ?_⟩
      constructor
      · intro hstep
        have hzero : ¬0 < s.kernel.bytesWritten arch tid (syscallRegs arch registers) :=
          fun hpos => hw ⟨hpos, (hstep hpos).1, (hstep hpos).2.1⟩
        omega
      · intro hsame hpos
        omega
  | registerThread pid thread =>
    exact Or.inr ⟨howned.registerThread_carries hfamily.1.2 h, iff_of_true trivial hlength⟩
  | registerProcess os parent child =>
    refine Or.inr ⟨Owned.registerProcess_carries (fun p fd r hslot hname => ?_) h,
      iff_of_true trivial hlength⟩
    exact copy_counts hs.small (hname ▸ hfamily.2.2) (hs.counts p fd r hslot hname)
  | registerExec os pid execpid =>
    have hexec : s.tracked.context.registerExec os pid execpid = .ok c' := h
    refine Or.inr ⟨howned.registerExec_carries hfamily.1 (fun p fd r hslot hname => ?_) hexec,
      iff_of_true trivial hlength⟩
    exact copy_counts hs.small (hname ▸ hfamily.2.2) (hs.counts p fd r hslot hname)
  | registerCoreDump os pid termSig =>
    obtain ⟨_, hheap, _, _⟩ := howned.tidy.registerCoreDump h
    refine Or.inr ⟨Carries.of_slots (by rw [hheap]) (by rw [hheap]) fun q fd r hr => ?_,
      iff_of_true trivial hlength⟩
    rw [hheap] at hr
    exact ⟨q, fd, hr⟩
  | vanishProcess pid =>
    obtain ⟨p, hp⟩ := vanishProcess_mapped h
    obtain ⟨c'', hrun, hv, _⟩ := @Owned.vanish Q _ arch _ _ howned _ _ hp
    rw [Call.apply, hrun] at h
    cases h
    exact Or.inr ⟨hv.carries, iff_of_true trivial hlength⟩

/-- A write makes its own state count on, and leaves the others behind. -/
theorem counts_enrolled (hs : s.Inv filename) {r : Nat} {offset : Word}
    (hself : Counts (s.kernel.length + offset.toNat) s.kernel.cloexec
      ((s.tracked.context.heap.files r).enroll offset)) {q i r' : Nat}
    (hslot : slot ((s.tracked.context.updateFile r (FileState.enroll offset)).heap.fds q) i = some r')
    (hname : ((s.tracked.context.updateFile r (FileState.enroll offset)).heap.files r').filename =
      filename) : Counts (s.kernel.length + offset.toNat) s.kernel.cloexec
      ((s.tracked.context.updateFile r (FileState.enroll offset)).heap.files r') := by
  by_cases hr' : r' = r
  · subst hr'
    rw [updateFile, Heap.updateFile_files_self]
    exact hself
  · rw [updateFile, Heap.updateFile_files_ne _ hr'] at hname ⊢
    exact Counts.mono (Nat.le_add_right _ _) (hs.counts q i r' hslot hname)

/-- States that are carried over count as they did, and fresh ones from where the file ends. -/
theorem counts_carried (hs : s.Inv filename) {c' : Context Q} (htidy : Tidy c')
    (hcarries : Carries filename (Fresh s.kernel.length s.kernel.cloexec) s.tracked.context c')
    {q i r : Nat} (hslot : slot (c'.heap.fds q) i = some r)
    (hname : (c'.heap.files r).filename = filename) :
    Counts s.kernel.length s.kernel.cloexec (c'.heap.files r) := by
  by_cases hr : r < s.tracked.context.heap.fileCount
  · obtain ⟨q', i', hslot'⟩ := hcarries.held q i r hslot hr
    have hname' : (s.tracked.context.heap.files r).filename = filename := by
      rw [← hcarries.name r hr]
      exact hname
    rw [hcarries.old r hr hname']
    exact hs.counts q' i' r hslot' hname'
  · exact (hcarries.fresh r (by omega) (htidy.bound q i r hslot) hname).2

/-- A call leaves the account as far behind as it is, but for a write that is out of step. -/
theorem inv_step (s : FileRun Q) (call : Call arch) (s' : FileRun Q) (hs : s.Inv filename)
    (hfamily : s.Family filename call ∧ s.ClosesPlainly call) (h : s.step call = .ok s') :
    s'.Inv filename ∧ s.behind filename ≤ s'.behind filename ∧
      (s.behind filename = s'.behind filename ↔ s.WritesInStep call) := by
  obtain ⟨hfamily, hcloses⟩ := hfamily
  obtain ⟨tracked, htracked, h⟩ := bind_eq_ok_iff.mp h
  rw [pure_eq_ok_iff] at h
  subst h
  have hinv := Tracked.inv_step s.tracked call tracked hs.tracked hfamily.1 htracked
  have hfollows : Follows (s.kernel.after call).leader tracked := by
    rw [HeldFile.after_leader]
    exact hs.follows.step hs.tracked hfamily.1 htracked
  have hfollowed : s.kernel.Followed filename call := by
    cases call with
    | syscallExit os tid registers => exact ⟨hfamily.2.2, hcloses⟩
    | _ => trivial
  have hmirrors := hs.mirrors.step hs.follows hs.tracked hfamily.1 hfollowed
    (fun p fd r hslot hname => (hs.counts p fd r hslot hname).2.2.2) htracked
  obtain ⟨c', hcall, htracked⟩ := bind_eq_ok_iff.mp htracked
  rw [pure_eq_ok_iff] at htracked
  subst htracked
  have htidy : s.tracked.context.Tidy := Owned.tidy hs.tracked
  have hsmall := hfamily.2.1
  have hcloexec := s.kernel.after_cloexec call
  rcases writes_or_carries hs hfamily hcall with
    ⟨p, fd, r, offset, hslot, hname, hpos, hlength, rfl, hinStep⟩ | ⟨hcarries, hinStep⟩
  · rw [hlength] at hsmall
    have hr := htidy.bound p fd r hslot
    have hcounts := hs.counts p fd r hslot hname
    obtain ⟨henroll, hmax, hinit⟩ := enroll_counts hcounts hpos hsmall
    have htally := tally_updateFile hr hname
      (show (FileState.enroll offset (s.tracked.context.heap.files r)).filename = filename from hname)
    simp only [FileState.getOutputSize_toNat, hmax, hinit] at htally
    refine ⟨⟨hinv, hfamily.2.1, hfollows, hmirrors, ?_⟩, ?_, ?_⟩
    · intro q i r' hslot' hname'
      rw [hlength, hcloexec]
      exact counts_enrolled hs henroll hslot' hname'
    · simp only [behind, hlength]
      omega
    · rw [hinStep, BitVec.le_def]
      simp only [behind, hlength]
      omega
  · have htally := hcarries.tally_eq fun _ h => h.1
    have hgrows : s.kernel.length ≤ (s.kernel.after call).length := by
      rw [HeldFile.after_length]
      exact Nat.le_add_right _ _
    refine ⟨⟨hinv, hfamily.2.1, hfollows, hmirrors, ?_⟩, ?_, ?_⟩
    · intro q i r hslot hname
      rw [hcloexec]
      exact Counts.mono hgrows (counts_carried hs (Owned.tidy hinv) hcarries hslot hname)
    · simp only [behind, htally]
      omega
    · rw [hinStep]
      simp only [behind, htally]
      omega

end FileRun

/-- The file is opened for writing, under a plain number, and is empty then; no descriptor slot
holds a state of it. A mode of `creat` has no bit that stands for `O_CLOEXEC`. -/
structure OpensEmpty (arch : Arch) (filename : String) (c : Context Q) (os : Os) (tid : Pid)
    (r : SyscallRegs) : Prop where
  opens : ∃ flags, openFlags arch r = some flags ∧ hasFlag flags O_ACCMODE = true
  returned : r.retdata.toNat < 2 ^ 31
  names : os.readlink (fdPath tid r.retdata.toNat) = some filename
  empty : os.stat filename = some 0
  unheld : ¬ c.Holds filename
  plain : lowHalf r.nr = r.nr
  mode : kernelCall arch r = some .SYS_creat → hasFlag r.arg1 O_CLOEXEC = false

/-- The descriptor the kernel returns is the one slot that gets a state of the file. -/
theorem mirrors_opened {filename : String} {leader : Pid → Pid} {s : Tracked Q} (hs : s.Inv)
    (hfollows : Follows leader s) {os : Os} {tid : Pid} {r : SyscallRegs}
    (hopen : OpensEmpty arch filename s.context os tid r) (htid : tid ∉ s.retired) {p : Nat}
    (hp : s.context.procMap.lookup tid = some p) {op : Op} {flags : Word}
    (hopens : op.opens = some (r.retdata, flags)) {c' : Context Q}
    (hsteps : TableSteps .any p s.context c') (hexit : s.context.perform os tid op = .ok c')
    {retired : Finset Pid} : Mirrors (.opened leader arch tid r) filename ⟨c', retired⟩ := by
  have howned : s.context.Owned s.retired := hs
  have hnone : ∀ q fd, s.context.nameAt q fd ≠ some filename := by
    intro q fd hname
    obtain ⟨r', hslot, hname⟩ := nameAt_eq_some_iff.mp hname
    exact hopen.unheld ⟨q, fd, r', hslot, hname⟩
  have hsame := hsteps.sameRegistry
  obtain ⟨hlead, hlookup⟩ := hfollows tid p hp htid
  have hself : ∀ fd, c'.nameAt p fd = some filename ↔ fd = r.retdata.toNat := by
    intro fd
    have hmoves : c'.nameAt p fd = op.moves os tid (s.context.nameAt p) fd :=
      perform_moves howned.tidy hp (fun _ => rfl) hexit fd
    rw [hmoves, Op.moves_of_opens hopens, hopen.names]
    by_cases hfd : fd = r.retdata.toNat
    · rw [hfd, Function.update_self]
      simp
    · rw [Function.update_of_ne hfd]
      exact iff_of_false (hnone p fd) hfd
  refine ⟨fun d hd => ?_, fun l fd => ?_⟩
  · obtain rfl := Finset.mem_singleton.mp hd
    have hlt := hopen.returned
    show r.retdata.toNat < 2 ^ 32
    omega
  · have hmem : (l, fd) ∈ (HeldFile.opened leader arch tid r).held ↔
        l = leader tid ∧ fd = r.retdata.toNat := by
      rw [HeldFile.opened, Finset.mem_singleton, Prod.mk.injEq]
    rw [hmem, hsame.groupLeaders, hsame.procMap]
    constructor
    · rintro ⟨rfl, hfd⟩
      exact ⟨hlead, p, hlookup, (hself fd).mpr hfd⟩
    · rintro ⟨hl, q, hq, hname⟩
      by_cases hqp : q = p
      · subst hqp
        exact ⟨howned.registered.distinct l hl _ hlead (hq.trans hlookup.symm), (hself fd).mp hname⟩
      · rw [hsteps.nameAt_other howned.tidy (howned.registered.alloc tid p hp) hqp] at hname
        exact absurd hname (hnone q fd)

/-- Just after the open there is one descriptor of the file and one state of it, which counts
from 0. -/
theorem inv_open {filename : String} {leader : Pid → Pid} {s₀ s₁ : Tracked Q} (hs₀ : s₀.Inv)
    (hfollows : Follows leader s₀) {os : Os} {tid : Pid} {registers : UserRegs arch}
    (hopen : OpensEmpty arch filename s₀.context os tid (syscallRegs arch registers))
    (hallowed : s₀.Allowed (.syscallExit os tid registers))
    (hstep : s₀.step (.syscallExit os tid registers) = .ok s₁) :
    FileRun.Inv filename ⟨s₁, .opened leader arch tid (syscallRegs arch registers)⟩ ∧
      s₁.context.tally filename = s₀.context.bytesReported filename := by
  have hs₁ := Tracked.inv_step s₀ _ s₁ hs₀ hallowed hstep
  have hfollows₁ := hfollows.step hs₀ hallowed hstep
  obtain ⟨c', hcall, h⟩ := bind_eq_ok_iff.mp hstep
  rw [pure_eq_ok_iff] at h
  subst h
  have hok : 0 ≤ asInt (syscallRegs arch registers).retdata := by
    have hlt := hopen.returned
    rw [asInt, BitVec.toInt_eq_toNat_cond, BitVec.toNat_setWidth]
    split <;> omega
  obtain ⟨flags, hflags, hwrite⟩ := hopen.opens
  obtain ⟨op, flags', hop, hopens, hcloexec⟩ :=
    HeldFile.opens_switch hopen.plain hok hflags hwrite hopen.mode
  have hexit : s₀.context.perform os tid op = .ok c' := by
    have hrun : s₀.context.syscallExit arch os tid registers = .ok c' := hcall
    rwa [syscallExit, hop] at hrun
  obtain ⟨p, hp⟩ := opens_mapped hopens hexit
  have hmirrors : Mirrors (.opened leader arch tid (syscallRegs arch registers)) filename
      ⟨c', s₀.retired⟩ :=
    mirrors_opened hs₀ hfollows hopen hallowed.1 hp hopens
      (syscallExit_steps hp (within_any hallowed.2 hp) hcall) hexit
  have hfresh : FileRun.Fresh 0 (hasFlag flags O_CLOEXEC) (FileState.ofOpen os filename flags') := by
    refine ⟨?_, ?_, ?_, ?_, hcloexec⟩ <;>
      simp [FileState.ofOpen, FileState.getOutputSize, getFileLength, hopen.empty]
  have hwithin : Within ⟨fun _ _ => False, FileRun.Fresh 0 (hasFlag flags O_CLOEXEC)⟩ os
      s₀.context tid p op := by
    refine ⟨fun _ _ hfd => slot_of_opensFree hallowed.2 hop hfd hp, ?_, ?_⟩
    · intro fd flags target hfd htarget
      rw [hopens] at hfd
      cases hfd
      rw [hopen.names] at htarget
      cases htarget
      exact hfresh
    · intro fd f r hf
      cases op <;> simp only [Op.changes, Op.opens, reduceCtorEq] at hf hopens
  have hsteps := syscallExit_steps hp
    (fun op' hop' => Option.some.inj (hop.symm.trans hop') ▸ hwithin) hcall
  have hcarries : Carries filename (FileRun.Fresh 0 (hasFlag flags O_CLOEXEC)) s₀.context c' :=
    hsteps.carries fun _ _ h => False.elim h
  refine ⟨⟨hs₁, Nat.two_pow_pos 63, hfollows₁, hmirrors, ?_⟩, ?_⟩
  · intro q i r hslot hname
    have hset : (HeldFile.opened leader arch tid (syscallRegs arch registers)).cloexec =
        hasFlag flags O_CLOEXEC := by
      rw [HeldFile.opened, hflags]
      rfl
    rw [hset]
    by_cases hr : r < s₀.context.heap.fileCount
    · obtain ⟨q', i', hslot'⟩ := hcarries.held q i r hslot hr
      exact absurd ⟨q', i', r, hslot', (hcarries.name r hr).symm.trans hname⟩ hopen.unheld
    · exact (hcarries.fresh r (by omega) (Tidy.bound (Owned.tidy hs₁) q i r hslot) hname).2
  · rw [hs₀.tidy.bytesReported_eq_tally hopen.unheld]
    exact hcarries.tally_eq fun _ h => h.1

/-- The leaders after the calls since the start. -/
def leaders (calls : List (Call arch)) : Pid → Pid := calls.foldl Call.regroup fun tid => tid

/-- The tracker and the file after the open. -/
def FileRun.opened (calls₀ : List (Call arch)) (tid : Pid) (registers : UserRegs arch)
    (s₁ : Tracked Q) : FileRun Q :=
  ⟨s₁, .opened (leaders calls₀) arch tid (syscallRegs arch registers)⟩

/-- What is reported for the file is what the kernel wrote to it, exactly if every write of the
family had plain words and went through a state that was in step with the file. -/
theorem reported_eq_written_iff {opts : Options} {os₀ : Os} {tracee : Pid} {c₀ : Context Q}
    {calls₀ : List (Call arch)} {s₀ : Tracked Q}
    (hstart : (Context.new opts : Context Q).registerTracee os₀ tracee = .ok c₀)
    (hallowed₀ : Runs.Along Tracked.step Tracked.Allowed ⟨c₀, ∅⟩ calls₀)
    (hrun₀ : Runs.run Tracked.step ⟨c₀, ∅⟩ calls₀ = .ok s₀)
    {filename : String} {os : Os} {tid : Pid} {registers : UserRegs arch} {s₁ : Tracked Q}
    (hopen : OpensEmpty arch filename s₀.context os tid (syscallRegs arch registers))
    (hallowed : s₀.Allowed (.syscallExit os tid registers))
    (hstep : s₀.step (.syscallExit os tid registers) = .ok s₁)
    {calls : List (Call arch)} {t : FileRun Q}
    (hfamily : Runs.Along FileRun.step (FileRun.Family filename)
      (.opened calls₀ tid registers s₁) calls)
    (hcloses : Runs.Along FileRun.step FileRun.ClosesPlainly (.opened calls₀ tid registers s₁) calls)
    (hrun : Runs.run FileRun.step (.opened calls₀ tid registers s₁) calls = .ok t)
    (hclosed : t.kernel.held = ∅) :
    t.tracked.context.bytesReported filename =
        s₀.context.bytesReported filename + t.kernel.length ↔
      Runs.Along FileRun.step FileRun.WritesInStep (.opened calls₀ tid registers s₁) calls := by
  have hs₀ := Tracked.inv_run hstart hallowed₀ hrun₀
  have hc₀ : Tracked.Inv ⟨c₀, ∅⟩ := (Owned.new opts).registerTracee hstart
  have hfollows : Follows (leaders calls₀) s₀ := (Follows.start hstart).run hc₀ hallowed₀ hrun₀
  obtain ⟨hs₁, htally⟩ := inv_open hs₀ hfollows hopen hallowed hstep
  obtain ⟨hinv, hle, hiff⟩ := Runs.run_measure FileRun.inv_step hs₁ (hfamily.and hcloses) hrun
  have hreported := (Owned.tidy hinv.tracked).bytesReported_eq_tally
    (hinv.mirrors.not_holds hinv.tracked hclosed)
  have hstart : FileRun.behind filename (.opened calls₀ tid registers s₁) =
      -s₀.context.bytesReported filename := by
    rw [FileRun.behind, FileRun.opened, htally, HeldFile.opened, Nat.cast_zero, zero_sub]
  have hend : t.tracked.context.bytesReported filename =
      s₀.context.bytesReported filename + t.kernel.length ↔
        FileRun.behind filename (.opened calls₀ tid registers s₁) = t.behind filename := by
    rw [hstart, hreported, FileRun.behind]
    omega
  rw [hend]
  exact hiff

/-! ## Two runs on fixed inputs -/

/-- The tracee opens a file that is empty. -/
def openOut : Call .x86_64 := exitOf 0 1 2 3 0 1 0 0

/-- Parent and child write in turn. -/
def oneChild : List (Call .x86_64) :=
  [.registerProcess (plainOs 0) 1 2, exitOf 0 2 1 100 3 0 0 0, exitOf 0 1 20 20 3 0 0 0,
    exitOf 0 2 3 0 3 0 0 0, .vanishProcess 2, .vanishProcess 1]

/-- A shell that runs two commands into the same file. -/
def twoChildren : List (Call .x86_64) :=
  [.registerProcess (plainOs 0) 1 2, exitOf 0 2 1 100 3 0 0 0, .vanishProcess 2,
    .registerProcess (plainOs 100) 1 3, exitOf 0 3 1 50 3 0 0 0, .vanishProcess 3,
    .vanishProcess 1]

/-- Before the open there is no file state at all. -/
theorem opensEmpty_out {c₀ : Context FileQueue}
    (hstart : (Context.new plainOptions).registerTracee (plainOs 0) 1 = .ok c₀)
    (hcount : c₀.heap.fileCount = 0) :
    OpensEmpty .x86_64 "out" c₀ (plainOs 0) 1 ⟨2, 3, 0, 1, 0, 0⟩ := by
  refine ⟨⟨1, by decide, by decide⟩, by decide, rfl, rfl, ?_, by decide, by decide⟩
  rintro ⟨p, fd, r, hslot, _⟩
  have hlt := ((Owned.new plainOptions).registerTracee hstart).tidy.bound p fd r hslot
  omega

theorem reported_eq_written_oneChild :
    ∃ (c₀ : Context FileQueue) (s₁ : Tracked FileQueue) (t : FileRun FileQueue),
      (Context.new plainOptions).registerTracee (plainOs 0) 1 = .ok c₀ ∧
      Tracked.step ⟨c₀, ∅⟩ openOut = .ok s₁ ∧
      Runs.run FileRun.step (.opened [] 1 (exitRegs .x86_64 ⟨2, 3, 0, 1, 0, 0⟩) s₁) oneChild =
        .ok t ∧ t.kernel.length = 120 ∧
      t.tracked.context.bytesReported "out" = c₀.bytesReported "out" + t.kernel.length := by
  refine ⟨_, _, _, rfl, rfl, rfl, by decide, ?_⟩
  refine (@reported_eq_written_iff FileQueue _ .x86_64 plainOptions (plainOs 0) 1 _ [] _ rfl
    trivial rfl "out" (plainOs 0) 1 (exitRegs .x86_64 ⟨2, 3, 0, 1, 0, 0⟩) _
    (opensEmpty_out rfl rfl) ?_ rfl oneChild _ ?_ ?_ rfl ?_).mpr ?_
  all_goals decide

/-- The second child's 50 bytes are not reported. -/
theorem twoChildren_lost :
    ∃ (c₀ : Context FileQueue) (s₁ : Tracked FileQueue) (t : FileRun FileQueue),
      (Context.new plainOptions).registerTracee (plainOs 0) 1 = .ok c₀ ∧
      OpensEmpty .x86_64 "out" c₀ (plainOs 0) 1 ⟨2, 3, 0, 1, 0, 0⟩ ∧
      Tracked.Allowed ⟨c₀, ∅⟩ openOut ∧ Tracked.step ⟨c₀, ∅⟩ openOut = .ok s₁ ∧
      Runs.Along FileRun.step (FileRun.Family "out")
        (.opened [] 1 (exitRegs .x86_64 ⟨2, 3, 0, 1, 0, 0⟩) s₁) twoChildren ∧
      Runs.Along FileRun.step FileRun.ClosesPlainly
        (.opened [] 1 (exitRegs .x86_64 ⟨2, 3, 0, 1, 0, 0⟩) s₁) twoChildren ∧
      Runs.run FileRun.step (.opened [] 1 (exitRegs .x86_64 ⟨2, 3, 0, 1, 0, 0⟩) s₁) twoChildren =
        .ok t ∧
      t.kernel.held = ∅ ∧ t.kernel.length = 150 ∧
      t.tracked.context.bytesReported "out" = c₀.bytesReported "out" + 100 :=
  ⟨_, _, _, rfl, opensEmpty_out rfl rfl, by decide, rfl, by decide, by decide, rfl, by decide,
    by decide, by decide⟩

end Optrace
