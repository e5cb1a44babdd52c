import Optrace.Offsets

/-!
# The reported size

What is reported of a file when its one descriptor is closed, against how its length has changed
since the descriptor was opened.
-/

namespace Optrace

set_option autoImplicit false
set_option linter.unusedSectionVars false

open SlotTable Except RegularFile

variable {Q : Type} [MaxOutFilesQueue Q] {arch : Arch}

/-! ## The report at the close -/

/-- The exit of `close`. -/
def closeRegs (arch : Arch) (fd : Word) : UserRegs arch :=
  exitRegs arch ⟨if arch = .x86_64 then 3 else 57, 0, fd, 0, 0, 0⟩

theorem closeRegs_closes (arch : Arch) (fd : Word) :
    syscallSwitch arch (syscallRegs arch (closeRegs arch fd)) = some (.opClose fd) := by
  rw [closeRegs, syscallRegs_exitRegs]
  cases arch <;> rfl

namespace Context

variable {c : Context Q} {p r : Nat} {fd : Word}

/-- When a thread of the process closes the descriptor now, so many bytes are reported. -/
def Reports (arch : Arch) (c : Context Q) (p : Nat) (fd : Word) (n : Nat) : Prop :=
  ∀ (os : Os) (tid : Pid) (registers : UserRegs arch), c.procMap.lookup tid = some p →
    syscallSwitch arch (syscallRegs arch registers) = some (.opClose fd) →
    ∃ c' file output, c.syscallExit arch os tid registers = .ok c' ∧
      c'.reports = c.reports ++ [⟨some file, output⟩] ∧ output.size.toNat = n

/-- The descriptor is the only one with this file state. -/
structure Sole (p r : Nat) (fd : Word) (c : Context Q) : Prop where
  slot_self : slot (c.heap.fds p) fd.toNat = some r
  once : c.heap.useCount r = 1

theorem reports_iff {tid : Pid} {n : Nat} (hc : c.Sole p r fd) (os : Os)
    (htid : c.procMap.lookup tid = some p) :
    c.Reports arch p fd n ↔ (c.heap.files r).getOutputSize.toNat = n := by
  have hclose : ∀ (os : Os) (tid : Pid) (registers : UserRegs arch),
      c.procMap.lookup tid = some p →
      syscallSwitch arch (syscallRegs arch registers) = some (.opClose fd) →
      c.syscallExit arch os tid registers = .ok (c.clearSlot p fd.toNat r) := by
    intro os tid registers hp hswitch
    rw [Context.syscallExit, hswitch]
    have hrun := opClose_eq hp fd
    rw [hc.slot_self] at hrun
    exact hrun
  have hreports := c.clearSlot_reports p fd.toNat r
  rw [if_pos hc.once] at hreports
  constructor
  · intro h
    obtain ⟨c', file, output, hrun, hadded, hsize⟩ := h os tid _ htid (closeRegs_closes arch fd)
    rw [hclose os tid _ htid (closeRegs_closes arch fd)] at hrun
    cases hrun
    rw [hreports] at hadded
    have hsame := List.append_cancel_left hadded
    cases hsame
    exact hsize
  · intro hsize os tid registers hp hswitch
    exact ⟨_, _, _, hclose os tid registers hp hswitch, hreports, hsize⟩

/-- The descriptor of a fresh open is. -/
theorem Opens.sole {s : Tracked Q} {os : Os} {c' : Context Q} {tid : Pid} {registers : UserRegs arch}
    {flags : Word} {length : Nat} (hs : s.Inv) (hallowed : s.Allowed (.syscallExit os tid registers))
    (h : s.context.Opens os tid registers p fd flags length c') :
    c'.Sole p s.context.heap.fileCount fd := by
  refine ⟨h.slot_self, ?_⟩
  obtain ⟨op, hop, hopens⟩ := h.opens
  have hempty := slot_of_opensFree hallowed.2 hop hopens h.thread
  obtain ⟨filename, kills, _, rfl⟩ := h.opened
  have hp := hs.registered.alloc tid p h.thread
  have hcount := @fillSlot_useCount Q _ (({ s.context with kills := kills }).newFile
    (FileState.ofOpen os filename flags)) p fd.toNat hp hempty s.context.heap.fileCount
    s.context.heap.fileCount
  have hzero : s.context.heap.useCount s.context.heap.fileCount = 0 :=
    hs.tidy.useCount_fresh (le_refl _)
  rw [hcount, if_pos rfl]
  exact congrArg (· + 1) hzero

end Context

/-! ## The end of the range a call reaches -/

namespace FileExit

variable {e : FileExit arch}

/-- The position the tracker takes a write to begin at. -/
def assumed (e : FileExit arch) (file : FileState) : Word :=
  match e.sys with
  | some .SYS_write | some .SYS_writev => file.currPos
  | _ => e.regs.arg3

/-- The end that `MaxPos` is compared with. -/
def reach (e : FileExit arch) (file : FileState) : Nat :=
  match e.sys with
  | some .SYS_write | some .SYS_writev | some .SYS_pwritev | some .SYS_pwrite64
  | some .SYS_pwritev2 =>
    if 0 < asSsize e.regs.retdata then (e.assumed file + e.regs.retdata).toNat else 0
  | some .SYS_fallocate =>
    if 0 ≤ asInt e.regs.retdata then (e.regs.arg2 + e.regs.arg3).toNat else 0
  | some .SYS_ftruncate => if 0 ≤ asInt e.regs.retdata then e.regs.arg1.toNat else 0
  | _ => 0

end FileExit

namespace FileState

theorem exited_initSize (r : SyscallRegs) (file : FileState) :
    (exited arch r file).initSize = file.initSize := by
  unfold exited
  split
  · rename_i fd change hchange
    obtain ⟨op, _, hop⟩ := Option.bind_eq_some_iff.mp hchange
    cases op <;> cases hop <;> rfl
  · rfl

theorem exited_fcntl {e : FileExit arch} {f : File} (hsys : e.sys = some .SYS_fcntl)
    (hlegal : e.Legal f) (file : FileState) :
    (exited arch e.regs file).maxPos = file.maxPos := by
  rcases switch_of_setFlags hsys hlegal with hnone | hset
  · rw [exited, hnone]
    rfl
  · rw [exited, hset]
    rfl

theorem exited_maxPos {e : FileExit arch} {f : File} {x : Sys} (hx : x ∈ fileCalls)
    (hsys : e.sys = some x) (hlegal : e.Legal f) (file : FileState) :
    (exited arch e.regs file).maxPos.toNat = max file.maxPos.toNat (e.reach file) := by
  have hwrite : ∀ hsys' : e.sys = some .SYS_write ∨ e.sys = some .SYS_writev,
      (exited arch e.regs file).maxPos.toNat = max file.maxPos.toNat
        (if 0 < asSsize e.regs.retdata then (file.currPos + e.regs.retdata).toNat else 0) := by
    intro hsys'
    rw [exited_write hsys']
    split
    · exact enroll_maxPos _ _
    · simp
  have hwriteAt : ∀ hsys' : e.sys = some .SYS_pwritev ∨ e.sys = some .SYS_pwrite64 ∨
      e.sys = some .SYS_pwritev2, (exited arch e.regs file).maxPos.toNat = max file.maxPos.toNat
        (if 0 < asSsize e.regs.retdata then (e.regs.arg3 + e.regs.retdata).toNat else 0) := by
    intro hsys'
    rw [exited_writeAt hsys']
    split
    · exact enrollNoShift_maxPos _ _ _
    · simp
  unfold FileExit.reach FileExit.assumed
  rw [hsys]
  cases x with
  | SYS_write => exact hwrite (Or.inl hsys)
  | SYS_writev => exact hwrite (Or.inr hsys)
  | SYS_pwritev => exact hwriteAt (Or.inl hsys)
  | SYS_pwrite64 => exact hwriteAt (Or.inr (Or.inl hsys))
  | SYS_pwritev2 => exact hwriteAt (Or.inr (Or.inr hsys))
  | SYS_fallocate =>
    rw [exited_allocate hsys]
    simp only
    split
    · rw [enrollNoShift_maxPos, zero_add]
    · simp
  | SYS_ftruncate =>
    rw [exited_truncate hsys]
    simp only
    split
    · rw [enrollNoShift_maxPos, zero_add]
    · simp
  | SYS_lseek =>
    rw [exited_seek hsys]
    simp only
    split
    · simp [setCurrPos]
    · simp
  | SYS_fcntl =>
    rw [exited_fcntl hsys hlegal]
    simp
  | _ => exact absurd hx (by decide)

end FileState

/-! ## What is reported after one call -/

namespace Watched

variable {s s' : Watched Q} {e : FileExit arch} {p r L : Nat} {fd : Word} {allowed : List Sys}

/-- The file state knows the length at the open, and no other descriptor has it. -/
structure Sized (p r : Nat) (fd : Word) (L : Nat) (s : Watched Q) : Prop where
  sole : s.context.Sole p r fd
  initSize : (s.context.heap.files r).initSize.toNat = L

theorem Sized.next (hallowed : allowed ⊆ fileCalls) (hs : s.Sized p r fd L)
    (h : s.Calls allowed p fd e) (hs' : s.step e = .ok s') :
    s'.Sized p r fd L ∧ s'.file = s.file.after e.effect ∧
      (s'.context.heap.files r) = FileState.exited arch e.regs (s.context.heap.files r) := by
  rw [step_ok hallowed hs.sole.slot_self h] at hs'
  cases hs'
  have hfile : (s.context.updateFile r (FileState.exited arch e.regs)).heap.files r =
      FileState.exited arch e.regs (s.context.heap.files r) := by
    rw [Context.updateFile, Heap.updateFile_files_self]
  refine ⟨⟨⟨hs.sole.slot_self, hs.sole.once⟩, ?_⟩, rfl, hfile⟩
  rw [hfile, FileState.exited_initSize]
  exact hs.initSize

theorem step_reports (hallowed : allowed ⊆ fileCalls) (hs : s.Sized p r fd L)
    (h : s.Calls allowed p fd e) (n : File → Nat) :
    (∃ s', s.step e = .ok s' ∧ s'.context.Reports arch p fd (n s'.file)) ↔
      max (s.context.heap.files r).maxPos.toNat (e.reach (s.context.heap.files r)) - L =
        n (s.file.after e.effect) := by
  have hstep := step_ok hallowed hs.sole.slot_self h
  obtain ⟨hsized, hfile, hexited⟩ := hs.next hallowed h hstep
  obtain ⟨x, hx, hsys⟩ := h.one
  have hreports : Context.Reports arch _ p fd (n (s.file.after e.effect)) ↔ _ :=
    Context.reports_iff hsized.sole e.os h.thread
  rw [FileState.getOutputSize_toNat, hsized.initSize, hexited,
    FileState.exited_maxPos (hallowed hx) hsys h.legal] at hreports
  rw [← hreports]
  constructor
  · rintro ⟨s', hs', hn⟩
    rw [hstep] at hs'
    cases hs'
    exact hn
  · exact fun hn => ⟨_, hstep, hn⟩

end Watched

/-! ## Writes -/

def writeCalls : List Sys :=
  [.SYS_write, .SYS_writev, .SYS_pwritev, .SYS_pwrite64, .SYS_pwritev2]

namespace FileExit

variable {e : FileExit arch} {f : File}

/-- Bytes were written. -/
def Wrote (e : FileExit arch) : Prop :=
  (∃ x ∈ writeCalls, e.sys = some x) ∧ 0 < asSsize e.regs.retdata

instance (e : FileExit arch) : Decidable e.Wrote := inferInstanceAs (Decidable (_ ∧ _))

/-- Where they went. -/
def start (e : FileExit arch) (f : File) : Nat :=
  match e.effect with
  | .write _ atEnd => f.start f.offset atEnd
  | .writeAt _ pos atEnd => f.start pos atEnd
  | _ => 0

theorem Wrote.reach (h : e.Wrote) (file : FileState) :
    e.reach file = (e.assumed file + e.regs.retdata).toNat := by
  obtain ⟨⟨x, hx, hsys⟩, hpos⟩ := h
  simp only [writeCalls, List.mem_cons, List.not_mem_nil, or_false] at hx
  rw [FileExit.reach, hsys]
  rcases hx with rfl | rfl | rfl | rfl | rfl
  all_goals exact if_pos hpos

/-- A write is one through the offset or a positional one. -/
theorem Wrote.effect_cases (h : e.Wrote) :
    (∃ atEnd, e.effect = .write e.regs.retdata.toNat atEnd) ∨
      ∃ atEnd, e.effect = .writeAt e.regs.retdata.toNat e.regs.arg3.toNat atEnd := by
  obtain ⟨⟨x, hx, hsys⟩, hpos⟩ := h
  have hnonneg : ¬e.regs.retdata.toInt < 0 := not_lt.mpr (le_of_lt hpos)
  rw [effect, if_neg hnonneg, hsys]
  simp only [writeCalls, List.mem_cons, List.not_mem_nil, or_false] at hx
  rcases hx with rfl | rfl | rfl | rfl | rfl
  · exact Or.inl ⟨_, rfl⟩
  · exact Or.inl ⟨_, rfl⟩
  · exact Or.inr ⟨_, rfl⟩
  · exact Or.inr ⟨_, rfl⟩
  · simp only
    split
    · exact Or.inl ⟨_, rfl⟩
    · exact Or.inr ⟨_, rfl⟩

theorem Wrote.lengthAfter (h : e.Wrote) (f : File) :
    f.lengthAfter e.effect = max f.length (e.start f + e.regs.retdata.toNat) := by
  have hne := (asSsize_pos_iff.mp h.2).1
  rw [start]
  rcases h.effect_cases with ⟨atEnd, heffect⟩ | ⟨atEnd, heffect⟩
  · rw [heffect]
    exact if_neg hne
  · rw [heffect]
    exact if_neg hne

theorem Wrote.start_lt (h : e.Wrote) (hlegal : e.Legal f) :
    e.start f + e.regs.retdata.toNat < 2 ^ 63 := by
  have hfits := hlegal.fits
  rw [start]
  rcases h.effect_cases with ⟨atEnd, heffect⟩ | ⟨atEnd, heffect⟩
  · rw [heffect] at hfits ⊢
    exact hfits
  · rw [heffect] at hfits ⊢
    exact hfits.2

/-- A write that wrote nothing did nothing. -/
theorem effect_unwritten {x : Sys} (hx : x ∈ writeCalls) (hsys : e.sys = some x) (hno : ¬e.Wrote)
    (file : FileState) (f : File) :
    e.reach file = 0 ∧ f.lengthAfter e.effect = f.length ∧ f.offsetAfter e.effect = f.offset := by
  have hpos : ¬0 < asSsize e.regs.retdata := fun hpos => hno ⟨⟨x, hx, hsys⟩, hpos⟩
  simp only [writeCalls, List.mem_cons, List.not_mem_nil, or_false] at hx
  refine ⟨?_, ?_⟩
  · rw [FileExit.reach, hsys]
    rcases hx with rfl | rfl | rfl | rfl | rfl
    all_goals exact if_neg hpos
  · by_cases hneg : e.regs.retdata.toInt < 0
    · rw [effect_error hneg]
      exact ⟨rfl, rfl⟩
    · have hzero : e.regs.retdata.toNat = 0 := by
        have hlt := toInt_nonneg_iff.mp (not_lt.mp hneg)
        by_contra hne
        exact hpos (asSsize_pos_iff.mpr ⟨hne, hlt⟩)
      rw [effect, if_neg hneg, hsys, hzero]
      rcases hx with rfl | rfl | rfl | rfl | rfl
      · exact ⟨rfl, rfl⟩
      · exact ⟨rfl, rfl⟩
      · exact ⟨rfl, rfl⟩
      · exact ⟨rfl, rfl⟩
      · simp only
        split
        · exact ⟨rfl, rfl⟩
        · exact ⟨rfl, rfl⟩

/-- The tracker and the file take the same range exactly if they begin it at the same position. -/
theorem Wrote.reach_eq_iff (h : e.Wrote) (hlegal : e.Legal f) (file : FileState) :
    e.reach file = e.start f + e.regs.retdata.toNat ↔ (e.assumed file).toNat = e.start f := by
  have hlt := h.start_lt hlegal
  have ha := (e.assumed file).isLt
  rw [h.reach, BitVec.toNat_add]
  omega

end FileExit

namespace Watched

variable {s s' : Watched Q} {e : FileExit arch} {p r L : Nat} {fd : Word}

def appendCalls : List Sys := writeCalls ++ [.SYS_lseek, .SYS_fcntl]

/-- The call goes through, and a close after it reports what the file has gained in length. -/
def ReportsAppended (p : Nat) (fd : Word) (L : Nat) (s : Watched Q) (e : FileExit arch) : Prop :=
  ∃ s', s.step e = .ok s' ∧ s'.context.Reports arch p fd (s'.file.length - L)

/-- Bytes that are written go where the tracker takes them to go, or end within the file like the
range the tracker takes them to fill. With `O_APPEND` they go to the end of the file. -/
def WritesSeen (p : Nat) (fd : Word) (s : Watched Q) (e : FileExit arch) : Prop :=
  ∀ file, s.context.fileAt p fd = some file → e.Wrote →
    (e.assumed file).toNat = e.start s.file ∨
      ((e.assumed file + e.regs.retdata).toNat ≤ s.file.length ∧
        e.start s.file + e.regs.retdata.toNat ≤ s.file.length)

instance (p : Nat) (fd : Word) (s : Watched Q) (e : FileExit arch) :
    Decidable (s.WritesSeen p fd e) :=
  match hfile : s.context.fileAt p fd with
  | none => isTrue fun file hat => by rw [hfile] at hat; cases hat
  | some file =>
    decidable_of_iff (e.Wrote → (e.assumed file).toNat = e.start s.file ∨
        ((e.assumed file + e.regs.retdata).toNat ≤ s.file.length ∧
          e.start s.file + e.regs.retdata.toNat ≤ s.file.length))
      ⟨fun h file' hat => by
        rw [hfile] at hat
        cases hat
        exact h, fun h => h file hfile⟩

/-- What holds as long as all writes are seen. -/
structure Appending (p r : Nat) (fd : Word) (L : Nat) (s : Watched Q) : Prop where
  sized : s.Sized p r fd L
  grown : max L (s.context.heap.files r).maxPos.toNat = s.file.length

/-- The other calls change neither mark. -/
theorem idle_of_not_wrote {x : Sys} (hx : x ∈ appendCalls) (hsys : e.sys = some x) (hno : ¬e.Wrote)
    (file : FileState) (f : File) : e.reach file = 0 ∧ f.lengthAfter e.effect = f.length := by
  rcases List.mem_append.mp hx with hx | hx
  · obtain ⟨hreach, hlength, _⟩ := FileExit.effect_unwritten hx hsys hno file f
    exact ⟨hreach, hlength⟩
  · simp only [List.mem_cons, List.not_mem_nil, or_false] at hx
    unfold FileExit.reach FileExit.effect
    rw [hsys]
    rcases hx with rfl | rfl
    · exact ⟨rfl, by split <;> rfl⟩
    · exact ⟨rfl, by split <;> rfl⟩

theorem reportsAppended_iff (hs : s.Appending p r fd L) (h : s.Calls appendCalls p fd e) :
    s.ReportsAppended p fd L e ↔ s.WritesSeen p fd e := by
  have hgrown := hs.grown
  have hfile : s.context.fileAt p fd = some (s.context.heap.files r) := by
    rw [Context.fileAt, hs.sized.sole.slot_self]
    rfl
  obtain ⟨x, hx, hsys⟩ := h.one
  rw [ReportsAppended, step_reports (by decide) hs.sized h fun f => f.length - L, File.after_length]
  by_cases hwrote : e.Wrote
  · have hsame := hwrote.reach_eq_iff h.legal (s.context.heap.files r)
    have hseen : s.WritesSeen p fd e ↔ (e.assumed (s.context.heap.files r)).toNat = e.start s.file ∨
        ((e.assumed (s.context.heap.files r) + e.regs.retdata).toNat ≤ s.file.length ∧
          e.start s.file + e.regs.retdata.toNat ≤ s.file.length) := by
      constructor
      · exact fun hseen => hseen _ hfile hwrote
      · intro hseen file hat _
        rw [hfile] at hat
        cases hat
        exact hseen
    rw [hseen, ← hsame, ← hwrote.reach, hwrote.lengthAfter]
    exact gained_eq_iff hgrown
  · obtain ⟨hreach, hlength⟩ := idle_of_not_wrote hx hsys hwrote (s.context.heap.files r) s.file
    rw [hreach, hlength]
    refine iff_of_true (by omega) fun _ _ hyes => absurd hyes hwrote

theorem Appending.next (hs : s.Appending p r fd L) (h : s.Calls appendCalls p fd e)
    (hseen : s.WritesSeen p fd e) (hs' : s.step e = .ok s') : s'.Appending p r fd L := by
  have hreports := (reportsAppended_iff hs h).mpr hseen
  rw [ReportsAppended, step_reports (by decide) hs.sized h fun f => f.length - L] at hreports
  obtain ⟨hsized, hfile, hexited⟩ := hs.sized.next (by decide) h hs'
  obtain ⟨x, hx, hsys⟩ := h.one
  have hall : x ∈ fileCalls := (by decide : appendCalls ⊆ fileCalls) hx
  have hgrown := hs.grown
  have hlength : s.file.length ≤ s.file.lengthAfter e.effect := by
    by_cases hwrote : e.Wrote
    · rw [hwrote.lengthAfter]
      exact le_max_left _ _
    · rw [(idle_of_not_wrote hx hsys hwrote (s.context.heap.files r) s.file).2]
  refine ⟨hsized, ?_⟩
  rw [hexited, FileState.exited_maxPos hall hsys h.legal, hfile, File.after_length]
  rw [File.after_length] at hreports
  omega

end Watched

open Watched in
/-- Whatever the writes, seeks and changes of flags on a descriptor, a close after each reports the
length the file has gained if and only if the tracker takes every write to begin where it does, or
both ends lie within the file. -/
theorem appends_reported_iff {opts : Options} {os₀ os : Os} {tracee : Pid} {c₀ c : Context Q}
    {calls : List (Call arch)} {s : Tracked Q} {tid : Pid} {registers : UserRegs arch} {p : Nat}
    {fd flags : Word} {length : Nat} (append : Bool) {exits : List (FileExit arch)}
    (hstart : (Context.new opts : Context Q).registerTracee os₀ tracee = .ok c₀)
    (hallowed : Runs.Along Tracked.step Tracked.Allowed ⟨c₀, ∅⟩ calls)
    (hrun : Runs.run Tracked.step ⟨c₀, ∅⟩ calls = .ok s)
    (hopen : s.Allowed (.syscallExit os tid registers))
    (hopens : s.context.Opens os tid registers p fd flags length c)
    (hcalls : Runs.Along step (fun s e => s.Calls appendCalls p fd e)
      ⟨c, File.opened length append⟩ exits) :
    Runs.Along step (fun s e => s.ReportsAppended p fd length e) ⟨c, File.opened length append⟩ exits ↔
      Runs.Along step (fun s e => s.WritesSeen p fd e) ⟨c, File.opened length append⟩ exits := by
  have hinv := Tracked.inv_run hstart hallowed hrun
  have hbegin : Appending p s.context.heap.fileCount fd length
      (⟨c, File.opened length append⟩ : Watched Q) := by
    have hsole := hopens.sole hinv hopen
    obtain ⟨filename, hlength, hfile⟩ := hopens.fileAt
    rw [Context.fileAt, hsole.slot_self, Option.map_some, Option.some.injEq] at hfile
    refine ⟨⟨hsole, ?_⟩, ?_⟩
    · rw [← hlength, ← hfile]
    · rw [hfile]
      exact Nat.max_zero _
  have hiff : ∀ (s' : Watched Q) (e : FileExit arch),
      s'.Appending p s.context.heap.fileCount fd length → s'.Calls appendCalls p fd e →
      (s'.ReportsAppended p fd length e ↔ s'.WritesSeen p fd e) :=
    fun s' e hs h => reportsAppended_iff hs h
  have hnext : ∀ (s' : Watched Q) (e : FileExit arch) (s'' : Watched Q),
      s'.Appending p s.context.heap.fileCount fd length → s'.Calls appendCalls p fd e →
      s'.WritesSeen p fd e → s'.step e = .ok s'' →
      s''.Appending p s.context.heap.fileCount fd length :=
    fun s' e s'' hs h hseen hs' => hs.next h hseen hs'
  exact Runs.Along.congr hiff hnext hbegin hcalls

open FileStorage in
/-- Two writes at the end of a file of 100 bytes. -/
theorem appends_reported_writes :
    Runs.Along Watched.step (fun (s : Watched FileQueue) e => s.ReportsAppended 0 3 100 e)
      ⟨openStart 100 (O_WRONLY ||| O_APPEND), File.opened 100 true⟩
      [exitOn 1 5 0 5 0, exitOn 1 7 0 7 0] := by
  refine (@appends_reported_iff FileQueue _ .x86_64 plainOptions (plainOs 0) (plainOs 100) 1
    plainStart _ [] ⟨plainStart, ∅⟩ 1 (openRegs (O_WRONLY ||| O_APPEND)) 0 3 (O_WRONLY ||| O_APPEND)
    100 true [exitOn 1 5 0 5 0, exitOn 1 7 0 7 0] rfl ?_ rfl ?_
    (openStart_opens 100 (O_WRONLY ||| O_APPEND) (by decide)) ?_).mpr ?_
  · decide
  · decide
  · decide
  · decide

open FileStorage in
/-- A seek to the start leads the tracker astray: the write appends 5 bytes, and none is reported. -/
theorem append_missed :
    Runs.Along Watched.step (fun (s : Watched FileQueue) e => s.Calls Watched.appendCalls 0 3 e)
        ⟨openStart 100 (O_WRONLY ||| O_APPEND), File.opened 100 true⟩
        [exitOn 8 0 0 0 0, exitOn 1 5 0 5 0] ∧
      ∃ (s : Watched FileQueue) (c : Context FileQueue), Runs.run Watched.step
          ⟨openStart 100 (O_WRONLY ||| O_APPEND), File.opened 100 true⟩
          [exitOn 8 0 0 0 0, exitOn 1 5 0 5 0] = .ok s ∧
        s.file.length = 105 ∧
        s.context.syscallExit .x86_64 (plainOs 0) 1 (closeRegs .x86_64 3) = .ok c ∧
        c.reports.map (fun rep => rep.output.size) = [0] := by
  refine ⟨by decide, _, _, rfl, ?_, rfl, ?_⟩
  · decide
  · decide

/-! ## Growing and shrinking -/

namespace FileExit

variable {e : FileExit arch}

/-- No sum that `Enroll`, `EnrollNoShift` or the case of `fallocate` computes wraps around. -/
structure NoWrap (e : FileExit arch) (file : FileState) : Prop where
  write : e.Wrote → (e.assumed file).toNat + e.regs.retdata.toNat < 2 ^ 64
  allocate : e.sys = some .SYS_fallocate → 0 ≤ asInt e.regs.retdata →
    e.regs.arg2.toNat + e.regs.arg3.toNat < 2 ^ 64

/-- `MaxPos` keeps up with the largest length the file had, and no sum wraps around. -/
def MarksAgree (e : FileExit arch) (file : FileState) (f : File) : Prop :=
  e.NoWrap file ∧ max f.peak (e.reach file) = max f.peak (f.lengthAfter e.effect)

/-- A call that must return 0 or an error, and returned no error. -/
theorem retdata_seen {f : File} (hlegal : e.Legal f) (hzero : e.regs.retdata.toInt ≤ 0)
    (hneg : ¬e.regs.retdata.toInt < 0) : 0 ≤ asInt e.regs.retdata := by
  apply (asInt_nonneg_iff hlegal.error hzero).mpr
  rw [← BitVec.toInt_inj]
  exact le_antisymm hzero (not_lt.mp hneg)

end FileExit

namespace Watched

variable {s s' : Watched Q} {e : FileExit arch} {p r L : Nat} {fd : Word}

def growthCalls : List Sys := writeCalls ++ [.SYS_ftruncate, .SYS_fallocate]

/-- No sum wraps around, the call goes through, and a close after it reports by how much the file
was longest since the open. -/
def ReportsGrowth (p : Nat) (fd : Word) (L : Nat) (s : Watched Q) (e : FileExit arch) : Prop :=
  (∃ file, s.context.fileAt p fd = some file ∧ e.NoWrap file) ∧
    ∃ s', s.step e = .ok s' ∧ s'.context.Reports arch p fd (s'.file.peak - L)

/-- `pwritev2` is given an offset, which is the end of the file where it appends or nothing beyond
what the file has reached, and so is the range of an `fallocate` that does not just extend it. -/
structure GrowthSeen (s : Watched Q) (e : FileExit arch) : Prop where
  offset : e.sys = some .SYS_pwritev2 → e.Wrote → e.regs.arg3 ≠ -1
  append : e.sys = some .SYS_pwritev2 → e.Wrote → hasFlag e.arg5 RWF_APPEND = true →
    e.regs.arg3.toNat = s.file.length ∨
      (e.regs.arg3.toNat + e.regs.retdata.toNat ≤ s.file.peak ∧
        s.file.length + e.regs.retdata.toNat ≤ s.file.peak)
  keepSize : e.sys = some .SYS_fallocate → 0 ≤ e.regs.retdata.toInt →
    FileExit.allocMode e.regs.arg1 = .keepSize →
    e.regs.arg2.toNat + e.regs.arg3.toNat ≤ s.file.peak
  insert : e.sys = some .SYS_fallocate → 0 ≤ e.regs.retdata.toInt →
    FileExit.allocMode e.regs.arg1 = .insert → s.file.length + e.regs.arg3.toNat ≤ s.file.peak

instance (s : Watched Q) (e : FileExit arch) : Decidable (s.GrowthSeen e) :=
  decidable_of_iff
    ((e.sys = some .SYS_pwritev2 → e.Wrote → e.regs.arg3 ≠ -1) ∧
      (e.sys = some .SYS_pwritev2 → e.Wrote → hasFlag e.arg5 RWF_APPEND = true →
        e.regs.arg3.toNat = s.file.length ∨
          (e.regs.arg3.toNat + e.regs.retdata.toNat ≤ s.file.peak ∧
            s.file.length + e.regs.retdata.toNat ≤ s.file.peak)) ∧
      (e.sys = some .SYS_fallocate → 0 ≤ e.regs.retdata.toInt →
        FileExit.allocMode e.regs.arg1 = .keepSize →
        e.regs.arg2.toNat + e.regs.arg3.toNat ≤ s.file.peak) ∧
      (e.sys = some .SYS_fallocate → 0 ≤ e.regs.retdata.toInt →
        FileExit.allocMode e.regs.arg1 = .insert →
        s.file.length + e.regs.arg3.toNat ≤ s.file.peak))
    ⟨fun ⟨h₁, h₂, h₃, h₄⟩ => ⟨h₁, h₂, h₃, h₄⟩, fun ⟨h₁, h₂, h₃, h₄⟩ => ⟨h₁, h₂, h₃, h₄⟩⟩

/-- What holds as long as all growth is seen. -/
structure Growing (p r : Nat) (fd : Word) (L : Nat) (s : Watched Q) : Prop where
  sized : s.Sized p r fd L
  following : s.Following p r fd
  grown : max L (s.context.heap.files r).maxPos.toNat = s.file.peak

theorem Growing.fileAt (hs : s.Growing p r fd L) :
    s.context.fileAt p fd = some (s.context.heap.files r) := by
  rw [Context.fileAt, hs.sized.sole.slot_self]
  rfl

theorem reportsGrowth_iff_marks (hs : s.Growing p r fd L) (h : s.Calls growthCalls p fd e) :
    s.ReportsGrowth p fd L e ↔ e.MarksAgree (s.context.heap.files r) s.file := by
  have hgrown := hs.grown
  rw [ReportsGrowth, step_reports (by decide) hs.sized h fun f => f.peak - L, File.after_peak]
  constructor
  · rintro ⟨⟨file, hat, hwrap⟩, hmarks⟩
    rw [hs.fileAt] at hat
    cases hat
    exact ⟨hwrap, by omega⟩
  · rintro ⟨hwrap, hmarks⟩
    exact ⟨⟨_, hs.fileAt, hwrap⟩, by omega⟩

theorem marks_iff_starts (hwrote : e.Wrote) {file : FileState} {f : File} :
    e.MarksAgree file f ↔
      (e.assumed file).toNat + e.regs.retdata.toNat < 2 ^ 64 ∧
        ((e.assumed file).toNat = e.start f ∨
          ((e.assumed file).toNat + e.regs.retdata.toNat ≤ f.peak ∧
            e.start f + e.regs.retdata.toNat ≤ f.peak)) := by
  have hwrap : e.NoWrap file ↔ (e.assumed file).toNat + e.regs.retdata.toNat < 2 ^ 64 := by
    refine ⟨fun h => h.write hwrote, fun h => ⟨fun _ => h, fun hsys => ?_⟩⟩
    obtain ⟨x, hx, hsys'⟩ := hwrote.1
    rw [hsys] at hsys'
    cases hsys'
    exact absurd hx (by decide)
  have hle := f.length_le
  rw [FileExit.MarksAgree, hwrap, hwrote.reach, hwrote.lengthAfter, BitVec.toNat_add]
  omega

theorem growthSeen_of_ne (hwrite : e.sys ≠ some .SYS_pwritev2)
    (halloc : e.sys ≠ some .SYS_fallocate) : s.GrowthSeen e :=
  ⟨fun h => absurd h hwrite, fun h => absurd h hwrite, fun h => absurd h halloc,
    fun h => absurd h halloc⟩

/-- A write the tracker takes to begin where it does. -/
theorem growth_at_start (hlegal : e.Legal s.file) (hwrote : e.Wrote)
    (hwrite : e.sys ≠ some .SYS_pwritev2) (halloc : e.sys ≠ some .SYS_fallocate)
    {file : FileState} (hsame : (e.assumed file).toNat = e.start s.file) :
    e.MarksAgree file s.file ↔ s.GrowthSeen e := by
  have hlt := hwrote.start_lt hlegal
  rw [marks_iff_starts hwrote, hsame]
  exact iff_of_true ⟨by omega, Or.inl rfl⟩ (growthSeen_of_ne hwrite halloc)

theorem growth_write (hs : s.Growing p r fd L) (hlegal : e.Legal s.file) (hwrote : e.Wrote)
    (hsys : e.sys = some .SYS_write ∨ e.sys = some .SYS_writev) :
    e.MarksAgree (s.context.heap.files r) s.file ↔ s.GrowthSeen e := by
  have hnonneg : 0 ≤ e.regs.retdata.toInt := le_of_lt hwrote.2
  have hstart : e.start s.file = s.file.offset := by
    rw [FileExit.start, FileExit.effect_write hnonneg hsys]
    simp [File.start, hs.following.plain]
  have hassumed : (e.assumed (s.context.heap.files r)).toNat = s.file.offset := by
    rw [← hs.following.tracked, FileExit.assumed]
    rcases hsys with hsys | hsys
    · rw [hsys]
    · rw [hsys]
  have hsame := hassumed.trans hstart.symm
  rcases hsys with hsys | hsys
  · exact growth_at_start hlegal hwrote (by simp [hsys]) (by simp [hsys]) hsame
  · exact growth_at_start hlegal hwrote (by simp [hsys]) (by simp [hsys]) hsame

theorem growth_writeAt (hs : s.Growing p r fd L) (hlegal : e.Legal s.file) (hwrote : e.Wrote)
    (hsys : e.sys = some .SYS_pwritev ∨ e.sys = some .SYS_pwrite64) :
    e.MarksAgree (s.context.heap.files r) s.file ↔ s.GrowthSeen e := by
  have hneg : ¬e.regs.retdata.toInt < 0 := not_lt.mpr (le_of_lt hwrote.2)
  have heffect : e.effect = .writeAt e.regs.retdata.toNat e.regs.arg3.toNat false := by
    rw [FileExit.effect, if_neg hneg]
    rcases hsys with hsys | hsys <;> rw [hsys]
  have hstart : e.start s.file = e.regs.arg3.toNat := by
    rw [FileExit.start, heffect]
    simp [File.start, hs.following.plain]
  have hassumed : e.assumed (s.context.heap.files r) = e.regs.arg3 := by
    rw [FileExit.assumed]
    rcases hsys with hsys | hsys <;> rw [hsys]
  have hsame : (e.assumed (s.context.heap.files r)).toNat = e.start s.file := by
    rw [hassumed, hstart]
  rcases hsys with hsys | hsys
  · exact growth_at_start hlegal hwrote (by simp [hsys]) (by simp [hsys]) hsame
  · exact growth_at_start hlegal hwrote (by simp [hsys]) (by simp [hsys]) hsame

/-- `pwritev2`, which the tracker takes at its word. -/
theorem growth_pwritev2 (hs : s.Growing p r fd L) (hlegal : e.Legal s.file) (hwrote : e.Wrote)
    (hsys : e.sys = some .SYS_pwritev2) :
    e.MarksAgree (s.context.heap.files r) s.file ↔ s.GrowthSeen e := by
  have hneg : ¬e.regs.retdata.toInt < 0 := not_lt.mpr (le_of_lt hwrote.2)
  have hne := (asSsize_pos_iff.mp hwrote.2).1
  have hassumed : e.assumed (s.context.heap.files r) = e.regs.arg3 := by
    rw [FileExit.assumed, hsys]
  have hnot : e.sys ≠ some .SYS_fallocate := by
    rw [hsys]
    decide
  rw [marks_iff_starts hwrote, hassumed]
  by_cases hminus : e.regs.arg3 = -1
  · have hall : e.regs.arg3.toNat = 2 ^ 64 - 1 := by rw [hminus]; rfl
    exact iff_of_false (fun h => by omega) fun h => h.offset hsys hwrote hminus
  · have heffect : e.effect = .writeAt e.regs.retdata.toNat e.regs.arg3.toNat
        (hasFlag e.arg5 RWF_APPEND) := by
      rw [FileExit.effect, if_neg hneg, hsys]
      exact if_neg hminus
    have hstart : e.start s.file =
        if hasFlag e.arg5 RWF_APPEND = true then s.file.length else e.regs.arg3.toNat := by
      rw [FileExit.start, heffect]
      simp [File.start, hs.following.plain]
    have hfits := hlegal.fits
    rw [heffect] at hfits
    have hlt : e.regs.arg3.toNat + e.regs.retdata.toNat < 2 ^ 63 := hfits.1
    rw [hstart]
    constructor
    · rintro ⟨_, hsame⟩
      refine ⟨fun _ _ => hminus, fun _ _ hflag => ?_, fun h => absurd h hnot, fun h => absurd h hnot⟩
      rwa [if_pos hflag] at hsame
    · intro h
      refine ⟨by omega, ?_⟩
      by_cases hflag : hasFlag e.arg5 RWF_APPEND = true
      · rw [if_pos hflag]
        exact h.append hsys hwrote hflag
      · rw [if_neg hflag]
        exact Or.inl rfl

theorem growth_unwritten {x : Sys} (hx : x ∈ writeCalls) (hsys : e.sys = some x) (hno : ¬e.Wrote)
    (file : FileState) :
    e.MarksAgree file s.file ↔ s.GrowthSeen e := by
  obtain ⟨hreach, hlength, _⟩ := FileExit.effect_unwritten hx hsys hno file s.file
  have hnot : e.sys ≠ some .SYS_fallocate := by
    rw [hsys]
    rintro heq
    cases heq
    exact absurd hx (by decide)
  have hle := s.file.length_le
  rw [FileExit.MarksAgree, hreach, hlength]
  refine iff_of_true ⟨⟨fun h => absurd h hno, fun h => absurd h hnot⟩, by omega⟩ ?_
  exact ⟨fun _ h => absurd h hno, fun _ h => absurd h hno, fun h => absurd h hnot,
    fun h => absurd h hnot⟩

theorem not_wrote {x : Sys} (hx : x ∉ writeCalls) (hsys : e.sys = some x) : ¬e.Wrote := by
  rintro ⟨⟨y, hy, hsys'⟩, _⟩
  rw [hsys] at hsys'
  cases hsys'
  exact hx hy

theorem growth_truncate (hlegal : e.Legal s.file) (hsys : e.sys = some .SYS_ftruncate)
    (file : FileState) :
    e.MarksAgree file s.file ↔ s.GrowthSeen e := by
  have hno : ¬e.Wrote := not_wrote (by decide) hsys
  have hle := s.file.length_le
  have hwrap : e.NoWrap file := ⟨fun h => absurd h hno, fun h => by rw [hsys] at h; cases h⟩
  refine iff_of_true ⟨hwrap, ?_⟩ (growthSeen_of_ne (by simp [hsys]) (by simp [hsys]))
  have hzero := hlegal.zero (Or.inl hsys)
  rw [FileExit.reach, FileExit.effect, hsys]
  by_cases hneg : e.regs.retdata.toInt < 0
  · have herror := asInt_error hlegal.error hneg
    simp only [if_neg (not_le.mpr herror), if_pos hneg]
    show max s.file.peak 0 = max s.file.peak s.file.length
    omega
  · have hseen := FileExit.retdata_seen hlegal hzero hneg
    simp only [if_pos hseen, if_neg hneg]
    rfl

/-- `fallocate`, which the tracker takes to extend the file. -/
theorem growth_allocate (hlegal : e.Legal s.file) (hsys : e.sys = some .SYS_fallocate)
    (file : FileState) :
    e.MarksAgree file s.file ↔ s.GrowthSeen e := by
  have hno : ¬e.Wrote := not_wrote (by decide) hsys
  have hwrite : e.sys ≠ some .SYS_pwritev2 := by simp [hsys]
  have hle := s.file.length_le
  have hzero := hlegal.zero (Or.inr (Or.inl hsys))
  by_cases hneg : e.regs.retdata.toInt < 0
  · have herror := asInt_error hlegal.error hneg
    have hwrap : e.NoWrap file :=
      ⟨fun h => absurd h hno, fun _ h => absurd h (not_le.mpr herror)⟩
    refine iff_of_true ⟨hwrap, ?_⟩ ⟨fun h => absurd h hwrite, fun h => absurd h hwrite,
      fun _ h => absurd h (not_le.mpr hneg), fun _ h => absurd h (not_le.mpr hneg)⟩
    rw [FileExit.reach, FileExit.effect_error hneg, hsys]
    simp only [if_neg (not_le.mpr herror)]
    show max s.file.peak 0 = max s.file.peak s.file.length
    omega
  · have hseen := FileExit.retdata_seen hlegal hzero hneg
    have heffect : e.effect = .allocate (FileExit.allocMode e.regs.arg1) e.regs.arg2.toNat
        e.regs.arg3.toNat := by
      rw [FileExit.effect, if_neg hneg, hsys]
    obtain ⟨hpos, hlt, hcollapse, hinsert⟩ := heffect ▸ hlegal.fits
    have hwrap : e.NoWrap file := ⟨fun h => absurd h hno, fun _ _ => by omega⟩
    have hreach : e.reach file = e.regs.arg2.toNat + e.regs.arg3.toNat := by
      rw [FileExit.reach, hsys]
      simp only [if_pos hseen]
      rw [BitVec.toNat_add]
      omega
    have hmode : s.GrowthSeen e ↔
        (FileExit.allocMode e.regs.arg1 = .keepSize →
          e.regs.arg2.toNat + e.regs.arg3.toNat ≤ s.file.peak) ∧
        (FileExit.allocMode e.regs.arg1 = .insert →
          s.file.length + e.regs.arg3.toNat ≤ s.file.peak) :=
      ⟨fun h => ⟨h.keepSize hsys (not_lt.mp hneg), h.insert hsys (not_lt.mp hneg)⟩,
        fun h => ⟨fun h' => absurd h' hwrite, fun h' => absurd h' hwrite, fun _ _ => h.1,
          fun _ _ => h.2⟩⟩
    rw [hmode, FileExit.MarksAgree, hreach, heffect, and_iff_right hwrap]
    cases hcase : FileExit.allocMode e.regs.arg1 with
    | extend => simp [File.lengthAfter]; omega
    | keepSize => simp [File.lengthAfter]; omega
    | collapse =>
      have := hcollapse hcase
      simp [File.lengthAfter]; omega
    | insert =>
      have := hinsert hcase
      simp [File.lengthAfter]; omega

theorem reportsGrowth_iff (hs : s.Growing p r fd L) (h : s.Calls growthCalls p fd e) :
    s.ReportsGrowth p fd L e ↔ s.GrowthSeen e := by
  rw [reportsGrowth_iff_marks hs h]
  obtain ⟨x, hx, hsys⟩ := h.one
  rcases List.mem_append.mp hx with hx | hx
  · by_cases hwrote : e.Wrote
    · simp only [writeCalls, List.mem_cons, List.not_mem_nil, or_false] at hx
      rcases hx with rfl | rfl | rfl | rfl | rfl
      · exact growth_write hs h.legal hwrote (Or.inl hsys)
      · exact growth_write hs h.legal hwrote (Or.inr hsys)
      · exact growth_writeAt hs h.legal hwrote (Or.inl hsys)
      · exact growth_writeAt hs h.legal hwrote (Or.inr hsys)
      · exact growth_pwritev2 hs h.legal hwrote hsys
    · exact growth_unwritten hx hsys hwrote _
  · simp only [List.mem_cons, List.not_mem_nil, or_false] at hx
    rcases hx with rfl | rfl
    · exact growth_truncate h.legal hsys _
    · exact growth_allocate h.legal hsys _

theorem growth_tracked (hs : s.Growing p r fd L) (h : s.Calls growthCalls p fd e)
    (hseen : s.GrowthSeen e) :
    (FileState.exited arch e.regs (s.context.heap.files r)).currPos.toNat =
      s.file.offsetAfter e.effect := by
  have htracked := hs.following.tracked
  have hkept : ∀ {test : Prop} [Decidable test] (n offset : Word),
      (if test then (s.context.heap.files r).enrollNoShift n offset
        else s.context.heap.files r).currPos = (s.context.heap.files r).currPos := by
    intro test _ n offset
    split <;> rfl
  obtain ⟨x, hx, hsys⟩ := h.one
  -- a positional write that wrote is not the one through the offset
  have hwriteAt : x ∈ writeCalls → (e.sys = some .SYS_pwritev ∨ e.sys = some .SYS_pwrite64 ∨
      e.sys = some .SYS_pwritev2) →
      (FileState.exited arch e.regs (s.context.heap.files r)).currPos.toNat =
        s.file.offsetAfter e.effect := by
    intro hx hsys'
    rw [FileState.exited_writeAt hsys', hkept, htracked]
    by_cases hwrote : e.Wrote
    · have hneg : ¬e.regs.retdata.toInt < 0 := not_lt.mpr (le_of_lt hwrote.2)
      rw [FileExit.effect, if_neg hneg]
      rcases hsys' with hsys' | hsys' | hsys'
      · rw [hsys']
        rfl
      · rw [hsys']
        rfl
      · rw [hsys']
        simp only [if_neg (hseen.offset hsys' hwrote)]
        rfl
    · exact (FileExit.effect_unwritten hx hsys hwrote (s.context.heap.files r) s.file).2.2.symm
  rcases List.mem_append.mp hx with hx | hx
  · have hmem := hx
    simp only [writeCalls, List.mem_cons, List.not_mem_nil, or_false] at hx
    rcases hx with rfl | rfl | rfl | rfl | rfl
    · exact offsetAfter_write hs.following (Or.inl hsys) h.legal
    · exact offsetAfter_write hs.following (Or.inr hsys) h.legal
    · exact hwriteAt hmem (Or.inl hsys)
    · exact hwriteAt hmem (Or.inr (Or.inl hsys))
    · exact hwriteAt hmem (Or.inr (Or.inr hsys))
  · simp only [List.mem_cons, List.not_mem_nil, or_false] at hx
    rcases hx with rfl | rfl
    · rw [FileState.exited_truncate hsys, hkept, htracked, FileExit.effect, hsys]
      split <;> rfl
    · rw [FileState.exited_allocate hsys, hkept, htracked, FileExit.effect, hsys]
      split <;> rfl

theorem Growing.next (hs : s.Growing p r fd L) (h : s.Calls growthCalls p fd e)
    (hseen : s.GrowthSeen e) (hs' : s.step e = .ok s') : s'.Growing p r fd L := by
  obtain ⟨_, hmarks⟩ := (reportsGrowth_iff_marks hs h).mp ((reportsGrowth_iff hs h).mpr hseen)
  obtain ⟨hsized, hfile, hexited⟩ := hs.sized.next (by decide) h hs'
  obtain ⟨x, hx, hsys⟩ := h.one
  have hall : x ∈ fileCalls := (by decide : growthCalls ⊆ fileCalls) hx
  have hgrown := hs.grown
  refine ⟨hsized, ⟨hsized.sole.slot_self, ?_, ?_⟩, ?_⟩
  · rw [hexited, hfile, File.after_offset]
    exact growth_tracked hs h hseen
  · have hfcntl : e.sys ≠ some .SYS_fcntl := by
      rw [hsys]
      rintro heq
      cases heq
      exact absurd hx (by decide)
    rw [hfile, FileExit.after_append hfcntl]
    exact hs.following.plain
  · rw [hexited, FileState.exited_maxPos hall hsys h.legal, hfile, File.after_peak]
    omega

end Watched

open Watched in
/-- Whatever the writes and changes of length, no sum wraps around and a close after each reports by
how much the file was longest if and only if every `pwritev2` is given an offset it keeps to and no
`fallocate` but a plain one reaches beyond what the file has reached. -/
theorem growth_reported_iff {opts : Options} {os₀ os : Os} {tracee : Pid} {c₀ c : Context Q}
    {calls : List (Call arch)} {s : Tracked Q} {tid : Pid} {registers : UserRegs arch} {p : Nat}
    {fd flags : Word} {length : Nat} {exits : List (FileExit arch)}
    (hstart : (Context.new opts : Context Q).registerTracee os₀ tracee = .ok c₀)
    (hallowed : Runs.Along Tracked.step Tracked.Allowed ⟨c₀, ∅⟩ calls)
    (hrun : Runs.run Tracked.step ⟨c₀, ∅⟩ calls = .ok s)
    (hopen : s.Allowed (.syscallExit os tid registers))
    (hopens : s.context.Opens os tid registers p fd flags length c)
    (hplain : hasFlag flags O_APPEND = false ∨ length = 0)
    (hcalls : Runs.Along step (fun s e => s.Calls growthCalls p fd e)
      ⟨c, File.opened length false⟩ exits) :
    Runs.Along step (fun s e => s.ReportsGrowth p fd length e) ⟨c, File.opened length false⟩ exits ↔
      Runs.Along step (fun s e => s.GrowthSeen e) ⟨c, File.opened length false⟩ exits := by
  have hinv := Tracked.inv_run hstart hallowed hrun
  have hbegin : Growing p s.context.heap.fileCount fd length
      (⟨c, File.opened length false⟩ : Watched Q) := by
    have hsole := hopens.sole hinv hopen
    have hfollowing := hopens.following hplain
    obtain ⟨filename, hlength, hfile⟩ := hopens.fileAt
    rw [Context.fileAt, hsole.slot_self, Option.map_some, Option.some.injEq] at hfile
    refine ⟨⟨hsole, ?_⟩, hfollowing, ?_⟩
    · rw [← hlength, ← hfile]
    · rw [hfile]
      exact Nat.max_zero _
  have hiff : ∀ (s' : Watched Q) (e : FileExit arch),
      s'.Growing p s.context.heap.fileCount fd length → s'.Calls growthCalls p fd e →
      (s'.ReportsGrowth p fd length e ↔ s'.GrowthSeen e) :=
    fun s' e hs h => reportsGrowth_iff hs h
  have hnext : ∀ (s' : Watched Q) (e : FileExit arch) (s'' : Watched Q),
      s'.Growing p s.context.heap.fileCount fd length → s'.Calls growthCalls p fd e →
      s'.GrowthSeen e → s'.step e = .ok s'' →
      s''.Growing p s.context.heap.fileCount fd length :=
    fun s' e s'' hs h hseen hs' => hs.next h hseen hs'
  exact Runs.Along.congr hiff hnext hbegin hcalls

open FileStorage in
/-- A write, a positional one beyond the end, and a truncation. -/
theorem growth_reported_calls :
    Runs.Along Watched.step (fun (s : Watched FileQueue) e => s.ReportsGrowth 0 3 100 e)
      ⟨openStart 100 O_WRONLY, File.opened 100 false⟩
      [exitOn 1 5 0 5 0, exitOn 18 7 0 7 200, exitOn 77 0 50 0 0] := by
  refine (@growth_reported_iff FileQueue _ .x86_64 plainOptions (plainOs 0) (plainOs 100) 1
    plainStart _ [] ⟨plainStart, ∅⟩ 1 (openRegs O_WRONLY) 0 3 O_WRONLY 100
    [exitOn 1 5 0 5 0, exitOn 18 7 0 7 200, exitOn 77 0 50 0 0] rfl ?_ rfl ?_
    (openStart_opens 100 O_WRONLY (by decide)) (by decide) ?_).mpr ?_
  · decide
  · decide
  · decide
  · decide

open FileStorage in
/-- A range is allocated beyond the end with the size kept: 4096 bytes are reported, and the file
has not grown. -/
theorem growth_missed :
    Runs.Along Watched.step (fun (s : Watched FileQueue) e => s.Calls Watched.growthCalls 0 3 e)
        ⟨openStart 0 O_WRONLY, File.opened 0 false⟩ [exitOn 285 0 1 0 4096] ∧
      ∃ (s : Watched FileQueue) (c : Context FileQueue),
        Runs.run Watched.step ⟨openStart 0 O_WRONLY, File.opened 0 false⟩ [exitOn 285 0 1 0 4096] =
          .ok s ∧
        s.file.peak = 0 ∧
        s.context.syscallExit .x86_64 (plainOs 0) 1 (closeRegs .x86_64 3) = .ok c ∧
        c.reports.map (fun rep => rep.output.size) = [4096] := by
  refine ⟨by decide, _, _, rfl, ?_, rfl, ?_⟩
  · decide
  · decide

end Optrace
