import Optrace.OneDescriptor

/-!
# The tracked offset

`CurrPos` of a file state against the offset of the descriptor in the kernel, call by call.
-/

namespace Optrace

set_option autoImplicit false
set_option linter.unusedSectionVars false

open SlotTable Except RegularFile

variable {Q : Type} [MaxOutFilesQueue Q] {arch : Arch}

/-! ## Return words -/

theorem toInt_nonneg_iff {w : Word} : 0 ≤ w.toInt ↔ w.toNat < 2 ^ 63 := by
  rw [BitVec.toInt_eq_toNat_cond]
  split <;> omega

theorem asSsize_pos_iff {w : Word} : 0 < asSsize w ↔ w.toNat ≠ 0 ∧ w.toNat < 2 ^ 63 := by
  rw [asSsize, BitVec.toInt_eq_toNat_cond]
  split <;> omega

/-- A call that returns 0 or an error. -/
theorem asInt_nonneg_iff {w : Word} (hlow : -4095 ≤ w.toInt) (hzero : w.toInt ≤ 0) :
    0 ≤ asInt w ↔ w = 0 := by
  constructor
  · intro h
    by_contra hne
    have hneg : w.toInt < 0 := by
      refine lt_of_le_of_ne hzero fun heq => hne ?_
      rw [← BitVec.toInt_inj, heq]
      rfl
    have := asInt_error hlow hneg
    omega
  · rintro rfl
    decide

namespace FileExit

variable {e : FileExit arch}

theorem effect_error (h : e.regs.retdata.toInt < 0) : e.effect = .nothing := if_pos h

theorem effect_write (h : 0 ≤ e.regs.retdata.toInt)
    (hsys : e.sys = some .SYS_write ∨ e.sys = some .SYS_writev) :
    e.effect = .write e.regs.retdata.toNat false := by
  rw [effect, if_neg (not_lt.mpr h)]
  rcases hsys with hsys | hsys <;> rw [hsys]

theorem effect_seek (h : 0 ≤ e.regs.retdata.toInt) (hsys : e.sys = some .SYS_lseek) :
    e.effect = .seek e.regs.retdata.toNat := by
  rw [effect, if_neg (not_lt.mpr h), hsys]

/-- Only `fcntl` changes how the descriptor is written through. -/
theorem after_append (hsys : e.sys ≠ some .SYS_fcntl) (f : File) :
    (f.after e.effect).append = f.append := by
  have heffect : ∀ on, e.effect ≠ .setAppend on := by
    intro on
    unfold effect
    split
    · exact fun h => by cases h
    · split
      case h_9 heq => exact absurd heq hsys
      all_goals first | exact fun h => by cases h | (split <;> exact fun h => by cases h)
  exact File.after_append_of_ne heffect

end FileExit

namespace Watched

variable {s s' : Watched Q} {e : FileExit arch} {p r : Nat} {fd : Word}

/-- `CurrPos` is the offset of the descriptor. -/
def OffsetTracked (p : Nat) (fd : Word) (s : Watched Q) : Prop :=
  ∃ file, s.context.fileAt p fd = some file ∧ file.currPos.toNat = s.file.offset

/-- The call goes through, and `CurrPos` is the offset after it. -/
def TracksOffset (p : Nat) (fd : Word) (s : Watched Q) (e : FileExit arch) : Prop :=
  ∃ s', s.step e = .ok s' ∧ s'.OffsetTracked p fd

/-- A seek that moves the offset ends at one that is not negative as an `int`. -/
def SeeksSeen (s : Watched Q) (e : FileExit arch) : Prop :=
  e.sys = some .SYS_lseek → 0 ≤ e.regs.retdata.toInt →
    0 ≤ asInt e.regs.retdata ∨ e.regs.retdata.toNat = s.file.offset

instance (s : Watched Q) (e : FileExit arch) : Decidable (s.SeeksSeen e) :=
  inferInstanceAs (Decidable (_ → _ → _))

def offsetCalls : List Sys := [.SYS_write, .SYS_writev, .SYS_lseek]

/-- What holds as long as all seeks are seen. -/
structure Following (p r : Nat) (fd : Word) (s : Watched Q) : Prop where
  slot_self : slot (s.context.heap.fds p) fd.toNat = some r
  tracked : (s.context.heap.files r).currPos.toNat = s.file.offset
  plain : s.file.append = false

theorem offsetAfter_write (hs : s.Following p r fd)
    (hsys : e.sys = some .SYS_write ∨ e.sys = some .SYS_writev) (hlegal : e.Legal s.file) :
    (FileState.exited arch e.regs (s.context.heap.files r)).currPos.toNat =
      (s.file.after e.effect).offset := by
  rw [FileState.exited_write hsys]
  split
  · rename_i hpos
    obtain ⟨hne, hlt⟩ := asSsize_pos_iff.mp hpos
    have heffect := FileExit.effect_write (toInt_nonneg_iff.mpr hlt) hsys
    have hfits := hlegal.fits
    rw [heffect] at hfits
    have hstart : s.file.start s.file.offset false = s.file.offset := by
      simp [File.start, hs.plain]
    have hbound : s.file.start s.file.offset false + e.regs.retdata.toNat < 2 ^ 63 := hfits
    rw [heffect, File.after_offset, File.offsetAfter, if_neg hne]
    rw [hstart] at hbound ⊢
    rw [FileState.enroll, BitVec.toNat_add, hs.tracked]
    omega
  · rename_i hpos
    rw [hs.tracked, File.after_offset]
    by_cases hneg : e.regs.retdata.toInt < 0
    · rw [FileExit.effect_error hneg]
      rfl
    · have hnonneg := not_lt.mp hneg
      have hzero : e.regs.retdata.toNat = 0 := by
        have hlt := toInt_nonneg_iff.mp hnonneg
        by_contra hne
        exact hpos (asSsize_pos_iff.mpr ⟨hne, hlt⟩)
      rw [FileExit.effect_write hnonneg hsys, File.offsetAfter, if_pos hzero]

theorem offsetAfter_seek (hs : s.Following p r fd) (hsys : e.sys = some .SYS_lseek)
    (hlegal : e.Legal s.file) :
    (FileState.exited arch e.regs (s.context.heap.files r)).currPos.toNat =
        (s.file.after e.effect).offset ↔ s.SeeksSeen e := by
  rw [FileState.exited_seek hsys, File.after_offset]
  by_cases hneg : e.regs.retdata.toInt < 0
  · have herror := asInt_error hlegal.error hneg
    rw [if_neg (not_le.mpr herror), FileExit.effect_error hneg, hs.tracked]
    exact iff_of_true rfl fun _ hnonneg => absurd hnonneg (not_le.mpr hneg)
  · have hnonneg := not_lt.mp hneg
    rw [FileExit.effect_seek hnonneg hsys]
    split
    · rename_i hseen
      exact iff_of_true rfl fun _ _ => Or.inl hseen
    · rename_i hunseen
      rw [hs.tracked]
      constructor
      · intro heq _ _
        exact Or.inr heq.symm
      · intro hseen
        rcases hseen hsys hnonneg with hseen | heq
        · exact absurd hseen hunseen
        · exact heq.symm

theorem tracksOffset_iff_exited (hs : s.Following p r fd) (h : s.Calls offsetCalls p fd e) :
    s.TracksOffset p fd e ↔ (FileState.exited arch e.regs (s.context.heap.files r)).currPos.toNat =
      (s.file.after e.effect).offset := by
  have hstep := step_ok (by decide) hs.slot_self h
  have hfile := Context.fileAt_updateFile (FileState.exited arch e.regs) hs.slot_self
  constructor
  · rintro ⟨s', hs', file, hat, htracked⟩
    rw [hstep] at hs'
    cases hs'
    rw [hfile] at hat
    cases hat
    exact htracked
  · intro htracked
    exact ⟨_, hstep, _, hfile, htracked⟩

/-- One call keeps `CurrPos` on the offset exactly if it is no seek that is missed. -/
theorem tracksOffset_iff (hs : s.Following p r fd) (h : s.Calls offsetCalls p fd e) :
    s.TracksOffset p fd e ↔ s.SeeksSeen e := by
  rw [tracksOffset_iff_exited hs h]
  have hwrite : e.sys = some .SYS_write ∨ e.sys = some .SYS_writev →
      ((FileState.exited arch e.regs (s.context.heap.files r)).currPos.toNat =
        (s.file.after e.effect).offset ↔ s.SeeksSeen e) := by
    intro hsys
    refine iff_of_true (offsetAfter_write hs hsys h.legal) fun hseek => ?_
    rw [hseek] at hsys
    rcases hsys with hsys | hsys <;> cases hsys
  obtain ⟨x, hx, hsys⟩ := h.one
  simp only [offsetCalls, List.mem_cons, List.not_mem_nil, or_false] at hx
  rcases hx with rfl | rfl | rfl
  · exact hwrite (Or.inl hsys)
  · exact hwrite (Or.inr hsys)
  · exact offsetAfter_seek hs hsys h.legal

theorem Following.next (hs : s.Following p r fd) (h : s.Calls offsetCalls p fd e)
    (hseen : s.SeeksSeen e) (hs' : s.step e = .ok s') : s'.Following p r fd := by
  have htracked := (tracksOffset_iff_exited hs h).mp ((tracksOffset_iff hs h).mpr hseen)
  rw [step_ok (by decide) hs.slot_self h] at hs'
  cases hs'
  refine ⟨hs.slot_self, ?_, ?_⟩
  · rw [← htracked, Context.updateFile, Heap.updateFile_files_self]
  · have hsys : e.sys ≠ some .SYS_fcntl := by
      obtain ⟨x, hx, hsys⟩ := h.one
      rintro heq
      rw [hsys] at heq
      cases heq
      exact absurd hx (by decide)
    exact (FileExit.after_append hsys s.file).trans hs.plain

end Watched

theorem Context.Opens.following {os : Os} {c c' : Context Q} {tid : Pid} {registers : UserRegs arch}
    {p : Nat} {fd flags : Word} {length : Nat} (hopens : c.Opens os tid registers p fd flags length c')
    (hplain : hasFlag flags O_APPEND = false ∨ length = 0) :
    Watched.Following p c.heap.fileCount fd (⟨c', File.opened length false⟩ : Watched Q) := by
  have hslot := hopens.slot_self
  obtain ⟨filename, hlength, hfile⟩ := hopens.fileAt
  refine ⟨hslot, ?_, rfl⟩
  rw [Context.fileAt, hslot, Option.map_some, Option.some.injEq] at hfile
  show (c'.heap.files c.heap.fileCount).currPos.toNat = 0
  rw [hfile, FileState.ofOpen]
  simp only
  split
  · rename_i happend
    rcases hplain with hplain | hzero
    · rw [happend] at hplain
      cases hplain
    · rw [← hzero, ← hlength]
      rfl
  · rfl

/-- In every sequence of `write`, `writev` and `lseek` calls on a file opened without `O_APPEND`,
`CurrPos` is the offset after each if and only if every seek that moves the offset ends at one that
is not negative as an `int`. -/
theorem offset_tracked_iff {os : Os} {c c' : Context Q} {tid : Pid} {registers : UserRegs arch}
    {p : Nat} {fd flags : Word} {length : Nat} {exits : List (FileExit arch)}
    (hopens : c.Opens os tid registers p fd flags length c')
    (hplain : hasFlag flags O_APPEND = false ∨ length = 0)
    (hcalls : Runs.Along Watched.step (fun s e => s.Calls Watched.offsetCalls p fd e)
      ⟨c', File.opened length false⟩ exits) :
    Runs.Along Watched.step (fun s e => s.TracksOffset p fd e) ⟨c', File.opened length false⟩ exits ↔
      Runs.Along Watched.step (fun s e => s.SeeksSeen e) ⟨c', File.opened length false⟩ exits := by
  have hstart := hopens.following hplain
  have hiff : ∀ (s : Watched Q) (e : FileExit arch), s.Following p c.heap.fileCount fd →
      s.Calls Watched.offsetCalls p fd e → (s.TracksOffset p fd e ↔ s.SeeksSeen e) :=
    fun s e hs h => Watched.tracksOffset_iff hs h
  have hnext : ∀ (s : Watched Q) (e : FileExit arch) (s' : Watched Q),
      s.Following p c.heap.fileCount fd → s.Calls Watched.offsetCalls p fd e → s.SeeksSeen e →
      s.step e = .ok s' → s'.Following p c.heap.fileCount fd :=
    fun s e s' hs h hseen hs' => hs.next h hseen hs'
  exact Runs.Along.congr hiff hnext hstart hcalls

open FileStorage in
/-- A write of 5 bytes, a seek to 100 and another write. -/
theorem offset_tracked_writes :
    Runs.Along Watched.step (fun (s : Watched FileQueue) e => s.TracksOffset 0 3 e)
      ⟨openStart 0 O_WRONLY, File.opened 0 false⟩
      [exitOn 1 5 0 5 0, exitOn 8 100 100 0 0, exitOn 1 5 0 5 0] :=
  (@offset_tracked_iff FileQueue _ .x86_64 (plainOs 0) plainStart _ 1 (openRegs O_WRONLY) 0 3
    O_WRONLY 0 [exitOn 1 5 0 5 0, exitOn 8 100 100 0 0, exitOn 1 5 0 5 0]
    (openStart_opens 0 O_WRONLY (by decide)) (by decide) (by decide)).mpr (by decide)

open FileStorage in
/-- A seek to 2 GiB is missed. -/
theorem offset_missed :
    Runs.Along Watched.step (fun (s : Watched FileQueue) e => s.Calls Watched.offsetCalls 0 3 e)
        ⟨openStart 0 O_WRONLY, File.opened 0 false⟩ [exitOn 8 0x80000000 0x80000000 0 0] ∧
      ∃ s : Watched FileQueue, Runs.run Watched.step ⟨openStart 0 O_WRONLY, File.opened 0 false⟩
        [exitOn 8 0x80000000 0x80000000 0 0] = .ok s ∧ s.file.offset = 0x80000000 ∧
        (s.context.fileAt 0 3).map FileState.currPos = some 0 := by
  refine ⟨by decide, _, rfl, ?_⟩
  decide

end Optrace
