import Optrace.Trace
import Mathlib.Algebra.BigOperators.Group.List.Basic

/-!
# Sizes of file states and sizes of reports

A file state that is in no slot any more was reported once, with the size it still has.
So the bytes reported can be read off the file states, and a step that leaves the file
states of a file alone leaves the account of that file alone.
-/

namespace Optrace

set_option autoImplicit false
set_option linter.unusedSectionVars false

open SlotTable Except FileStorage

namespace Context

variable {Q : Type} [MaxOutFilesQueue Q]

/-- The bytes handed to the storage for the states of a file. -/
def bytesReported (c : Context Q) (filename : String) : Nat :=
  ((c.reports.filter fun rep => rep.file.isSome && rep.output.filename == filename).map
    fun rep => byteCount rep.output).sum

/-- What a file state is worth in the account of a file. -/
def worth (c : Context Q) (filename : String) (r : Nat) : Nat :=
  if (c.heap.files r).filename = filename then (c.heap.files r).getOutputSize.toNat else 0

/-- The worth of all file states ever made. -/
def tally (c : Context Q) (filename : String) : Nat :=
  ∑ r ∈ Finset.range c.heap.fileCount, c.worth filename r

/-- Some descriptor slot holds a state of the file. -/
def Holds (c : Context Q) (filename : String) : Prop :=
  ∃ p fd r, slot (c.heap.fds p) fd = some r ∧ (c.heap.files r).filename = filename

/-- A sum over the reports, regrouped by file state. -/
theorem sum_by_file (value : Nat → Nat) (n : Nat) (reports : List Report)
    (hbound : ∀ rep ∈ reports, ∀ r, rep.file = some r → r < n) :
    (reports.map fun rep => (rep.file.map value).getD 0).sum =
      ∑ r ∈ Finset.range n, reports.countP (fun rep => rep.file == some r) * value r := by
  induction reports with
  | nil => simp
  | cons rep reports ih =>
    have hrest := ih fun rep' hrep' => hbound rep' (List.mem_cons_of_mem _ hrep')
    have hsplit : ∀ r, (rep :: reports).countP (fun rep => rep.file == some r) * value r =
        reports.countP (fun rep => rep.file == some r) * value r +
          (if rep.file = some r then value r else 0) := by
      intro r
      rw [List.countP_cons, Nat.add_mul]
      by_cases hr : rep.file = some r <;> simp [hr]
    have hone : (rep.file.map value).getD 0 =
        ∑ r ∈ Finset.range n, if rep.file = some r then value r else 0 := by
      cases hfile : rep.file with
      | none => simp
      | some r₀ =>
        have hlt := hbound rep List.mem_cons_self r₀ hfile
        simp only [Option.map_some, Option.getD_some, Option.some.injEq]
        rw [Finset.sum_ite_eq, if_pos (Finset.mem_range.mpr hlt)]
    rw [List.map_cons, List.sum_cons, hrest, hone, Finset.sum_congr rfl fun r _ => hsplit r,
      Finset.sum_add_distrib, Nat.add_comm]

theorem Tidy.bytesReported_eq {c : Context Q} (hc : c.Tidy) (filename : String) :
    c.bytesReported filename = ∑ r ∈ Finset.range c.heap.fileCount,
      if c.heap.useCount r = 0 then c.worth filename r else 0 := by
  have hvalue : ∀ rep ∈ c.reports,
      (if rep.file.isSome && rep.output.filename == filename then byteCount rep.output else 0) =
        (rep.file.map (c.worth filename)).getD 0 := by
    intro rep hrep
    cases hfile : rep.file with
    | none => simp
    | some r =>
      obtain ⟨pinfo, hout⟩ := hc.accurate rep hrep r hfile
      simp [hout, OutputFile.ofState, worth, byteCount]
  have hsum : c.bytesReported filename =
      (c.reports.map fun rep => (rep.file.map (c.worth filename)).getD 0).sum := by
    have hfilter := List.sum_map_ite
      (fun rep : Report => (rep.file.isSome && rep.output.filename == filename) = true)
      (fun rep => byteCount rep.output) (fun _ => 0) c.reports
    simp only [Bool.decide_eq_true, List.map_const', List.sum_replicate, nsmul_eq_mul, mul_zero,
      add_zero] at hfilter
    rw [bytesReported, ← hfilter, List.map_congr_left hvalue]
  rw [hsum, sum_by_file (c.worth filename) c.heap.fileCount c.reports hc.known]
  refine Finset.sum_congr rfl fun r hr => ?_
  have htimes := hc.reported r (Finset.mem_range.mp hr)
  rw [timesReported] at htimes
  rw [htimes]
  split <;> simp

/-- Once no slot holds a state of the file, every state of it was reported. -/
theorem Tidy.bytesReported_eq_tally {c : Context Q} (hc : c.Tidy) {filename : String}
    (hnone : ¬ c.Holds filename) : c.bytesReported filename = c.tally filename := by
  rw [hc.bytesReported_eq, tally]
  refine Finset.sum_congr rfl fun r _ => ?_
  by_cases hzero : c.heap.useCount r = 0
  · rw [if_pos hzero]
  · rw [if_neg hzero, worth, if_neg]
    intro hname
    obtain ⟨p, _, fd, hslot⟩ := (c.heap.useCount_pos_iff r).mp (by omega)
    exact hnone ⟨p, fd, r, hslot, hname⟩

/-- With no leader left, no slot is in use. -/
theorem Registered.not_holds {c : Context Q} {retired : Finset Pid} (hc : c.Registered retired)
    (hnone : c.groupLeaders = ∅) (filename : String) : ¬ c.Holds filename := by
  rintro ⟨p, fd, r, hslot, _⟩
  obtain ⟨l, hl, _⟩ := hc.owned p fd r hslot
  rw [hnone] at hl
  exact Finset.notMem_empty l hl

/-! ## Steps that leave a file alone -/

/-- The states of the file stay as they are, and those that are new are as given. -/
structure Carries (filename : String) (new : FileState → Prop) (c c' : Context Q) : Prop where
  grows : c.heap.fileCount ≤ c'.heap.fileCount
  name : ∀ r < c.heap.fileCount, (c'.heap.files r).filename = (c.heap.files r).filename
  old : ∀ r < c.heap.fileCount, (c.heap.files r).filename = filename →
    c'.heap.files r = c.heap.files r
  fresh : ∀ r, c.heap.fileCount ≤ r → r < c'.heap.fileCount →
    (c'.heap.files r).filename = filename → new (c'.heap.files r)
  held : ∀ p fd r, slot (c'.heap.fds p) fd = some r → r < c.heap.fileCount →
    ∃ q i, slot (c.heap.fds q) i = some r

namespace Carries

variable {filename : String} {new : FileState → Prop} {c c' c'' : Context Q}

theorem refl (c : Context Q) : Carries filename new c c :=
  ⟨Nat.le_refl _, fun _ _ => rfl, fun _ _ _ => rfl, fun r hr hr' => by omega,
    fun p fd _ hslot _ => ⟨p, fd, hslot⟩⟩

theorem trans (h₁ : Carries filename new c c') (h₂ : Carries filename new c' c'') :
    Carries filename new c c'' := by
  have hgrows := h₁.grows
  refine ⟨Nat.le_trans h₁.grows h₂.grows, ?_, ?_, ?_, ?_⟩
  · intro r hr
    rw [h₂.name r (by omega), h₁.name r hr]
  · intro r hr hname
    rw [h₂.old r (by omega) (by rw [h₁.name r hr, hname]), h₁.old r hr hname]
  · intro r hr hr'' hname
    by_cases hr' : r < c'.heap.fileCount
    · have hname' : (c'.heap.files r).filename = filename := by rw [← h₂.name r hr', hname]
      rw [h₂.old r hr' hname']
      exact h₁.fresh r hr hr' hname'
    · exact h₂.fresh r (by omega) hr'' hname
  · intro p fd r hslot hr
    obtain ⟨q, i, hslot'⟩ := h₂.held p fd r hslot (by omega)
    exact h₁.held q i r hslot' hr

theorem of_slots (hfiles : c'.heap.files = c.heap.files)
    (hcount : c'.heap.fileCount = c.heap.fileCount)
    (hslots : ∀ p fd r, slot (c'.heap.fds p) fd = some r → ∃ q i, slot (c.heap.fds q) i = some r) :
    Carries filename new c c' :=
  ⟨Nat.le_of_eq hcount.symm, fun r _ => by rw [hfiles], fun r _ _ => by rw [hfiles],
    fun r hr hr' => by omega, fun p fd r hslot _ => hslots p fd r hslot⟩

theorem tally_eq (h : Carries filename new c c') (hnew : ∀ s, new s → s.getOutputSize = 0) :
    c'.tally filename = c.tally filename := by
  unfold tally
  rw [← Finset.sum_subset (Finset.range_mono h.grows)]
  · refine Finset.sum_congr rfl fun r hr => ?_
    have hr := Finset.mem_range.mp hr
    unfold worth
    rw [h.name r hr]
    split
    · rename_i hname
      rw [h.old r hr hname]
    · rfl
  · intro r hr' hr
    rw [Finset.mem_range] at hr hr'
    unfold worth
    split
    · rename_i hname
      rw [hnew _ (h.fresh r (by omega) hr' hname)]
      rfl
    · rfl

end Carries

/-- Steps that change and make states of other files only. -/
def StepKind.apart (filename : String) : StepKind where
  changes s s' := s.filename ≠ filename ∧ s'.filename = s.filename
  creates s := s.filename ≠ filename

theorem TableStep.carries {k : StepKind} {p : Nat} {filename : String} {c c' : Context Q}
    (hchanges : ∀ s s', k.changes s s' → (StepKind.apart filename).changes s s')
    (h : TableStep k p c c') : Carries filename k.creates c c' := by
  cases h with
  | update fd r f hslot hf =>
    obtain ⟨hne, hname⟩ := hchanges _ _ hf
    refine ⟨Nat.le_refl _, ?_, ?_, fun s hs hs' => absurd hs' (Nat.not_lt.mpr hs),
      fun q i s hslot _ => ⟨q, i, hslot⟩⟩
    · intro s _
      by_cases hs : s = r
      · subst hs
        rw [Context.updateFile, Heap.updateFile_files_self, hname]
      · rw [Context.updateFile, Heap.updateFile_files_ne _ hs]
    · intro s _ hs
      have hsr : s ≠ r := by
        rintro rfl
        exact hne hs
      rw [Context.updateFile, Heap.updateFile_files_ne _ hsr]
  | clear fd r hslot =>
    refine Carries.of_slots rfl rfl ?_
    intro q i s hs
    rw [clearSlot_slot hslot] at hs
    split at hs
    · cases hs
    · exact ⟨q, i, hs⟩
  | share fd r src hempty hsrc =>
    refine Carries.of_slots rfl rfl ?_
    intro q i s hs
    rw [fillSlot_slot] at hs
    split at hs
    · cases hs
      exact ⟨p, src, hsrc⟩
    · exact ⟨q, i, hs⟩
  | create fd s hempty hs =>
    have hold : ∀ r < c.heap.fileCount,
        ((c.newFile s).fillSlot p fd c.heap.fileCount).heap.files r = c.heap.files r :=
      fun r hr => c.heap.newFiles_files_old [s] hr
    refine ⟨Nat.le_succ _, fun r hr => by rw [hold r hr], fun r hr _ => hold r hr, ?_, ?_⟩
    · intro r hr hr' _
      have hr' : r < c.heap.fileCount + 1 := hr'
      obtain rfl : r = c.heap.fileCount + 0 := by omega
      have hself : ((c.newFile s).fillSlot p fd c.heap.fileCount).heap.files
          (c.heap.fileCount + 0) = s := c.heap.newFiles_files_new [s] rfl
      rw [hself]
      exact hs
    · intro q i r hr hlt
      rw [fillSlot_slot] at hr
      split at hr
      · cases hr
        omega
      · exact ⟨q, i, hr⟩
  | grow n hn =>
    refine Carries.of_slots rfl rfl ?_
    intro q i s hs
    rw [growTable_slot hn] at hs
    exact ⟨q, i, hs⟩
  | signal kills => exact Carries.of_slots rfl rfl fun q i s hs => ⟨q, i, hs⟩

theorem TableSteps.carries {k : StepKind} {p : Nat} {filename : String} {c c' : Context Q}
    (hchanges : ∀ s s', k.changes s s' → (StepKind.apart filename).changes s s')
    (h : TableSteps k p c c') : Carries filename k.creates c c' := by
  induction h with
  | refl => exact Carries.refl c
  | tail _ hstep ih => exact ih.trans (hstep.carries hchanges)

theorem Carries.mono {filename : String} {new new' : FileState → Prop} {c c' : Context Q}
    (hnew : ∀ s, s.filename = filename → new s → new' s) (h : Carries filename new c c') :
    Carries filename new' c c' :=
  ⟨h.grows, h.name, h.old, fun r hr hr' hname => hnew _ hname (h.fresh r hr hr' hname), h.held⟩

theorem carries_newProc {filename : String} {new : FileState → Prop} {c : Context Q} {os : Os}
    {cloexecFree : Bool} {fds newfds : SlotTable Nat} {states : List FileState}
    (hcopied : c.heap.Copied os cloexecFree fds c.heap.fileCount newfds states)
    (hfds : ∃ p, fds = c.heap.fds p)
    (hnew : ∀ p fd r, slot (c.heap.fds p) fd = some r → (c.heap.files r).filename = filename →
      new ((c.heap.files r).copy os)) (pinfo : ProcInfo) :
    Carries filename new c
      { c with heap := (c.heap.newFiles states).newProc ⟨newfds, pinfo⟩ } := by
  obtain ⟨p, rfl⟩ := hfds
  have hold : ∀ r < c.heap.fileCount,
      ((c.heap.newFiles states).newProc ⟨newfds, pinfo⟩).files r = c.heap.files r :=
    fun r hr => c.heap.newFiles_files_old states hr
  refine ⟨Nat.le_add_right _ _, fun r hr => by rw [hold r hr], fun r hr _ => hold r hr, ?_, ?_⟩
  · intro r hr hr' hname
    have hr' : r < c.heap.fileCount + states.length := hr'
    -- the new file state is in one slot of the new table, which says what it copies
    have honce := hcopied.once (r - c.heap.fileCount) (by omega)
    rw [show c.heap.fileCount + (r - c.heap.fileCount) = r by omega] at honce
    obtain ⟨fd, hslot⟩ := refs_pos_iff.mp (by omega : 0 < refs newfds r)
    obtain ⟨r₀, hslot₀, _, _, hstate⟩ := hcopied.source fd r hslot
    have hself : ((c.heap.newFiles states).newProc ⟨newfds, pinfo⟩).files r =
        (c.heap.files r₀).copy os := by
      have h := c.heap.newFiles_files_new states hstate
      rw [show c.heap.fileCount + (r - c.heap.fileCount) = r by omega] at h
      exact h
    rw [hself] at hname ⊢
    exact hnew p fd r₀ hslot₀ hname
  · intro q i r hr hlt
    by_cases hq : q = c.heap.procCount
    · subst hq
      rw [Heap.newFiles_procCount (c.heap) states |>.symm, Heap.newProc_fds_self] at hr
      have := (hcopied.bound c.heap hr).1
      omega
    · rw [Heap.newProc_fds_ne (c.heap.newFiles states) hq] at hr
      exact ⟨q, i, hr⟩

theorem Vanished.carries {filename : String} {new : FileState → Prop} {pid : Pid} {p : Nat}
    {c c' : Context Q} (hv : Vanished pid p c c') : Carries filename new c c' := by
  apply Carries.of_slots hv.files hv.fileCount
  intro q fd r hr
  exact ⟨q, fd, hv.slot_old hr⟩

theorem releaseProc_carries {filename : String} {new : FileState → Prop} {c : Context Q} {p : Nat}
    (hempty : ∀ fd, slot (c.heap.fds p) fd = none) : Carries filename new c (c.releaseProc p) := by
  obtain ⟨_, _, hfiles, hcount⟩ := releaseProc_reports c p
  refine Carries.of_slots hfiles hcount fun q fd r hr => ?_
  rw [releaseProc_slot hempty] at hr
  exact ⟨q, fd, hr⟩

theorem Owned.registerThread_carries {filename : String} {new : FileState → Prop}
    {c c' : Context Q} {retired : Finset Pid} (hc : c.Owned retired) {pid thread : Pid}
    (hthread : thread ∉ c.groupLeaders) (h : c.registerThread pid thread = .ok c') :
    Carries filename new c c' := by
  obtain ⟨p, _, hcases⟩ := registerThread_ok (fun old _ => hc.registered.kept hthread old) h
  have hinsert : Carries filename new c { c with procMap := c.procMap.insert thread p } :=
    Carries.of_slots rfl rfl fun q fd r hr => ⟨q, fd, hr⟩
  rcases hcases with rfl | ⟨old, _, hempty, rfl⟩
  · exact hinsert
  · exact hinsert.trans (releaseProc_carries hempty)

theorem Owned.registerProcess_carries {filename : String} {new : FileState → Prop}
    {c c' : Context Q} {os : Os} {parent child : Pid}
    (hnew : ∀ p fd r, slot (c.heap.fds p) fd = some r → (c.heap.files r).filename = filename →
      new ((c.heap.files r).copy os))
    (h : c.registerProcess os parent child = .ok c') : Carries filename new c c' := by
  obtain ⟨p, _, _, rfl⟩ := registerProcess_ok h
  have hcopy := carries_newProc (c.heap.copyTable_copied os false (c.heap.fds p)) ⟨p, rfl⟩ hnew
    (c.newProcState os child parent)
  exact hcopy.trans (Carries.of_slots rfl rfl fun q fd r hr => ⟨q, fd, hr⟩)

theorem Owned.registerExec_carries {filename : String} {new : FileState → Prop}
    {c c' : Context Q} {retired : Finset Pid} (hc : c.Owned retired) {os : Os} {pid execpid : Pid}
    (hlead : pid ∈ c.groupLeaders)
    (hnew : ∀ p fd r, slot (c.heap.fds p) fd = some r → (c.heap.files r).filename = filename →
      new ((c.heap.files r).copy os))
    (h : c.registerExec os pid execpid = .ok c') : Carries filename new c c' := by
  obtain ⟨p, c₁, _, hv, rfl⟩ := hc.registered.registerExec_vanished hlead h
  have hcopy := carries_newProc (c.heap.copyTable_copied os true (c.heap.fds p)) ⟨p, rfl⟩ hnew
    (c.newProcState os pid (c.heap.procs p).procInfo.ppid)
  exact (hcopy.trans hv.carries).trans (Carries.of_slots rfl rfl fun q fd r hr => ⟨q, fd, hr⟩)

end Context

end Optrace
