import Optrace.Operations

/-!
# Every file state is reported exactly once

A file state belongs to one process state, and a process state in use to one group leader.
From this, and from the count a file state carries, its report is made when its last slot
is cleared, and the loop of `PostProcess` clears every slot that is left.
-/

namespace Optrace

set_option autoImplicit false
set_option linter.unusedSectionVars false

open SlotTable Except

namespace Context

variable {Q : Type} [MaxOutFilesQueue Q]

/-! ## Counts and reports -/

/-- How often a file state was handed to the storage. -/
def timesReported (c : Context Q) (r : Nat) : Nat := c.reports.countP fun rep => rep.file == some r

/-- Slots, counts and reports agree. -/
structure Tidy (c : Context Q) : Prop where
  bound : ∀ p fd r, slot (c.heap.fds p) fd = some r → r < c.heap.fileCount
  alloc : ∀ p fd r, slot (c.heap.fds p) fd = some r → p < c.heap.procCount
  single : ∀ p q fd fd' r, slot (c.heap.fds p) fd = some r → slot (c.heap.fds q) fd' = some r → p = q
  reported : ∀ r < c.heap.fileCount,
    c.timesReported r = if c.heap.useCount r = 0 then 1 else 0
  known : ∀ rep ∈ c.reports, ∀ r, rep.file = some r → r < c.heap.fileCount
  accurate : ∀ rep ∈ c.reports, ∀ r, rep.file = some r →
    ∃ pinfo, rep.output = OutputFile.ofState (c.heap.files r) pinfo
  stored : c.fileStorage = (c.reports.map Report.output).foldl FileStorage.addFileEntry
    (FileStorage.new c.options.filesInReport c.options.storeEmptyFiles)

namespace Tidy

variable {c c' : Context Q} {p : Nat}

theorem useCount_pos (hc : c.Tidy) {p fd r : Nat} (hslot : slot (c.heap.fds p) fd = some r) :
    0 < c.heap.useCount r :=
  (c.heap.useCount_pos_iff r).mpr ⟨p, hc.alloc p fd r hslot, fd, hslot⟩

theorem useCount_fresh (hc : c.Tidy) {r : Nat} (hr : c.heap.fileCount ≤ r) :
    c.heap.useCount r = 0 := by
  by_contra hne
  obtain ⟨q, _, fd, hslot⟩ := (c.heap.useCount_pos_iff r).mp (by omega)
  have := hc.bound q fd r hslot
  omega

theorem timesReported_fresh (hc : c.Tidy) {r : Nat} (hr : c.heap.fileCount ≤ r) :
    c.timesReported r = 0 := by
  rw [timesReported, List.countP_eq_zero]
  intro rep hrep hfile
  have hlt := hc.known rep hrep r (beq_iff_eq.mp hfile)
  omega

/-- A reported file state is in no slot any more. -/
theorem useCount_reported (hc : c.Tidy) {rep : Report} (hrep : rep ∈ c.reports) {r : Nat}
    (hfile : rep.file = some r) : c.heap.useCount r = 0 := by
  by_contra hne
  have hcount := hc.reported r (hc.known rep hrep r hfile)
  rw [if_neg hne, timesReported, List.countP_eq_zero] at hcount
  exact hcount rep hrep (by simp [hfile])

theorem congr (hc : c.Tidy) (hheap : c'.heap = c.heap) (hreports : c'.reports = c.reports)
    (hstorage : c'.fileStorage = c.fileStorage) (hoptions : c'.options = c.options) :
    c'.Tidy := by
  obtain ⟨hbound, halloc, hsingle, hreported, hknown, haccurate, hstored⟩ := hc
  refine ⟨?_, ?_, ?_, ?_, ?_, ?_, ?_⟩
  · rwa [hheap]
  · rwa [hheap]
  · rwa [hheap]
  · unfold timesReported at hreported ⊢
    rwa [hheap, hreports]
  · rwa [hheap, hreports]
  · rwa [hheap, hreports]
  · rwa [hstorage, hreports, hoptions]

theorem updateFile (hc : c.Tidy) {fd r : Nat} (hslot : slot (c.heap.fds p) fd = some r)
    (f : FileState → FileState) : (c.updateFile r f).Tidy := by
  refine ⟨hc.bound, hc.alloc, hc.single, hc.reported, hc.known, ?_, hc.stored⟩
  intro rep hrep s hfile
  have hne : s ≠ r := by
    rintro rfl
    have hzero := hc.useCount_reported hrep hfile
    have hpos := hc.useCount_pos hslot
    omega
  obtain ⟨pinfo, hout⟩ := hc.accurate rep hrep s hfile
  refine ⟨pinfo, ?_⟩
  rw [hout, Context.updateFile, Heap.updateFile_files_ne _ hne]

theorem clearSlot (hc : c.Tidy) (hp : p < c.heap.procCount) {fd r : Nat}
    (hslot : slot (c.heap.fds p) fd = some r) : (c.clearSlot p fd r).Tidy := by
  have hold : ∀ q i s, slot ((c.clearSlot p fd r).heap.fds q) i = some s →
      slot (c.heap.fds q) i = some s := by
    intro q i s hs
    rw [clearSlot_slot hslot] at hs
    split at hs
    · cases hs
    · exact hs
  have hcount := clearSlot_useCount hp hslot
  have hreports := c.clearSlot_reports p fd r
  refine ⟨fun q i s hs => hc.bound q i s (hold q i s hs),
    fun q i s hs => hc.alloc q i s (hold q i s hs),
    fun q q' i i' s hs hs' => hc.single q q' i i' s (hold q i s hs) (hold q' i' s hs'),
    ?_, ?_, ?_, ?_⟩
  · intro s hs
    have htimes := hc.reported s hs
    have hthis := hcount s
    have hrpos := hc.useCount_pos hslot
    unfold timesReported at htimes ⊢
    rw [hreports, List.countP_append, htimes]
    by_cases hrs : r = s
    · subst hrs
      rw [if_pos rfl] at hthis
      rw [if_neg (by omega)]
      by_cases hone : c.heap.useCount r = 1
      · rw [if_pos hone, if_pos (by omega)]
        simp
      · rw [if_neg hone, if_neg (by omega)]
        simp
    · rw [if_neg hrs, Nat.add_zero] at hthis
      rw [hthis]
      split <;> split <;> simp [hrs]
  · intro rep hrep s hfile
    rw [hreports, List.mem_append] at hrep
    rcases hrep with hrep | hrep
    · exact hc.known rep hrep s hfile
    · split at hrep
      · rw [List.mem_singleton.mp hrep] at hfile
        cases hfile
        exact hc.bound p fd r hslot
      · cases hrep
  · intro rep hrep s hfile
    rw [hreports, List.mem_append] at hrep
    rcases hrep with hrep | hrep
    · exact hc.accurate rep hrep s hfile
    · split at hrep
      · rw [List.mem_singleton.mp hrep] at hfile ⊢
        cases hfile
        exact ⟨_, rfl⟩
      · cases hrep
  · rw [clearSlot_fileStorage, hreports, (c.clearSlot_sameRegistry p fd r).options, hc.stored]
    split
    · rw [List.map_append, List.foldl_append]
      rfl
    · rw [List.append_nil]

theorem fillSlot (hc : c.Tidy) (hp : p < c.heap.procCount) {fd r src : Nat}
    (hempty : slot (c.heap.fds p) fd = none) (hsrc : slot (c.heap.fds p) src = some r) :
    (c.fillSlot p fd r).Tidy := by
  -- the new slot adds nothing that its source did not have already
  have hold : ∀ q i s, slot ((c.fillSlot p fd r).heap.fds q) i = some s →
      ∃ i', slot (c.heap.fds q) i' = some s := by
    intro q i s hs
    rw [fillSlot_slot] at hs
    split at hs
    · rename_i heq
      cases hs
      exact ⟨src, heq.1 ▸ hsrc⟩
    · exact ⟨i, hs⟩
  have hcount := fillSlot_useCount hp hempty r
  refine ⟨?_, ?_, ?_, ?_, hc.known, hc.accurate, hc.stored⟩
  · intro q i s hs
    obtain ⟨i', hs'⟩ := hold q i s hs
    exact hc.bound q i' s hs'
  · intro q i s hs
    obtain ⟨i', hs'⟩ := hold q i s hs
    exact hc.alloc q i' s hs'
  · intro q q' i i' s hs hs'
    obtain ⟨j, hj⟩ := hold q i s hs
    obtain ⟨j', hj'⟩ := hold q' i' s hs'
    exact hc.single q q' j j' s hj hj'
  · intro s hs
    have htimes : (c.fillSlot p fd r).timesReported s = _ := hc.reported s hs
    have hpos := hc.useCount_pos hsrc
    rw [htimes, hcount s]
    by_cases hrs : r = s
    · subst hrs
      rw [if_neg (by omega), if_neg (by omega)]
    · rw [if_neg hrs, Nat.add_zero]

theorem createFile (hc : c.Tidy) (hp : p < c.heap.procCount) {fd : Nat} (s : FileState)
    (hempty : slot (c.heap.fds p) fd = none) :
    ((c.newFile s).fillSlot p fd c.heap.fileCount).Tidy := by
  have hold : ∀ q i r, slot (((c.newFile s).fillSlot p fd c.heap.fileCount).heap.fds q) i = some r →
      (q = p ∧ r = c.heap.fileCount) ∨ slot (c.heap.fds q) i = some r := by
    intro q i r hr
    rw [fillSlot_slot] at hr
    split at hr
    · rename_i heq
      cases hr
      exact Or.inl ⟨heq.1, rfl⟩
    · exact Or.inr hr
  have hcount : ∀ r, ((c.newFile s).fillSlot p fd c.heap.fileCount).heap.useCount r =
      c.heap.useCount r + (if c.heap.fileCount = r then 1 else 0) :=
    @fillSlot_useCount Q _ (c.newFile s) p fd hp hempty c.heap.fileCount
  have hlt : ∀ r, r < ((c.newFile s).fillSlot p fd c.heap.fileCount).heap.fileCount ↔
      r < c.heap.fileCount + 1 := fun r => Iff.rfl
  refine ⟨?_, ?_, ?_, ?_, ?_, ?_, hc.stored⟩
  · intro q i r hr
    rw [hlt]
    rcases hold q i r hr with ⟨_, rfl⟩ | hr
    · omega
    · have := hc.bound q i r hr
      omega
  · intro q i r hr
    rcases hold q i r hr with ⟨rfl, _⟩ | hr
    · exact hp
    · exact hc.alloc q i r hr
  · intro q q' i i' r hr hr'
    rcases hold q i r hr with ⟨hq, hfresh⟩ | hwas
    · rcases hold q' i' r hr' with ⟨hq', _⟩ | hwas'
      · rw [hq, hq']
      · have := hc.bound q' i' r hwas'
        omega
    · rcases hold q' i' r hr' with ⟨_, hfresh⟩ | hwas'
      · have := hc.bound q i r hwas
        omega
      · exact hc.single q q' i i' r hwas hwas'
  · intro r hr
    rw [hlt] at hr
    have htimes : ((c.newFile s).fillSlot p fd c.heap.fileCount).timesReported r =
        c.timesReported r := rfl
    rw [htimes, hcount]
    by_cases hfresh : c.heap.fileCount = r
    · rw [hc.timesReported_fresh (by omega), if_pos hfresh, if_neg (by omega)]
    · rw [if_neg hfresh, Nat.add_zero]
      exact hc.reported r (by omega)
  · intro rep hrep r hfile
    have := hc.known rep hrep r hfile
    rw [hlt]
    omega
  · intro rep hrep r hfile
    obtain ⟨pinfo, hout⟩ := hc.accurate rep hrep r hfile
    refine ⟨pinfo, ?_⟩
    rw [hout, fillSlot_files, newFile, Heap.newFiles_files_old _ _ (hc.known rep hrep r hfile)]

theorem growTable (hc : c.Tidy) (hp : p < c.heap.procCount) {n : Nat}
    (hn : (c.heap.fds p).length ≤ n) : (c.growTable p n).Tidy := by
  have hslot := growTable_slot hn
  refine ⟨?_, ?_, ?_, ?_, hc.known, hc.accurate, hc.stored⟩
  · intro q i r hr
    rw [hslot] at hr
    exact hc.bound q i r hr
  · intro q i r hr
    rw [hslot] at hr
    exact hc.alloc q i r hr
  · intro q q' i i' r hr hr'
    rw [hslot] at hr hr'
    exact hc.single q q' i i' r hr hr'
  · intro r hr
    rw [growTable_useCount hp hn]
    exact hc.reported r hr

theorem step (hc : c.Tidy) (hp : p < c.heap.procCount) {k : StepKind} (h : TableStep k p c c') : c'.Tidy := by
  cases h with
  | update fd r f hslot _ => exact hc.updateFile hslot f
  | clear fd r hslot => exact hc.clearSlot hp hslot
  | share fd r src hempty hsrc => exact hc.fillSlot hp hempty hsrc
  | create fd s hempty _ => exact hc.createFile hp s hempty
  | grow n hn => exact hc.growTable hp hn
  | signal kills => exact hc.congr rfl rfl rfl rfl

theorem steps (hc : c.Tidy) (hp : p < c.heap.procCount) {k : StepKind}
    (h : TableSteps k p c c') : c'.Tidy := by
  induction h with
  | refl => exact hc
  | @tail c₁ c₂ hsteps hstep ih =>
    have hcount : c₁.heap.procCount = c.heap.procCount :=
      (TableSteps.sameRegistry hsteps).procCount
    exact ih.step (hcount ▸ hp) hstep

theorem releaseProc (hc : c.Tidy) (hp : p < c.heap.procCount)
    (hempty : ∀ fd, slot (c.heap.fds p) fd = none) : (c.releaseProc p).Tidy := by
  have hslot := releaseProc_slot hempty
  obtain ⟨hreports, hstorage, hfiles, hcount⟩ := releaseProc_reports c p
  refine ⟨?_, ?_, ?_, ?_, ?_, ?_, ?_⟩
  · intro q i r hr
    rw [hslot] at hr
    rw [hcount]
    exact hc.bound q i r hr
  · intro q i r hr
    rw [hslot] at hr
    rw [(releaseProc_sameRegistry c p).procCount]
    exact hc.alloc q i r hr
  · intro q q' i i' r hr hr'
    rw [hslot] at hr hr'
    exact hc.single q q' i i' r hr hr'
  · intro r hr
    rw [releaseProc_useCount hp hempty]
    unfold timesReported
    rw [hreports]
    exact hc.reported r (hcount ▸ hr)
  · rw [hreports, hcount]
    exact hc.known
  · rw [hreports, hfiles]
    exact hc.accurate
  · rw [hstorage, hreports, (releaseProc_sameRegistry c p).options]
    exact hc.stored

/-- The slots of a new process state hold the new copies, and the others what they held. -/
theorem slot_newProc {os : Os} {cloexecFree : Bool} {fds newfds : SlotTable Nat}
    {states : List FileState}
    (hcopied : c.heap.Copied os cloexecFree fds c.heap.fileCount newfds states)
    (pinfo : ProcInfo) {q i r : Nat}
    (hr : slot (((c.heap.newFiles states).newProc ⟨newfds, pinfo⟩).fds q) i = some r) :
    (q = c.heap.procCount ∧ c.heap.fileCount ≤ r ∧ r < c.heap.fileCount + states.length) ∨
      (q ≠ c.heap.procCount ∧ slot (c.heap.fds q) i = some r) := by
  by_cases hq : q = c.heap.procCount
  · subst hq
    have hself : ((c.heap.newFiles states).newProc ⟨newfds, pinfo⟩).fds c.heap.procCount = newfds :=
      (c.heap.newFiles states).newProc_fds_self _
    rw [hself] at hr
    exact Or.inl ⟨rfl, hcopied.bound _ hr⟩
  · have hfds : ((c.heap.newFiles states).newProc ⟨newfds, pinfo⟩).fds q = c.heap.fds q :=
      (c.heap.newFiles states).newProc_fds_ne hq _
    rw [hfds] at hr
    exact Or.inr ⟨hq, hr⟩

theorem newProc (hc : c.Tidy) {os : Os} {cloexecFree : Bool} {fds newfds : SlotTable Nat}
    {states : List FileState}
    (hcopied : c.heap.Copied os cloexecFree fds c.heap.fileCount newfds states)
    (pinfo : ProcInfo) :
    { c with heap := (c.heap.newFiles states).newProc ⟨newfds, pinfo⟩ }.Tidy := by
  have hcount : ∀ r, ((c.heap.newFiles states).newProc ⟨newfds, pinfo⟩).useCount r =
      c.heap.useCount r + refs newfds r := (c.heap.newFiles states).useCount_newProc _
  refine ⟨?_, ?_, ?_, ?_, ?_, ?_, hc.stored⟩
  · intro q i r hr
    rcases slot_newProc hcopied pinfo hr with ⟨_, _, hlt⟩ | ⟨_, hold⟩
    · exact hlt
    · exact Nat.lt_of_lt_of_le (hc.bound q i r hold) (Nat.le_add_right _ _)
  · intro q i r hr
    show q < c.heap.procCount + 1
    rcases slot_newProc hcopied pinfo hr with ⟨hq, _⟩ | ⟨_, hold⟩
    · omega
    · exact Nat.lt_succ_of_lt (hc.alloc q i r hold)
  · intro q q' i i' r hr hr'
    rcases slot_newProc hcopied pinfo hr with ⟨hq, hge, _⟩ | ⟨_, hold⟩
    · rcases slot_newProc hcopied pinfo hr' with ⟨hq', _⟩ | ⟨_, hold'⟩
      · rw [hq, hq']
      · exact absurd (hc.bound q' i' r hold') (Nat.not_lt_of_le hge)
    · rcases slot_newProc hcopied pinfo hr' with ⟨_, hge', _⟩ | ⟨_, hold'⟩
      · exact absurd (hc.bound q i r hold) (Nat.not_lt_of_le hge')
      · exact hc.single q q' i i' r hold hold'
  · intro r hr
    have hr : r < c.heap.fileCount + states.length := hr
    rw [hcount]
    by_cases hold : r < c.heap.fileCount
    · have hzero : refs newfds r = 0 := by
        rw [refs_eq_zero_iff]
        intro i hi
        have := (hcopied.bound _ hi).1
        omega
      rw [hzero, Nat.add_zero]
      exact hc.reported r hold
    · have hone := hcopied.once (r - c.heap.fileCount) (by omega)
      rw [show c.heap.fileCount + (r - c.heap.fileCount) = r by omega] at hone
      rw [hone, if_neg (by omega)]
      exact hc.timesReported_fresh (by omega)
  · intro rep hrep r hfile
    exact Nat.lt_of_lt_of_le (hc.known rep hrep r hfile) (Nat.le_add_right _ _)
  · intro rep hrep r hfile
    obtain ⟨pinfo', hout⟩ := hc.accurate rep hrep r hfile
    refine ⟨pinfo', ?_⟩
    rw [hout]
    exact congrArg (OutputFile.ofState · pinfo')
      (c.heap.newFiles_files_old states (hc.known rep hrep r hfile)).symm

theorem vanished (hc : c.Tidy) {pid : Pid} (hp : p < c.heap.procCount)
    (hv : Vanished pid p c c') : c'.Tidy := by
  obtain ⟨c₁, hsteps, hreports, hstorage, hcount, hfiles, huse⟩ := hv.steps
  have hc₁ := hc.steps hp hsteps
  refine ⟨?_, ?_, ?_, ?_, ?_, ?_, ?_⟩
  · intro q i r hr
    rw [hv.fileCount]
    exact hc.bound q i r (hv.slot_old hr)
  · intro q i r hr
    rw [hv.procCount]
    exact hc.alloc q i r (hv.slot_old hr)
  · intro q q' i i' r hr hr'
    exact hc.single q q' i i' r (hv.slot_old hr) (hv.slot_old hr')
  · intro r hr
    rw [huse]
    unfold timesReported
    rw [hreports]
    exact hc₁.reported r (hcount ▸ hr)
  · rw [hreports, hcount]
    exact hc₁.known
  · rw [hreports, hfiles]
    exact hc₁.accurate
  · rw [hstorage, hreports, hv.options, ← hsteps.sameRegistry.options]
    exact hc₁.stored

end Tidy

/-- Steps on one table leave the states in another alone. -/
theorem TableSteps.other {k : StepKind} {p q : Nat} {c c' : Context Q} (hc : c.Tidy)
    (hq : q < c.heap.procCount) (hne : p ≠ q) (h : TableSteps k q c c') (fd r : Nat)
    (hslot : slot (c.heap.fds p) fd = some r) :
    c'.heap.files r = c.heap.files r := by
  induction h with
  | refl => rfl
  | @tail c₁ c₂ hsteps hstep ih =>
    have hc₁ := hc.steps hq hsteps
    have hslot₁ : slot (c₁.heap.fds p) fd = some r := by
      rw [TableSteps.others hsteps hne]
      exact hslot
    rw [← ih]
    cases hstep with
    | update i s f hs hf =>
      have hrs : r ≠ s := by
        rintro rfl
        exact hne (hc₁.single p q fd i r hslot₁ hs)
      rw [updateFile, Heap.updateFile_files_ne _ hrs]
    | create i s hempty hs => exact c₁.heap.newFiles_files_old [s] (hc₁.bound p fd r hslot₁)
    | _ => rfl

/-! ## Process states and their leaders -/

/-- Who owns which process state. The retired tids are threads whose leader vanished or
exec'ed; what they point to is empty. -/
structure Registered (c : Context Q) (retired : Finset Pid) : Prop where
  alloc : ∀ pid p, c.procMap.lookup pid = some p → p < c.heap.procCount
  mapped : ∀ l ∈ c.groupLeaders, ∃ p, c.procMap.lookup l = some p
  distinct : ∀ l₁ ∈ c.groupLeaders, ∀ l₂ ∈ c.groupLeaders,
    c.procMap.lookup l₁ = c.procMap.lookup l₂ → l₁ = l₂
  led : ∀ pid p, c.procMap.lookup pid = some p → pid ∉ retired →
    ∃ l ∈ c.groupLeaders, c.procMap.lookup l = some p
  owned : ∀ p fd r, slot (c.heap.fds p) fd = some r →
    ∃ l ∈ c.groupLeaders, c.procMap.lookup l = some p
  active : ∀ l ∈ c.groupLeaders, l ∉ retired

/-- The other tids that share the process state of a pid. -/
def threadsOf (c : Context Q) (pid : Pid) : Finset Pid :=
  {tid ∈ c.procMap.keys | tid ≠ pid ∧ c.procMap.lookup tid = c.procMap.lookup pid}

theorem mem_threadsOf {c : Context Q} {pid tid : Pid} {p : Nat}
    (hp : c.procMap.lookup pid = some p) :
    tid ∈ c.threadsOf pid ↔ tid ≠ pid ∧ c.procMap.lookup tid = some p := by
  unfold threadsOf
  rw [Finset.mem_filter, Finmap.mem_keys, hp]
  constructor
  · exact fun h => h.2
  · exact fun h => ⟨Finmap.mem_of_lookup_eq_some h.2, h⟩

/-- Who is not retired with a pid has another process state. -/
theorem apart_of_notMem {c : Context Q} {retired : Finset Pid} {pid tid : Pid} {p : Nat}
    (hp : c.procMap.lookup pid = some p) (hne : tid ≠ pid) (h : tid ∉ retired ∪ c.threadsOf pid) :
    tid ∉ retired ∧ c.procMap.lookup tid ≠ c.procMap.lookup pid := by
  rw [Finset.mem_union, not_or] at h
  refine ⟨h.1, fun heq => h.2 ?_⟩
  exact (mem_threadsOf hp).mpr ⟨hne, heq.trans hp⟩

/-- A pid gets a new process state or none, and its former one is empty if the pid led it. -/
structure Reassigned (pid : Pid) (new : Option Nat) (c c' : Context Q) : Prop where
  lookup : ∀ tid, c'.procMap.lookup tid = if tid = pid then new else c.procMap.lookup tid
  leaders : ∀ l, l ∈ c'.groupLeaders ↔ (l = pid ∧ new.isSome) ∨ (l ≠ pid ∧ l ∈ c.groupLeaders)
  slots : ∀ q fd r, slot (c'.heap.fds q) fd = some r → new = some q ∨
    (slot (c.heap.fds q) fd = some r ∧ ¬(c.procMap.lookup pid = some q ∧ pid ∈ c.groupLeaders))
  fresh : ∀ q, new = some q → c.heap.procCount ≤ q ∧ q < c'.heap.procCount
  grows : c.heap.procCount ≤ c'.heap.procCount

namespace Registered

variable {c c' : Context Q} {p : Nat} {retired : Finset Pid}

/-- A change of the slots only. -/
theorem of_sameRegistry (hr : c.Registered retired) (hsame : c.SameRegistry c')
    (howned : ∀ q fd r, slot (c'.heap.fds q) fd = some r →
      ∃ l ∈ c.groupLeaders, c.procMap.lookup l = some q) : c'.Registered retired := by
  obtain ⟨halloc, hmapped, hdistinct, hled, _, hactive⟩ := hr
  refine ⟨?_, ?_, ?_, ?_, ?_, ?_⟩
  · rwa [hsame.procMap, hsame.procCount]
  · rwa [hsame.groupLeaders, hsame.procMap]
  · rwa [hsame.groupLeaders, hsame.procMap]
  · rwa [hsame.groupLeaders, hsame.procMap]
  · rwa [hsame.groupLeaders, hsame.procMap]
  · rwa [hsame.groupLeaders]

theorem frame (hr : c.Registered retired) {pid : Pid} (hp : c.procMap.lookup pid = some p)
    (hpid : pid ∉ retired) (hsame : c.SameRegistry c')
    (hothers : ∀ q ≠ p, ∀ i, slot (c'.heap.fds q) i = slot (c.heap.fds q) i) :
    c'.Registered retired := by
  refine hr.of_sameRegistry hsame fun q fd r hslot => ?_
  by_cases hq : q = p
  · subst hq
    exact hr.led pid q hp hpid
  · rw [hothers q hq] at hslot
    exact hr.owned q fd r hslot

theorem steps (hr : c.Registered retired) {pid : Pid} (hp : c.procMap.lookup pid = some p)
    (hpid : pid ∉ retired) {k : StepKind} (h : TableSteps k p c c') : c'.Registered retired :=
  hr.frame hp hpid h.sameRegistry fun _ hq i => h.others hq i

/-- An entry whose pid leads nothing keeps no slot alive on its own. -/
theorem kept (hr : c.Registered retired) {pid : Pid} (hlead : pid ∉ c.groupLeaders) (p : Nat) :
    (∀ fd, slot (c.heap.fds p) fd = none) ∨ ∃ tid ≠ pid, c.procMap.lookup tid = some p := by
  by_cases hempty : ∀ fd, slot (c.heap.fds p) fd = none
  · exact Or.inl hempty
  · obtain ⟨fd, hfd⟩ := not_forall.mp hempty
    obtain ⟨r, hslot⟩ := Option.ne_none_iff_exists'.mp hfd
    obtain ⟨l, hl, hlookup⟩ := hr.owned p fd r hslot
    exact Or.inr ⟨l, fun heq => hlead (heq ▸ hl), hlookup⟩

/-- One registration for all of `RegisterTracee`, `RegisterProcess`, `RegisterExec` and
`VanishProcess`. -/
theorem reassigned (hr : c.Registered retired) {pid : Pid} {new : Option Nat}
    (h : Reassigned pid new c c') {retired' : Finset Pid}
    (hsub : ∀ tid ≠ pid, tid ∉ retired' → tid ∉ retired ∧
      (pid ∈ c.groupLeaders → c.procMap.lookup tid ≠ c.procMap.lookup pid))
    (hactive : ∀ l ∈ c'.groupLeaders, l ∉ retired') : c'.Registered retired' := by
  refine ⟨?_, ?_, ?_, ?_, ?_, hactive⟩
  · intro tid q hq
    rw [h.lookup] at hq
    split at hq
    · exact (h.fresh q hq).2
    · exact Nat.lt_of_lt_of_le (hr.alloc tid q hq) h.grows
  · intro l hl
    rw [h.lookup]
    rcases (h.leaders l).mp hl with ⟨rfl, hnew⟩ | ⟨hne, hl⟩
    · rw [if_pos rfl]
      exact Option.isSome_iff_exists.mp hnew
    · rw [if_neg hne]
      exact hr.mapped l hl
  · -- a new process state is nobody else's
    have hother : ∀ l ≠ pid, l ∈ c.groupLeaders → c.procMap.lookup l ≠ new := by
      intro l _ hl heq
      obtain ⟨q, hq⟩ := hr.mapped l hl
      have hnew := h.fresh q (heq ▸ hq)
      have := hr.alloc l q hq
      omega
    intro l₁ hl₁ l₂ hl₂ heq
    rw [h.lookup, h.lookup] at heq
    rcases (h.leaders l₁).mp hl₁ with ⟨rfl, _⟩ | ⟨hne₁, hl₁⟩
    · rcases (h.leaders l₂).mp hl₂ with ⟨rfl, _⟩ | ⟨hne₂, hl₂⟩
      · rfl
      · rw [if_pos rfl, if_neg hne₂] at heq
        exact absurd heq.symm (hother l₂ hne₂ hl₂)
    · rcases (h.leaders l₂).mp hl₂ with ⟨rfl, _⟩ | ⟨hne₂, hl₂⟩
      · rw [if_pos rfl, if_neg hne₁] at heq
        exact absurd heq (hother l₁ hne₁ hl₁)
      · rw [if_neg hne₁, if_neg hne₂] at heq
        exact hr.distinct l₁ hl₁ l₂ hl₂ heq
  · intro tid q hq htid
    rw [h.lookup] at hq
    split at hq
    · exact ⟨pid, (h.leaders pid).mpr (Or.inl ⟨rfl, by rw [hq]; rfl⟩),
        by rw [h.lookup, if_pos rfl, hq]⟩
    · rename_i hne
      obtain ⟨hlive, hapart⟩ := hsub tid hne htid
      obtain ⟨l, hl, hql⟩ := hr.led tid q hq hlive
      have hlne : l ≠ pid := by
        rintro rfl
        exact hapart hl (hq.trans hql.symm)
      exact ⟨l, (h.leaders l).mpr (Or.inr ⟨hlne, hl⟩), by rw [h.lookup, if_neg hlne, hql]⟩
  · intro q fd r hslot
    rcases h.slots q fd r hslot with hnew | ⟨hold, hapart⟩
    · exact ⟨pid, (h.leaders pid).mpr (Or.inl ⟨rfl, by rw [hnew]; rfl⟩),
        by rw [h.lookup, if_pos rfl, hnew]⟩
    · obtain ⟨l, hl, hql⟩ := hr.owned q fd r hold
      have hlne : l ≠ pid := by
        rintro rfl
        exact hapart ⟨hql, hl⟩
      exact ⟨l, (h.leaders l).mpr (Or.inr ⟨hlne, hl⟩), by rw [h.lookup, if_neg hlne, hql]⟩

theorem releaseProc (hr : c.Registered retired)
    (hempty : ∀ fd, slot (c.heap.fds p) fd = none) : (c.releaseProc p).Registered retired := by
  refine hr.of_sameRegistry (releaseProc_sameRegistry c p) fun q fd r hslot => ?_
  rw [releaseProc_slot hempty] at hslot
  exact hr.owned q fd r hslot

theorem insertThread (hr : c.Registered retired) {pid thread : Pid}
    (hp : c.procMap.lookup pid = some p) (hpid : pid ∉ retired)
    (hthread : thread ∉ c.groupLeaders) :
    { c with procMap := c.procMap.insert thread p }.Registered (retired.erase thread) := by
  have hleader : ∀ l ∈ c.groupLeaders,
      (c.procMap.insert thread p).lookup l = c.procMap.lookup l := by
    intro l hl
    rw [PidMap.lookup_insert, if_neg]
    rintro rfl
    exact hthread hl
  have hsame : ∀ q, (∃ l ∈ c.groupLeaders, c.procMap.lookup l = some q) →
      ∃ l ∈ c.groupLeaders, (c.procMap.insert thread p).lookup l = some q := by
    rintro q ⟨l, hl, hq⟩
    exact ⟨l, hl, by rw [hleader l hl, hq]⟩
  refine ⟨?_, ?_, ?_, ?_, ?_, ?_⟩
  · intro tid q hq
    rw [PidMap.lookup_insert] at hq
    split at hq
    · cases hq
      exact hr.alloc pid p hp
    · exact hr.alloc tid q hq
  · intro l hl
    rw [hleader l hl]
    exact hr.mapped l hl
  · intro l₁ hl₁ l₂ hl₂ heq
    rw [hleader l₁ hl₁, hleader l₂ hl₂] at heq
    exact hr.distinct l₁ hl₁ l₂ hl₂ heq
  · intro tid q hq htid
    rw [PidMap.lookup_insert] at hq
    split at hq
    · cases hq
      exact hsame p (hr.led pid p hp hpid)
    · rename_i hne
      exact hsame q (hr.led tid q hq fun hmem => htid (Finset.mem_erase.mpr ⟨hne, hmem⟩))
  · intro q fd r hslot
    exact hsame q (hr.owned q fd r hslot)
  · intro l hl hmem
    exact hr.active l hl (Finset.mem_erase.mp hmem).2

end Registered

/-! ## The calls of a trace -/

/-- Both invariants, given which tids are retired. -/
structure Owned (c : Context Q) (retired : Finset Pid) : Prop where
  tidy : c.Tidy
  registered : c.Registered retired

theorem Vanished.reassigned {c c' : Context Q} {pid : Pid} {p : Nat}
    (hp : c.procMap.lookup pid = some p) (hv : Vanished pid p c c') :
    Reassigned pid none c c' := by
  refine ⟨?_, ?_, ?_, by simp, Nat.le_of_eq hv.procCount.symm⟩
  · intro tid
    rw [hv.procMap, PidMap.lookup_erase]
  · intro l
    rw [hv.groupLeaders, Finset.mem_erase]
    simp
  · intro q fd r hslot
    rw [hv.slots] at hslot
    split at hslot
    · cases hslot
    · rename_i hcond
      refine Or.inr ⟨hslot, fun h => hcond ⟨?_, h.2⟩⟩
      rw [hp] at h
      exact (Option.some.inj h.1).symm

/-- A process state of its own for a pid that had none. -/
theorem reassigned_newProc {c c' : Context Q} {pid : Pid} (hpid : c.procMap.lookup pid = none)
    (hmap : c'.procMap = c.procMap.insert pid c.heap.procCount)
    (hleaders : c'.groupLeaders = insert pid c.groupLeaders)
    (hfds : ∀ q ≠ c.heap.procCount, c'.heap.fds q = c.heap.fds q)
    (hcount : c'.heap.procCount = c.heap.procCount + 1) :
    Reassigned pid (some c.heap.procCount) c c' := by
  refine ⟨?_, ?_, ?_, ?_, by omega⟩
  · intro tid
    rw [hmap, PidMap.lookup_insert]
  · intro l
    rw [hleaders, Finset.mem_insert]
    by_cases hl : l = pid <;> simp [hl]
  · intro q fd r hslot
    by_cases hq : q = c.heap.procCount
    · exact Or.inl (by rw [hq])
    · rw [hfds q hq] at hslot
      exact Or.inr ⟨hslot, by simp [hpid]⟩
  · intro q hq
    cases hq
    omega

namespace Registered

variable {c c' : Context Q} {retired : Finset Pid}

theorem newLeader (hr : c.Registered retired) {pid : Pid} (hpid : c.procMap.lookup pid = none)
    (hmap : c'.procMap = c.procMap.insert pid c.heap.procCount)
    (hleaders : c'.groupLeaders = insert pid c.groupLeaders)
    (hfds : ∀ q ≠ c.heap.procCount, c'.heap.fds q = c.heap.fds q)
    (hcount : c'.heap.procCount = c.heap.procCount + 1) : c'.Registered (retired.erase pid) := by
  apply hr.reassigned (reassigned_newProc hpid hmap hleaders hfds hcount)
  · intro tid hne htid
    refine ⟨fun hmem => htid (Finset.mem_erase.mpr ⟨hne, hmem⟩), fun hlead => ?_⟩
    obtain ⟨q, hq⟩ := hr.mapped pid hlead
    rw [hpid] at hq
    cases hq
  · intro l hl hmem
    rw [hleaders] at hl
    rcases Finset.mem_insert.mp hl with rfl | hl
    · exact Finset.notMem_erase l retired hmem
    · exact hr.active l hl (Finset.mem_erase.mp hmem).2

/-- What `RegisterExec` does by the call of `VanishProcess` in its middle. -/
theorem registerExec_vanished {os : Os} {pid execpid : Pid} (hr : c.Registered retired)
    (hlead : pid ∈ c.groupLeaders) (h : c.registerExec os pid execpid = .ok c') :
    ∃ p c₁, c.procMap.lookup pid = some p ∧
      Vanished pid p { c with
        heap := c.copyProc os p true pid (c.heap.procs p).procInfo.ppid } c₁ ∧
      c' = { c₁ with
        groupLeaders := insert pid c₁.groupLeaders
        procMap := c₁.procMap.insert pid c.heap.procCount } := by
  obtain ⟨p, c₁, hp, hvanish, hc'⟩ := registerExec_ok h
  obtain ⟨c₂, hrun, hv⟩ := @vanishProcess_vanished Q _ { c with
    heap := c.copyProc os p true pid (c.heap.procs p).procInfo.ppid } p pid hp
    (Nat.lt_succ_of_lt (hr.alloc pid p hp)) (fun hnot => absurd hlead hnot)
  rw [hvanish] at hrun
  cases hrun
  exact ⟨p, c₁, hp, hv, hc'⟩

theorem registerExec_reassigned {os : Os} {pid execpid : Pid} (hr : c.Registered retired)
    (hlead : pid ∈ c.groupLeaders) (h : c.registerExec os pid execpid = .ok c') :
    Reassigned pid (some c.heap.procCount) c c' := by
  obtain ⟨p, c₁, hp, hv, rfl⟩ := hr.registerExec_vanished hlead h
  refine ⟨?_, ?_, ?_, ?_, ?_⟩
  · intro tid
    simp only [hv.procMap, PidMap.lookup_insert, PidMap.lookup_erase]
    split <;> simp_all
  · intro l
    simp only [hv.groupLeaders, Finset.mem_insert, Finset.mem_erase]
    by_cases hl : l = pid <;> simp [hl]
  · intro q fd r hslot
    rw [hv.slots] at hslot
    split at hslot
    · cases hslot
    · rename_i hcond
      by_cases hq : q = c.heap.procCount
      · exact Or.inl (by rw [hq])
      · rw [copyProc_fds_ne os c p true pid _ hq] at hslot
        refine Or.inr ⟨hslot, fun h => hcond ⟨?_, h.2⟩⟩
        rw [hp] at h
        exact (Option.some.inj h.1).symm
  · intro q hq
    cases hq
    rw [hv.procCount]
    exact ⟨Nat.le_refl _, Nat.lt_succ_self _⟩
  · rw [hv.procCount]
    exact Nat.le_succ _

end Registered

namespace Owned

variable {c c' : Context Q} {retired : Finset Pid}

theorem new (opts : Options) : (Context.new opts : Context Q).Owned ∅ := by
  have hslot : ∀ p fd, slot ((Context.new opts : Context Q).heap.fds p) fd = none := by
    intro p fd
    rfl
  refine ⟨⟨?_, ?_, ?_, ?_, ?_, ?_, rfl⟩, ⟨?_, ?_, ?_, ?_, ?_, ?_⟩⟩
  all_goals simp [Context.new, Heap.empty, Heap.fds]

theorem steps (hc : c.Owned retired) {pid : Pid} {p : Nat} (hp : c.procMap.lookup pid = some p)
    (hpid : pid ∉ retired) {k : StepKind} (h : TableSteps k p c c') : c'.Owned retired :=
  ⟨hc.tidy.steps (hc.registered.alloc pid p hp) h, hc.registered.steps hp hpid h⟩

theorem newLeader (hc : c.Owned retired) {pid : Pid} (hpid : c.procMap.lookup pid = none)
    {os : Os} {cloexecFree : Bool} {fds newfds : SlotTable Nat} {states : List FileState}
    (hcopied : c.heap.Copied os cloexecFree fds c.heap.fileCount newfds states)
    (pinfo : ProcInfo) :
    { c with
      heap := (c.heap.newFiles states).newProc ⟨newfds, pinfo⟩
      groupLeaders := insert pid c.groupLeaders
      procMap := c.procMap.insert pid c.heap.procCount }.Owned (retired.erase pid) := by
  refine ⟨(hc.tidy.newProc hcopied pinfo).congr rfl rfl rfl rfl, ?_⟩
  refine hc.registered.newLeader hpid rfl rfl ?_ rfl
  exact fun q hq => (c.heap.newFiles states).newProc_fds_ne hq _

theorem registerTracee {os : Os} {pid : Pid} (hc : c.Owned retired)
    (h : c.registerTracee os pid = .ok c') : c'.Owned (retired.erase pid) := by
  obtain ⟨hpid, hsteps⟩ := registerTracee_ok h
  have hcopied : c.heap.Copied os false [] c.heap.fileCount [] [] := by
    refine ⟨?_, ?_, ?_⟩ <;> simp
  have hnew := hc.newLeader hpid hcopied (c.newProcState os pid 0)
  rw [Heap.newFiles_nil] at hnew
  have hlookup : (c.procMap.insert pid c.heap.procCount).lookup pid = some c.heap.procCount :=
    Finmap.lookup_insert c.procMap
  exact hnew.steps hlookup (Finset.notMem_erase pid retired) hsteps

theorem registerProcess {os : Os} {parent child : Pid} (hc : c.Owned retired)
    (h : c.registerProcess os parent child = .ok c') : c'.Owned (retired.erase child) := by
  obtain ⟨p, hp, hchild, rfl⟩ := registerProcess_ok h
  exact hc.newLeader hchild (c.heap.copyTable_copied os false (c.heap.fds p)) _

theorem registerThread {pid thread : Pid} (hc : c.Owned retired) (hpid : pid ∉ retired)
    (hthread : thread ∉ c.groupLeaders) (h : c.registerThread pid thread = .ok c') :
    c'.Owned (retired.erase thread) := by
  obtain ⟨p, hp, hcases⟩ := registerThread_ok (fun old _ => hc.registered.kept hthread old) h
  have hinsert : { c with procMap := c.procMap.insert thread p }.Owned (retired.erase thread) :=
    ⟨hc.tidy.congr rfl rfl rfl rfl, hc.registered.insertThread hp hpid hthread⟩
  rcases hcases with rfl | ⟨old, hold, hempty, rfl⟩
  · exact hinsert
  · exact ⟨hinsert.tidy.releaseProc (hc.registered.alloc thread old hold) hempty,
      hinsert.registered.releaseProc hempty⟩

/-- `VanishProcess` succeeds for every pid in `ProcMap`. -/
theorem vanishProcess (hc : c.Owned retired) {pid : Pid} {p : Nat}
    (hp : c.procMap.lookup pid = some p) {retired' : Finset Pid}
    (hsub : ∀ tid ≠ pid, tid ∉ retired' → tid ∉ retired ∧
      (pid ∈ c.groupLeaders → c.procMap.lookup tid ≠ c.procMap.lookup pid))
    (hactive : ∀ l ∈ c.groupLeaders, l ≠ pid → l ∉ retired') :
    ∃ c', c.vanishProcess pid = .ok c' ∧ Vanished pid p c c' ∧ c'.Owned retired' := by
  have halloc := hc.registered.alloc pid p hp
  obtain ⟨c', hrun, hv⟩ :=
    vanishProcess_vanished hp halloc fun hlead => hc.registered.kept hlead p
  refine ⟨c', hrun, hv, hc.tidy.vanished halloc hv, ?_⟩
  apply hc.registered.reassigned (hv.reassigned hp) hsub
  intro l hl
  rw [hv.groupLeaders, Finset.mem_erase] at hl
  exact hactive l hl.2 hl.1

theorem registerExec {os : Os} {pid execpid : Pid} (hc : c.Owned retired)
    (hlead : pid ∈ c.groupLeaders) (h : c.registerExec os pid execpid = .ok c') :
    c'.Owned (retired ∪ c.threadsOf pid) := by
  have hreassigned := hc.registered.registerExec_reassigned hlead h
  obtain ⟨p, c₁, hp, hv, rfl⟩ := hc.registered.registerExec_vanished hlead h
  have halloc := hc.registered.alloc pid p hp
  have hcopy := hc.tidy.newProc (c.heap.copyTable_copied os true (c.heap.fds p))
    (c.newProcState os pid (c.heap.procs p).procInfo.ppid)
  have htidy := hcopy.vanished (Nat.lt_succ_of_lt halloc) hv
  refine ⟨htidy.congr rfl rfl rfl rfl, hc.registered.reassigned hreassigned ?_ ?_⟩
  · intro tid hne htid
    obtain ⟨hretired, hother⟩ := apart_of_notMem hp hne htid
    exact ⟨hretired, fun _ => hother⟩
  · intro l hl
    have hold : l ∈ c.groupLeaders := by
      simp only [hv.groupLeaders, Finset.mem_insert, Finset.mem_erase] at hl
      rcases hl with rfl | ⟨_, hl⟩
      · exact hlead
      · exact hl
    rw [Finset.mem_union, not_or]
    refine ⟨hc.registered.active l hold, fun hmem => ?_⟩
    obtain ⟨hne, hlookup⟩ := (mem_threadsOf hp).mp hmem
    exact hne (hc.registered.distinct l hold pid hlead (hlookup.trans hp.symm))

end Owned

end Context

end Optrace
