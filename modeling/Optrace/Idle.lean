import Optrace.Accounting

/-!
# A process that writes nothing

A fork or an exec gives a process copies whose counting starts at the length its files have
then. If no state copied had counted past that length, the copies are worth nothing, and
stay worth nothing until the process writes, resizes or opens.
-/

namespace Optrace

set_option autoImplicit false
set_option linter.unusedSectionVars false

open SlotTable Except Collections Collections.PriorityQueue

variable {Q : Type} [MaxOutFilesQueue Q] {arch : Arch}

namespace FileStorage

/-- The stored entries with a size. -/
def nonEmpty (s : FileStorage Q) : Multiset OutputFile :=
  (items s.queue).filter fun file => file.size ≠ 0

/-- Nothing can be seen to have been added. -/
structure SameBytes (s s' : FileStorage Q) : Prop where
  outputSize : s'.getOutputSize = s.getOutputSize
  nonEmpty : s'.nonEmpty = s.nonEmpty

theorem SameBytes.refl (s : FileStorage Q) : SameBytes s s := ⟨rfl, rfl⟩

theorem SameBytes.trans {s₁ s₂ s₃ : FileStorage Q} (h₁ : SameBytes s₁ s₂)
    (h₂ : SameBytes s₂ s₃) : SameBytes s₁ s₃ :=
  ⟨h₂.outputSize.trans h₁.outputSize, h₂.nonEmpty.trans h₁.nonEmpty⟩

theorem addFileEntry_sameBytes (s : FileStorage Q) {file : OutputFile} (hfile : file.size = 0) :
    SameBytes s (s.addFileEntry file) := by
  rw [addFileEntry_eq]
  split
  · refine ⟨?_, ?_⟩
    · simp [getOutputSize, hfile]
    · simp only [nonEmpty, offer]
      split
      · rw [items_push, Multiset.filter_cons_of_neg _ (by simp [hfile])]
      · split
        · rw [if_neg (by simp [byteCount, hfile])]
        · rfl
  · exact SameBytes.refl s

end FileStorage

open FileStorage

namespace Context

variable {c c' : Context Q} {k : StepKind} {p : Nat}

/-- No state in the table has anything to report. -/
def Spent (c : Context Q) (p : Nat) : Prop :=
  ∀ fd r, slot (c.heap.fds p) fd = some r → (c.heap.files r).getOutputSize = 0

/-- Steps that change no state's worth and open nothing. -/
def StepKind.idle : StepKind where
  changes s s' := s'.getOutputSize = s.getOutputSize
  creates _ := False

theorem TableStep.spent (hc : c.Spent p) (h : TableStep .idle p c c') :
    c'.Spent p ∧ SameBytes c.fileStorage c'.fileStorage := by
  cases h with
  | update fd r f hslot hf =>
    refine ⟨fun i s hs => ?_, SameBytes.refl _⟩
    by_cases hsr : s = r
    · subst hsr
      rw [updateFile, Heap.updateFile_files_self]
      exact Eq.trans hf (hc i s hs)
    · rw [updateFile, Heap.updateFile_files_ne _ hsr]
      exact hc i s hs
  | clear fd r hslot =>
    refine ⟨fun i s hs => ?_, ?_⟩
    · rw [clearSlot_slot hslot] at hs
      split at hs
      · cases hs
      · exact hc i s hs
    · rw [clearSlot_fileStorage]
      split
      · exact addFileEntry_sameBytes _ (hc fd r hslot)
      · exact SameBytes.refl _
  | share fd r src hempty hsrc =>
    refine ⟨fun i s hs => ?_, SameBytes.refl _⟩
    rw [fillSlot_slot] at hs
    split at hs
    · cases hs
      exact hc src r hsrc
    · exact hc i s hs
  | create fd s hempty hs => exact hs.elim
  | grow n hn =>
    refine ⟨fun i s hs => ?_, SameBytes.refl _⟩
    rw [growTable_slot hn] at hs
    exact hc i s hs
  | signal kills => exact ⟨hc, SameBytes.refl _⟩

theorem TableSteps.spent (hc : c.Spent p) (h : TableSteps .idle p c c') :
    c'.Spent p ∧ SameBytes c.fileStorage c'.fileStorage := by
  induction h with
  | refl => exact ⟨hc, SameBytes.refl _⟩
  | tail _ hstep ih =>
    obtain ⟨hspent, hsame⟩ := hstep.spent ih.1
    exact ⟨hspent, ih.2.trans hsame⟩

theorem TableSteps.mono {k k' : StepKind} (hchanges : ∀ s s', k.changes s s' → k'.changes s s')
    (hcreates : ∀ s, k.creates s → k'.creates s) (h : TableSteps k p c c') :
    TableSteps k' p c c' := by
  refine Relation.ReflTransGen.mono (fun c₁ c₂ hstep => ?_) _ _ h
  cases hstep with
  | update fd r f hslot hf => exact .update fd r f hslot (hchanges _ _ hf)
  | clear fd r hslot => exact .clear fd r hslot
  | share fd r src hempty hsrc => exact .share fd r src hempty hsrc
  | create fd s hempty hs => exact .create fd s hempty (hcreates s hs)
  | grow n hn => exact .grow n hn
  | signal kills => exact .signal kills

theorem Spent.vanished {pid : Pid} {q : Nat} (hc : c.Spent p) (hv : Vanished pid q c c') :
    c'.Spent p := by
  intro fd r hslot
  rw [hv.files]
  exact hc fd r (hv.slot_old hslot)

/-- A process that tears down a table with nothing to report adds nothing. -/
theorem Vanished.sameBytes {pid : Pid} (hc : c.Spent p) (hv : Vanished pid p c c') :
    SameBytes c.fileStorage c'.fileStorage := by
  obtain ⟨c₁, hsteps, _, hstorage, _⟩ := hv.steps
  have hidle : TableSteps .idle p c c₁ :=
    hsteps.mono (fun _ _ h => False.elim h) (fun _ h => False.elim h)
  rw [hstorage]
  exact (hidle.spent hc).2

theorem Spent.other {q : Nat} (hspent : c.Spent p) (hc : c.Tidy) (hq : q < c.heap.procCount)
    (hne : p ≠ q) (h : TableSteps k q c c') : c'.Spent p := by
  intro fd r hslot
  rw [h.others hne] at hslot
  rw [h.other hc hq hne fd r hslot]
  exact hspent fd r hslot

/-! ## Copies -/

/-- No state that gets copied has counted past the length its file has now. -/
def hasGrown (os : Os) (c : Context Q) (pid : Pid) (cloexecFree : Bool) : Bool :=
  match c.procMap.lookup pid with
  | some p => (c.heap.fds p).all fun v => v.all fun r =>
      !Heap.keeps cloexecFree (c.heap.files r) ||
        decide ((c.heap.files r).maxPos ≤ getFileLength os (c.heap.files r).filename)
  | none => true

theorem hasGrown_spec {os : Os} {pid : Pid} {cloexecFree : Bool}
    (h : hasGrown os c pid cloexecFree = true) (hp : c.procMap.lookup pid = some p) {fd r : Nat}
    (hslot : slot (c.heap.fds p) fd = some r)
    (hkeep : Heap.keeps cloexecFree (c.heap.files r) = true) :
    (c.heap.files r).maxPos ≤ getFileLength os (c.heap.files r).filename := by
  simp only [hasGrown, hp, List.all_eq_true] at h
  have hmem := List.mem_of_getElem? (slot_eq_some_iff.mp hslot)
  simpa [hkeep] using h (some r) hmem

theorem spent_copy {os : Os} {cloexecFree : Bool} {pid ppid copied : Pid}
    (hp : c.procMap.lookup pid = some p) (hgrown : hasGrown os c pid cloexecFree = true) :
    { c with heap := c.copyProc os p cloexecFree copied ppid }.Spent c.heap.procCount := by
  intro fd r hslot
  obtain ⟨r₀, hslot₀, hkeep, hself⟩ := copyProc_source hslot
  simp only [hself, FileState.getOutputSize_eq_zero_iff, FileState.copy_maxPos,
    FileState.copy_initSize]
  exact BitVec.le_def.mp (hasGrown_spec hgrown hp hslot₀ hkeep)

theorem Spent.copyProc {os : Os} {cloexecFree : Bool} {copied ppid : Pid} {src : Nat}
    (hspent : c.Spent p) (hc : c.Tidy) (hne : p ≠ c.heap.procCount) :
    { c with heap := c.copyProc os src cloexecFree copied ppid }.Spent p := by
  intro fd r hslot
  rw [copyProc_fds_ne os c src cloexecFree copied ppid hne] at hslot
  simp only [copyProc_files_old os c src cloexecFree copied ppid (hc.bound p fd r hslot)]
  exact hspent fd r hslot

/-! ## Tearing down the same table twice -/

/-- Two trackers that agree on one table and all that its reports depend on. -/
structure Agree (p : Nat) (c d : Context Q) : Prop where
  fds : d.heap.fds p = c.heap.fds p
  files : ∀ fd r, slot (c.heap.fds p) fd = some r → d.heap.files r = c.heap.files r
  useCount : ∀ fd r, slot (c.heap.fds p) fd = some r → d.heap.useCount r = c.heap.useCount r
  procInfo : (d.heap.procs p).procInfo = (c.heap.procs p).procInfo
  storage : d.fileStorage = c.fileStorage
  alloc : p < c.heap.procCount ∧ p < d.heap.procCount

variable {d : Context Q}

theorem Agree.clearSlot (h : Agree p c d) {fd r : Nat} (hslot : slot (c.heap.fds p) fd = some r) :
    Agree p (c.clearSlot p fd r) (d.clearSlot p fd r) := by
  have hslot' : slot (d.heap.fds p) fd = some r := by rw [h.fds, hslot]
  have hold : ∀ i s, slot ((c.clearSlot p fd r).heap.fds p) i = some s →
      slot (c.heap.fds p) i = some s := by
    intro i s hs
    rw [clearSlot_slot hslot] at hs
    split at hs
    · cases hs
    · exact hs
  refine ⟨?_, fun i s hs => h.files i s (hold i s hs), fun i s hs => ?_, ?_, ?_, h.alloc⟩
  · rw [clearSlot_heap, clearSlot_heap, Heap.setFds_fds_self, Heap.setFds_fds_self, h.fds]
  · have hc := clearSlot_useCount h.alloc.1 hslot s
    have hd := clearSlot_useCount h.alloc.2 hslot' s
    have hboth := h.useCount i s (hold i s hs)
    omega
  · rw [clearSlot_heap, clearSlot_heap, Heap.setFds_procInfo, Heap.setFds_procInfo, h.procInfo]
  · rw [clearSlot_fileStorage, clearSlot_fileStorage, h.useCount fd r hslot, h.files fd r hslot,
      h.procInfo, h.storage]

theorem Agree.tearDownFrom (fd n : Nat) {c' d' : Context Q} (h : Agree p c d)
    (hc : tearDownFrom p fd n c = .ok c') (hd : tearDownFrom p fd n d = .ok d') :
    d'.fileStorage = c'.fileStorage := by
  induction n generalizing fd c d with
  | zero =>
    cases hc
    cases hd
    exact h.storage
  | succ n ih =>
    simp only [Context.tearDownFrom] at hc hd
    rw [h.fds] at hd
    cases hslot : slot (c.heap.fds p) fd with
    | none =>
      rw [hslot] at hc hd
      exact ih (fd + 1) h hc hd
    | some r =>
      have hslot' : slot (d.heap.fds p) fd = some r := by rw [h.fds, hslot]
      simp only [hslot, tearDownFd_eq hslot, tearDownFd_eq hslot', bind_ok] at hc hd
      exact ih (fd + 1) (h.clearSlot hslot) hc hd

theorem vanishProcess_fileStorage {pid : Pid} (hp : c.procMap.lookup pid = some p)
    (hlead : pid ∈ c.groupLeaders) (h : c.vanishProcess pid = .ok c') :
    ∃ c₁, tearDownFrom p 0 (c.heap.fds p).length c = .ok c₁ ∧ c'.fileStorage = c₁.fileStorage := by
  simp only [vanishProcess, if_pos hlead] at h
  obtain ⟨c₂, hleader, h⟩ := bind_eq_ok_iff.mp h
  rw [vanishLeader, getProcState_ok_iff.mpr hp, bind_ok] at hleader
  obtain ⟨c₁, htear, hleader⟩ := bind_eq_ok_iff.mp hleader
  rw [pure_eq_ok_iff] at hleader
  subst hleader
  refine ⟨c₁, htear, ?_⟩
  split at h
  · cases h
  · rw [pure_eq_ok_iff] at h
    subst h
    exact (releaseProc_reports _ _).2.1

/-- The copies made before it change nothing about what a leader that vanishes reports. -/
theorem Agree.vanishProcess {pid : Pid} {c' d' : Context Q} (h : Agree p c d)
    (hp : c.procMap.lookup pid = some p) (hp' : d.procMap.lookup pid = some p)
    (hlead : pid ∈ c.groupLeaders) (hlead' : pid ∈ d.groupLeaders)
    (hc : c.vanishProcess pid = .ok c') (hd : d.vanishProcess pid = .ok d') :
    d'.fileStorage = c'.fileStorage := by
  obtain ⟨c₁, hc₁, hstorage⟩ := vanishProcess_fileStorage hp hlead hc
  obtain ⟨d₁, hd₁, hstorage'⟩ := vanishProcess_fileStorage hp' hlead' hd
  rw [h.fds] at hd₁
  rw [hstorage, hstorage', h.tearDownFrom 0 _ hc₁ hd₁]

theorem agree_copyProc (hc : c.Tidy) (hp : p < c.heap.procCount) (os : Os) (cloexecFree : Bool)
    (copied ppid : Pid) (src : Nat) :
    Agree p c { c with heap := c.copyProc os src cloexecFree copied ppid } := by
  have hcopied := c.heap.copyTable_copied os cloexecFree (c.heap.fds src)
  refine ⟨copyProc_fds_ne os c src cloexecFree copied ppid (Nat.ne_of_lt hp), ?_, ?_, ?_, rfl,
    hp, Nat.lt_succ_of_lt hp⟩
  · exact fun fd r hslot => c.heap.newFiles_files_old _ (hc.bound p fd r hslot)
  · intro fd r hslot
    have hcount := (c.heap.newFiles (c.heap.copyTable os cloexecFree (c.heap.fds src)).2).useCount_newProc
      ⟨(c.heap.copyTable os cloexecFree (c.heap.fds src)).1, c.newProcState os copied ppid⟩ r
    have hzero : refs (c.heap.copyTable os cloexecFree (c.heap.fds src)).1 r = 0 := by
      rw [refs_eq_zero_iff]
      intro i hi
      have := (hcopied.bound c.heap hi).1
      have := hc.bound p fd r hslot
      omega
    have hcopy : (c.copyProc os src cloexecFree copied ppid).useCount r = c.heap.useCount r + 0 :=
      hcount.trans (by rw [hzero]; rfl)
    exact hcopy
  · have hprocs := (c.heap.newFiles (c.heap.copyTable os cloexecFree (c.heap.fds src)).2).newProc_procs_ne
      (Nat.ne_of_lt hp)
      ⟨(c.heap.copyTable os cloexecFree (c.heap.fds src)).1, c.newProcState os copied ppid⟩
    exact congrArg ProcState.procInfo hprocs

end Context

/-! ## Runs in which a process is idle -/

open Context

/-- Neither a write nor a resize nor an open. -/
def Op.idle : Op → Bool
  | .opWriteChangeOffset _ _ => false
  | .opWriteNoOffsetChange _ _ _ => false
  | .opOpenWriteFile _ _ => false
  | .opOpenFile _ flags => !opensForWriting flags
  | .opResize _ _ => false
  | _ => true

theorem within_idle {os : Os} {c : Context Q} {pid : Pid} {p : Nat} {op : Op}
    (h : op.idle = true) : Within .idle os c pid p op := by
  have hopens : op.opens = none := by
    cases op <;> simp_all [Op.idle, Op.opens]
  refine ⟨?_, ?_, ?_⟩
  · intro fd flags hfd
    rw [hopens] at hfd
    cases hfd
  · intro fd flags target hfd
    rw [hopens] at hfd
    cases hfd
  · intro fd f r hf _
    cases op <;> simp only [Op.idle, Op.changes, Option.some.injEq, Prod.mk.injEq, reduceCtorEq,
      Bool.false_eq_true] at h hf
    all_goals
      obtain ⟨_, rfl⟩ := hf
      rfl

namespace Tracked

/-- A call of a run in which the process of a group leader is idle and does not vanish. -/
def IdleCall (leader : Pid) (s : Tracked Q) (call : Call arch) : Prop :=
  s.Allowed call ∧
  match call with
  | .syscallExit _ pid registers =>
    s.context.procMap.lookup pid = s.context.procMap.lookup leader →
      (syscallSwitch arch (syscallRegs arch registers)).all Op.idle = true
  | .registerExec os pid _ => pid = leader → hasGrown os s.context leader true = true
  | .vanishProcess pid => pid ≠ leader
  | _ => True

/-- A call made for the process itself. -/
def MadeFor (leader : Pid) (s : Tracked Q) : Call arch → Prop
  | .syscallExit _ pid _ => s.context.procMap.lookup pid = s.context.procMap.lookup leader
  | .registerThread pid _ => pid = leader
  | .registerProcess _ parent _ => parent = leader
  | .registerExec _ pid _ => pid = leader
  | .registerCoreDump _ _ _ => False
  | .vanishProcess pid => pid = leader

/-- The process is there, and has nothing to report. -/
structure Idling (leader : Pid) (s : Tracked Q) : Prop where
  inv : s.Inv
  leads : leader ∈ s.context.groupLeaders
  spent : ∀ p, s.context.procMap.lookup leader = some p → s.context.Spent p

theorem Idling.syscallExit {leader : Pid} {s : Tracked Q} (hs : Idling leader s) {os : Os}
    {pid : Pid} {registers : UserRegs arch}
    (hidle : s.IdleCall leader (.syscallExit os pid registers)) {c' : Context Q}
    (h : s.context.syscallExit arch os pid registers = .ok c') :
    c'.procMap = s.context.procMap ∧ c'.groupLeaders = s.context.groupLeaders ∧
      (∀ p, s.context.procMap.lookup leader = some p → c'.Spent p) ∧
      (s.MadeFor leader (.syscallExit os pid registers) →
        SameBytes s.context.fileStorage c'.fileStorage) := by
  have howned : s.context.Owned s.retired := hs.inv
  cases hq : s.context.procMap.lookup pid with
  | none =>
    rw [syscallExit_unmapped hq h]
    exact ⟨rfl, rfl, hs.spent, fun _ => SameBytes.refl _⟩
  | some q =>
    by_cases hown : s.context.procMap.lookup pid = s.context.procMap.lookup leader
    · have hsteps : TableSteps .idle q s.context c' := by
        refine syscallExit_steps hq (fun op hop => within_idle ?_) h
        have hall := hidle.2 hown
        rwa [hop] at hall
      have hspent := hs.spent q (hown ▸ hq)
      obtain ⟨hspent', hsame⟩ := hsteps.spent hspent
      refine ⟨hsteps.sameRegistry.procMap, hsteps.sameRegistry.groupLeaders, ?_, fun _ => hsame⟩
      intro p hp
      rw [← hown, hq] at hp
      cases hp
      exact hspent'
    · have hsteps : TableSteps .any q s.context c' :=
        syscallExit_steps hq (within_any hidle.1.2 hq) h
      refine ⟨hsteps.sameRegistry.procMap, hsteps.sameRegistry.groupLeaders, ?_,
        fun hmade => absurd hmade hown⟩
      intro p hp
      have hne : p ≠ q := by
        rintro rfl
        exact hown (hq.trans hp.symm)
      exact (hs.spent p hp).other howned.tidy (howned.registered.alloc pid q hq) hne hsteps

theorem Idling.registerThread {leader : Pid} {s : Tracked Q} (hs : Idling leader s)
    {pid thread : Pid} (hthread : thread ∉ s.context.groupLeaders) {c' : Context Q}
    (h : s.context.registerThread pid thread = .ok c') :
    leader ∈ c'.groupLeaders ∧ (∀ p, c'.procMap.lookup leader = some p → c'.Spent p) ∧
      SameBytes s.context.fileStorage c'.fileStorage := by
  have howned : s.context.Owned s.retired := hs.inv
  have hne : leader ≠ thread := by
    rintro rfl
    exact hthread hs.leads
  obtain ⟨q, _, hcases⟩ :=
    registerThread_ok (fun old _ => howned.registered.kept hthread old) h
  have hlookup : (s.context.procMap.insert thread q).lookup leader =
      s.context.procMap.lookup leader := by
    rw [PidMap.lookup_insert, if_neg hne]
  rcases hcases with rfl | ⟨old, _, hempty, rfl⟩
  · exact ⟨hs.leads, fun p hp => hs.spent p (hlookup ▸ hp), SameBytes.refl _⟩
  · have hsame := releaseProc_sameRegistry
      { s.context with procMap := s.context.procMap.insert thread q } old
    obtain ⟨_, hstorage, hfiles, _⟩ := releaseProc_reports
      { s.context with procMap := s.context.procMap.insert thread q } old
    refine ⟨?_, fun p hp fd r hslot => ?_, ?_⟩
    · rw [hsame.groupLeaders]
      exact hs.leads
    · simp only [hsame.procMap] at hp
      rw [@releaseProc_slot Q _ { s.context with
        procMap := s.context.procMap.insert thread q } old hempty] at hslot
      rw [hfiles]
      exact hs.spent p (hlookup ▸ hp) fd r hslot
    · rw [hstorage]
      exact SameBytes.refl _

theorem Idling.registerExec {leader : Pid} {s : Tracked Q} (hs : Idling leader s) {os : Os}
    {pid execpid : Pid} (hallowed : pid ∈ s.context.groupLeaders)
    (hgrown : pid = leader → hasGrown os s.context leader true = true) {c' : Context Q}
    (h : s.context.registerExec os pid execpid = .ok c') :
    leader ∈ c'.groupLeaders ∧ (∀ p, c'.procMap.lookup leader = some p → c'.Spent p) ∧
      (pid = leader → SameBytes s.context.fileStorage c'.fileStorage) := by
  have howned : s.context.Owned s.retired := hs.inv
  obtain ⟨q, c₁, hq, hv, rfl⟩ := howned.registered.registerExec_vanished hallowed h
  have hspent : ∀ p, s.context.procMap.lookup leader = some p →
      { s.context with
        heap := s.context.copyProc os q true pid (s.context.heap.procs q).procInfo.ppid }.Spent p :=
    fun p hp => (hs.spent p hp).copyProc howned.tidy
      (Nat.ne_of_lt (howned.registered.alloc leader p hp))
  refine ⟨?_, ?_, ?_⟩
  · simp only [hv.groupLeaders, Finset.mem_insert, Finset.mem_erase]
    by_cases hl : leader = pid
    · exact Or.inl hl
    · exact Or.inr ⟨hl, hs.leads⟩
  · intro p hp
    simp only [hv.procMap, PidMap.lookup_insert, PidMap.lookup_erase] at hp
    by_cases hl : leader = pid
    · subst hl
      rw [if_pos rfl] at hp
      cases hp
      have hcopy := (spent_copy hq (hgrown rfl)).vanished hv
      exact hcopy
    · rw [if_neg hl, if_neg hl] at hp
      have hcopy := (hspent p hp).vanished hv
      exact hcopy
  · rintro rfl
    have hsame := hv.sameBytes (hspent q hq)
    exact hsame

theorem Idling.vanishProcess {leader : Pid} {s : Tracked Q} (hs : Idling leader s) {pid : Pid}
    {c' : Context Q} (h : s.context.vanishProcess pid = .ok c') :
    (pid ≠ leader → leader ∈ c'.groupLeaders ∧
      ∀ p, c'.procMap.lookup leader = some p → c'.Spent p) ∧
    (pid = leader → SameBytes s.context.fileStorage c'.fileStorage) := by
  have howned : s.context.Owned s.retired := hs.inv
  obtain ⟨q, hq⟩ := vanishProcess_mapped h
  obtain ⟨c'', hrun, hv, _⟩ := @Owned.vanish Q _ .x86_64 _ _ howned _ _ hq
  rw [h] at hrun
  cases hrun
  refine ⟨fun hne => ⟨?_, fun p hp => ?_⟩, ?_⟩
  · rw [hv.groupLeaders, Finset.mem_erase]
    exact ⟨Ne.symm hne, hs.leads⟩
  · rw [hv.procMap, PidMap.lookup_erase, if_neg (Ne.symm hne)] at hp
    exact (hs.spent p hp).vanished hv
  · rintro rfl
    exact hv.sameBytes (hs.spent q hq)

/-- Nothing an idle process does shows in the storage, whatever the others do meanwhile. -/
theorem Idling.step {leader : Pid} {s s' : Tracked Q} (hs : Idling leader s) {call : Call arch}
    (hidle : s.IdleCall leader call) (h : s.step call = .ok s') :
    Idling leader s' ∧ (s.MadeFor leader call →
      SameBytes s.context.fileStorage s'.context.fileStorage) := by
  have hinv := Tracked.inv_step s call s' hs.inv hidle.1 h
  have howned : s.context.Owned s.retired := hs.inv
  obtain ⟨c', hcall, h⟩ := bind_eq_ok_iff.mp h
  rw [pure_eq_ok_iff] at h
  subst h
  cases call with
  | syscallExit os pid registers =>
    obtain ⟨hmap, hleaders, hspent, hsame⟩ := hs.syscallExit hidle hcall
    refine ⟨⟨hinv, ?_, ?_⟩, hsame⟩
    · rw [hleaders]
      exact hs.leads
    · rw [hmap]
      exact hspent
  | registerThread pid thread =>
    obtain ⟨hleads, hspent, hsame⟩ := hs.registerThread hidle.1.2 hcall
    exact ⟨⟨hinv, hleads, hspent⟩, fun _ => hsame⟩
  | registerProcess os parent child =>
    obtain ⟨q, _, hchild, rfl⟩ := registerProcess_ok hcall
    refine ⟨⟨hinv, Finset.mem_insert_of_mem hs.leads, fun p hp => ?_⟩, fun _ => SameBytes.refl _⟩
    rw [PidMap.lookup_insert] at hp
    split at hp
    · rename_i heq
      obtain ⟨p', hp'⟩ := howned.registered.mapped leader hs.leads
      rw [heq, hchild] at hp'
      cases hp'
    · exact (hs.spent p hp).copyProc howned.tidy
        (Nat.ne_of_lt (howned.registered.alloc leader p hp))
  | registerExec os pid execpid =>
    have hexec : s.context.registerExec os pid execpid = .ok c' := hcall
    obtain ⟨hleads, hspent, hsame⟩ := hs.registerExec hidle.1 hidle.2 hexec
    exact ⟨⟨hinv, hleads, hspent⟩, hsame⟩
  | registerCoreDump os pid termSig =>
    obtain ⟨_, hheap, hleaders, hmap⟩ := howned.tidy.registerCoreDump hcall
    refine ⟨⟨hinv, ?_, fun p hp => ?_⟩, fun hmade => hmade.elim⟩
    · rw [hleaders]
      exact hs.leads
    · unfold Spent
      rw [hheap]
      exact hs.spent p (hmap ▸ hp)
  | vanishProcess pid =>
    obtain ⟨hother, hsame⟩ := hs.vanishProcess hcall
    obtain ⟨hleads, hspent⟩ := hother hidle.2
    exact ⟨⟨hinv, hleads, hspent⟩, hsame⟩

/-- What a process that was just copied adds to the storage, if it stays idle from then on:
nothing at any call of its own, and so nothing up to its end if it makes all the calls. -/
def AddsNothing (arch : Arch) (leader : Pid) (storage : FileStorage Q) (s : Tracked Q) : Prop :=
  ∀ (calls : List (Call arch)) (t : Tracked Q),
    Runs.Along step (IdleCall leader) s calls → Runs.run step s calls = .ok t →
    (∀ (call : Call arch) t', t.IdleCall leader call ∨ call = .vanishProcess leader →
      t.MadeFor leader call → t.step call = .ok t' →
      SameBytes t.context.fileStorage t'.context.fileStorage) ∧
    (Runs.Along step (MadeFor leader) s calls → ∀ t',
      t.step (.vanishProcess leader : Call arch) = .ok t' →
      SameBytes storage t'.context.fileStorage)

theorem Idling.addsNothing {leader : Pid} {s : Tracked Q} (hs : Idling leader s)
    {storage : FileStorage Q} (hstorage : SameBytes storage s.context.fileStorage) :
    AddsNothing arch leader storage s := by
  intro calls t hidle hrun
  have hvanish : ∀ {t t' : Tracked Q}, Idling leader t →
      t.step (.vanishProcess leader : Call arch) = .ok t' →
      SameBytes t.context.fileStorage t'.context.fileStorage := by
    intro t t' ht h
    obtain ⟨c', hcall, h⟩ := bind_eq_ok_iff.mp h
    rw [pure_eq_ok_iff] at h
    subst h
    exact (ht.vanishProcess hcall).2 rfl
  have ht : Idling leader t :=
    Runs.run_invariant (fun _ _ _ hs hidle h => (hs.step hidle h).1) hs hidle hrun
  refine ⟨?_, ?_⟩
  · rintro call t' (hcall | rfl) hmade h
    · exact (ht.step hcall h).2 hmade
    · exact hvanish ht h
  · intro hmade t' h
    have hsame : SameBytes storage t.context.fileStorage := by
      clear hvanish ht h
      induction calls generalizing s with
      | nil =>
        cases hrun
        exact hstorage
      | cons call calls ih =>
        obtain ⟨s', hs', hrun⟩ := Runs.run_cons_ok_iff.mp hrun
        obtain ⟨hidling, hsame⟩ := hs.step hidle.1 hs'
        exact ih hidling (hstorage.trans (hsame hmade.1)) (hidle.2 s' hs') hrun (hmade.2 s' hs')
    exact hsame.trans (hvanish ht h)

theorem idling_fork {s s₁ : Tracked Q} (hs : s.Inv) {os : Os} {parent child : Pid}
    (hallowed : s.Allowed (.registerProcess os parent child : Call arch))
    (hgrown : hasGrown os s.context parent false = true)
    (h : s.step (.registerProcess os parent child : Call arch) = .ok s₁) :
    Idling child s₁ ∧ s₁.context.fileStorage = s.context.fileStorage := by
  have hinv := inv_step s _ s₁ hs hallowed h
  obtain ⟨c', hcall, h⟩ := bind_eq_ok_iff.mp h
  rw [pure_eq_ok_iff] at h
  subst h
  obtain ⟨p, hp, _, rfl⟩ := registerProcess_ok hcall
  refine ⟨⟨hinv, Finset.mem_insert_self _ _, fun q hq => ?_⟩, rfl⟩
  rw [PidMap.lookup_insert, if_pos rfl] at hq
  cases hq
  exact spent_copy hp hgrown

theorem idling_exec {s s₁ s' : Tracked Q} (hs : s.Inv) {os : Os} {pid execpid : Pid}
    (hallowed : s.Allowed (.registerExec os pid execpid : Call arch))
    (hgrown : hasGrown os s.context pid true = true)
    (h : s.step (.registerExec os pid execpid : Call arch) = .ok s₁)
    (hvanish : s.step (.vanishProcess pid : Call arch) = .ok s') :
    Idling pid s₁ ∧ s₁.context.fileStorage = s'.context.fileStorage := by
  have hinv := inv_step s _ s₁ hs hallowed h
  have howned : s.context.Owned s.retired := hs
  obtain ⟨c', hcall, h⟩ := bind_eq_ok_iff.mp h
  rw [pure_eq_ok_iff] at h
  subst h
  obtain ⟨c'', hcall'', hvanish⟩ := bind_eq_ok_iff.mp hvanish
  rw [pure_eq_ok_iff] at hvanish
  subst hvanish
  have hexec : s.context.registerExec os pid execpid = .ok c' := hcall
  have hdirect : s.context.vanishProcess pid = .ok c'' := hcall''
  obtain ⟨p, c₁, hp, hrun, rfl⟩ := registerExec_ok hexec
  have halloc := howned.registered.alloc pid p hp
  have hagree := agree_copyProc howned.tidy halloc os true pid
    (s.context.heap.procs p).procInfo.ppid p
  have hstorage := hagree.vanishProcess hp hp hallowed hallowed hdirect hrun
  obtain ⟨c₂, hrun₂, hv⟩ := @vanishProcess_vanished Q _ { s.context with
    heap := s.context.copyProc os p true pid (s.context.heap.procs p).procInfo.ppid } p pid hp
    (Nat.lt_succ_of_lt halloc) (fun hnot => absurd hallowed hnot)
  rw [hrun] at hrun₂
  cases hrun₂
  refine ⟨⟨hinv, Finset.mem_insert_self _ _, fun q hq => ?_⟩, hstorage⟩
  rw [PidMap.lookup_insert, if_pos rfl] at hq
  cases hq
  have hspent := (spent_copy hp hgrown).vanished hv
  exact hspent

/-- A process that writes nothing adds nothing, if no state that the fork or the exec copied
had counted past the length of its file. -/
theorem idle_process_adds_nothing {opts : Options} {os₀ : Os} {tracee : Pid} {c₀ : Context Q}
    {calls₀ : List (Call arch)} {s : Tracked Q}
    (hstart : (Context.new opts : Context Q).registerTracee os₀ tracee = .ok c₀)
    (hallowed₀ : Runs.Along step Allowed ⟨c₀, ∅⟩ calls₀)
    (hrun₀ : Runs.run step ⟨c₀, ∅⟩ calls₀ = .ok s) :
    (∀ os parent child s₁, s.Allowed (.registerProcess os parent child : Call arch) →
      hasGrown os s.context parent false = true →
      s.step (.registerProcess os parent child : Call arch) = .ok s₁ →
      AddsNothing arch child s.context.fileStorage s₁) ∧
    ∀ os pid execpid s₁ s', s.Allowed (.registerExec os pid execpid : Call arch) →
      hasGrown os s.context pid true = true →
      s.step (.registerExec os pid execpid : Call arch) = .ok s₁ →
      s.step (.vanishProcess pid : Call arch) = .ok s' →
      AddsNothing arch pid s'.context.fileStorage s₁ := by
  have hs := inv_run hstart hallowed₀ hrun₀
  refine ⟨?_, ?_⟩
  · intro os parent child s₁ hallowed hgrown h
    obtain ⟨hidling, hstorage⟩ := idling_fork hs hallowed hgrown h
    apply hidling.addsNothing
    rw [hstorage]
    exact SameBytes.refl _
  · intro os pid execpid s₁ s' hallowed hgrown h hvanish
    obtain ⟨hidling, hstorage⟩ := idling_exec hs hallowed hgrown h hvanish
    apply hidling.addsNothing
    rw [hstorage]
    exact SameBytes.refl _

end Tracked

/-! ## Two runs on fixed inputs -/

/-- The tracee opens a file, writes 100 bytes, and truncates it if told to. -/
def openAndWrite (truncated : Bool) : List (Call .x86_64) :=
  [exitOf 0 1 2 3 0 1 0 0, exitOf 0 1 1 100 3 0 0 0] ++
    if truncated then [exitOf 0 1 77 0 3 0 0 0] else []

theorem idle_process_adds_nothing_written :
    ∃ (c₀ : Context FileQueue) (s s₁ : Tracked FileQueue),
      (Context.new plainOptions).registerTracee (plainOs 0) 1 = .ok c₀ ∧
      Runs.run Tracked.step ⟨c₀, ∅⟩ (openAndWrite false) = .ok s ∧
      s.step (.registerProcess (plainOs 100) 1 2 : Call .x86_64) = .ok s₁ ∧
      Tracked.AddsNothing .x86_64 2 s.context.fileStorage s₁ := by
  refine ⟨_, _, _, rfl, rfl, rfl, ?_⟩
  exact (@Tracked.idle_process_adds_nothing FileQueue _ .x86_64 plainOptions (plainOs 0) 1 _
    (openAndWrite false) _ rfl (by decide) rfl).1 (plainOs 100) 1 2 _ (by decide) (by decide) rfl

/-- After a truncation the child's copy counts the 100 bytes once more. -/
theorem truncated_counted_again :
    ∃ (c₀ : Context FileQueue) (s s₁ t : Tracked FileQueue),
      (Context.new plainOptions).registerTracee (plainOs 0) 1 = .ok c₀ ∧
      Runs.Along Tracked.step Tracked.Allowed ⟨c₀, ∅⟩ (openAndWrite true) ∧
      Runs.run Tracked.step ⟨c₀, ∅⟩ (openAndWrite true) = .ok s ∧
      s.Allowed (.registerProcess (plainOs 0) 1 2 : Call .x86_64) ∧
      s.step (.registerProcess (plainOs 0) 1 2 : Call .x86_64) = .ok s₁ ∧
      s₁.step (.vanishProcess 2 : Call .x86_64) = .ok t ∧
      s.context.fileStorage.getOutputSize = 0 ∧ t.context.fileStorage.getOutputSize = 100 ∧
      ¬ SameBytes s.context.fileStorage t.context.fileStorage := by
  refine ⟨_, _, _, _, rfl, by decide, rfl, by decide, rfl, rfl, rfl, by decide, fun hsame => ?_⟩
  exact absurd hsame.outputSize (by decide)

end Optrace
