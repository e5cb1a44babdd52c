import Optrace.Ownership

/-!
# Whole traces

The calls `RunTracer` makes on the tracker, from `RegisterTracee` on, and the loop of
`PostProcess` at their end.
-/

namespace Optrace

set_option autoImplicit false
set_option linter.unusedSectionVars false

open SlotTable Except Context

variable {Q : Type} [MaxOutFilesQueue Q] {arch : Arch}

/-- A call on the tracker, with what it reads of the running system. -/
inductive Call (arch : Arch) where
  | syscallExit (os : Os) (pid : Pid) (registers : UserRegs arch)
  | registerThread (pid thread : Pid)
  | registerProcess (os : Os) (parent child : Pid)
  | registerExec (os : Os) (pid execpid : Pid)
  | registerCoreDump (os : Os) (pid : Pid) (termSig : Int)
  | vanishProcess (pid : Pid)

def Call.apply (c : Context Q) : Call arch → Except Abort (Context Q)
  | .syscallExit os pid registers => c.syscallExit arch os pid registers
  | .registerThread pid thread => c.registerThread pid thread
  | .registerProcess os parent child => c.registerProcess os parent child
  | .registerExec os pid execpid => c.registerExec os pid execpid
  | .registerCoreDump os pid termSig => c.registerCoreDump os pid termSig
  | .vanishProcess pid => c.vanishProcess pid

/-- The threads left behind by a group leader that vanished or exec'ed, after a call. -/
def Call.retire (c : Context Q) (retired : Finset Pid) : Call arch → Finset Pid
  | .syscallExit _ _ _ => retired
  | .registerThread _ thread => retired.erase thread
  | .registerProcess _ _ child => retired.erase child
  | .registerExec _ pid _ => retired ∪ c.threadsOf pid
  | .registerCoreDump _ _ _ => retired
  | .vanishProcess pid =>
    (if pid ∈ c.groupLeaders then retired ∪ c.threadsOf pid else retired).erase pid

/-- The tracker, and the tids for which it gets no further call but `VanishProcess`. -/
structure Tracked (Q : Type) where
  context : Context Q
  retired : Finset Pid

/-- An open returns a descriptor whose slot is empty. -/
def opensFree (c : Context Q) (pid : Pid) (registers : UserRegs arch) : Bool :=
  match (syscallSwitch arch (syscallRegs arch registers)).bind Op.opens, c.procMap.lookup pid with
  | some (fd, _), some p => (slot (c.heap.fds p) fd.toNat).isNone
  | _, _ => true

theorem slot_of_opensFree {c : Context Q} {pid : Pid} {registers : UserRegs arch}
    (h : opensFree c pid registers = true) {op : Op} {fd flags : Word} {p : Nat}
    (hop : syscallSwitch arch (syscallRegs arch registers) = some op)
    (hfd : op.opens = some (fd, flags)) (hp : c.procMap.lookup pid = some p) :
    slot (c.heap.fds p) fd.toNat = none := by
  simpa [opensFree, hop, hfd, hp] using h

theorem within_any {os : Os} {c : Context Q} {pid : Pid} {registers : UserRegs arch}
    (h : opensFree c pid registers = true) {p : Nat} (hp : c.procMap.lookup pid = some p) (op : Op)
    (hop : syscallSwitch arch (syscallRegs arch registers) = some op) :
    Within .any os c pid p op :=
  ⟨fun _ _ hfd => slot_of_opensFree h hop hfd hp, fun _ _ _ _ _ => trivial,
    fun _ _ _ _ _ => trivial⟩

namespace Tracked

def step (s : Tracked Q) (call : Call arch) : Except Abort (Tracked Q) := do
  let c ← call.apply s.context
  return ⟨c, call.retire s.context s.retired⟩

/-- What the kernel guarantees about a call. -/
def Allowed (s : Tracked Q) : Call arch → Prop
  | .syscallExit _ pid registers => pid ∉ s.retired ∧ opensFree s.context pid registers = true
  | .registerThread pid thread => pid ∉ s.retired ∧ thread ∉ s.context.groupLeaders
  | .registerProcess _ parent _ => parent ∉ s.retired
  | .registerExec _ pid _ => pid ∈ s.context.groupLeaders
  | .registerCoreDump _ _ _ => True
  | .vanishProcess _ => True

instance (s : Tracked Q) : (call : Call arch) → Decidable (s.Allowed call)
  | .syscallExit _ pid registers =>
    inferInstanceAs (Decidable (pid ∉ s.retired ∧ opensFree s.context pid registers = true))
  | .registerThread pid thread =>
    inferInstanceAs (Decidable (pid ∉ s.retired ∧ thread ∉ s.context.groupLeaders))
  | .registerProcess _ parent _ => inferInstanceAs (Decidable (parent ∉ s.retired))
  | .registerExec _ pid _ => inferInstanceAs (Decidable (pid ∈ s.context.groupLeaders))
  | .registerCoreDump _ _ _ => isTrue trivial
  | .vanishProcess _ => isTrue trivial

end Tracked

namespace Context

variable {c c' : Context Q}

/-- A file state was reported once if its last slot is cleared, and not at all before. -/
def Settled (c : Context Q) : Prop :=
  ∀ r < c.heap.fileCount, c.timesReported r = if c.heap.useCount r = 0 then 1 else 0

theorem Tidy.registerCoreDump (hc : c.Tidy) {os : Os} {pid : Pid} {termSig : Int}
    (h : c.registerCoreDump os pid termSig = .ok c') : c'.Tidy ∧ c'.heap = c.heap ∧
      c'.groupLeaders = c.groupLeaders ∧ c'.procMap = c.procMap := by
  obtain ⟨p, _, h⟩ := bind_eq_ok_iff.mp h
  split at h
  · rw [pure_eq_ok_iff] at h
    subst h
    unfold searchAndRegisterCoreDumpFile
    simp only
    split
    · exact ⟨hc, rfl, rfl, rfl⟩
    · refine ⟨⟨hc.bound, hc.alloc, hc.single, ?_, ?_, ?_, ?_⟩, rfl, rfl, rfl⟩
      · intro r hr
        have htimes := hc.reported r hr
        unfold timesReported at htimes ⊢
        rw [List.countP_append, htimes]
        simp
      · intro rep hrep r hfile
        rcases List.mem_append.mp hrep with hrep | hrep
        · exact hc.known rep hrep r hfile
        · rw [List.mem_singleton.mp hrep] at hfile
          cases hfile
      · intro rep hrep r hfile
        rcases List.mem_append.mp hrep with hrep | hrep
        · exact hc.accurate rep hrep r hfile
        · rw [List.mem_singleton.mp hrep] at hfile
          cases hfile
      · rw [List.map_append, List.foldl_append, ← hc.stored]
        rfl
  · rw [pure_eq_ok_iff] at h
    subst h
    exact ⟨hc, rfl, rfl, rfl⟩

theorem apart_of_vanish {retired : Finset Pid} {pid tid : Pid} {p : Nat}
    (hp : c.procMap.lookup pid = some p) (hne : tid ≠ pid)
    (h : tid ∉ (Call.vanishProcess pid : Call arch).retire c retired) :
    tid ∉ retired ∧ (pid ∈ c.groupLeaders → c.procMap.lookup tid ≠ c.procMap.lookup pid) := by
  rw [Call.retire, Finset.mem_erase, not_and] at h
  have htid := h hne
  split at htid
  · obtain ⟨hretired, hother⟩ := apart_of_notMem hp hne htid
    exact ⟨hretired, fun _ => hother⟩
  · rename_i hlead
    exact ⟨htid, fun h => absurd h hlead⟩

theorem Owned.vanish {retired : Finset Pid} (hc : c.Owned retired) {pid : Pid} {p : Nat}
    (hp : c.procMap.lookup pid = some p) :
    ∃ c', c.vanishProcess pid = .ok c' ∧ Vanished pid p c c' ∧
      c'.Owned ((Call.vanishProcess pid : Call arch).retire c retired) := by
  apply hc.vanishProcess hp
  · exact fun tid hne htid => apart_of_vanish hp hne htid
  · intro l hl hne
    rw [Call.retire, Finset.mem_erase, not_and]
    intro _
    split
    · rename_i hlead
      rw [Finset.mem_union, not_or]
      refine ⟨hc.registered.active l hl, fun hmem => ?_⟩
      obtain ⟨_, hlookup⟩ := (mem_threadsOf hp).mp hmem
      exact hne (hc.registered.distinct l hl pid hlead (hlookup.trans hp.symm))
    · exact hc.registered.active l hl

end Context

namespace Tracked

/-- The invariant of a trace. -/
def Inv (s : Tracked Q) : Prop := s.context.Owned s.retired

theorem inv_step (s : Tracked Q) (call : Call arch) (s' : Tracked Q) (hs : s.Inv)
    (hallowed : s.Allowed call) (h : s.step call = .ok s') : s'.Inv := by
  obtain ⟨c, hcall, h⟩ := bind_eq_ok_iff.mp h
  rw [pure_eq_ok_iff] at h
  subst h
  cases call with
  | syscallExit os pid registers =>
    obtain ⟨hpid, hempty⟩ := hallowed
    cases hp : s.context.procMap.lookup pid with
    | some p =>
      exact Owned.steps hs hp hpid
        (syscallExit_steps hp (within_any hempty hp) hcall)
    | none =>
      rw [syscallExit_unmapped hp hcall]
      exact hs
  | registerThread pid thread => exact Owned.registerThread hs hallowed.1 hallowed.2 hcall
  | registerProcess os parent child => exact Owned.registerProcess hs hcall
  | registerExec os pid execpid =>
    have hexec : s.context.registerExec os pid execpid = .ok c := hcall
    exact Owned.registerExec hs hallowed hexec
  | registerCoreDump os pid termSig =>
    obtain ⟨htidy, hheap, hleaders, hmap⟩ := hs.tidy.registerCoreDump hcall
    obtain ⟨halloc, hmapped, hdistinct, hled, howned, hactive⟩ := hs.registered
    refine ⟨htidy, ?_, ?_, ?_, ?_, ?_, ?_⟩
    all_goals simpa only [Call.retire, hheap, hleaders, hmap]
  | vanishProcess pid =>
    obtain ⟨p, hp⟩ := vanishProcess_mapped hcall
    obtain ⟨c', hrun, _, howned⟩ := @Owned.vanish Q _ arch _ _ hs _ _ hp
    rw [Call.apply, hrun] at hcall
    cases hcall
    exact howned

theorem inv_run {opts : Options} {os : Os} {tracee : Pid} {c₀ : Context Q}
    {calls : List (Call arch)} {s : Tracked Q}
    (hstart : (Context.new opts : Context Q).registerTracee os tracee = .ok c₀)
    (hallowed : Runs.Along step Allowed ⟨c₀, ∅⟩ calls)
    (hrun : Runs.run step ⟨c₀, ∅⟩ calls = .ok s) : s.Inv := by
  have hc₀ := (Owned.new opts).registerTracee hstart
  rw [Finset.erase_empty] at hc₀
  have hinv : Inv (⟨c₀, ∅⟩ : Tracked Q) := hc₀
  exact Runs.run_invariant inv_step hinv hallowed hrun

end Tracked

namespace Context

/-! ## The options -/

theorem vanishProcess_options {c c' : Context Q} {pid : Pid} (h : c.vanishProcess pid = .ok c') :
    c'.options = c.options := by
  obtain ⟨p, hp⟩ := vanishProcess_mapped h
  obtain ⟨c₁, hrun, hcases⟩ := vanishProcess_ok hp
  rw [h] at hrun
  cases hrun
  have hdrop : (c₁.dropPid pid p).options = c₁.options :=
    (releaseProc_sameRegistry _ p).options
  rcases hcases with ⟨_, rfl⟩ | ⟨_, htorn⟩
  · exact hdrop
  · exact hdrop.trans htorn.steps.sameRegistry.options

theorem apply_options {c c' : Context Q} {call : Call arch}
    (hempty : ∀ os pid registers, call = .syscallExit os pid registers →
      opensFree c pid registers = true)
    (h : call.apply c = .ok c') : c'.options = c.options := by
  cases call with
  | syscallExit os pid registers =>
    cases hp : c.procMap.lookup pid with
    | some p =>
      have hsteps := syscallExit_steps hp (within_any (hempty os pid registers rfl) hp) h
      exact hsteps.sameRegistry.options
    | none => rw [syscallExit_unmapped hp h]
  | registerThread pid thread =>
    simp only [Call.apply, Context.registerThread] at h
    split at h
    · cases h
    · split at h
      · cases h
        rfl
      · cases h
        exact (releaseProc_sameRegistry _ _).options
  | registerProcess os parent child =>
    obtain ⟨p, _, _, rfl⟩ := registerProcess_ok h
    rfl
  | registerExec os pid execpid =>
    have hexec : c.registerExec os pid execpid = .ok c' := h
    obtain ⟨p, c₁, _, hvanish, rfl⟩ := registerExec_ok hexec
    have hoptions := vanishProcess_options hvanish
    exact hoptions
  | registerCoreDump os pid termSig =>
    obtain ⟨p, _, h⟩ := bind_eq_ok_iff.mp h
    split at h
    · rw [pure_eq_ok_iff] at h
      rw [← h, searchAndRegisterCoreDumpFile]
      split <;> rfl
    · rw [pure_eq_ok_iff] at h
      rw [h]
  | vanishProcess pid => exact vanishProcess_options h

theorem registerTracee_options {os : Os} {c c' : Context Q} {pid : Pid}
    (h : c.registerTracee os pid = .ok c') : c'.options = c.options :=
  (registerTracee_ok h).2.sameRegistry.options

end Context

theorem Tracked.options_run {opts : Options} {os : Os} {tracee : Pid} {c₀ : Context Q}
    {calls : List (Call arch)} {s : Tracked Q}
    (hstart : (Context.new opts : Context Q).registerTracee os tracee = .ok c₀)
    (hallowed : Runs.Along step Allowed ⟨c₀, ∅⟩ calls)
    (hrun : Runs.run step ⟨c₀, ∅⟩ calls = .ok s) : s.context.options = opts := by
  have hstep : ∀ (s : Tracked Q) (call : Call arch) (s' : Tracked Q), s.context.options = opts →
      s.Allowed call → s.step call = .ok s' → s'.context.options = opts := by
    intro s call s' hs hallowed h
    obtain ⟨c, hcall, h⟩ := bind_eq_ok_iff.mp h
    rw [pure_eq_ok_iff] at h
    rw [← h, ← hs]
    refine apply_options ?_ hcall
    rintro os pid registers rfl
    exact hallowed.2
  exact Runs.run_invariant hstep (registerTracee_options hstart) hallowed hrun

namespace Context

/-! ## The end of a trace -/

/-- Each turn takes one pid out of `ProcMap`, whichever it is. -/
theorem Owned.vanishAll {c : Context Q} {retired : Finset Pid} (hc : c.Owned retired)
    (order : HashOrder) (n : Nat) (hn : c.procMap.keys.card ≤ n) :
    ∃ c' retired', Context.vanishAll order n c = some (.ok c') ∧ c'.Owned retired' ∧
      c'.procMap = ∅ ∧ c'.heap.fileCount = c.heap.fileCount ∧ c'.options = c.options := by
  induction n generalizing c retired with
  | zero =>
    have hempty : c.procMap = ∅ := by
      refine Finmap.ext_lookup fun pid => ?_
      rw [Finmap.lookup_empty, Finmap.lookup_eq_none, ← Finmap.mem_keys,
        Finset.card_eq_zero.mp (Nat.le_zero.mp hn)]
      exact Finset.notMem_empty pid
    exact ⟨c, retired, by rw [Context.vanishAll, if_pos hempty], hc, hempty, rfl, rfl⟩
  | succ n ih =>
    by_cases hempty : c.procMap = ∅
    · exact ⟨c, retired, by rw [Context.vanishAll, if_pos hempty], hc, hempty, rfl, rfl⟩
    · have hmem := order.first_mem n c.procMap hempty
      obtain ⟨p, hp⟩ := Finmap.mem_iff.mp hmem
      obtain ⟨c₁, hrun, hv, hc₁⟩ := @Owned.vanish Q _ .x86_64 c _ hc _ p hp
      have hcard : c₁.procMap.keys.card ≤ n := by
        rw [hv.procMap, Finmap.keys_erase, Finset.card_erase_of_mem (Finmap.mem_keys.mpr hmem)]
        omega
      obtain ⟨c', retired', hrest, howned, hdone, hcount, hoptions⟩ := ih hc₁ hcard
      refine ⟨c', retired', ?_, howned, hdone, hcount.trans hv.fileCount,
        hoptions.trans hv.options⟩
      rw [Context.vanishAll, if_neg hempty, hrun]
      exact hrest

/-- With no process registered, every file state was reported. -/
theorem Owned.useCount_zero {c : Context Q} {retired : Finset Pid} (hc : c.Owned retired)
    (hdone : c.procMap = ∅) (r : Nat) : c.heap.useCount r = 0 := by
  by_contra hne
  obtain ⟨p, _, fd, hslot⟩ := (c.heap.useCount_pos_iff r).mp (by omega)
  obtain ⟨l, _, hl⟩ := hc.registered.owned p fd r hslot
  rw [hdone, Finmap.lookup_empty] at hl
  cases hl

theorem Tidy.filter_reports {c : Context Q} (hc : c.Tidy) {r : Nat} (hr : r < c.heap.fileCount)
    (hzero : c.heap.useCount r = 0) : ∃ pinfo, c.reports.filter (fun rep => rep.file == some r) =
      [⟨some r, OutputFile.ofState (c.heap.files r) pinfo⟩] := by
  have hone := hc.reported r hr
  rw [if_pos hzero, timesReported, List.countP_eq_length_filter, List.length_eq_one_iff] at hone
  obtain ⟨⟨file, output⟩, hfilter⟩ := hone
  have hmem : ⟨file, output⟩ ∈ c.reports.filter (fun rep => rep.file == some r) := by
    rw [hfilter]
    exact List.mem_singleton_self _
  obtain ⟨hrep, hfile⟩ := List.mem_filter.mp hmem
  obtain rfl : file = some r := beq_iff_eq.mp hfile
  obtain ⟨pinfo, hout⟩ := hc.accurate _ hrep r rfl
  exact ⟨pinfo, by rw [hfilter, ← hout]⟩

/-- In every trace each file state is reported when its last slot is cleared, and exactly
once by the end of `PostProcess`. -/
theorem reported_exactly_once {opts : Options} {os : Os} {tracee : Pid} {c₀ : Context Q}
    {calls : List (Call arch)} {s : Tracked Q} (order : HashOrder)
    (hstart : (Context.new opts : Context Q).registerTracee os tracee = .ok c₀)
    (hallowed : Runs.Along Tracked.step Tracked.Allowed ⟨c₀, ∅⟩ calls)
    (hrun : Runs.run Tracked.step ⟨c₀, ∅⟩ calls = .ok s) :
    s.context.Settled ∧
    (∀ pid p c₁, s.context.procMap.lookup pid = some p → TableSteps .any p s.context c₁ →
      c₁.Settled) ∧
    ∃ n c, s.context.vanishAll order n = some (.ok c) ∧ c.procMap = ∅ ∧
      c.heap.fileCount = s.context.heap.fileCount ∧
      (∀ r < c.heap.fileCount, ∃ pinfo, c.reports.filter (fun rep => rep.file == some r) =
        [⟨some r, OutputFile.ofState (c.heap.files r) pinfo⟩]) ∧
      c.fileStorage = (c.reports.map Report.output).foldl FileStorage.addFileEntry
        (FileStorage.new opts.filesInReport opts.storeEmptyFiles) := by
  have hinv := Tracked.inv_run hstart hallowed hrun
  refine ⟨hinv.tidy.reported, ?_, ?_⟩
  · intro pid p c₁ hp hsteps
    exact (hinv.tidy.steps (hinv.registered.alloc pid p hp) hsteps).reported
  · obtain ⟨c, retired, hloop, howned, hdone, hcount, hoptions⟩ :=
      hinv.vanishAll order s.context.procMap.keys.card (Nat.le_refl _)
    refine ⟨_, c, hloop, hdone, hcount, ?_, ?_⟩
    · exact fun r hr => howned.tidy.filter_reports hr (howned.useCount_zero hdone r)
    · rw [howned.tidy.stored, hoptions, Tracked.options_run hstart hallowed hrun]

end Context

/-! ## A run on fixed inputs -/

def plainOptions : Options where
  output := ""
  appendOutput := false
  followForks := true
  waitDaemons := false
  jailForks := false
  humanReadableSizes := false
  filesInReport := -1
  commandLengthLimit := 0
  useSecComp := true
  searchForCoreDumps := false
  forwardingSignals := []
  forwardAllSignals := false
  storeEmptyFiles := false
  interruptionTarget := ""
  interruptionSignal := 0

/-- A system with one regular file of the given length behind every descriptor, and a tracer
that has none open. -/
def plainOs (length : Word) : Os where
  fileContent _ := none
  stat _ := some length
  readlink _ := some "out"
  fdFlags _ := none
  isFile _ := true
  myHighestFd := -1
  getCwd := ""
  recoverCoreDumpFile _ _ _ _ := ""
  fnmatch _ _ := false

open FileStorage in
/-- The tracker once the tracee 1 is registered. -/
def plainStart : Context FileQueue :=
  match (Context.new plainOptions).registerTracee (plainOs 0) 1 with
  | .ok c => c
  | .error _ => Context.new plainOptions

/-- The exit of a call on x86_64, as the tracker is told of it. -/
def exitOf (length : Word) (pid : Pid) (nr retdata arg0 arg1 arg2 arg3 : Word) : Call .x86_64 :=
  .syscallExit (plainOs length) pid (exitRegs .x86_64 ⟨nr, retdata, arg0, arg1, arg2, arg3⟩)

/-- The tracee opens a file and forks, and the child closes its copy. -/
def openForkClose : List (Call .x86_64) :=
  [exitOf 0 1 2 3 0 1 0 0, .registerProcess (plainOs 0) 1 2, exitOf 0 2 3 0 3 0 0 0]

open FileStorage in
theorem reported_exactly_once_fork :
    ∃ (c₀ : Context FileQueue) (s : Tracked FileQueue),
      (Context.new plainOptions).registerTracee (plainOs 0) 1 = .ok c₀ ∧
      Runs.run Tracked.step ⟨c₀, ∅⟩ openForkClose = .ok s ∧
      s.context.Settled ∧ s.context.timesReported 1 = 1 ∧
      ∃ n c, s.context.vanishAll HashOrder.smallest n = some (.ok c) ∧ c.procMap = ∅ := by
  refine ⟨_, _, rfl, rfl, ?_⟩
  have h := @Context.reported_exactly_once FileQueue _ .x86_64 plainOptions (plainOs 0) 1 _
    openForkClose _ HashOrder.smallest rfl ?_ rfl
  · obtain ⟨hsettled, _, n, c, hloop, hdone, _⟩ := h
    exact ⟨hsettled, rfl, n, c, hloop, hdone⟩
  · decide

end Optrace
