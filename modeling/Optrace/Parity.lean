import Optrace.Assertions
import Optrace.Phases

/-!
# Entry and exit stops

Every tracee is in a phase that fits its value, in every run that keeps to a condition on its
steps. So the tracer takes each syscall stop for what it is.
-/

namespace Optrace

set_option autoImplicit false
set_option linter.unusedSectionVars false

open Except

/-! ## Turns at a syscall stop -/

namespace Tracer

variable {Q : Type} [MaxOutFilesQueue Q] {arch : Arch} {cfg : TracerConfig} {os : Os}
  {ptrace : Ptrace arch} {s : Tracer arch Q} {pid : Pid} {registers : UserRegs arch}

/-- The turn resets the value and calls `SyscallExit`. -/
def Exits (cfg : TracerConfig) (os : Os) (ptrace : Ptrace arch) (pid : Pid)
    (registers : UserRegs arch) (s : Tracer arch Q) : Prop :=
  s.turn cfg os ptrace (.status pid Notice.syscallStop.status) =
    (s.begin.setSyscallState pid SYSCALL_UNDEFINED).call (.syscallExit os pid registers) >>=
      fun s₁ => s₁.restart cfg ptrace pid true 0

/-- The turn keeps the number of the call. -/
def Enters (cfg : TracerConfig) (os : Os) (ptrace : Ptrace arch) (pid : Pid)
    (registers : UserRegs arch) (s : Tracer arch Q) : Prop :=
  s.turn cfg os ptrace (.status pid Notice.syscallStop.status) =
    s.begin.syscallEntered ptrace pid registers >>= fun s₁ => s₁.restart cfg ptrace pid true 0

theorem turn_syscallStop (hpid : pid ∈ s.syscallStateMap) (hregs : ptrace.regs = .ok registers) :
    s.turn cfg os ptrace (.status pid Notice.syscallStop.status) =
      s.begin.syscallStopped os ptrace pid registers >>=
        fun s₁ => s₁.restart cfg ptrace pid true 0 := by
  have hpid' : pid ∈ s.begin.syscallStateMap := hpid
  have hshift : Notice.syscallStop.status >>> 16 = 0 := by decide
  have hsyscall : isSyscallStop Notice.syscallStop.status = true := by decide
  rw [turn_status _ (by decide)]
  simp only [stopped, if_pos hpid', hsyscall, hshift, ne_eq, not_true_eq_false, if_false, if_true,
    proceed, hregs, ptraceSafeCall, bind_ok]

theorem enters_of_undefined (hv : s.syscallStateMap.lookup pid = some SYSCALL_UNDEFINED)
    (hregs : ptrace.regs = .ok registers) : s.Enters cfg os ptrace pid registers := by
  have hpid : pid ∈ s.syscallStateMap := Finmap.mem_of_lookup_eq_some hv
  have hv' : s.begin.syscallStateMap.lookup pid = some SYSCALL_UNDEFINED := hv
  unfold Enters
  rw [turn_syscallStop hpid hregs]
  simp only [syscallStopped, hv', if_true]

theorem exits_of_ne {v : Int} (hv : s.syscallStateMap.lookup pid = some v)
    (hne : v ≠ SYSCALL_UNDEFINED) (hregs : ptrace.regs = .ok registers) :
    s.Exits cfg os ptrace pid registers := by
  have hpid : pid ∈ s.syscallStateMap := Finmap.mem_of_lookup_eq_some hv
  have hv' : s.begin.syscallStateMap.lookup pid = some v := hv
  unfold Exits
  rw [turn_syscallStop hpid hregs]
  simp only [syscallStopped, hv', if_neg hne]

theorem Stopped.syscallExit_mem {s' : Tracer arch Q} {reply : Reply (UserRegs arch)}
    (h : Stopped cfg os pid s reply s') (hresumes : s.resumes = []) (hcalls : s.calls = []) :
    .syscallExit os pid registers ∈ s'.calls ↔ reply = .ok registers ∧
      ∃ v, s.syscallStateMap.lookup pid = some v ∧ v ≠ SYSCALL_UNDEFINED := by
  cases h with
  | gone _ hs' =>
    rw [(hs'.after hresumes).calls, hcalls]
    apply iff_of_false List.not_mem_nil
    rintro ⟨hno, _⟩
    cases hno
  | entered _ _ hprev _ _ _ hs' =>
    have hsame : s'.calls = s.calls := (hs'.after hresumes).calls
    rw [hsame, hcalls]
    apply iff_of_false List.not_mem_nil
    rintro ⟨_, v, hv, hne⟩
    rw [hprev] at hv
    cases hv
    exact hne rfl
  | left registers' _ prev _ hprev hne _ hs' =>
    rw [(hs'.after hresumes).calls, hcalls, List.nil_append, List.mem_singleton]
    constructor
    · intro hsame
      cases hsame
      exact ⟨rfl, prev, hprev, hne⟩
    · rintro ⟨hsame, _⟩
      cases hsame
      rfl

/-- A turn calls `SyscallExit` at a syscall stop where it has kept a value, and nowhere else. -/
theorem Turned.syscallExit_mem {s' : Tracer arch Q} {notice : Notice}
    (h : Turned cfg os ptrace pid s s' notice) :
    .syscallExit os pid registers ∈ s'.calls ↔ notice = .syscallStop ∧
      ptrace.regs = .ok registers ∧
        ∃ v, s.syscallStateMap.lookup pid = some v ∧ v ≠ SYSCALL_UNDEFINED := by
  have hother : ∀ {calls : List (Call arch)}, s'.calls = calls →
      .syscallExit os pid registers ∉ calls → notice ≠ .syscallStop →
      (.syscallExit os pid registers ∈ s'.calls ↔ notice = .syscallStop ∧
        ptrace.regs = .ok registers ∧
          ∃ v, s.syscallStateMap.lookup pid = some v ∧ v ≠ SYSCALL_UNDEFINED) := by
    intro calls hcalls hnone hne
    rw [hcalls]
    exact iff_of_false hnone fun hno => hne hno.1
  cases h with
  | unknown _ _ hpid hafter =>
    rw [hafter.calls]
    apply iff_of_false List.not_mem_nil
    rintro ⟨_, _, v, hv, _⟩
    exact hpid (Finmap.mem_of_lookup_eq_some hv)
  | dead _ hdeath _ _ _ dump hdump _ hafter =>
    apply hother hafter.calls
    · rcases hdump with ⟨_, rfl⟩ | ⟨sig, _, rfl⟩
      · simp
      · simp
    · rintro rfl
      cases hdeath
  | cloned event nr msg c _ _ _ _ hafter =>
    refine hother hafter.calls ?_ nofun
    unfold registration
    split
    · simp
    · simp
  | signalled _ _ hafter => exact hother hafter.calls List.not_mem_nil nofun
  | exiting _ hafter => exact hother hafter.calls List.not_mem_nil nofun
  | untold _ _ _ _ _ hafter => exact hother hafter.calls List.not_mem_nil nofun
  | execLost _ _ _ _ hafter => exact hother hafter.calls List.not_mem_nil nofun
  | execed former nr c _ _ _ _ hafter => exact hother hafter.calls (by simp) nofun
  | picked _ _ hafter => exact hother hafter.calls List.not_mem_nil nofun
  | stopped _ _ s₁ hs₁ hstopped =>
    rcases hs₁ with ⟨rfl, rfl⟩ | ⟨rfl, _, _, rfl⟩
    · rw [hstopped.syscallExit_mem rfl rfl]
      exact ⟨fun h => ⟨rfl, h⟩, fun h => h.2⟩
    · rw [hstopped.syscallExit_mem rfl rfl]
      apply iff_of_false
      · rintro ⟨_, v, hv, hne⟩
        rw [setSyscallState_lookup] at hv
        cases hv
        exact hne rfl
      · rintro ⟨hno, _⟩
        cases hno

end Tracer

/-! ## What a step keeps -/

namespace Traced

variable {Q : Type} [MaxOutFilesQueue Q] {arch : Arch} {cfg : TracerConfig} {s s' : Traced arch Q}
  {pid : Pid} {notice : Notice} {os : Os} {ptrace : Ptrace arch}

/-- A clone event whose flags word was read and is negative. -/
def negativeFlags (ptrace : Ptrace arch) (event : CloneEvent) : Bool :=
  event == .clone && !ptrace.eventMsg.isGone && !flagsGone arch ptrace &&
    match getCloneFlags arch ptrace with
    | .ok flags => decide (flags.toInt < 0)
    | .error _ => false

/-- No entry with the number -2, no tid in the map that is given to a new tracee, no exec by
another thread while the leader's value is the wrong one for it, and under seccomp no negative
flags word. -/
def keepsParity (cfg : TracerConfig) (s : Traced arch Q) : Input arch → Bool
  | .born _ child _ => decide (child ∉ s.tracer.syscallStateMap)
  | .notice pid notice _ ptrace =>
    match notice with
    | .syscallStop => (s.kernel.tasks.lookup pid).all fun task => task.inside.isSome ||
      ptrace.regs.all fun registers => asInt (syscallRegs arch registers).nr != -2
    | .execed former _ => former == pid || (s.tracer.syscallStateMap.lookup pid).all fun v =>
      if cfg.useSecComp then cfg.secCompVer == .SEC_COMP_V2 || v == SYSCALL_UNDEFINED
      else v != SYSCALL_UNDEFINED
    | .cloned event _ => !(cfg.useSecComp && negativeFlags ptrace event)
    | _ => true

/-- Every tracee is paired with its entry. -/
structure Paired (cfg : TracerConfig) (s : Traced arch Q) : Prop where
  known : s.Known
  paired : ∀ tid task, s.kernel.tasks.lookup tid = some task →
    task.Paired cfg arch (s.tracer.syscallStateMap.lookup tid)

namespace Paired

/-- Whom the turn did not resume is as the notice left it. -/
theorem turn (hknown : s'.Known) {c : Context Q} {k : Kernel} {states : PidMap Int}
    {resumed : Pid → Request → Prop} {calls : List (Call arch)}
    (hafter : Tracer.After s'.tracer c states resumed calls)
    (hkernel : s'.kernel = s'.tracer.resumes.foldl Kernel.resume k)
    (htasks : ∀ tid task, k.tasks.lookup tid = some task → ∀ task',
      (task' = task ∨ ∃ q, resumed tid q ∧ task' = task.resumed q) →
      task'.Paired cfg arch (states.lookup tid)) : s'.Paired cfg := by
  have hresumes := hafter.resumes k
  rw [← hkernel] at hresumes
  refine ⟨hknown, fun tid task htask => ?_⟩
  obtain ⟨t₀, ht₀, hcase⟩ := hresumes.lookup htask
  rw [hafter.states]
  exact htasks tid t₀ ht₀ task hcase

/-- A notice after which only its tracee is another, and may be resumed. -/
theorem stop (hs : s.Paired cfg) (hknown : s'.Known) {new : Task} {c : Context Q} {k : Kernel}
    {states : PidMap Int} {resumed : Pid → Request → Prop} {calls : List (Call arch)}
    (hafter : Tracer.After s'.tracer c states resumed calls)
    (hkernel : s'.kernel = s'.tracer.resumes.foldl Kernel.resume k)
    (hnew : k.tasks.lookup pid = some new)
    (hothers : ∀ tid ≠ pid, ∀ task, k.tasks.lookup tid = some task →
      s.kernel.tasks.lookup tid = some task ∧
        states.lookup tid = s.tracer.syscallStateMap.lookup tid ∧ ∀ q, ¬resumed tid q)
    (hrequest : new.request = none) (hapart : new.announced = false → states.lookup pid = none)
    (hidle : states.lookup pid = none → new.inside = none)
    (hfresh : new.fresh = true → new.inside = none ∧
      ∀ v, states.lookup pid = some v → v = SYSCALL_UNDEFINED)
    (hready : new.fresh = false → new.dying = false → ∀ q v, resumed pid q →
      states.lookup pid = some v → new.Ready cfg arch v q) : s'.Paired cfg := by
  refine turn hknown hafter hkernel fun tid task htask task' hcase => ?_
  by_cases htid : tid = pid
  · subst htid
    rw [hnew] at htask
    cases htask
    exact Task.Paired.stopped hrequest hapart hidle hfresh hready hcase
  · obtain ⟨hold, hsame, hno⟩ := hothers tid htid task htask
    rw [hsame]
    rcases hcase with rfl | ⟨q, hq, _⟩
    · exact hs.paired tid task' hold
    · exact absurd hq (hno q)

theorem others_setTask {new : Task} {states : PidMap Int} {resumed : Pid → Request → Prop}
    (hstates : ∀ tid ≠ pid, states.lookup tid = s.tracer.syscallStateMap.lookup tid)
    (hresumed : ∀ tid q, resumed tid q → tid = pid) :
    ∀ tid ≠ pid, ∀ task, (s.kernel.setTask pid new).tasks.lookup tid = some task →
      s.kernel.tasks.lookup tid = some task ∧
        states.lookup tid = s.tracer.syscallStateMap.lookup tid ∧ ∀ q, ¬resumed tid q := by
  intro tid htid task htask
  rw [Kernel.setTask_lookup, if_neg htid] at htask
  exact ⟨htask, hstates tid htid, fun q hq => htid (hresumed tid q hq)⟩

theorem start (cfg : TracerConfig) (c : Context Q) :
    (Traced.start cfg c : Traced arch Q).Paired cfg := by
  refine ⟨known_start cfg c, fun tid task htask => ?_⟩
  have htid : tid = cfg.traceePid :=
    (Finmap.mem_singleton _ _ _).mp (Finmap.mem_of_lookup_eq_some htask)
  subst htid
  have htask' : some _ = some task := Finmap.lookup_singleton_eq.symm.trans htask
  cases htask'
  have hstate : (Traced.start cfg c : Traced arch Q).tracer.syscallStateMap.lookup cfg.traceePid =
      some SYSCALL_UNDEFINED := Finmap.lookup_singleton_eq
  rw [hstate]
  refine ⟨fun hno => ?_, fun hno => ?_, fun hno => ?_, fun q v _ hq hv => ?_⟩
  · cases hno
  · cases hno
  · cases hno
  · cases hq
    cases hv
    cases hmode : cfg.useSecComp with
    | false => exact .outside _ hmode rfl
    | true => exact .running _ hmode fun _ => rfl

theorem running (hs : s.Paired cfg) {tid : Pid} {task : Task}
    (htask : s.kernel.tasks.lookup tid = some task) (hdying : task.dying = false)
    (hrequest : task.request.isSome = true) :
    task.announced = true ∧ task.fresh = false ∧ ∃ v q,
      s.tracer.syscallStateMap.lookup tid = some v ∧ task.request = some q ∧
        Phase cfg arch v task.inside task.picked q := by
  have hpaired := hs.paired tid task htask
  have hmem := Optrace.Known.known hs.known tid task htask (Or.inr hrequest)
  obtain ⟨v, hv⟩ := Option.isSome_iff_exists.mp (Finmap.lookup_isSome.mpr hmem)
  obtain ⟨q, hq⟩ := Option.isSome_iff_exists.mp hrequest
  refine ⟨?_, ?_, v, q, hv, hq, hpaired.phase q v hdying hq hv⟩
  · by_contra hno
    rw [hpaired.apart (Bool.not_eq_true _ ▸ hno)] at hv
    cases hv
  · by_contra hno
    rw [(hpaired.fresh (Bool.not_eq_false _ ▸ hno)).1] at hq
    cases hq

theorem born {creator child : Pid} {isThread : Bool} (hs : s.Paired cfg)
    (hpermit : s.Permitted cfg (.born creator child isThread))
    (hkeeps : keepsParity cfg s (.born creator child isThread : Input arch) = true)
    (h : s.step cfg (.born creator child isThread) = .ok s') : s'.Paired cfg := by
  have hknown := known_born hs.known hpermit h
  cases h
  refine ⟨hknown, fun tid task htask => ?_⟩
  simp only [Permitted, Kernel.permits, Bool.and_eq_true, Option.any_eq_true] at hpermit
  obtain ⟨⟨⟨maker, hmaker, _⟩, _⟩, _⟩ := hpermit
  change (s.kernel.born creator child isThread).tasks.lookup tid = some task at htask
  rw [Kernel.born_lookup hmaker] at htask
  split at htask
  · rename_i htid
    cases htask
    have hfree := Finmap.lookup_eq_none.mpr (of_decide_eq_true hkeeps)
    rw [htid]
    have hstate : s.tracer.syscallStateMap.lookup child = none := hfree
    rw [hstate]
    refine ⟨fun _ => rfl, fun _ => rfl, fun _ => ⟨rfl, rfl, fun v hv => ?_⟩, fun q v _ hq => ?_⟩
    · cases hv
    · cases hq
  · split at htask
    · rename_i htid
      cases htask
      obtain ⟨hapart, hidle, hfresh, hphase⟩ := hs.paired creator maker hmaker
      rw [htid]
      exact ⟨hapart, hidle, hfresh, hphase⟩
    · exact hs.paired tid task htask

theorem lookup_set (k : Kernel) (pid : Pid) (task : Task) :
    (k.setTask pid task).tasks.lookup pid = some task := by
  rw [Kernel.setTask_lookup, if_pos rfl]

theorem kernel_plain {task : Task} (htask : s.kernel.tasks.lookup pid = some task)
    (hkernel : s'.kernel =
      s'.tracer.resumes.foldl Kernel.resume (s.kernel.noticed cfg pid ptrace notice))
    (hplain : Tracer.Plain notice) : s'.kernel = s'.tracer.resumes.foldl Kernel.resume
      (s.kernel.setTask pid (task.noticed cfg ptrace notice)) := by
  rw [← (noticed_plain cfg htask hplain).1]
  exact hkernel

theorem unknown (hs : s.Paired cfg) (hknown : s'.Known) {task : Task}
    (htask : s.kernel.tasks.lookup pid = some task)
    (hallowed : s.kernel.permitsTask cfg pid task ptrace notice = true)
    (hdeath : notice.isDeath = false) (hpid : pid ∉ s.tracer.syscallStateMap)
    (hafter : Tracer.After s'.tracer s.tracer.context s.tracer.syscallStateMap
      (fun _ _ => False) [])
    (hkernel : s'.kernel =
      s'.tracer.resumes.foldl Kernel.resume (s.kernel.noticed cfg pid ptrace notice)) :
    s'.Paired cfg := by
  have hnone := Finmap.lookup_eq_none.mpr hpid
  have hpaired := hs.paired pid task htask
  have hinside := hpaired.idle hnone
  have hstopped : task.request.isSome = true → False :=
    fun hrun => hpid (Optrace.Known.known hs.known pid task htask (Or.inr hrun))
  cases notice with
  | exited code => cases hdeath
  | killed sig core => cases hdeath
  | signalStop sig =>
    have hkernel := kernel_plain htask hkernel trivial
    refine hs.stop hknown hafter hkernel (lookup_set _ _ _)
      (others_setTask (fun _ _ => rfl) fun _ _ hno => hno.elim) rfl (fun _ => hnone)
      (fun _ => hinside) (fun hno => ?_) fun _ _ _ _ hno => hno.elim
    cases hno
  | exiting =>
    have hkernel := kernel_plain htask hkernel trivial
    exact hs.stop hknown hafter hkernel (lookup_set _ _ _)
      (others_setTask (fun _ _ => rfl) fun _ _ hno => hno.elim) rfl (fun _ => hnone)
      (fun _ => hinside) (fun hyes => (hpaired.fresh hyes).2) fun _ _ _ _ hno => hno.elim
  | syscallStop =>
    simp only [Kernel.permitsTask, Bool.and_eq_true] at hallowed
    rw [(syscallStop_permitted hallowed.2).1] at hstopped
    exact (hstopped rfl).elim
  | secComp =>
    simp only [Kernel.permitsTask, Bool.and_eq_true] at hallowed
    exact (hstopped (secComp_permitted hallowed.2).2.1).elim
  | cloned event nr =>
    simp only [Kernel.permitsTask, Bool.and_eq_true] at hallowed
    exact (hstopped (Kernel.clone_permitted hallowed.2).1).elim
  | execed former nr =>
    obtain ⟨thread, hthread, hgroup, hrequest, _⟩ := Kernel.exec_permitted hallowed
    have hformer := Optrace.Known.known hs.known former thread hthread (Or.inr hrequest)
    exact absurd (hgroup ▸ Optrace.Known.group_mem hs.known hthread hformer) hpid

theorem death (hs : s.Paired cfg) (hknown : s'.Known) {task : Task}
    (htask : s.kernel.tasks.lookup pid = some task) (hdeath : notice.isDeath = true)
    (hturned : Tracer.Turned cfg os ptrace pid s.tracer s'.tracer notice)
    (hkernel : s'.kernel =
      s'.tracer.resumes.foldl Kernel.resume (s.kernel.noticed cfg pid ptrace notice)) :
    s'.Paired cfg := by
  obtain ⟨_, c, dump, hafter, _⟩ := hturned.of_dead hdeath
  rw [noticed_death htask hdeath] at hkernel
  refine turn hknown hafter hkernel fun tid old hold task' hcase => ?_
  have hold : Finmap.lookup tid (s.kernel.tasks.erase pid) = some old := hold
  rw [PidMap.lookup_erase] at hold ⊢
  split at hold
  · cases hold
  · rename_i hne
    rw [if_neg hne]
    rcases hcase with rfl | ⟨q, hq, _⟩
    · exact hs.paired tid task' hold
    · exact absurd hq hne

theorem signalled (hs : s.Paired cfg) (hknown : s'.Known) {task : Task} {sig : BitVec 8}
    (htask : s.kernel.tasks.lookup pid = some task)
    (hallowed : s.kernel.permitsTask cfg pid task ptrace (.signalStop sig) = true)
    (hafter : Tracer.After s'.tracer s.tracer.context s.tracer.syscallStateMap
      (fun tid q => tid = pid ∧ q = Tracer.request cfg false) [])
    (hkernel : s'.kernel =
      s'.tracer.resumes.foldl Kernel.resume (s.kernel.noticed cfg pid ptrace (.signalStop sig))) :
    s'.Paired cfg := by
  simp only [Kernel.permitsTask, Kernel.stopPermitted, Bool.and_eq_true, Bool.not_eq_true',
    Bool.or_eq_true, Option.isNone_iff_eq_none] at hallowed
  obtain ⟨hdying, ⟨⟨hrun, hinside⟩, _⟩, _⟩ := hallowed
  have hkernel := kernel_plain htask hkernel trivial
  have hpaired := hs.paired pid task htask
  refine hs.stop hknown hafter hkernel (lookup_set _ _ _)
    (others_setTask (fun _ _ => rfl) fun _ _ hq => hq.1) rfl hpaired.apart (fun _ => hinside)
    (fun hno => ?_) ?_
  · cases hno
  · rintro _ _ q v ⟨_, rfl⟩ hv
    apply Task.ready_outside hinside
    rcases hrun with hfresh | hrequest
    · exact fun _ => (hpaired.fresh hfresh).2.2 v hv
    · obtain ⟨_, _, v', q, hv', _, hphase⟩ := hs.running htask hdying hrequest
      rw [hv] at hv'
      cases hv'
      rw [hinside] at hphase
      exact hphase.between

theorem exiting (hs : s.Paired cfg) (hknown : s'.Known) {task : Task}
    (htask : s.kernel.tasks.lookup pid = some task)
    (hafter : Tracer.After s'.tracer s.tracer.context s.tracer.syscallStateMap
      (fun tid _ => tid = pid) [])
    (hkernel : s'.kernel =
      s'.tracer.resumes.foldl Kernel.resume (s.kernel.noticed cfg pid ptrace .exiting)) :
    s'.Paired cfg := by
  have hkernel := kernel_plain htask hkernel trivial
  have hpaired := hs.paired pid task htask
  refine hs.stop hknown hafter hkernel (lookup_set _ _ _)
    (others_setTask (fun _ _ => rfl) fun _ _ hq => hq) rfl hpaired.apart hpaired.idle
    (fun hyes => (hpaired.fresh hyes).2) fun _ hno => ?_
  cases hno

/-- A stop of a tracee that ran. -/
theorem ran (hs : s.Paired cfg) (hknown : s'.Known) {new : Task} {c : Context Q}
    {states : PidMap Int} {resumed : Pid → Request → Prop} {calls : List (Call arch)}
    (hafter : Tracer.After s'.tracer c states resumed calls)
    (hkernel : s'.kernel = s'.tracer.resumes.foldl Kernel.resume (s.kernel.setTask pid new))
    (hstates : ∀ tid ≠ pid, states.lookup tid = s.tracer.syscallStateMap.lookup tid)
    (hresumed : ∀ tid q, resumed tid q → tid = pid) (hrequest : new.request = none)
    (hann : new.announced = true) (hfresh : new.fresh = false) {v : Int}
    (hv : states.lookup pid = some v)
    (hready : new.dying = false → ∀ q, resumed pid q → new.Ready cfg arch v q) :
    s'.Paired cfg := by
  refine hs.stop hknown hafter hkernel (lookup_set _ _ _) (others_setTask hstates hresumed)
    hrequest (fun hno => ?_) (fun hno => ?_) (fun hno => ?_) ?_
  · rw [hann] at hno
    cases hno
  · rw [hv] at hno
    cases hno
  · rw [hfresh] at hno
    cases hno
  · intro _ hdying q v' hq hv'
    rw [hv] at hv'
    cases hv'
    exact hready hdying q hq

/-- A seccomp stop that leaves the value alone: the entry stop is still to come. -/
theorem picked (hs : s.Paired cfg) (hknown : s'.Known) {task : Task}
    (htask : s.kernel.tasks.lookup pid = some task)
    (hallowed : s.kernel.permitsTask cfg pid task ptrace .secComp = true)
    (hcause : ptrace.eventMsg.isGone = true ∨ cfg.secCompVer = .SEC_COMP_V1)
    (hafter : Tracer.After s'.tracer s.tracer.context s.tracer.syscallStateMap
      (fun tid q => tid = pid ∧ q = .syscall) [])
    (hkernel : s'.kernel =
      s'.tracer.resumes.foldl Kernel.resume (s.kernel.noticed cfg pid ptrace .secComp)) :
    s'.Paired cfg := by
  simp only [Kernel.permitsTask, Bool.and_eq_true, Bool.not_eq_true'] at hallowed
  obtain ⟨hdying, hallowed⟩ := hallowed
  obtain ⟨hmode, hrequest, hinside, _⟩ := secComp_permitted hallowed
  obtain ⟨hann, hfresh, v, q, hv, _, hphase⟩ := hs.running htask hdying hrequest
  have hkernel := kernel_plain htask hkernel trivial
  refine hs.ran hknown hafter hkernel (fun _ _ => rfl) (fun _ _ hq => hq.1) rfl hann hfresh hv ?_
  rintro hlives _ ⟨_, rfl⟩
  have hver : cfg.secCompVer = .SEC_COMP_V1 := by
    rcases hcause with hgone | hver
    · simp [Task.noticed, hgone] at hlives
    · exact hver
  have hnone := hinside hver
  rw [hnone] at hphase
  have hnew : (task.noticed cfg ptrace .secComp).inside = none := by
    simp only [Task.noticed, insideAfterSecComp, hver]
    split <;> exact hnone
  have hpicked : (task.noticed cfg ptrace .secComp).picked = true := by
    simp [Task.noticed, hver]
  unfold Task.Ready
  rw [hnew, hpicked]
  exact .waiting hmode hver (hphase.between (Or.inr hver))

theorem syscallStopped (hs : s.Paired cfg) (hknown : s'.Known) {task : Task}
    (htask : s.kernel.tasks.lookup pid = some task)
    (hallowed : s.kernel.permitsTask cfg pid task ptrace .syscallStop = true)
    (h : Tracer.Stopped cfg os pid s.tracer.begin ptrace.regs s'.tracer)
    (hkernel : s'.kernel =
      s'.tracer.resumes.foldl Kernel.resume (s.kernel.noticed cfg pid ptrace .syscallStop)) :
    s'.Paired cfg := by
  simp only [Kernel.permitsTask, Bool.and_eq_true, Bool.not_eq_true'] at hallowed
  obtain ⟨hdying, hallowed⟩ := hallowed
  obtain ⟨hrequest, hregs⟩ := syscallStop_permitted hallowed
  obtain ⟨hann, hfresh, v, q, hv, hq, hphase⟩ := hs.running htask hdying (by rw [hrequest]; rfl)
  rw [hrequest] at hq
  cases hq
  have hkernel := kernel_plain htask hkernel trivial
  have hkept : ∀ (w : Int), ∀ tid ≠ pid, (s.tracer.syscallStateMap.insert pid w).lookup tid =
      s.tracer.syscallStateMap.lookup tid :=
    fun w tid hne => Finmap.lookup_insert_of_ne _ hne
  generalize hreply : ptrace.regs = reply at h
  cases h with
  | gone _ hs' =>
    refine hs.ran hknown (hs'.after rfl) hkernel (fun _ _ => rfl) (fun _ _ hq => hq.1) rfl hann
      hfresh hv fun hlives => ?_
    simp [Task.noticed, hreply, Reply.isGone] at hlives
  | entered registers _ hprev _ _ _ hs' =>
    have hundefined : some v = some SYSCALL_UNDEFINED := hv.symm.trans hprev
    cases hundefined
    obtain ⟨hentry, hexit⟩ := hregs registers hreply
    refine hs.ran hknown (hs'.after rfl) hkernel (hkept _) (fun _ _ hq => hq.1) rfl hann hfresh
      (Tracer.setSyscallState_lookup _) ?_
    rintro _ _ ⟨_, rfl⟩
    apply Task.ready_entered hphase hentry hexit
    simp only [Task.noticed, insideAfter, hreply]
  | left registers _ prev c hprev hne _ hs' =>
    have hsame : some v = some prev := hv.symm.trans hprev
    cases hsame
    obtain ⟨nr, hinside, _⟩ := hphase.exit_iff.mp hne
    refine hs.ran hknown (hs'.after rfl) hkernel (hkept _) (fun _ _ hq => hq.1) rfl hann hfresh
      (Tracer.setSyscallState_lookup _) ?_
    rintro _ _ ⟨_, rfl⟩
    refine Task.ready_outside ?_ fun _ => rfl
    simp only [Task.noticed, insideAfter, hreply, hinside, Option.isSome_some, if_true]

/-- A seccomp stop that is the entry stop as well. -/
theorem secCompStopped (hs : s.Paired cfg) (hknown : s'.Known) {task : Task}
    (htask : s.kernel.tasks.lookup pid = some task)
    (hallowed : s.kernel.permitsTask cfg pid task ptrace .secComp = true)
    (hver : cfg.secCompVer = .SEC_COMP_V2)
    (h : Tracer.Stopped cfg os pid (s.tracer.begin.setSyscallState pid SYSCALL_UNDEFINED)
      ptrace.regs s'.tracer)
    (hkernel : s'.kernel =
      s'.tracer.resumes.foldl Kernel.resume (s.kernel.noticed cfg pid ptrace .secComp)) :
    s'.Paired cfg := by
  simp only [Kernel.permitsTask, Bool.and_eq_true, Bool.not_eq_true'] at hallowed
  obtain ⟨hdying, hallowed⟩ := hallowed
  obtain ⟨hmode, hrequest, _, hregs⟩ := secComp_permitted hallowed
  obtain ⟨hann, hfresh, _⟩ := hs.running htask hdying hrequest
  have hkernel := kernel_plain htask hkernel trivial
  have hkept : ∀ (states : PidMap Int) (w : Int), ∀ tid ≠ pid,
      (states.insert pid w).lookup tid = states.lookup tid :=
    fun states w tid hne => Finmap.lookup_insert_of_ne _ hne
  generalize hreply : ptrace.regs = reply at h
  cases h with
  | gone _ hs' =>
    refine hs.ran hknown (hs'.after rfl) hkernel (hkept _ _) (fun _ _ hq => hq.1) rfl hann hfresh
      (Tracer.setSyscallState_lookup _) fun hlives => ?_
    simp [Task.noticed, hreply, Reply.isGone] at hlives
  | entered registers _ _ _ _ _ hs' =>
    obtain ⟨hentry, htraces⟩ := hregs registers hreply
    refine hs.ran hknown (hs'.after rfl) hkernel ?_ (fun _ _ hq => hq.1) rfl hann hfresh
      (Tracer.setSyscallState_lookup _) ?_
    · intro tid htid
      exact (hkept _ _ tid htid).trans (hkept _ _ tid htid)
    · rintro _ _ ⟨_, rfl⟩
      rw [getSyscallNumber_entry hentry]
      refine Task.ready_traced hmode ?_ (listed_of_filterTraces htraces)
      simp only [Task.noticed, insideAfterSecComp, hreply, hver]
  | left registers _ prev c hprev hne _ hs' =>
    have hundefined := (Tracer.setSyscallState_lookup SYSCALL_UNDEFINED).symm.trans hprev
    cases hundefined
    exact absurd rfl hne

/-- The event of a call that makes a tracee the tracer is not told of. -/
theorem untold (hs : s.Paired cfg) (hknown : s'.Known) {task : Task} {event : CloneEvent}
    {nr : Word} (htask : s.kernel.tasks.lookup pid = some task)
    (hallowed : s.kernel.permitsTask cfg pid task ptrace (.cloned event nr) = true)
    (hkeeps : (cfg.useSecComp && negativeFlags ptrace event) = false)
    (htold : told ptrace event = false) (hcause : Tracer.Missed ptrace event)
    (hafter : Tracer.After s'.tracer s.tracer.context s.tracer.syscallStateMap
      (fun tid q => tid = pid ∧ q = .syscall) [])
    (hkernel : s'.kernel = s'.tracer.resumes.foldl Kernel.resume
      (s.kernel.noticed cfg pid ptrace (.cloned event nr))) : s'.Paired cfg := by
  simp only [Kernel.permitsTask, Bool.and_eq_true, Bool.not_eq_true'] at hallowed
  obtain ⟨hdying, hallowed⟩ := hallowed
  obtain ⟨hrequest, hevent, child, hchild, _⟩ := Kernel.clone_permitted hallowed
  obtain ⟨hann, hfresh, v, q, hv, hq, hphase⟩ := hs.running htask hdying hrequest
  obtain ⟨hnr, hvalue⟩ := hphase.event hq hevent
  rw [noticed_cloned htask hchild, htold, if_neg Bool.false_ne_true] at hkernel
  refine hs.ran hknown hafter hkernel (fun _ _ => rfl) (fun _ _ hq => hq.1) rfl hann hfresh hv ?_
  rintro hlives _ ⟨_, rfl⟩
  have hmode : cfg.useSecComp = false := by
    simp only [Task.noticed, Bool.or_eq_false_iff] at hlives
    rcases hcause with hgone | ⟨hclone, flags, hflags, hneg⟩
    · rw [hgone] at hlives
      cases hlives.1
    · subst hclone
      have hread : flagsGone arch ptrace = false := hlives.2
      have hnegative : negativeFlags ptrace .clone = true := by
        simp [negativeFlags, hlives.1, hread, hflags, hneg]
      rwa [hnegative, Bool.and_true] at hkeeps
  refine Task.ready_inside hmode rfl (iff_of_false ?_ hnr)
  rcases hvalue with ⟨_, hne⟩ | ⟨hno, _⟩
  · exact hne
  · rw [hmode] at hno
    cases hno

/-- A new tracee and its creator, at the event. -/
theorem cloned (hs : s.Paired cfg) (hknown : s'.Known) {task : Task} {event : CloneEvent}
    {nr msg : Word} {c : Context Q} {calls : List (Call arch)}
    (htask : s.kernel.tasks.lookup pid = some task)
    (hallowed : s.kernel.permitsTask cfg pid task ptrace (.cloned event nr) = true)
    (htold : told ptrace event = true) (hmsg : ptrace.eventMsg = .ok msg)
    (hafter : Tracer.After s'.tracer c
      (s.tracer.syscallStateMap.insert (asInt msg) SYSCALL_UNDEFINED)
      (fun tid q => (tid = asInt msg ∨ tid = pid) ∧ q = Tracer.request cfg false) calls)
    (hkernel : s'.kernel = s'.tracer.resumes.foldl Kernel.resume
      (s.kernel.noticed cfg pid ptrace (.cloned event nr))) : s'.Paired cfg := by
  simp only [Kernel.permitsTask, Bool.and_eq_true, Bool.not_eq_true'] at hallowed
  obtain ⟨hdying, hallowed⟩ := hallowed
  obtain ⟨hrequest, hevent, child, hchild, hreads⟩ := Kernel.clone_permitted hallowed
  obtain ⟨hann, hfresh, v, q, hv, hq, hphase⟩ := hs.running htask hdying hrequest
  obtain ⟨hnr, hvalue⟩ := hphase.event hq hevent
  obtain ⟨new, hnew, hnewAnn, _⟩ := Optrace.Known.newborn hs.known pid task child htask hchild
  have hpaired := hs.paired child new hnew
  have hnone := hpaired.apart hnewAnn
  have hne : pid ≠ child := by
    rintro rfl
    rw [hnone] at hv
    cases hv
  have hstopped : ({ new with announced := true } : Task).request = none := by
    by_contra hno
    have hmem := Optrace.Known.known hs.known child new hnew
      (Or.inr (Option.isSome_iff_ne_none.mpr hno))
    exact Finmap.lookup_eq_none.mp hnone hmem
  rw [(Kernel.readsAs_iff.mp (hreads msg hmsg)).1] at hafter
  rw [noticed_cloned htask hchild, htold, if_pos rfl] at hkernel
  refine turn hknown hafter hkernel fun tid old hold task' hcase => ?_
  rw [PidMap.lookup_insert]
  simp only [Kernel.announce, Kernel.setTask_lookup, if_neg hne.symm, hnew] at hold
  by_cases htid : tid = child
  · rw [if_pos htid] at hold ⊢
    cases hold
    refine Task.Paired.stopped hstopped (fun hno => ?_) (fun hno => ?_)
      (fun _ => ⟨hpaired.idle hnone, fun w hw => ?_⟩) ?_ hcase
    · cases hno
    · cases hno
    · cases hw
      rfl
    · rintro _ _ _ w ⟨_, rfl⟩ hw
      cases hw
      exact Task.ready_outside (hpaired.idle hnone) fun _ => rfl
  · rw [if_neg htid] at hold ⊢
    by_cases hpid : tid = pid
    · rw [if_pos hpid] at hold
      cases hold
      rw [hpid, hv]
      refine Task.Paired.stopped rfl (fun hno => ?_) (fun hno => ?_) (fun hno => ?_) ?_ hcase
      · exact absurd (hann.symm.trans hno) Bool.true_eq_false.mp
      · cases hno
      · exact absurd (hfresh.symm.trans hno) Bool.false_ne_true
      · rintro _ _ _ w ⟨_, rfl⟩ hw
        cases hw
        exact Task.ready_event rfl hnr hvalue
    · rw [if_neg hpid] at hold
      rcases hcase with rfl | ⟨q, ⟨hno | hno, _⟩, _⟩
      · exact hs.paired tid task' hold
      · exact absurd hno htid
      · exact absurd hno hpid

/-- The thread that exec'ed goes on under its leader's pid, with its leader's value. -/
theorem tookOver (hs : s.Paired cfg) (hknown : s'.Known) {former : Pid} {nr : Word}
    {c : Context Q} {states : PidMap Int} {resumed : Pid → Request → Prop}
    {calls : List (Call arch)} (hpid : pid ∈ s.tracer.syscallStateMap)
    (hallowed : s.kernel.execPermitted cfg pid former nr ptrace = true)
    (hafter : Tracer.After s'.tracer c states resumed calls)
    (hkernel : s'.kernel = s'.tracer.resumes.foldl Kernel.resume
      (s.kernel.noticed cfg pid ptrace (.execed former nr)))
    (hstates : ∀ tid, tid = pid ∨ tid ≠ former →
      states.lookup tid = s.tracer.syscallStateMap.lookup tid)
    (hresumed : ∀ tid q, resumed tid q → tid = pid ∨ tid = former)
    (hready : ∀ new : Task, new.inside = some nr → ptrace.eventMsg.isGone = false →
      ∀ q v, resumed pid q → s.tracer.syscallStateMap.lookup pid = some v →
        new.Ready cfg arch v q) : s'.Paired cfg := by
  obtain ⟨thread, hthread, hgroup, hrequest, hdying, _⟩ := Kernel.exec_permitted hallowed
  obtain ⟨_, hfresh, _⟩ := hs.running hthread hdying hrequest
  obtain ⟨leader, hleader, _⟩ := Optrace.Known.led hs.known former thread hthread
  rw [hgroup] at hleader
  obtain ⟨new, hnew, hexec⟩ := Kernel.execed_lookup pid hthread nr ptrace.eventMsg.isGone
  rw [noticed_execed hleader] at hkernel
  have hself := hexec pid
  rw [if_pos rfl] at hself
  have hstate := hstates pid (Or.inl rfl)
  refine hs.stop hknown hafter hkernel hself ?_ hnew.request (fun hno => ?_) (fun hno => ?_)
    (fun hno => ?_) ?_
  · intro tid htid task htask
    rw [hexec, if_neg htid] at htask
    split at htask
    · cases htask
    · rename_i hformer
      refine ⟨htask, hstates tid (Or.inr hformer), fun q hq => ?_⟩
      rcases hresumed tid q hq with hno | hno
      · exact htid hno
      · exact hformer hno
  · rw [hnew.announced, hleader] at hno
    rw [hstate]
    exact (hs.paired pid leader hleader).apart hno
  · rw [hstate] at hno
    exact absurd hpid (Finmap.lookup_eq_none.mp hno)
  · rw [hnew.fresh, hfresh] at hno
    cases hno
  · intro _ hlives q v hq hv
    rw [hstate] at hv
    exact hready new hnew.inside (hnew.dying ▸ hlives) q v hq hv

theorem execed (hs : s.Paired cfg) (hknown : s'.Known) {former : Pid} {nr : Word}
    (hpid : pid ∈ s.tracer.syscallStateMap)
    (hallowed : s.kernel.execPermitted cfg pid former nr ptrace = true)
    (hkeeps : keepsParity cfg s (.notice pid (.execed former nr) os ptrace) = true)
    (hturned : Tracer.Turned cfg os ptrace pid s.tracer s'.tracer (.execed former nr))
    (hkernel : s'.kernel = s'.tracer.resumes.foldl Kernel.resume
      (s.kernel.noticed cfg pid ptrace (.execed former nr))) : s'.Paired cfg := by
  rcases hturned.of_execed hpid with ⟨hgone, hafter⟩ | ⟨_, c, _, _, hafter⟩
  · refine hs.tookOver hknown hpid hallowed hafter hkernel (fun _ _ => rfl)
      (fun _ _ hq => Or.inl hq.1) fun _ _ hno => ?_
    rw [hgone] at hno
    cases hno
  · refine hs.tookOver hknown hpid hallowed hafter hkernel (fun tid hcase => ?_)
      (fun tid q hq => ?_) ?_
    · split
      · rfl
      · rename_i hne
        apply Finmap.lookup_erase_ne
        rintro rfl
        exact hcase.elim hne fun hno => hno rfl
    · rcases hq with ⟨rfl, _⟩ | ⟨rfl, _⟩
      · exact Or.inr rfl
      · exact Or.inl rfl
    · rintro new hinside _ q v hq hv
      obtain ⟨thread, hthread, _, hrequest, hdying, _, hevent, _⟩ :=
        Kernel.exec_permitted hallowed
      obtain ⟨_, _, w, r, hw, hr, hphase⟩ := hs.running hthread hdying hrequest
      obtain ⟨hnr, hvalue⟩ := hphase.event hr hevent
      have hq : q = Tracer.request cfg false := by
        rcases hq with ⟨hsame, hne⟩ | ⟨_, hq⟩
        · exact absurd hsame.symm hne
        · exact hq
      subst hq
      by_cases hformer : former = pid
      · -- the leader's own exec
        rw [hformer, hv] at hw
        cases hw
        exact Task.ready_event hinside hnr hvalue
      · simp only [keepsParity, hv, Option.all_some, beq_eq_false_iff_ne.mpr hformer,
          Bool.false_or] at hkeeps
        apply Task.ready_event hinside hnr
        cases hmode : cfg.useSecComp with
        | false =>
          rw [hmode, if_neg Bool.false_ne_true, bne_iff_ne] at hkeeps
          exact Or.inl ⟨rfl, hkeeps⟩
        | true =>
          rw [hmode, if_pos rfl, Bool.or_eq_true, beq_iff_eq, beq_iff_eq] at hkeeps
          refine Or.inr ⟨rfl, fun hcase => ?_⟩
          rcases hkeeps with hver | hundefined
          · rw [hmode, hver] at hcase
            rcases hcase with hno | hno
            · cases hno
            · cases hno
          · exact hundefined

theorem step {input : Input arch} (hs : s.Paired cfg) (hpermit : s.Permitted cfg input)
    (hkeeps : keepsParity cfg s input = true) (h : s.step cfg input = .ok s') : s'.Paired cfg := by
  cases input with
  | born creator child isThread => exact hs.born hpermit hkeeps h
  | notice pid notice os ptrace =>
    obtain ⟨hturned, hkernel⟩ := step_notice hpermit h
    obtain ⟨task, htask, hallowed⟩ := Kernel.permits_iff.mp hpermit
    have hknown : s'.Known := by
      refine known_notice hs.known hpermit (fun hdeath task' htask' => ?_) h
      obtain ⟨_, _, _, _, hpid, _⟩ := hturned.of_dead hdeath
      by_contra hno
      have hnone := (hs.paired pid task' htask').apart (Bool.not_eq_true _ ▸ hno)
      exact Finmap.lookup_eq_none.mp hnone hpid
    cases hturned with
    | unknown _ hdeath hpid hafter =>
      exact hs.unknown hknown htask hallowed hdeath hpid hafter hkernel
    | dead _ hdeath hpid c₁ c dump hdump hvanish hafter =>
      exact hs.death hknown htask hdeath (.dead _ hdeath hpid c₁ c dump hdump hvanish hafter)
        hkernel
    | signalled sig _ hafter => exact hs.signalled hknown htask hallowed hafter hkernel
    | exiting _ hafter => exact hs.exiting hknown htask hafter hkernel
    | untold event nr _ htold hcause hafter =>
      exact hs.untold hknown htask hallowed (Bool.not_eq_true' _ ▸ hkeeps) htold hcause hafter
        hkernel
    | cloned event nr msg c _ htold hmsg _ hafter =>
      exact hs.cloned hknown htask hallowed htold hmsg hafter hkernel
    | execLost former nr hpid hgone hafter =>
      exact hs.execed hknown hpid hallowed hkeeps (.execLost former nr hpid hgone hafter) hkernel
    | execed former nr c hpid hgone hc hformer hafter =>
      exact hs.execed hknown hpid hallowed hkeeps
        (.execed former nr c hpid hgone hc hformer hafter) hkernel
    | picked _ hcause hafter => exact hs.picked hknown htask hallowed hcause hafter hkernel
    | stopped _ _ s₁ hs₁ hstopped =>
      rcases hs₁ with ⟨rfl, rfl⟩ | ⟨rfl, _, hver, rfl⟩
      · exact hs.syscallStopped hknown htask hallowed hstopped hkernel
      · exact hs.secCompStopped hknown htask hallowed hver hstopped hkernel

theorem avoids {input : Input arch} (hs : s.Paired cfg) (hpermit : s.Permitted cfg input)
    (hkeeps : keepsParity cfg s input = true) :
    (s.step cfg input).Avoids (· = .returned (-2)) := by
  cases input with
  | born creator child isThread => exact Avoids.ok _
  | notice pid notice os ptrace =>
    obtain ⟨task, htask, hallowed⟩ := Kernel.permits_iff.mp hpermit
    refine Avoids.bind ?_ fun tracer _ => Avoids.ok _
    have htolerates : Tolerates (· = Stop.returned (-2)) := by
      intro a hno
      cases hno
    have hcontext : ∀ {α : Type} (x : Except Abort α),
        x.Avoids fun a => Stop.abort a = .returned (-2) := by
      intro α x a _ hno
      cases hno
    refine Tracer.turn_avoids htolerates (Kernel.permits_fits hpermit) ⟨fun _ hno => ?_,
      fun code hcode hno => ?_, fun _ _ => hcontext _, fun _ _ _ => hcontext _,
      fun _ _ => hcontext _, fun _ _ _ _ _ _ _ => hcontext _, fun _ _ => hcontext _,
      fun _ _ _ hno => ?_, ?_⟩
    · cases hno
    · cases hno
      cases hcode
    · cases hno
    · rintro registers hregs (⟨rfl, hv⟩ | ⟨rfl, _⟩) hnr _
      · simp only [Kernel.permitsTask, Bool.and_eq_true, Bool.not_eq_true'] at hallowed
        obtain ⟨hdying, hallowed⟩ := hallowed
        obtain ⟨hrequest, hstop⟩ := syscallStop_permitted hallowed
        obtain ⟨_, _, v, q, hv', hq, hphase⟩ := hs.running htask hdying (by rw [hrequest]; rfl)
        rw [hrequest] at hq
        cases hq
        rw [hv] at hv'
        cases hv'
        obtain ⟨hentry, hexit⟩ := hstop registers hregs
        rw [hphase.entered (fun hnone => (hentry hnone).1) hexit] at hnr
        cases hinside : task.inside with
        | none =>
          simp only [keepsParity, htask, hregs, hinside, Option.all_some, Reply.all,
            Option.isSome_none, Bool.false_or, bne_iff_ne] at hkeeps
          rw [hinside] at hnr
          exact hkeeps hnr
        | some nr =>
          rw [hinside] at hnr
          cases hnr
      · simp only [Kernel.permitsTask, Bool.and_eq_true] at hallowed
        obtain ⟨_, _, _, hstop⟩ := secComp_permitted hallowed.2
        obtain ⟨hentry, htraces⟩ := hstop registers hregs
        have hnonneg := listed_nonneg (listed_of_filterTraces htraces)
        rw [getSyscallNumber_entry hentry] at hnr
        omega

end Paired

/-! ## Telling exits from entries -/

/-- The notice is the exit stop of a call. Number -1 is none; no case of the switch has it. -/
def ExitStop (s : Traced arch Q) (pid : Pid) (notice : Notice) : Prop :=
  notice = .syscallStop ∧ ∃ task nr, s.kernel.tasks.lookup pid = some task ∧
    task.inside = some nr ∧ asInt nr ≠ SYSCALL_UNDEFINED

/-- `SyscallExit` is called at the exit stops and nowhere else. The first two parts are also about
turns that fail. -/
def ToldApart (cfg : TracerConfig) (s : Traced arch Q) : Input arch → Prop
  | .born _ _ _ => True
  | .notice pid notice os ptrace =>
    (∀ registers, ptrace.regs = .ok registers → s.ExitStop pid notice →
      s.tracer.Exits cfg os ptrace pid registers) ∧
    (∀ registers, ptrace.regs = .ok registers → notice = .syscallStop → ¬s.ExitStop pid notice →
      s.tracer.Enters cfg os ptrace pid registers) ∧
    ∀ s', s.step cfg (.notice pid notice os ptrace) = .ok s' → ∀ registers,
      .syscallExit os pid registers ∈ s'.tracer.calls ↔
        ptrace.regs = .ok registers ∧ s.ExitStop pid notice

/-- At a syscall stop the value kept says whether it is an exit stop. -/
theorem Paired.exitStop_iff (hs : s.Paired cfg)
    (hpermit : s.Permitted cfg (.notice pid .syscallStop os ptrace)) :
    ∃ v, s.tracer.syscallStateMap.lookup pid = some v ∧
      (s.ExitStop pid .syscallStop ↔ v ≠ SYSCALL_UNDEFINED) := by
  obtain ⟨task, htask, hallowed⟩ := Kernel.permits_iff.mp hpermit
  simp only [Kernel.permitsTask, Bool.and_eq_true, Bool.not_eq_true'] at hallowed
  obtain ⟨hdying, hallowed⟩ := hallowed
  obtain ⟨hrequest, _⟩ := syscallStop_permitted hallowed
  obtain ⟨_, _, v, q, hv, hq, hphase⟩ := hs.running htask hdying (by rw [hrequest]; rfl)
  rw [hrequest] at hq
  cases hq
  refine ⟨v, hv, ?_⟩
  rw [hphase.exit_iff]
  constructor
  · rintro ⟨_, task', nr, htask', hinside, hnr⟩
    rw [htask] at htask'
    cases htask'
    exact ⟨nr, hinside, hnr⟩
  · rintro ⟨nr, hinside, hnr⟩
    exact ⟨rfl, task, nr, htask, hinside, hnr⟩

theorem Paired.toldApart {input : Input arch} (hs : s.Paired cfg)
    (hpermit : s.Permitted cfg input) : s.ToldApart cfg input := by
  cases input with
  | born creator child isThread => trivial
  | notice pid notice os ptrace =>
    refine ⟨?_, ?_, fun s' h registers => ?_⟩
    · intro registers hregs hexit
      have hnotice := hexit.1
      subst hnotice
      obtain ⟨v, hv, hiff⟩ := hs.exitStop_iff hpermit
      exact Tracer.exits_of_ne hv (hiff.mp hexit) hregs
    · rintro registers hregs rfl hentry
      obtain ⟨v, hv, hiff⟩ := hs.exitStop_iff hpermit
      have hundefined : v = SYSCALL_UNDEFINED := by
        by_contra hne
        exact hentry (hiff.mpr hne)
      rw [hundefined] at hv
      exact Tracer.enters_of_undefined hv hregs
    · rw [(step_notice hpermit h).1.syscallExit_mem]
      constructor
      · rintro ⟨rfl, hregs, v, hv, hne⟩
        obtain ⟨v', hv', hiff⟩ := hs.exitStop_iff hpermit
        rw [hv] at hv'
        cases hv'
        exact ⟨hregs, hiff.mpr hne⟩
      · rintro ⟨hregs, hexit⟩
        have hnotice := hexit.1
        subst hnotice
        obtain ⟨v, hv, hiff⟩ := hs.exitStop_iff hpermit
        exact ⟨rfl, hregs, v, hv, hiff.mp hexit⟩

/-- In every permitted run that meets the condition, entries and exits are told apart, and the
tracer does not end with -2. -/
theorem entries_and_exits_told_apart {c : Context Q} {inputs : List (Input arch)}
    (hpermitted : Runs.Along (step cfg) (Permitted cfg) (start cfg c : Traced arch Q) inputs)
    (hkeeps : Runs.Along (step cfg) (fun s input => keepsParity cfg s input = true)
      (start cfg c : Traced arch Q) inputs) :
    Runs.Along (step cfg) (ToldApart cfg) (start cfg c : Traced arch Q) inputs ∧
      Runs.run (step cfg) (start cfg c : Traced arch Q) inputs ≠ .error (.returned (-2)) := by
  have hstep : ∀ (s : Traced arch Q) input s', s.Paired cfg →
      (s.Permitted cfg input ∧ keepsParity cfg s input = true) → s.step cfg input = .ok s' →
      s'.Paired cfg := fun s input s' hs hcond h => hs.step hcond.1 hcond.2 h
  have hstart : (start cfg c : Traced arch Q).Paired cfg := Paired.start cfg c
  have hboth := hpermitted.and hkeeps
  refine ⟨Runs.Along.of_invariant hstep (fun s input hs hcond => hs.toldApart hcond.1) hstart
    hboth, fun hno => ?_⟩
  exact Runs.run_avoids hstep (fun s input hs hcond => hs.avoids hcond.1 hcond.2) hstart hboth _
    hno rfl

end Traced

/-! ## Runs on fixed inputs -/

/-- Seccomp with the order of stops before 4.8. -/
def oldOrder : TracerConfig := { plainConfig with useSecComp := true, secCompVer := .SEC_COMP_V1 }

def exitStopOf (pid : Pid) (nr retdata : Word) : Input .x86_64 :=
  .notice pid .syscallStop (plainOs 0)
    (plainPtrace 0 0 (exitRegs .x86_64 ⟨nr, retdata, 0, 0, 0, 0⟩))

/-- The filter stops a `close`, which is then entered and left. -/
def pickedClose : List (Input .x86_64) :=
  [.notice 1 .secComp (plainOs 0) (plainPtrace 0 0 (entryRegs 3)), entryOf 1 3, exitStopOf 1 3 0]

open FileStorage in
theorem entries_and_exits_told_apart_pickedClose :
    ∃ (c₀ : Context FileQueue) (s : Traced .x86_64 FileQueue),
      (Context.new plainOptions).registerTracee (plainOs 0) 1 = .ok c₀ ∧
      Runs.run (Traced.step oldOrder) (Traced.start oldOrder c₀) pickedClose = .ok s ∧
      s.tracer.calls.length = 1 ∧
      Runs.Along (Traced.step oldOrder) (Traced.ToldApart oldOrder)
        (Traced.start oldOrder c₀) pickedClose := by
  refine ⟨_, _, rfl, rfl, rfl, ?_⟩
  refine (@Traced.entries_and_exits_told_apart FileQueue _ .x86_64 oldOrder _ pickedClose ?_ ?_).1
  · decide
  · decide

/-- A thread execs while its leader is in no call. -/
def execBesideIdleLeader : List (Input .x86_64) :=
  [entryOf 1 56, .born 1 2 true,
    .notice 2 (.signalStop 19) (plainOs 0) (plainPtrace 0 0 (entryRegs 0)),
    .notice 1 (.cloned .clone 56) (plainOs 0) (plainPtrace 2 0x10000 (entryRegs 0)),
    exitStopOf 1 56 2, entryOf 2 59,
    .notice 1 (.execed 2 59) (plainOs 0) (plainPtrace 2 0 (entryRegs 0)),
    exitStopOf 1 59 0]

open FileStorage in
/-- A call with the number -2 ends the loop at its entry. So does the exit of an exec by another
thread than the leader, which is taken for an entry. -/
theorem minusTwo_ends :
    ∃ c₀ : Context FileQueue,
      (Context.new plainOptions).registerTracee (plainOs 0) 1 = .ok c₀ ∧
      ∀ inputs ∈ [[entryOf 1 (-2)], execBesideIdleLeader],
        Runs.Along (Traced.step plainConfig) (Traced.Permitted plainConfig)
          (Traced.start plainConfig c₀) inputs ∧
        Runs.run (Traced.step plainConfig) (Traced.start plainConfig c₀) inputs =
          .error (.returned (-2)) := by
  refine ⟨_, rfl, ?_⟩
  intro inputs hinputs
  simp only [List.mem_cons, List.not_mem_nil, or_false] at hinputs
  rcases hinputs with rfl | rfl
  · exact ⟨by decide, rfl⟩
  · exact ⟨by decide, rfl⟩

end Optrace
