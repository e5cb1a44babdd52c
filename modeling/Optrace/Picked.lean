import Optrace.Filtered

/-!
# Stops at calls

Of the stops at calls the run with the filter has those at the calls the filter asks for: they are
entered at a stop of the filter or right after one, and left at an exit stop. The others pass it by.
-/

namespace Optrace

set_option autoImplicit false
set_option linter.unusedSectionVars false

open Except

namespace Tracer

variable {Q : Type} [MaxOutFilesQueue Q] {arch : Arch} {cfg : TracerConfig} {os : Os}
  {ptrace : Ptrace arch} {s s' : Tracer arch Q} {pid : Pid}

theorem Turned.of_syscallStop (h : Turned cfg os ptrace pid s s' .syscallStop)
    (hpid : pid ∈ s.syscallStateMap) : Stopped cfg os pid s.begin ptrace.regs s' := by
  cases h with
  | unknown _ _ hno => exact absurd hpid hno
  | dead _ hdeath => cases hdeath
  | stopped _ _ s₁ hs₁ hstopped =>
    rcases hs₁ with ⟨_, rfl⟩ | ⟨hno, _⟩
    · exact hstopped
    · cases hno

/-- A syscall stop asks for nothing but the registers and that they be stored. -/
theorem syscallStopped_answers {ptrace' : Ptrace arch} (h : ptrace'.setRegs = ptrace.setRegs)
    (registers : UserRegs arch) : s.syscallStopped os ptrace' pid registers =
      s.syscallStopped os ptrace pid registers := by
  cases arch with
  | x86_64 => rfl
  | aarch64 =>
    unfold syscallStopped syscallEntered setRegs
    simp only [h]

theorem restart_answers {ptrace' : Ptrace arch} (h : ptrace'.resume = ptrace.resume)
    (syscallStop : Bool) (signal : Int) : s.restart cfg ptrace' pid syscallStop signal =
      s.restart cfg ptrace pid syscallStop signal := by
  unfold restart resume
  rw [h]

/-- A stop of the filter whose message was read. -/
theorem turn_secComp (hpid : pid ∈ s.syscallStateMap) (hmsg : ptrace.eventMsg = .ok 0) :
    s.turn cfg os ptrace (.status pid Notice.secComp.status) =
      s.begin.secComped cfg os ptrace pid SIGTRAP := by
  rw [Notice.status, turn_event (by decide) (by decide) hpid, evented, ptraceGetEventMsg, hmsg]
  simp only [ptraceSafeCall, bind_ok, pure, Except.pure, Option.getD_some]
  rw [if_neg (by decide), if_neg (by decide), if_neg (by decide), if_pos trivial]
  rfl

theorem turn_secComp_new (hpid : pid ∈ s.syscallStateMap) (hmsg : ptrace.eventMsg = .ok 0)
    (hver : cfg.secCompVer = .SEC_COMP_V2) {registers : UserRegs arch}
    (hregs : ptrace.regs = .ok registers) :
    s.turn cfg os ptrace (.status pid Notice.secComp.status) =
      (s.begin.setSyscallState pid SYSCALL_UNDEFINED).syscallStopped os ptrace pid registers >>=
        fun s₁ => s₁.restart cfg ptrace pid true SIGTRAP := by
  rw [turn_secComp hpid hmsg, secComped, hver]
  simp only [proceed, if_true, hregs, ptraceSafeCall, bind_ok]

theorem turn_secComp_old (hpid : pid ∈ s.syscallStateMap) (hmsg : ptrace.eventMsg = .ok 0)
    (hver : cfg.secCompVer = .SEC_COMP_V1) (hresume : ptrace.resume pid = .ok ()) :
    s.turn cfg os ptrace (.status pid Notice.secComp.status) =
      .ok { s.begin with resumes := [⟨pid, .syscall, 0⟩] } := by
  rw [turn_secComp hpid hmsg, secComped, hver]
  simp only [resume, hresume, ptraceSafeCall, bind_ok, pure, Except.pure]
  rfl

theorem Turned.of_secComp (h : Turned cfg os ptrace pid s s' .secComp)
    (hpid : pid ∈ s.syscallStateMap) (hver : cfg.secCompVer = .SEC_COMP_V2)
    (hgone : ptrace.eventMsg.isGone = false) :
    Stopped cfg os pid (s.begin.setSyscallState pid SYSCALL_UNDEFINED) ptrace.regs s' := by
  cases h with
  | unknown _ _ hno => exact absurd hpid hno
  | dead _ hdeath => cases hdeath
  | picked _ hcause =>
    rcases hcause with hno | hno
    · rw [hgone] at hno
      cases hno
    · rw [hver] at hno
      cases hno
  | stopped _ _ s₁ hs₁ hstopped =>
    rcases hs₁ with ⟨hno, _⟩ | ⟨_, _, _, rfl⟩
    · cases hno
    · exact hstopped

namespace Stopped

variable {reply : Reply (UserRegs arch)} {registers : UserRegs arch} {v : Int}

theorem alone (h : Stopped cfg os pid s reply s') (hs : s.resumes = []) :
    ∀ r ∈ s'.resumes, r.pid = pid := by
  intro r hr
  cases h with
  | gone _ hs' => exact ((hs'.after hs).resumed r hr).1
  | entered _ _ _ _ _ _ hs' => exact ((hs'.after hs).resumed r hr).1
  | left _ _ _ _ _ _ _ hs' => exact ((hs'.after hs).resumed r hr).1

/-- Without seccomp every tracee is resumed to its next syscall stop. -/
theorem to_syscall (h : Stopped cfg.plain os pid s reply s') (hs : s.resumes = []) :
    ∀ r ∈ s'.resumes, r.request = .syscall := by
  intro r hr
  cases h with
  | gone _ hs' => exact ((hs'.after hs).resumed r hr).2
  | entered _ _ _ _ _ _ hs' => exact ((hs'.after hs).resumed r hr).2
  | left _ _ _ _ _ _ _ hs' => exact ((hs'.after hs).resumed r hr).2

/-- The stop is about the call of its tracee and the tracker. -/
theorem frame (h : Stopped cfg os pid s reply s') :
    s'.suspendedThreads = s.suspendedThreads ∧ s'.traceeExitCode = s.traceeExitCode ∧
      ∀ tid ≠ pid, s'.syscallStateMap.lookup tid = s.syscallStateMap.lookup tid := by
  cases h with
  | gone _ hs' =>
    obtain ⟨rs, rfl, _⟩ := hs'
    exact ⟨rfl, rfl, fun _ _ => rfl⟩
  | entered _ _ _ _ _ _ hs' =>
    obtain ⟨rs, rfl, _⟩ := hs'
    exact ⟨rfl, rfl, fun tid htid => Finmap.lookup_insert_of_ne _ htid⟩
  | left _ _ _ _ _ _ _ hs' =>
    obtain ⟨rs, rfl, _⟩ := hs'
    exact ⟨rfl, rfl, fun tid htid => Finmap.lookup_insert_of_ne _ htid⟩

theorem states (h : Stopped cfg os pid s reply s') (hpid : pid ∈ s.syscallStateMap) (tid : Pid) :
    tid ∈ s'.syscallStateMap ↔ tid ∈ s.syscallStateMap := by
  have hinsert : ∀ v : Int, tid ∈ s.syscallStateMap.insert pid v ↔ tid ∈ s.syscallStateMap := by
    intro v
    rw [Finmap.mem_insert]
    constructor
    · rintro (rfl | hin)
      · exact hpid
      · exact hin
    · exact Or.inr
  cases h with
  | gone _ hs' =>
    obtain ⟨rs, rfl, _⟩ := hs'
    exact Iff.rfl
  | entered registers _ _ _ _ _ hs' =>
    obtain ⟨rs, rfl, _⟩ := hs'
    exact hinsert _
  | left _ _ _ _ _ _ _ hs' =>
    obtain ⟨rs, rfl, _⟩ := hs'
    exact hinsert _

theorem lost (h : Stopped cfg os pid s .gone s') (hs : s.resumes = []) :
    After s' s.context s.syscallStateMap (fun tid q => tid = pid ∧ q = .syscall) s.calls := by
  cases h with
  | gone _ hs' => exact hs'.after hs

theorem entry (h : Stopped cfg os pid s (.ok registers) s') (hs : s.resumes = [])
    (hv : s.syscallStateMap.lookup pid = some SYSCALL_UNDEFINED) :
    After s' s.context
      (s.syscallStateMap.insert pid (asInt (getSyscallNumber arch registers)))
      (fun tid q => tid = pid ∧
        q = request cfg (asInt (getSyscallNumber arch registers) != SYSCALL_UNDEFINED))
      s.calls := by
  cases h with
  | entered _ _ _ _ _ _ hs' =>
    have hafter := hs'.after hs
    exact ⟨hafter.context, hafter.states, hafter.resumed, hafter.calls⟩
  | left _ _ prev _ hprev hne _ _ =>
    rw [hv] at hprev
    cases hprev
    exact absurd rfl hne

theorem exit (h : Stopped cfg os pid s (.ok registers) s') (hs : s.resumes = [])
    (hv : s.syscallStateMap.lookup pid = some v) (hne : v ≠ SYSCALL_UNDEFINED) :
    ∃ c, s.context.syscallExit arch os pid registers = .ok c ∧
      After s' c (s.syscallStateMap.insert pid SYSCALL_UNDEFINED)
        (fun tid q => tid = pid ∧ q = request cfg false)
        (s.calls ++ [.syscallExit os pid registers]) := by
  cases h with
  | entered _ _ hprev _ _ _ _ =>
    rw [hv] at hprev
    cases hprev
    exact absurd rfl hne
  | left _ _ _ c _ _ hexit hs' =>
    have hafter := hs'.after hs
    exact ⟨c, hexit, hafter.context, hafter.states, hafter.resumed, hafter.calls⟩

/-- A reply that is an error ends the turn. -/
theorem reply_cases (h : Stopped cfg os pid s reply s') :
    reply = .gone ∨ ∃ registers, reply = .ok registers := by
  cases h with
  | gone _ _ => exact Or.inl rfl
  | entered registers _ _ _ _ _ _ => exact Or.inr ⟨registers, rfl⟩
  | left registers _ _ _ _ _ _ _ => exact Or.inr ⟨registers, rfl⟩

end Stopped

end Tracer

/-! ## Stops that are left out -/

/-- A tracee that runs on while the other run has it stop. -/
theorem Task.Beside.passBy {arch : Arch} {entry entry' : Option SyscallRegs} {p q : Task}
    (h : Task.Beside arch entry p q) (hdying : p.dying = false) (hannounced : p.announced = true)
    (hfresh : p.fresh = false) (hrequest : q.request = some .cont) (hinside : q.inside = none)
    (hasks : asksFor arch entry' = false) (request : Option Request) (picked dying : Bool) :
    Task.Beside arch entry' { p with
      request := request
      inside := entry'.map SyscallRegs.nr
      picked := picked
      dying := dying } q := by
  refine ⟨h.group, h.newborn, h.fresh, h.announced, rfl, fun _ => h.dying hdying, ?_, fun _ _ => ?_⟩
  · rintro (hno | hno)
    · exact absurd (hannounced.symm.trans hno) Bool.true_eq_false.mp
    · exact absurd (hfresh.symm.trans hno) Bool.false_ne_true
  · rw [hasks]
    exact ⟨hrequest, hinside⟩

namespace Kernel.Beside

variable {arch : Arch} {calls calls' : PidMap SyscallRegs} {k k' l : Kernel} {pid : Pid} {q : Task}

/-- A stop of one tracee, which was resumed if it lives, and which the other run does not have. -/
theorem passBy (h : Beside arch calls k l) {new : Task}
    (hresumes : Resumes (fun tid request => tid = pid ∧ request = .syscall) (k.setTask pid new) k')
    (hcalls : ∀ tid ≠ pid, calls'.lookup tid = calls.lookup tid) (hq : l.tasks.lookup pid = some q)
    (hstopped : Task.Beside arch (calls'.lookup pid) new q)
    (hresumed : Task.Beside arch (calls'.lookup pid) (new.resumed .syscall) q) :
    Beside arch calls' k' l := by
  have hlookup : ∀ tid ≠ pid, k'.tasks.lookup tid = k.tasks.lookup tid := by
    intro tid htid
    rcases hresumes.tasks tid with hsame | ⟨_, _, _, ⟨hno, _⟩, _⟩
    · rw [hsame, setTask_lookup, if_neg htid]
    · exact absurd hno htid
  have hself : k'.tasks.lookup pid = some new ∨
      k'.tasks.lookup pid = some (new.resumed .syscall) := by
    rcases hresumes.tasks pid with hsame | ⟨task, request, htask, ⟨_, rfl⟩, hnew⟩
    · rw [hsame, setTask_lookup, if_pos rfl]
      exact Or.inl rfl
    · rw [setTask_lookup, if_pos rfl] at htask
      cases htask
      exact Or.inr hnew
  refine ⟨fun tid => ?_, fun tid hnone => ?_⟩
  · by_cases htid : tid = pid
    · rw [htid, hq]
      rcases hself with hself | hself
      · rw [hself]
        exact .some hstopped
      · rw [hself]
        exact .some hresumed
    · rw [hlookup tid htid, hcalls tid htid]
      exact h.tasks tid
  · by_cases htid : tid = pid
    · rw [htid] at hnone
      rcases hself with hself | hself
      · rw [hself] at hnone
        cases hnone
      · rw [hself] at hnone
        cases hnone
    · rw [hlookup tid htid] at hnone
      rw [hcalls tid htid]
      exact h.absent tid hnone

theorem born (h : Beside arch calls k l) {p : Task} (hp : k.tasks.lookup pid = some p) {child : Pid}
    (hnone : calls.lookup child = none) (isThread : Bool) :
    Beside arch calls (k.born pid child isThread) (l.born pid child isThread) := by
  obtain ⟨q, hq, hbeside⟩ := h.lookup hp
  refine ⟨fun tid => ?_, fun tid hnew => ?_⟩
  · rw [born_lookup hp, born_lookup hq]
    split
    · rename_i htid
      rw [htid, hnone, hbeside.group]
      exact .some ⟨rfl, rfl, rfl, rfl, rfl, fun h => h, fun _ => ⟨rfl, rfl⟩, fun _ hno => by cases hno⟩
    · split
      · rename_i htid
        rw [htid]
        exact .some ⟨hbeside.group, rfl, hbeside.fresh, hbeside.announced, hbeside.inside,
          hbeside.dying, hbeside.waiting, hbeside.running⟩
      · exact h.tasks tid
  · rw [born_lookup hp] at hnew
    split at hnew
    · cases hnew
    · split at hnew
      · cases hnew
      · exact h.absent tid hnew

theorem congr (h : Beside arch calls k l) {l' : Kernel}
    (hl : ∀ tid, l'.tasks.lookup tid = l.tasks.lookup tid) : Beside arch calls k l' :=
  ⟨fun tid => hl tid ▸ h.tasks tid, h.absent⟩

end Kernel.Beside

namespace Recorded

variable {Q : Type} [MaxOutFilesQueue Q] {arch : Arch} {cfg : TracerConfig}
  {s s' : Recorded arch Q} {t t' : Traced arch Q} {pid : Pid} {os : Os} {ptrace : Ptrace arch}
  {p q : Task} {v : Int}

/-- A tracee at a syscall stop of the run without the filter. -/
structure AtStop (s : Recorded arch Q) (t : Traced arch Q) (pid : Pid) (ptrace : Ptrace arch)
    (p q : Task) (v : Int) : Prop where
  task : s.traced.kernel.tasks.lookup pid = some p
  task' : t.kernel.tasks.lookup pid = some q
  beside : Task.Beside arch (s.calls.lookup pid) p q
  dying : p.dying = false
  announced : p.announced = true
  fresh : p.fresh = false
  newborn : p.newborn = none
  request : p.request = some .syscall
  value : s.traced.tracer.syscallStateMap.lookup pid = some v
  exits : v ≠ SYSCALL_UNDEFINED ↔ ∃ nr, p.inside = some nr ∧ asInt nr ≠ SYSCALL_UNDEFINED
  regs : ∀ registers, ptrace.regs = .ok registers →
    (p.inside = none → atEntry arch registers = true) ∧
      ∀ nr, p.inside = some nr → atExit arch nr registers = true

theorem Beside.atStop (h : Beside cfg s t)
    (hpermit : s.Permitted cfg (.notice pid .syscallStop os ptrace)) :
    ∃ p q v, AtStop s t pid ptrace p q v := by
  obtain ⟨p, hp, hallowed⟩ := Kernel.permits_iff.mp hpermit
  obtain ⟨q, hq, hbeside⟩ := h.kernels.lookup hp
  simp only [Kernel.permitsTask, Bool.and_eq_true, Bool.not_eq_true'] at hallowed
  obtain ⟨hdying, hallowed⟩ := hallowed
  obtain ⟨hrequest, hregs⟩ := syscallStop_permitted hallowed
  obtain ⟨hannounced, hfresh, v, request, hv, hsome, hphase⟩ :=
    h.paired.running hp hdying (by rw [hrequest]; rfl)
  rw [hrequest] at hsome
  cases hsome
  simp only [Kernel.stopPermitted, Bool.and_eq_true, Option.isNone_iff_eq_none] at hallowed
  exact ⟨p, q, v, hp, hq, hbeside, hdying, hannounced, hfresh, hallowed.1.2, hrequest, hv,
    hphase.exit_iff, fun registers hok =>
      ⟨fun hnone => ((hregs registers hok).1 hnone).1, (hregs registers hok).2⟩⟩

namespace AtStop

theorem mem (h : AtStop s t pid ptrace p q v) : pid ∈ s.traced.tracer.syscallStateMap :=
  Finmap.mem_of_lookup_eq_some h.value

/-- The tracee in the run with the filter. -/
theorem running (h : AtStop s t pid ptrace p q v) :
    q.request = some (if asksFor arch (s.calls.lookup pid) then .syscall else .cont) ∧
      q.inside = if asksFor arch (s.calls.lookup pid) then p.inside else none :=
  h.beside.running h.dying (by rw [h.request]; rfl)

/-- The tracee at the stop, in a run that goes through. -/
theorem stopped (h : AtStop s t pid ptrace p q v)
    (hstep : s.step cfg (.notice pid .syscallStop os ptrace) = .ok s')
    (hpermit : s.Permitted cfg (.notice pid .syscallStop os ptrace)) :
    Tracer.Stopped cfg.plain os pid s.traced.tracer.begin ptrace.regs s'.traced.tracer ∧
      s'.traced.kernel = s'.traced.tracer.resumes.foldl Kernel.resume
        (s.traced.kernel.setTask pid (p.noticed cfg.plain ptrace .syscallStop)) := by
  obtain ⟨htraced, _⟩ := step_ok hstep
  obtain ⟨hturned, hkernel⟩ := Traced.step_notice hpermit htraced
  have hplain : Tracer.Plain .syscallStop := trivial
  rw [(noticed_plain cfg.plain h.task hplain).1] at hkernel
  exact ⟨hturned.of_syscallStop h.mem, hkernel⟩

/-- The words of the call, after the stop. -/
theorem recorded_others (calls : PidMap SyscallRegs) (pid : Pid) (os : Os) (ptrace : Ptrace arch) :
    ∀ tid ≠ pid, (recorded calls (.notice pid .syscallStop os ptrace)).lookup tid =
      calls.lookup tid := by
  intro tid htid
  simp only [recorded]
  split
  · split
    · rw [PidMap.lookup_erase, if_neg htid]
    · rw [PidMap.lookup_insert, if_neg htid]
  · rfl

theorem recorded_self (calls : PidMap SyscallRegs) (os : Os) {registers : UserRegs arch}
    (hregs : ptrace.regs = .ok registers) :
    (recorded calls (.notice pid .syscallStop os ptrace)).lookup pid =
      if (calls.lookup pid).isSome then none else some (syscallRegs arch registers) := by
  simp only [recorded, hregs, ← Finmap.lookup_isSome]
  split
  · rw [PidMap.lookup_erase, if_pos rfl]
  · rw [PidMap.lookup_insert, if_pos rfl]

end AtStop

namespace AtStop

/-- The call a tracee is in after the stop. -/
theorem inside_after (h : AtStop s t pid ptrace p q v) (os : Os) :
    insideAfter p.inside ptrace.regs =
      ((recorded s.calls (.notice pid .syscallStop os ptrace)).lookup pid).map SyscallRegs.nr := by
  have hisSome : p.inside.isSome = (s.calls.lookup pid).isSome := by
    rw [h.beside.inside, Option.isSome_map]
  cases hregs : ptrace.regs with
  | ok registers =>
    rw [recorded_self s.calls os hregs, insideAfter, hisSome]
    split <;> rfl
  | gone =>
    simp only [recorded, hregs, insideAfter]
    exact h.beside.inside
  | failed =>
    simp only [recorded, hregs, insideAfter]
    exact h.beside.inside

theorem asks_after (hasks : asksFor arch (s.calls.lookup pid) = false)
    (hentry : s.calls.lookup pid = none → ∀ registers, ptrace.regs = .ok registers →
      filterTraces arch (syscallRegs arch registers) = false) (os : Os) :
    asksFor arch ((recorded s.calls (.notice pid .syscallStop os ptrace)).lookup pid) = false := by
  cases hregs : ptrace.regs with
  | ok registers =>
    rw [recorded_self s.calls os hregs]
    split
    · rfl
    · rename_i hnone
      exact hentry (Option.not_isSome_iff_eq_none.mp hnone) registers hregs
  | gone =>
    simp only [recorded, hregs]
    exact hasks
  | failed =>
    simp only [recorded, hregs]
    exact hasks

/-- An exit the filter did not ask for tells the tracker nothing. -/
theorem context (h : AtStop s t pid ptrace p q v)
    (hstopped : Tracer.Stopped cfg.plain os pid s.traced.tracer.begin ptrace.regs s'.traced.tracer)
    (hleaves : (s.calls.lookup pid).all fun entry => filterTraces arch entry ||
      ptrace.regs.all fun registers => leavesAs arch entry (syscallRegs arch registers))
    (hasks : asksFor arch (s.calls.lookup pid) = false) :
    s'.traced.tracer.context = s.traced.tracer.context := by
  rcases hstopped.reply_cases with hreply | ⟨registers, hreply⟩
  · rw [hreply] at hstopped
    exact (hstopped.lost rfl).context
  · rw [hreply] at hstopped
    by_cases hundefined : v = SYSCALL_UNDEFINED
    · exact (hstopped.entry rfl (hundefined ▸ h.value)).context
    · obtain ⟨c, hexit, hafter⟩ := hstopped.exit rfl h.value hundefined
      obtain ⟨nr, hinside, _⟩ := h.exits.mp hundefined
      rw [h.beside.inside] at hinside
      obtain ⟨entry, hentry, _⟩ := Option.map_eq_some_iff.mp hinside
      rw [hentry, Option.all_some, hreply, Bool.or_eq_true] at hleaves
      rw [hentry, asksFor, Option.any_some] at hasks
      rcases hleaves with hno | hleaves
      · rw [hasks] at hno
        cases hno
      · have hsame := Context.syscallExit_untraced s.traced.tracer.context os pid hasks hleaves
        rw [hafter.context]
        exact Except.ok.inj (hexit.symm.trans hsame)

end AtStop

/-- A stop at a call the filter lets through passes by the run with the filter. -/
theorem Beside.passBy (h : Beside cfg s t)
    (hpermit : s.Permitted cfg (.notice pid .syscallStop os ptrace))
    (hordinary : s.ordinary cfg (.notice pid .syscallStop os ptrace) = true)
    (hasks : asksFor arch (s.calls.lookup pid) = false)
    (hentry : s.calls.lookup pid = none → ∀ registers, ptrace.regs = .ok registers →
      filterTraces arch (syscallRegs arch registers) = false)
    (hstep : s.step cfg (.notice pid .syscallStop os ptrace) = .ok s') : Beside cfg s' t := by
  obtain ⟨p, q, v, hstop⟩ := h.atStop hpermit
  obtain ⟨hstopped, hkernel⟩ := hstop.stopped hstep hpermit
  obtain ⟨htraced, hcalls⟩ := step_ok hstep
  simp only [ordinary, Bool.and_eq_true] at hordinary
  obtain ⟨hkeeps, hleaves⟩ := hordinary
  obtain ⟨hrequest, hinside⟩ := hstop.running
  rw [hasks] at hrequest hinside
  have hothers := AtStop.recorded_others s.calls pid os ptrace
  have hafter := hstop.inside_after os
  have hasks' := AtStop.asks_after hasks hentry os
  rw [← hcalls] at hothers hafter hasks'
  have hcontext := hstop.context hstopped hleaves hasks
  obtain ⟨hsuspended, hexitCode, hstates⟩ := hstopped.frame
  refine ⟨h.paired.step hpermit hkeeps htraced, ?_, ?_, fun tid hyes => ?_, fun hver tid w hno hw => ?_⟩
  · refine ⟨?_, ?_, ?_, rfl, rfl, by simp [Tracer.begin], fun tid => ?_⟩
    · exact h.tracers.context.trans hcontext.symm
    · exact h.tracers.suspended.trans hsuspended.symm
    · exact h.tracers.exitCode.trans hexitCode.symm
    · exact (h.states tid).trans (hstopped.states hstop.mem tid).symm
  · have hbeside := fun request picked dying => hstop.beside.passBy hstop.dying hstop.announced
      hstop.fresh hrequest hinside hasks' request picked dying
    rw [← hafter] at hbeside
    have hresumes : Kernel.Resumes (fun tid request => tid = pid ∧ request = .syscall)
        (s.traced.kernel.setTask pid (p.noticed cfg.plain ptrace .syscallStop))
        s'.traced.kernel := by
      rw [hkernel]
      exact Kernel.foldl_resumes
        (fun r hr => ⟨hstopped.alone rfl r hr, hstopped.to_syscall rfl r hr⟩) _
    have hresumed : (p.noticed cfg.plain ptrace .syscallStop).resumed .syscall =
        { p with
          request := some .syscall
          inside := insideAfter p.inside ptrace.regs
          picked := false
          dying := ptrace.regs.isGone } := by
      simp [Task.resumed, Task.noticed, hstop.fresh]
    refine h.kernels.passBy hresumes hothers hstop.task' (hbeside none false ptrace.regs.isGone) ?_
    rw [hresumed]
    exact hbeside _ _ _
  · by_cases htid : tid = pid
    · rw [htid, hasks'] at hyes
      cases hyes
    · rw [hothers tid htid] at hyes
      rw [h.kept tid hyes]
      exact (hstates tid htid).symm
  · by_cases htid : tid = pid
    · rw [htid] at hw
      exact h.undefined hver pid w hasks hw
    · rw [hothers tid htid] at hno
      exact h.undefined hver tid w hno hw

/-! ## Exits of the calls the filter asks for -/

theorem Beside.exit_permitted (h : Beside cfg s t)
    (hpermit : s.Permitted cfg (.notice pid .syscallStop os ptrace))
    (hasks : asksFor arch (s.calls.lookup pid) = true) :
    t.Permitted cfg.filtered (.notice pid .syscallStop os ptrace) := by
  obtain ⟨p, hp, hallowed⟩ := Kernel.permits_iff.mp hpermit
  obtain ⟨q, hq, hbeside⟩ := h.kernels.lookup hp
  refine Kernel.permits_iff.mpr ⟨q, hq, ?_⟩
  simp only [Kernel.permitsTask, Kernel.stopPermitted, Bool.and_eq_true, Bool.not_eq_true',
    beq_iff_eq] at hallowed ⊢
  obtain ⟨hdying, ⟨hrequest, hnewborn⟩, hregs⟩ := hallowed
  obtain ⟨hq', hinside⟩ := hbeside.running hdying (by rw [hrequest]; rfl)
  rw [hasks] at hq' hinside
  obtain ⟨entry, hentry, _⟩ := (Option.any_eq_true _ _).mp hasks
  have hin : p.inside = some entry.nr := by
    rw [hbeside.inside, hentry]
    rfl
  rw [if_pos rfl, hin] at hinside
  rw [hin] at hregs
  rw [hinside, hbeside.newborn]
  exact ⟨hbeside.dying hdying, ⟨hq', hnewborn⟩, hregs⟩

theorem Passed.left (h : Beside cfg s t)
    (hpermit : s.Permitted cfg (.notice pid .syscallStop os ptrace))
    (hasks : asksFor arch (s.calls.lookup pid) = true)
    (hpassed : Passed cfg s s' t t' pid .syscallStop os ptrace) : Beside cfg s' t' := by
  obtain ⟨p, q, v, hstop⟩ := h.atStop hpermit
  obtain ⟨hrequest, hinside⟩ := hstop.running
  rw [hasks, if_pos rfl] at hrequest hinside
  obtain ⟨entry, hentry, htraces⟩ := (Option.any_eq_true _ _).mp hasks
  have hin : p.inside = some entry.nr := by
    rw [hstop.beside.inside, hentry]
    rfl
  -- the number of the call is no marker, so both runs take the stop for an exit
  have hne : v ≠ SYSCALL_UNDEFINED := by
    have hnonneg := listed_nonneg (listed_of_filterTraces htraces)
    have hundefined : SYSCALL_UNDEFINED = -1 := rfl
    exact hstop.exits.mpr ⟨entry.nr, hin, by omega⟩
  have hvalue : t.tracer.begin.syscallStateMap.lookup pid = some v :=
    (h.kept pid hasks).trans hstop.value
  have hstopped := hpassed.turned.of_syscallStop hstop.mem
  have hstopped' := hpassed.turned'.of_syscallStop ((h.states pid).mpr hstop.mem)
  have hothers := AtStop.recorded_others s.calls pid os ptrace
  have hafter := hstop.inside_after os
  rw [← hpassed.calls] at hothers hafter
  have hnew : Task.Beside arch (s'.calls.lookup pid) (p.noticed cfg.plain ptrace .syscallStop)
      (q.noticed cfg.filtered ptrace .syscallStop) := by
    refine ⟨hstop.beside.group, hstop.beside.newborn, hstop.beside.fresh, hstop.beside.announced,
      hafter, fun hlives => hlives, ?_, fun _ hno => by cases hno⟩
    rintro (hno | hno)
    · exact absurd (hstop.announced.symm.trans hno) Bool.true_eq_false.mp
    · exact absurd (hstop.fresh.symm.trans hno) Bool.false_ne_true
  have hplain : Tracer.Plain .syscallStop := trivial
  refine alone h hpassed hplain hstop.task hstop.task' hothers hnew (fun r hr => ?_)
    (fun tid htid => ⟨hstopped.frame.2.2 tid htid, hstopped'.frame.2.2 tid htid⟩)
    (fun hyes => ?_) fun hver hno w hw => ?_
  · refine ⟨hstopped'.alone rfl r hr, hnew.resumed rfl hstop.announced (fun hlives => ?_)
      fun _ _ => ?_⟩
    · rcases hstopped'.reply_cases with hreply | ⟨registers, hreply⟩
      · simp [Task.noticed, hreply, Reply.isGone] at hlives
      · rw [hreply] at hstopped'
        obtain ⟨c, _, hafter'⟩ := hstopped'.exit rfl hvalue hne
        have hnone : s'.calls.lookup pid = none := by
          rw [hpassed.calls, AtStop.recorded_self s.calls os hreply, hentry]
          rfl
        rw [hnone]
        exact (hafter'.resumed r hr).2
    · simp only [Task.noticed, hinside]
  · rcases hstopped.reply_cases with hreply | ⟨registers, hreply⟩
    · rw [hreply] at hstopped hstopped'
      rw [(hstopped.lost rfl).states, (hstopped'.lost rfl).states]
      exact h.kept pid hasks
    · rw [hpassed.calls, AtStop.recorded_self s.calls os hreply, hentry] at hyes
      cases hyes
  · rcases hstopped'.reply_cases with hreply | ⟨registers, hreply⟩
    · have hsame : s'.calls = s.calls := by
        rw [hpassed.calls]
        simp only [recorded, hreply]
      rw [hsame, hasks] at hno
      cases hno
    · rw [hreply] at hstopped'
      obtain ⟨c, _, hafter'⟩ := hstopped'.exit rfl hvalue hne
      rw [hafter'.states, PidMap.lookup_insert, if_pos rfl] at hw
      cases hw
      rfl

/-! ## Entries of the calls the filter asks for -/

/-- A call the filter asks for is about to be entered. -/
structure AtEntry (s : Recorded arch Q) (t : Traced arch Q) (pid : Pid) (ptrace : Ptrace arch)
    (p q : Task) (registers : UserRegs arch) : Prop where
  stop : AtStop s t pid ptrace p q SYSCALL_UNDEFINED
  outside : s.calls.lookup pid = none
  read : ptrace.regs = .ok registers
  entry : atEntry arch registers = true
  traces : filterTraces arch (syscallRegs arch registers) = true

theorem AtStop.atEntry (h : AtStop s t pid ptrace p q v) (hnone : s.calls.lookup pid = none)
    {registers : UserRegs arch} (hregs : ptrace.regs = .ok registers)
    (htraces : filterTraces arch (syscallRegs arch registers) = true) :
    AtEntry s t pid ptrace p q registers := by
  have hinside : p.inside = none := by
    rw [h.beside.inside, hnone]
    rfl
  have hundefined : v = SYSCALL_UNDEFINED := by
    by_contra hne
    obtain ⟨nr, hno, _⟩ := h.exits.mp hne
    rw [hinside] at hno
    cases hno
  exact ⟨hundefined ▸ h, hnone, hregs, (h.regs registers hregs).1 hinside, htraces⟩

namespace AtEntry

variable {registers : UserRegs arch}

/-- The tracee runs freely with the filter. -/
theorem running (h : AtEntry s t pid ptrace p q registers) :
    q.request = some .cont ∧ q.inside = none := by
  have hrunning := h.stop.running
  rw [h.outside] at hrunning
  exact hrunning

theorem alive (h : AtEntry s t pid ptrace p q registers) :
    q.dying = false ∧ q.newborn = none ∧ q.fresh = false :=
  ⟨h.stop.beside.dying h.stop.dying, h.stop.beside.newborn.trans h.stop.newborn,
    h.stop.beside.fresh.trans h.stop.fresh⟩

/-- The filter may stop the tracee. -/
theorem secComp_permitted (h : AtEntry s t pid ptrace p q registers) (cfg : TracerConfig)
    {ptrace' : Ptrace arch} (hmsg : ptrace'.eventMsg = .ok 0) (hregs : ptrace'.regs = ptrace.regs) :
    t.Permitted cfg.filtered (.notice pid .secComp os ptrace') := by
  obtain ⟨hrequest, hinside⟩ := h.running
  obtain ⟨hdying, hnewborn, _⟩ := h.alive
  refine Kernel.permits_iff.mpr ⟨q, h.stop.task', ?_⟩
  simp only [Kernel.permitsTask, Kernel.stopPermitted, Bool.and_eq_true, Bool.not_eq_true',
    Option.isNone_iff_eq_none]
  refine ⟨hdying, ⟨⟨⟨trivial, hnewborn⟩, ?_⟩, ?_⟩, ?_⟩
  · rw [hmsg]
    rfl
  · rw [hrequest, hinside]
    split <;> rfl
  · rw [hregs, h.read, hinside]
    simp [Reply.all, h.entry, h.traces]

end AtEntry

/-- What the two runs keep of a call the filter asks for. -/
theorem Beside.entered (h : Beside cfg s t) {registers : UserRegs arch}
    (hentry : AtEntry s t pid ptrace p q registers)
    (hpermit : s.Permitted cfg (.notice pid .syscallStop os ptrace))
    (hkeeps : s.traced.keepsParity cfg.plain (.notice pid .syscallStop os ptrace) = true)
    (hstep : s.step cfg (.notice pid .syscallStop os ptrace) = .ok s')
    {t₀ : Tracer arch Q} {k₁ : Kernel} {q₁ : Task}
    (habreast : s'.traced.tracer.Abreast t'.tracer)
    (hstopped' : Tracer.Stopped cfg.filtered os pid t₀ (.ok registers) t'.tracer)
    (hresumes : t₀.resumes = [])
    (hvalue : t₀.syscallStateMap.lookup pid = some SYSCALL_UNDEFINED)
    (hothers' : ∀ tid ≠ pid, t₀.syscallStateMap.lookup tid = t.tracer.syscallStateMap.lookup tid)
    (hkernel' : t'.kernel = t'.tracer.resumes.foldl Kernel.resume k₁)
    (hk₁ : ∀ tid, k₁.tasks.lookup tid = (t.kernel.setTask pid q₁).tasks.lookup tid)
    (hq₁ : q₁ = { q with
      request := none
      inside := some (syscallRegs arch registers).nr
      picked := q₁.picked
      dying := false }) : Beside cfg s' t' := by
  obtain ⟨hstop, hnone, hregs, hatEntry, htraces⟩ := hentry
  obtain ⟨hstopped, hkernel⟩ := hstop.stopped hstep hpermit
  obtain ⟨htraced, hcalls⟩ := step_ok hstep
  have hinside : p.inside = none := by
    rw [hstop.beside.inside, hnone]
    rfl
  have hnumber := getSyscallNumber_entry hatEntry
  rw [hregs] at hstopped
  have hafter := hstopped.entry rfl hstop.value
  have hafter' := hstopped'.entry hresumes hvalue
  have hothers := AtStop.recorded_others s.calls pid os ptrace
  have hself : s'.calls.lookup pid = some (syscallRegs arch registers) := by
    rw [hcalls, AtStop.recorded_self s.calls os hregs, hnone]
    rfl
  rw [← hcalls] at hothers
  have hasks : asksFor arch (s'.calls.lookup pid) = true := by
    rw [hself]
    exact htraces
  have hinside' : q₁.inside = some (syscallRegs arch registers).nr := by rw [hq₁]
  have hnew : Task.Beside arch (s'.calls.lookup pid) (p.noticed cfg.plain ptrace .syscallStop)
      q₁ := by
    rw [hself, hq₁]
    refine ⟨hstop.beside.group, hstop.beside.newborn, hstop.beside.fresh, hstop.beside.announced,
      ?_, fun _ => rfl, ?_, fun _ hno => by cases hno⟩
    · simp only [Task.noticed, insideAfter, hregs, hinside]
      rfl
    · rintro (hno | hno)
      · exact absurd (hstop.announced.symm.trans hno) Bool.true_eq_false.mp
      · exact absurd (hstop.fresh.symm.trans hno) Bool.false_ne_true
  have hkernels := (h.kernels.setTask hothers hnew).congr hk₁
  refine ⟨h.paired.step hpermit hkeeps htraced, habreast.begin, ?_, fun tid hyes => ?_,
    fun hver tid w hno hw => ?_⟩
  · rw [hkernel, hkernel']
    refine hkernels.resumes habreast.resumed habreast.requests fun r hr p' q' hp' hq' => ?_
    obtain ⟨hpid, hrequest⟩ := hafter'.resumed r hr
    rw [hpid, Kernel.setTask_lookup, if_pos rfl] at hp'
    rw [hpid, hk₁, Kernel.setTask_lookup, if_pos rfl] at hq'
    cases hp'
    cases hq'
    rw [hpid]
    refine hnew.resumed (by rw [hq₁]) hstop.announced (fun _ => ?_) fun _ _ => ?_
    · -- the number is no marker, so the exit is waited for
      have hnonneg := listed_nonneg (listed_of_filterTraces htraces)
      have hundefined : SYSCALL_UNDEFINED = -1 := rfl
      have hne : asInt (syscallRegs arch registers).nr ≠ SYSCALL_UNDEFINED := by omega
      rw [hrequest, hnumber, bne_iff_ne.mpr hne, hasks]
      rfl
    · simp only [Task.noticed, insideAfter, hregs, hinside, hinside']
      rfl
  · rw [hafter.states, hafter'.states, PidMap.lookup_insert, PidMap.lookup_insert]
    split
    · rfl
    · rename_i htid
      rw [hothers tid htid] at hyes
      rw [hothers' tid htid]
      exact h.kept tid hyes
  · by_cases htid : tid = pid
    · rw [htid, hasks] at hno
      cases hno
    · rw [hafter'.states, PidMap.lookup_insert, if_neg htid, hothers' tid htid] at hw
      rw [hothers tid htid] at hno
      exact h.undefined hver tid w hno hw

/-- With the new order the stop of the filter is the entry stop. -/
theorem Beside.enter_new (h : Beside cfg s t) {registers : UserRegs arch}
    (hentry : AtEntry s t pid ptrace p q registers) (hver : cfg.secCompVer = .SEC_COMP_V2)
    (hpermit : s.Permitted cfg (.notice pid .syscallStop os ptrace))
    (hkeeps : s.traced.keepsParity cfg.plain (.notice pid .syscallStop os ptrace) = true)
    (hstep : s.step cfg (.notice pid .syscallStop os ptrace) = .ok s') :
    ∃ t', t.step cfg.filtered
      (.notice pid .secComp os { ptrace with eventMsg := .ok 0 }) = .ok t' ∧ Beside cfg s' t' := by
  obtain ⟨htraced, _⟩ := step_ok hstep
  obtain ⟨tracer, hturn, hrest⟩ := bind_eq_ok_iff.mp htraced
  rw [pure_eq_ok_iff] at hrest
  have hpid := hentry.stop.mem
  have hpid' := (h.states pid).mpr hpid
  generalize hptrace' : ({ ptrace with eventMsg := .ok 0 } : Ptrace arch) = ptrace'
  have hregs' : ptrace'.regs = ptrace.regs := by rw [← hptrace']
  have hmsg : ptrace'.eventMsg = .ok 0 := by rw [← hptrace']
  have hsetRegs : ptrace'.setRegs = ptrace.setRegs := by rw [← hptrace']
  have hresume : ptrace'.resume = ptrace.resume := by rw [← hptrace']
  have hpermit' : t.Permitted cfg.filtered (.notice pid .secComp os ptrace') :=
    hentry.secComp_permitted cfg hmsg hregs'
  have hver' : cfg.filtered.secCompVer = .SEC_COMP_V2 := hver
  have habreast : s.traced.tracer.begin.Abreast
      (t.tracer.begin.setSyscallState pid SYSCALL_UNDEFINED) := h.tracers.setRight hpid _
  have hmatch : Match Tracer.Abreast
      (s.traced.tracer.turn cfg.plain os ptrace (.status pid Notice.syscallStop.status))
      (t.tracer.turn cfg.filtered os ptrace' (.status pid Notice.secComp.status)) := by
    rw [Tracer.turn_syscallStop hpid hentry.read,
      Tracer.turn_secComp_new hpid' hmsg hver' (hregs'.trans hentry.read)]
    simp only [Tracer.syscallStopped_answers hsetRegs, Tracer.restart_answers hresume]
    refine (habreast.syscallStopped ?_ registers).bind fun _ _ h => h.restart pid true 0
    exact (Tracer.setSyscallState_lookup _).trans hentry.stop.value.symm
  rw [hturn] at hmatch
  obtain ⟨tracer', hturn', habreast'⟩ := hmatch.of_ok
  have hstep' : t.step cfg.filtered (.notice pid .secComp os ptrace') = .ok ⟨tracer',
      tracer'.resumes.foldl Kernel.resume (t.kernel.noticed cfg.filtered pid ptrace' .secComp)⟩ := by
    simp only [Traced.step, hturn', bind_ok, pure, Except.pure]
  obtain ⟨hturned', hkernel'⟩ := Traced.step_notice hpermit' hstep'
  have hgone : ptrace'.eventMsg.isGone = false := by
    rw [hmsg]
    rfl
  have hstopped' := hturned'.of_secComp hpid' hver' hgone
  rw [hregs', hentry.read] at hstopped'
  have hplain : Tracer.Plain .secComp := trivial
  refine ⟨_, hstep', h.entered hentry hpermit hkeeps hstep (hrest ▸ habreast') hstopped' rfl
    (Tracer.setSyscallState_lookup _) (fun tid htid => Finmap.lookup_insert_of_ne _ htid) hkernel'
    (fun tid => by rw [(noticed_plain cfg.filtered hentry.stop.task' hplain).1]) ?_⟩
  simp only [Task.noticed, insideAfterSecComp, hregs', hentry.read, hver, hgone]
  rfl

/-- With the old order the tracee goes on from the stop of the filter to the entry stop. -/
theorem Beside.pick_old (h : Beside cfg s t) {registers : UserRegs arch}
    (hentry : AtEntry s t pid ptrace p q registers) (hver : cfg.secCompVer = .SEC_COMP_V1) (os : Os) :
    t.Permitted cfg.filtered (.notice pid .secComp os
      { ptrace with eventMsg := .ok 0, resume := fun _ => .ok () }) ∧ ∃ t₁,
      t.step cfg.filtered (.notice pid .secComp os
        { ptrace with eventMsg := .ok 0, resume := fun _ => .ok () }) = .ok t₁ ∧
      t₁.tracer.begin = t.tracer.begin ∧
      ∀ tid, t₁.kernel.tasks.lookup tid = (t.kernel.setTask pid { q with
        request := some .syscall
        inside := none
        picked := true
        dying := false }).tasks.lookup tid := by
  have hpid' := (h.states pid).mpr hentry.stop.mem
  have hver' : cfg.filtered.secCompVer = .SEC_COMP_V1 := hver
  have hplain : Tracer.Plain .secComp := trivial
  obtain ⟨_, hinside⟩ := hentry.running
  generalize hptrace' : ({ ptrace with eventMsg := .ok 0, resume := fun _ => .ok () } :
    Ptrace arch) = ptrace'
  have hregs' : ptrace'.regs = ptrace.regs := by rw [← hptrace']
  have hmsg : ptrace'.eventMsg = .ok 0 := by rw [← hptrace']
  have hresume : ptrace'.resume pid = .ok () := by rw [← hptrace']
  have hturn : t.tracer.turn cfg.filtered os ptrace' (.status pid Notice.secComp.status) =
      .ok { t.tracer.begin with resumes := [⟨pid, .syscall, 0⟩] } :=
    Tracer.turn_secComp_old hpid' hmsg hver' hresume
  have hstep : t.step cfg.filtered (.notice pid .secComp os ptrace') = .ok
      ⟨{ t.tracer.begin with resumes := [⟨pid, .syscall, 0⟩] },
        (t.kernel.noticed cfg.filtered pid ptrace' .secComp).resume ⟨pid, .syscall, 0⟩⟩ := by
    simp only [Traced.step, hturn, bind_ok, pure, Except.pure]
    rfl
  have hresumed : (q.noticed cfg.filtered ptrace' .secComp).resumed .syscall = { q with
      request := some .syscall
      inside := none
      picked := true
      dying := false } := by
    simp [Task.noticed, Task.resumed, insideAfterSecComp, hregs', hentry.read, hver, hmsg, hinside,
      hentry.alive.2.2, Reply.isGone]
  refine ⟨hentry.secComp_permitted cfg hmsg hregs', _, hstep, rfl, fun tid => ?_⟩
  rw [(noticed_plain cfg.filtered hentry.stop.task' hplain).1]
  simp only [Kernel.resume, Kernel.setTask_lookup, if_true, hresumed]
  split <;> rfl

/-- The entry stop after a stop of the filter. -/
theorem Beside.entry_permitted {registers : UserRegs arch}
    (hentry : AtEntry s t pid ptrace p q registers) {t₁ : Traced arch Q}
    (hkernel₁ : ∀ tid, t₁.kernel.tasks.lookup tid = (t.kernel.setTask pid { q with
      request := some .syscall
      inside := none
      picked := true
      dying := false }).tasks.lookup tid) :
    t₁.Permitted cfg.filtered (.notice pid .syscallStop os ptrace) := by
  have hself := hkernel₁ pid
  rw [Kernel.setTask_lookup, if_pos rfl] at hself
  refine Kernel.permits_iff.mpr ⟨_, hself, ?_⟩
  simp [Kernel.permitsTask, Kernel.stopPermitted, hentry.alive.2.1, hentry.read, Reply.all,
    hentry.entry, hentry.traces]

theorem Beside.enter_old (h : Beside cfg s t) {registers : UserRegs arch}
    (hentry : AtEntry s t pid ptrace p q registers) (hver : cfg.secCompVer = .SEC_COMP_V1)
    (hpermit : s.Permitted cfg (.notice pid .syscallStop os ptrace))
    (hkeeps : s.traced.keepsParity cfg.plain (.notice pid .syscallStop os ptrace) = true)
    (hstep : s.step cfg (.notice pid .syscallStop os ptrace) = .ok s') {t₁ : Traced arch Q}
    (hbegin : t₁.tracer.begin = t.tracer.begin)
    (hkernel₁ : ∀ tid, t₁.kernel.tasks.lookup tid = (t.kernel.setTask pid { q with
      request := some .syscall
      inside := none
      picked := true
      dying := false }).tasks.lookup tid) :
    ∃ t', t₁.step cfg.filtered (.notice pid .syscallStop os ptrace) = .ok t' ∧
      Beside cfg s' t' := by
  obtain ⟨htraced, _⟩ := step_ok hstep
  obtain ⟨tracer, hturn, hrest⟩ := bind_eq_ok_iff.mp htraced
  rw [pure_eq_ok_iff] at hrest
  have hpid := hentry.stop.mem
  have hpid' := (h.states pid).mpr hpid
  have hpid₁ : pid ∈ t₁.tracer.syscallStateMap := by
    have hmem : pid ∈ t₁.tracer.begin.syscallStateMap := hbegin ▸ hpid'
    exact hmem
  obtain ⟨w, hw⟩ := Option.isSome_iff_exists.mp (Finmap.lookup_isSome.mpr hpid')
  have hasks : asksFor arch (s.calls.lookup pid) = false := by
    rw [hentry.outside]
    rfl
  have hvalue : t.tracer.begin.syscallStateMap.lookup pid = some SYSCALL_UNDEFINED :=
    h.undefined hver pid w hasks hw ▸ hw
  have hpermit' : t₁.Permitted cfg.filtered (.notice pid .syscallStop os ptrace) :=
    entry_permitted hentry hkernel₁
  have hmatch : Match Tracer.Abreast
      (s.traced.tracer.turn cfg.plain os ptrace (.status pid Notice.syscallStop.status))
      (t₁.tracer.turn cfg.filtered os ptrace (.status pid Notice.syscallStop.status)) := by
    rw [Tracer.turn_syscallStop hpid hentry.read, Tracer.turn_syscallStop hpid₁ hentry.read, hbegin]
    refine (h.tracers.syscallStopped ?_ registers).bind fun _ _ h => h.restart pid true 0
    exact hvalue.trans hentry.stop.value.symm
  rw [hturn] at hmatch
  obtain ⟨tracer', hturn', habreast'⟩ := hmatch.of_ok
  have hstep' : t₁.step cfg.filtered (.notice pid .syscallStop os ptrace) = .ok ⟨tracer',
      tracer'.resumes.foldl Kernel.resume
        (t₁.kernel.noticed cfg.filtered pid ptrace .syscallStop)⟩ := by
    simp only [Traced.step, hturn', bind_ok, pure, Except.pure]
  obtain ⟨hturned', hkernel'⟩ := Traced.step_notice hpermit' hstep'
  have hstopped' := hturned'.of_syscallStop hpid₁
  rw [hentry.read, hbegin] at hstopped'
  have hself := hkernel₁ pid
  rw [Kernel.setTask_lookup, if_pos rfl] at hself
  have hplain : Tracer.Plain .syscallStop := trivial
  have hk₁ : ∀ tid,
      (t₁.kernel.noticed cfg.filtered pid ptrace .syscallStop).tasks.lookup tid =
        (t.kernel.setTask pid { q with
          request := none
          inside := some (syscallRegs arch registers).nr
          picked := false
          dying := false }).tasks.lookup tid := by
    intro tid
    rw [(noticed_plain cfg.filtered hself hplain).1, Kernel.setTask_lookup, Kernel.setTask_lookup,
      hkernel₁, Kernel.setTask_lookup]
    split
    · simp only [Task.noticed, insideAfter, hentry.read]
      rfl
    · rfl
  exact ⟨_, hstep', h.entered hentry hpermit hkeeps hstep (hrest ▸ habreast') hstopped' rfl hvalue
    (fun _ _ => rfl) hkernel' hk₁ rfl⟩

/-! ## Births and the beginning -/

theorem Beside.start (cfg : TracerConfig) (c : Context Q) :
    Beside cfg (Recorded.start cfg c : Recorded arch Q) (Traced.start cfg.filtered c) := by
  refine ⟨Traced.Paired.start cfg.plain c, ⟨rfl, rfl, rfl, rfl, rfl, by simp [Tracer.begin],
    fun _ => Iff.rfl⟩, ⟨fun tid => ?_, fun _ _ => rfl⟩, fun tid hyes => ?_, fun _ tid w _ hw => ?_⟩
  · have hlookup : ∀ task : Task, (Finmap.singleton cfg.traceePid task : PidMap Task).lookup tid =
        if tid = cfg.traceePid then some task else none := by
      intro task
      by_cases htid : tid = cfg.traceePid
      · rw [if_pos htid, htid]
        exact Finmap.lookup_singleton_eq
      · rw [if_neg htid]
        exact Finmap.lookup_eq_none.mpr fun hno => htid ((Finmap.mem_singleton _ _ _).mp hno)
    simp only [Recorded.start, Traced.start, Kernel.start, hlookup]
    split
    · refine .some ⟨rfl, rfl, rfl, rfl, rfl, fun h => h, ?_, fun _ _ => ⟨rfl, rfl⟩⟩
      rintro (hno | hno)
      · cases hno
      · cases hno
    · exact .none
  · cases hyes
  · have htid : tid = cfg.traceePid :=
      (Finmap.mem_singleton _ _ _).mp (Finmap.mem_of_lookup_eq_some hw)
    subst htid
    have hw' : some SYSCALL_UNDEFINED = some w := Finmap.lookup_singleton_eq.symm.trans hw
    cases hw'
    rfl

theorem Beside.born_permitted (h : Beside cfg s t) {creator child : Pid} {isThread : Bool}
    (hpermit : s.Permitted cfg (.born creator child isThread)) :
    t.Permitted cfg.filtered (.born creator child isThread) := by
  have hallowed : s.traced.kernel.permits cfg.plain (.born creator child isThread : Input arch) =
    true := hpermit
  simp only [Kernel.permits, Bool.and_eq_true, Option.any_eq_true, Bool.not_eq_true',
    Option.isNone_iff_eq_none, decide_eq_true_iff] at hallowed
  obtain ⟨⟨⟨p, hp, ⟨hrequest, hdying⟩, hnewborn⟩, hchild⟩, hpos⟩ := hallowed
  obtain ⟨q, hq, hbeside⟩ := h.kernels.lookup hp
  have hchild' : child ∉ t.kernel.tasks := by
    intro hno
    obtain ⟨q', hq'⟩ := Option.isSome_iff_exists.mp (Finmap.lookup_isSome.mpr hno)
    obtain ⟨p', hp', _⟩ := h.kernels.lookup_back hq'
    exact hchild (Finmap.mem_of_lookup_eq_some hp')
  have hallowed' : t.kernel.permits cfg.filtered (.born creator child isThread : Input arch) =
      true := by
    simp only [Kernel.permits, Bool.and_eq_true, Option.any_eq_true, Bool.not_eq_true',
      Option.isNone_iff_eq_none, decide_eq_true_iff]
    refine ⟨⟨⟨q, hq, ⟨?_, hbeside.dying hdying⟩, hbeside.newborn.trans hnewborn⟩, hchild'⟩, hpos⟩
    rw [(hbeside.running hdying hrequest).1]
    rfl
  exact hallowed'

theorem Beside.born (h : Beside cfg s t) {creator child : Pid} {isThread : Bool}
    (hpermit : s.Permitted cfg (.born creator child isThread))
    (hordinary : s.ordinary cfg (.born creator child isThread : Input arch) = true)
    (hstep : s.step cfg (.born creator child isThread) = .ok s') :
    ∃ t', t.step cfg.filtered (.born creator child isThread) = .ok t' ∧ Beside cfg s' t' := by
  obtain ⟨htraced, hcalls⟩ := step_ok hstep
  simp only [ordinary, Bool.and_true] at hordinary
  have hpaired := h.paired.step hpermit hordinary htraced
  have hallowed : s.traced.kernel.permits cfg.plain (.born creator child isThread : Input arch) =
    true := hpermit
  simp only [Kernel.permits, Bool.and_eq_true, Option.any_eq_true, decide_eq_true_iff] at hallowed
  obtain ⟨⟨⟨p, hp, _⟩, hchild⟩, _⟩ := hallowed
  have hnone : s.calls.lookup child = none :=
    h.kernels.absent child (Finmap.lookup_eq_none.mpr hchild)
  have hsame : s'.calls = s.calls := hcalls
  have hnew : { s.traced with kernel := s.traced.kernel.born creator child isThread } = s'.traced :=
    Except.ok.inj htraced
  refine ⟨_, rfl, hpaired, ?_, ?_, ?_, ?_⟩
  · rw [← hnew]
    exact h.tracers
  · rw [← hnew, hsame]
    exact h.kernels.born hp hnone isThread
  · rw [← hnew, hsame]
    exact h.kept
  · rw [hsame]
    exact h.undefined

/-! ## Whole runs -/

/-- What is reported of a syscall stop. -/
theorem reported_cases (cfg : TracerConfig) (s : Recorded arch Q) (pid : Pid) (os : Os)
    (ptrace : Ptrace arch) :
    (asksFor arch (s.calls.lookup pid) = true ∧
      reported cfg s (.notice pid .syscallStop os ptrace) = [.notice pid .syscallStop os ptrace]) ∨
    (∃ registers, s.calls.lookup pid = none ∧ ptrace.regs = .ok registers ∧
      filterTraces arch (syscallRegs arch registers) = true ∧
      reported cfg s (.notice pid .syscallStop os ptrace) = picked cfg pid os ptrace) ∨
    (asksFor arch (s.calls.lookup pid) = false ∧
      (s.calls.lookup pid = none → ∀ registers, ptrace.regs = .ok registers →
        filterTraces arch (syscallRegs arch registers) = false) ∧
      reported cfg s (.notice pid .syscallStop os ptrace) = []) := by
  cases hentry : s.calls.lookup pid with
  | some entry =>
    cases htraces : filterTraces arch entry with
    | true => exact Or.inl ⟨htraces, by simp only [reported, hentry, htraces, if_true]⟩
    | false =>
      refine Or.inr (Or.inr ⟨htraces, nofun, ?_⟩)
      simp only [reported, hentry, htraces, Bool.false_eq_true, if_false]
  | none =>
    cases hregs : ptrace.regs with
    | ok registers =>
      cases htraces : filterTraces arch (syscallRegs arch registers) with
      | true =>
        refine Or.inr (Or.inl ⟨registers, rfl, rfl, htraces, ?_⟩)
        simp only [reported, hentry, hregs, htraces, if_true]
      | false =>
        refine Or.inr (Or.inr ⟨rfl, fun _ registers' hok => ?_, ?_⟩)
        · cases hok
          exact htraces
        · simp only [reported, hentry, hregs, htraces, Bool.false_eq_true, if_false]
    | gone =>
      refine Or.inr (Or.inr ⟨rfl, fun _ _ => nofun, ?_⟩)
      simp only [reported, hentry, hregs]
    | failed =>
      refine Or.inr (Or.inr ⟨rfl, fun _ _ => nofun, ?_⟩)
      simp only [reported, hentry, hregs]

/-- A notice that is no syscall stop. -/
theorem Beside.told (h : Beside cfg s t) {notice : Notice}
    (hpermit : s.Permitted cfg (.notice pid notice os ptrace))
    (hordinary : s.ordinary cfg (.notice pid notice os ptrace) = true)
    (hne : notice ≠ .syscallStop) (hstep : s.step cfg (.notice pid notice os ptrace) = .ok s') :
    ∃ t', t.step cfg.filtered (.notice pid notice os ptrace) = .ok t' ∧ Beside cfg s' t' := by
  have hpermit' := h.permitted hpermit hordinary hne
  have hpicked : notice ≠ .secComp := by
    rintro rfl
    obtain ⟨_, _, hallowed⟩ := Kernel.permits_iff.mp hpermit
    simp only [Kernel.permitsTask, Bool.and_eq_true] at hallowed
    cases (Optrace.secComp_permitted hallowed.2).1
  obtain ⟨t', hstep', hpassed⟩ :=
    h.pass hpermit hordinary hpermit' hpicked (fun hno => absurd hno hne) hstep
  refine ⟨t', hstep', ?_⟩
  cases notice with
  | exited code => exact hpassed.dead h hpermit rfl
  | killed sig core => exact hpassed.dead h hpermit rfl
  | signalStop sig => exact hpassed.signalled h hpermit
  | syscallStop => exact absurd rfl hne
  | cloned event nr =>
    cases htold : Optrace.told ptrace event with
    | true => exact hpassed.arrived h hpermit hordinary htold
    | false => exact hpassed.untold h hpermit hordinary htold
  | execed former nr => exact hpassed.execed h hpermit hordinary
  | exiting => exact hpassed.exiting h hpermit
  | secComp => exact absurd rfl hpicked

/-- The calls the filter asks for are entered in both runs. -/
theorem Beside.enter (h : Beside cfg s t) {registers : UserRegs arch}
    (hpermit : s.Permitted cfg (.notice pid .syscallStop os ptrace))
    (hordinary : s.ordinary cfg (.notice pid .syscallStop os ptrace) = true)
    (hnone : s.calls.lookup pid = none) (hregs : ptrace.regs = .ok registers)
    (htraces : filterTraces arch (syscallRegs arch registers) = true) :
    Runs.Along (Traced.step cfg.filtered) (Traced.Permitted cfg.filtered) t
      (picked cfg pid os ptrace) ∧
    ∀ s', s.step cfg (.notice pid .syscallStop os ptrace) = .ok s' →
      ∃ t', Runs.run (Traced.step cfg.filtered) t (picked cfg pid os ptrace) = .ok t' ∧
        Beside cfg s' t' := by
  obtain ⟨p, q, v, hstop⟩ := h.atStop hpermit
  have hentry := hstop.atEntry hnone hregs htraces
  simp only [ordinary, Bool.and_eq_true] at hordinary
  cases hver : cfg.secCompVer with
  | SEC_COMP_V2 =>
    simp only [picked, hver]
    refine ⟨⟨hentry.secComp_permitted cfg rfl rfl, fun _ _ => trivial⟩, fun s' hstep => ?_⟩
    obtain ⟨t', hstep', hbeside⟩ := h.enter_new hentry hver hpermit hordinary.1 hstep
    exact ⟨t', Runs.run_cons_ok_iff.mpr ⟨t', hstep', rfl⟩, hbeside⟩
  | SEC_COMP_V1 =>
    simp only [picked, hver]
    obtain ⟨hpermit', t₁, hstep₁, hbegin, hkernel₁⟩ := h.pick_old hentry hver os
    refine ⟨⟨hpermit', fun t₂ hstep₂ => ⟨?_, fun _ _ => trivial⟩⟩, fun s' hstep => ?_⟩
    · rw [hstep₁] at hstep₂
      cases hstep₂
      exact entry_permitted hentry hkernel₁
    · obtain ⟨t', hstep', hbeside⟩ :=
        h.enter_old hentry hver hpermit hordinary.1 hstep hbegin hkernel₁
      exact ⟨t', Runs.run_cons_ok_iff.mpr ⟨t₁, hstep₁, Runs.run_cons_ok_iff.mpr ⟨t', hstep', rfl⟩⟩,
        hbeside⟩

theorem reported_other {notice : Notice} (hne : notice ≠ .syscallStop) :
    reported cfg s (.notice pid notice os ptrace) = [.notice pid notice os ptrace] := by
  cases notice with
  | syscallStop => exact absurd rfl hne
  | _ => rfl

/-- A turn that returns ends both runs, and is no syscall stop. -/
theorem Beside.returned (h : Beside cfg s t) {notice : Notice} {e : Stop}
    (hpermit : s.Permitted cfg (.notice pid notice os ptrace))
    (hfails : s.step cfg (.notice pid notice os ptrace) = .error e) (he : Early e) :
    notice ≠ .syscallStop ∧ t.step cfg.filtered (.notice pid notice os ptrace) = .error e := by
  have hturn : s.traced.tracer.turn cfg.plain os ptrace (.status pid notice.status) = .error e := by
    cases hturn : s.traced.tracer.turn cfg.plain os ptrace (.status pid notice.status) with
    | error e' =>
      simp only [step, Traced.step, hturn] at hfails
      have hsame : (.error e' : Except Stop (Recorded arch Q)) = .error e := hfails
      cases hsame
      rfl
    | ok tracer =>
      simp only [step, Traced.step, hturn, bind_ok, pure, Except.pure] at hfails
      cases hfails
  have hne : notice ≠ .syscallStop := by
    rintro rfl
    rw [Tracer.turn_status _ (by decide)] at hturn
    exact Tracer.stopped_early _ e hturn he
  have hpicked : notice ≠ .secComp := by
    rintro rfl
    obtain ⟨_, _, hallowed⟩ := Kernel.permits_iff.mp hpermit
    simp only [Kernel.permitsTask, Bool.and_eq_true] at hallowed
    cases (Optrace.secComp_permitted hallowed.2).1
  have hmatch : Match Tracer.Abreast
      (s.traced.tracer.turn cfg.plain os ptrace (.status pid notice.status))
      (t.tracer.turn cfg.filtered os ptrace (.status pid notice.status)) :=
    h.match_turn os (Kernel.permits_fits hpermit) hpicked fun hno => absurd hno hne
  rw [hturn] at hmatch
  refine ⟨hne, ?_⟩
  simp only [Traced.step, hmatch.of_error]
  rfl

/-- The run with the filter simulates the run without. -/
theorem simulates (cfg : TracerConfig) :
    Runs.Simulates (step cfg : Recorded arch Q → Input arch → Except Stop (Recorded arch Q))
      (Traced.step cfg.filtered) (fun s input => s.Permitted cfg input ∧ s.ordinary cfg input = true)
      (Traced.Permitted cfg.filtered) Early (reported cfg) (Beside cfg) where
  permitted := by
    rintro s t input h ⟨hpermit, hordinary⟩
    cases input with
    | born creator child isThread => exact ⟨h.born_permitted hpermit, fun _ _ => trivial⟩
    | notice pid notice os ptrace =>
      by_cases hstop : notice = .syscallStop
      · subst hstop
        rcases reported_cases cfg s pid os ptrace with
          ⟨hasks, hr⟩ | ⟨registers, hnone, hregs, htraces, hr⟩ | ⟨_, _, hr⟩
        · rw [hr]
          exact ⟨h.exit_permitted hpermit hasks, fun _ _ => trivial⟩
        · rw [hr]
          exact (h.enter hpermit hordinary hnone hregs htraces).1
        · rw [hr]
          trivial
      · rw [reported_other hstop]
        exact ⟨h.permitted hpermit hordinary hstop, fun _ _ => trivial⟩
  steps := by
    rintro s t input s' h ⟨hpermit, hordinary⟩ hstep
    cases input with
    | born creator child isThread =>
      obtain ⟨t', hstep', hbeside⟩ := h.born hpermit hordinary hstep
      exact ⟨t', Runs.run_cons_ok_iff.mpr ⟨t', hstep', rfl⟩, hbeside⟩
    | notice pid notice os ptrace =>
      by_cases hstop : notice = .syscallStop
      · subst hstop
        rcases reported_cases cfg s pid os ptrace with
          ⟨hasks, hr⟩ | ⟨registers, hnone, hregs, htraces, hr⟩ | ⟨hasks, hentry, hr⟩
        · obtain ⟨t', hstep', hpassed⟩ := h.pass hpermit hordinary (h.exit_permitted hpermit hasks)
            nofun (fun _ => h.kept pid hasks) hstep
          rw [hr]
          exact ⟨t', Runs.run_cons_ok_iff.mpr ⟨t', hstep', rfl⟩, hpassed.left h hpermit hasks⟩
        · rw [hr]
          exact (h.enter hpermit hordinary hnone hregs htraces).2 s' hstep
        · rw [hr]
          exact ⟨t, rfl, h.passBy hpermit hordinary hasks hentry hstep⟩
      · obtain ⟨t', hstep', hbeside⟩ := h.told hpermit hordinary hstop hstep
        rw [reported_other hstop]
        exact ⟨t', Runs.run_cons_ok_iff.mpr ⟨t', hstep', rfl⟩, hbeside⟩
  fails := by
    rintro s t input e h ⟨hpermit, _⟩ hfails he
    cases input with
    | born creator child isThread => cases hfails
    | notice pid notice os ptrace =>
      obtain ⟨hstop, hfails'⟩ := h.returned hpermit hfails he
      rw [reported_other hstop]
      simp only [Runs.run, hfails']

/-- The words of the calls are kept beside the run. -/
theorem run_traced {traced : Traced arch Q} {inputs : List (Input arch)}
    (h : Runs.run (Traced.step cfg.plain) s.traced inputs = .ok traced) :
    Runs.run (step cfg) s inputs = .ok ⟨traced, inputs.foldl recorded s.calls⟩ := by
  induction inputs generalizing s with
  | nil =>
    cases h
    rfl
  | cons input inputs ih =>
    obtain ⟨next, hnext, hrest⟩ := Runs.run_cons_ok_iff.mp h
    have hstep : s.step cfg input = .ok ⟨next, recorded s.calls input⟩ := by
      simp only [step, hnext, bind_ok, pure, Except.pure]
    exact Runs.run_cons_ok_iff.mpr ⟨_, hstep, ih hrest⟩

theorem run_traced_error {inputs : List (Input arch)} {e : Stop}
    (h : Runs.run (Traced.step cfg.plain) s.traced inputs = .error e) :
    Runs.run (step cfg) s inputs = .error e := by
  induction inputs generalizing s with
  | nil => cases h
  | cons input inputs ih =>
    cases hnext : s.traced.step cfg.plain input with
    | error e' =>
      simp only [Runs.run, hnext] at h
      cases h
      simp only [Runs.run, step, hnext]
      rfl
    | ok next =>
      have hstep : s.step cfg input = .ok ⟨next, recorded s.calls input⟩ := by
        simp only [step, hnext, bind_ok, pure, Except.pure]
      simp only [Runs.run, hnext] at h
      simp only [Runs.run, hstep]
      exact ih h

theorem run_not_minusTwo {inputs : List (Input arch)} (hs : s.traced.Paired cfg.plain)
    (hordinary : Runs.Along (step cfg)
      (fun s input => s.Permitted cfg input ∧ s.ordinary cfg input = true) s inputs) :
    Runs.run (step cfg) s inputs ≠ .error (.returned (-2)) := by
  have havoids : (Runs.run (step cfg) s inputs).Avoids (· = .returned (-2)) := by
    have hkeeps : ∀ (s : Recorded arch Q) input s', s.traced.Paired cfg.plain →
        (s.Permitted cfg input ∧ s.ordinary cfg input = true) → s.step cfg input = .ok s' →
        s'.traced.Paired cfg.plain := by
      rintro s input s' hs ⟨hpermit, hordinary⟩ hstep
      simp only [ordinary, Bool.and_eq_true] at hordinary
      exact hs.step hpermit hordinary.1 (step_ok hstep).1
    refine Runs.run_avoids hkeeps ?_ hs hordinary
    rintro s input hs ⟨hpermit, hordinary⟩
    simp only [ordinary, Bool.and_eq_true] at hordinary
    exact (hs.avoids hpermit hordinary.1).bind fun _ _ => Avoids.ok _
  exact fun hno => havoids _ hno rfl

/-- Take a run without the filter in which the calls it lets through are left as they were entered
and are none of those that make tracees or exec. With the filter the kernel may report the stops that
are left, and then the tracker, the exit code and the tracees the tracer knows are the same in the
end. Where the one run returns so does the other, with the same code. -/
theorem filter_changes_nothing {c : Context Q} {inputs : List (Input arch)}
    (hordinary : Runs.Along (step cfg)
      (fun s input => s.Permitted cfg input ∧ s.ordinary cfg input = true)
      (start cfg c : Recorded arch Q) inputs) :
    Runs.Along (Traced.step cfg.filtered) (Traced.Permitted cfg.filtered)
      (Traced.start cfg.filtered c : Traced arch Q)
      (Runs.answers (step cfg) (reported cfg) (start cfg c : Recorded arch Q) inputs) ∧
    (∀ s, Runs.run (Traced.step cfg.plain) (Traced.start cfg.plain c : Traced arch Q) inputs = .ok s →
      ∃ t, Runs.run (Traced.step cfg.filtered) (Traced.start cfg.filtered c : Traced arch Q)
          (Runs.answers (step cfg) (reported cfg) (start cfg c : Recorded arch Q) inputs) = .ok t ∧
        t.tracer.context = s.tracer.context ∧
        t.tracer.traceeExitCode = s.tracer.traceeExitCode ∧
        t.tracer.suspendedThreads = s.tracer.suspendedThreads ∧
        ∀ tid, tid ∈ t.tracer.syscallStateMap ↔ tid ∈ s.tracer.syscallStateMap) ∧
    ∀ code, Runs.run (Traced.step cfg.plain) (Traced.start cfg.plain c : Traced arch Q) inputs =
        .error (.returned code) →
      Runs.run (Traced.step cfg.filtered) (Traced.start cfg.filtered c : Traced arch Q)
        (Runs.answers (step cfg) (reported cfg) (start cfg c : Recorded arch Q) inputs) =
          .error (.returned code) := by
  have hstart : Beside cfg (start cfg c : Recorded arch Q) (Traced.start cfg.filtered c) :=
    Beside.start cfg c
  have hsimulates := @simulates Q _ arch cfg
  refine ⟨hsimulates.along hstart hordinary, fun s hrun => ?_, fun code hrun => ?_⟩
  · have hrecorded := run_traced (s := start cfg c) hrun
    obtain ⟨t, ht, hbeside⟩ := hsimulates.run_ok hstart hordinary hrecorded
    exact ⟨t, ht, hbeside.tracers.context, hbeside.tracers.exitCode, hbeside.tracers.suspended,
      hbeside.states⟩
  · have hrecorded := run_traced_error (s := start cfg c) hrun
    have hcode : code ≠ -2 := by
      rintro rfl
      exact run_not_minusTwo hstart.paired hordinary hrecorded
    exact hsimulates.run_error hstart hordinary hrecorded ⟨code, hcode, rfl⟩

/-- The tracee asks for its pid, creates a file and forks. The child closes the file and exits. -/
def forkAfterCreat : List (Input .x86_64) :=
  [entryOf 1 39, exitStopOf 1 39 1, entryOf 1 85, exitStopOf 1 85 3, entryOf 1 57, .born 1 2 false,
    .notice 2 (.signalStop 19) (plainOs 0) (plainPtrace 0 0 (entryRegs 0)),
    .notice 1 (.cloned .fork 57) (plainOs 0) (plainPtrace 2 0 (entryRegs 0)),
    exitStopOf 1 57 2, entryOf 2 3, exitStopOf 2 3 0,
    .notice 2 (.exited 0) (plainOs 0) (plainPtrace 0 0 (entryRegs 0))]

open FileStorage in
theorem filter_changes_nothing_fork :
    ∃ s t : Traced .x86_64 FileQueue,
      Runs.run (Traced.step oldOrder.plain) (Traced.start oldOrder.plain plainStart)
        forkAfterCreat = .ok s ∧
      Runs.run (Traced.step oldOrder.filtered) (Traced.start oldOrder.filtered plainStart)
        (Runs.answers (step oldOrder) (reported oldOrder) (start oldOrder plainStart)
          forkAfterCreat) = .ok t ∧
      t.tracer.context = s.tracer.context ∧
      (Runs.answers (step oldOrder) (reported oldOrder)
        (start oldOrder plainStart : Recorded .x86_64 FileQueue) forkAfterCreat).length = 10 := by
  have hagree := @filter_changes_nothing FileQueue _ .x86_64 oldOrder plainStart forkAfterCreat
    (by decide)
  obtain ⟨t, ht, hcontext, _⟩ := hagree.2.1 _ rfl
  exact ⟨_, t, rfl, ht, hcontext, by decide⟩

end Recorded

end Optrace
