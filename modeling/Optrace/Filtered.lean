import Optrace.Abreast
import Optrace.ExitCode

/-!
# Tracing with the filter and without

Without seccomp the tracer stops at the entry and the exit of every call. With the filter it stops at
the calls `SyscallExit` has a case for, after a stop of the filter or at one. Whatever a run without
the filter is given, the run with it is given less, and the tracker gets to be told the same.
-/

namespace Optrace

set_option autoImplicit false
set_option linter.unusedSectionVars false

open Except

/-! ## The stops the filter leaves -/

/-- A run without the filter, with the words of the calls the tracees are in. -/
structure Recorded (arch : Arch) (Q : Type) where
  traced : Traced arch Q
  calls : PidMap SyscallRegs

namespace Recorded

variable {Q : Type} [MaxOutFilesQueue Q] {arch : Arch}

def start (cfg : TracerConfig) (c : Context Q) : Recorded arch Q :=
  ⟨Traced.start cfg.plain c, ∅⟩

/-- An exec by another thread than the leader hands its call over. -/
def recorded (calls : PidMap SyscallRegs) : Input arch → PidMap SyscallRegs
  | .notice pid .syscallStop _ ptrace =>
    match ptrace.regs with
    | .ok registers =>
      if pid ∈ calls then calls.erase pid else calls.insert pid (syscallRegs arch registers)
    | _ => calls
  | .notice pid (.execed former _) _ _ =>
    match calls.lookup former with
    | some entry => (calls.erase former).insert pid entry
    | none => calls
  | .notice pid (.exited _) _ _ => calls.erase pid
  | .notice pid (.killed _ _) _ _ => calls.erase pid
  | _ => calls

def step (cfg : TracerConfig) (s : Recorded arch Q) (input : Input arch) :
    Except Stop (Recorded arch Q) := do
  let traced ← s.traced.step cfg.plain input
  return ⟨traced, recorded s.calls input⟩

/-- The stops for a call the filter asks for: the old order has the stop of the filter before the
entry stop, the new one instead. -/
def picked (cfg : TracerConfig) (pid : Pid) (os : Os) (ptrace : Ptrace arch) : List (Input arch) :=
  match cfg.secCompVer with
  | .SEC_COMP_V1 =>
    [.notice pid .secComp os { ptrace with eventMsg := .ok 0, resume := fun _ => .ok () },
      .notice pid .syscallStop os ptrace]
  | .SEC_COMP_V2 => [.notice pid .secComp os { ptrace with eventMsg := .ok 0 }]

/-- What the kernel reports of a step with the filter installed. -/
def reported (cfg : TracerConfig) (s : Recorded arch Q) : Input arch → List (Input arch)
  | .notice pid .syscallStop os ptrace =>
    match s.calls.lookup pid with
    | some entry => if filterTraces arch entry then [.notice pid .syscallStop os ptrace] else []
    | none =>
      match ptrace.regs with
      | .ok registers =>
        if filterTraces arch (syscallRegs arch registers) then picked cfg pid os ptrace else []
      | _ => []
  | input => [input]

def Permitted (cfg : TracerConfig) (s : Recorded arch Q) (input : Input arch) : Prop :=
  s.traced.Permitted cfg.plain input

instance (cfg : TracerConfig) (s : Recorded arch Q) (input : Input arch) :
    Decidable (s.Permitted cfg input) :=
  inferInstanceAs (Decidable (s.traced.Permitted cfg.plain input))

/-- Entries and exits are told apart; a call the filter lets through is left as it was entered, and
not as an `F_DUPFD`; the calls of the switch make no tracee and exec nothing; the flags of a clone do
not read as negative. With the old order of stops a leader is in no such call when another thread
execs. -/
def ordinary (cfg : TracerConfig) (s : Recorded arch Q) (input : Input arch) : Bool :=
  s.traced.keepsParity cfg.plain input &&
    match input with
    | .notice pid .syscallStop _ ptrace =>
      (s.calls.lookup pid).all fun entry => filterTraces arch entry ||
        ptrace.regs.all fun registers => leavesAs arch entry (syscallRegs arch registers)
    | .notice _ (.cloned event nr) _ ptrace =>
      !listed arch nr && !Traced.negativeFlags ptrace event
    | .notice pid (.execed former nr) _ _ => !listed arch nr &&
      (former == pid || cfg.secCompVer == .SEC_COMP_V2 ||
        !(s.calls.lookup pid).any (filterTraces arch))
    | _ => true

end Recorded

/-! ## The tracees -/

/-- The tracee is in a call the filter asked for. -/
def asksFor (arch : Arch) (entry : Option SyscallRegs) : Bool := entry.any (filterTraces arch)

/-- A tracee in a run without the filter, and the same in a run with it. -/
structure Task.Beside (arch : Arch) (entry : Option SyscallRegs) (p q : Task) : Prop where
  group : q.group = p.group
  newborn : q.newborn = p.newborn
  fresh : q.fresh = p.fresh
  announced : q.announced = p.announced
  inside : p.inside = entry.map SyscallRegs.nr
  dying : p.dying = false → q.dying = false
  waiting : p.announced = false ∨ p.fresh = true → q.request = none ∧ q.inside = none
  running : p.dying = false → p.request.isSome = true →
    q.request = some (if asksFor arch entry then .syscall else .cont) ∧
      q.inside = if asksFor arch entry then p.inside else none

namespace Task.Beside

variable {arch : Arch} {entry : Option SyscallRegs} {p q : Task}

theorem resumed (h : Beside arch entry p q) (hq : q.request = none) (hannounced : p.announced = true)
    {request : Request} (hrequest : p.dying = false →
      request = if asksFor arch entry then .syscall else .cont)
    (hinside : p.dying = false → asksFor arch entry = true → q.inside = p.inside) :
    Beside arch entry (p.resumed .syscall) (q.resumed request) := by
  by_cases hfresh : p.fresh = true
  · have hsame : p.resumed .syscall = p := by simp [Task.resumed, hfresh]
    have hsame' : q.resumed request = q := by simp [Task.resumed, h.fresh, hfresh]
    rw [hsame, hsame']
    exact h
  · rw [Bool.not_eq_true] at hfresh
    have hp : (p.resumed .syscall).inside = p.inside := by
      unfold Task.resumed
      split <;> rfl
    refine ⟨?_, ?_, ?_, ?_, ?_, ?_, ?_, ?_⟩
    · rw [Task.resumed_group, Task.resumed_group, h.group]
    · rw [Task.resumed_newborn, Task.resumed_newborn, h.newborn]
    · rw [Task.resumed_fresh, Task.resumed_fresh, h.fresh]
    · rw [Task.resumed_announced, Task.resumed_announced, h.announced]
    · rw [hp, h.inside]
    · rw [Task.resumed_dying, Task.resumed_dying]
      exact h.dying
    · rw [Task.resumed_announced, Task.resumed_fresh, hannounced, hfresh]
      intro hno
      rcases hno with hno | hno
      · cases hno
      · cases hno
    · rw [Task.resumed_dying, hp]
      intro hdying _
      have hrequest := hrequest hdying
      subst hrequest
      refine ⟨by simp [Task.resumed, hq, h.fresh, hfresh], ?_⟩
      cases hasks : asksFor arch entry with
      | false => simp [Task.resumed, hq, h.fresh, hfresh]
      | true => simp [Task.resumed, hq, h.fresh, hfresh, hinside hdying hasks]

end Task.Beside

namespace Kernel

/-- A restart counts the first time. -/
theorem foldl_resume_find (rs : List Resume) (k : Kernel) (tid : Pid) :
    (rs.foldl resume k).tasks.lookup tid = (k.tasks.lookup tid).map fun task =>
      match rs.find? fun r => r.pid == tid with
      | some r => task.resumed r.request
      | none => task := by
  induction rs generalizing k with
  | nil => simp
  | cons r rs ih =>
    rw [List.foldl_cons, ih]
    have hresume : (k.resume r).tasks.lookup tid = (k.tasks.lookup tid).map fun task =>
        if r.pid = tid then task.resumed r.request else task := by
      unfold resume
      split
      · rename_i hnone
        by_cases htid : r.pid = tid
        · rw [← htid, hnone]
          rfl
        · simp [htid]
      · rename_i task htask
        rw [setTask_lookup]
        by_cases htid : tid = r.pid
        · rw [if_pos htid, htid, htask]
          simp
        · rw [if_neg htid]
          simp [Ne.symm htid]
    rw [hresume, Option.map_map]
    refine congrArg (fun f => (k.tasks.lookup tid).map f) (funext fun task => ?_)
    rw [List.find?_cons]
    by_cases htid : r.pid = tid
    · have hfound : (r.pid == tid) = true := beq_iff_eq.mpr htid
      simp only [Function.comp_apply, if_pos htid, hfound]
      split
      · exact task.resumed_resumed _ _
      · rfl
    · have hother : (r.pid == tid) = false := beq_eq_false_iff_ne.mpr htid
      simp only [Function.comp_apply, if_neg htid, hother]

theorem find_pids {rs rs' : List Resume} (h : rs'.map Resume.pid = rs.map Resume.pid) (tid : Pid) :
    (rs.find? (·.pid == tid) = none ∧ rs'.find? (·.pid == tid) = none) ∨
      ∃ r r', rs.find? (·.pid == tid) = some r ∧ rs'.find? (·.pid == tid) = some r' ∧
        r'.pid = tid := by
  have hmem : ∀ rs : List Resume, (rs.find? (·.pid == tid)).isSome = true ↔
      tid ∈ rs.map Resume.pid := by
    intro rs
    simp [List.find?_isSome]
  have hiff := (hmem rs').trans (h ▸ (hmem rs).symm)
  cases hr : rs.find? (·.pid == tid) with
  | none =>
    rw [hr] at hiff
    exact Or.inl ⟨rfl, Option.not_isSome_iff_eq_none.mp fun hyes =>
      Bool.false_ne_true (hiff.mp hyes)⟩
  | some r =>
    rw [hr] at hiff
    obtain ⟨r', hr'⟩ := Option.isSome_iff_exists.mp (hiff.mpr rfl)
    exact Or.inr ⟨r, r', rfl, hr', by simpa using List.find?_some hr'⟩

/-- The tracees of the two runs. -/
structure Beside (arch : Arch) (calls : PidMap SyscallRegs) (k l : Kernel) : Prop where
  tasks : ∀ tid, Option.Rel (Task.Beside arch (calls.lookup tid)) (k.tasks.lookup tid)
    (l.tasks.lookup tid)
  absent : ∀ tid, k.tasks.lookup tid = none → calls.lookup tid = none

namespace Beside

variable {cfg : TracerConfig} {arch : Arch} {calls : PidMap SyscallRegs} {k l : Kernel} {pid : Pid}
  {p q : Task} {ptrace : Ptrace arch}

theorem lookup (h : Beside arch calls k l) (hp : k.tasks.lookup pid = some p) :
    ∃ q, l.tasks.lookup pid = some q ∧ Task.Beside arch (calls.lookup pid) p q := by
  have htask := h.tasks pid
  rw [hp] at htask
  cases htask' : l.tasks.lookup pid with
  | none =>
    rw [htask'] at htask
    cases htask
  | some q =>
    rw [htask'] at htask
    cases htask with
    | some hbeside => exact ⟨q, rfl, hbeside⟩

theorem lookup_back (h : Beside arch calls k l) (hq : l.tasks.lookup pid = some q) :
    ∃ p, k.tasks.lookup pid = some p ∧ Task.Beside arch (calls.lookup pid) p q := by
  have htask := h.tasks pid
  rw [hq] at htask
  cases htask' : k.tasks.lookup pid with
  | none =>
    rw [htask'] at htask
    cases htask
  | some p =>
    rw [htask'] at htask
    cases htask with
    | some hbeside => exact ⟨p, rfl, hbeside⟩

/-- Restarts of the same tracees. -/
theorem resumes (h : Beside arch calls k l) {rs rs' : List Resume}
    (hpids : rs'.map Resume.pid = rs.map Resume.pid) (hplain : ∀ r ∈ rs, r.request = .syscall)
    (hresumed : ∀ r ∈ rs', ∀ p q, k.tasks.lookup r.pid = some p → l.tasks.lookup r.pid = some q →
      Task.Beside arch (calls.lookup r.pid) (p.resumed .syscall) (q.resumed r.request)) :
    Beside arch calls (rs.foldl resume k) (rs'.foldl resume l) := by
  refine ⟨fun tid => ?_, fun tid hnone => ?_⟩
  · have htask := h.tasks tid
    rw [foldl_resume_find, foldl_resume_find]
    cases hp : k.tasks.lookup tid with
    | none =>
      rw [hp] at htask
      cases hq : l.tasks.lookup tid with
      | none => exact .none
      | some q =>
        rw [hq] at htask
        cases htask
    | some p =>
      obtain ⟨q, hq, hbeside⟩ := h.lookup hp
      rw [hq, Option.map_some, Option.map_some]
      rcases find_pids hpids tid with ⟨hr, hr'⟩ | ⟨r, r', hr, hr', htid⟩
      · rw [hr, hr']
        exact .some hbeside
      · rw [hr, hr']
        subst htid
        simp only
        rw [hplain r (List.mem_of_find?_eq_some hr)]
        exact .some (hresumed r' (List.mem_of_find?_eq_some hr') p q hp hq)
  · rw [foldl_resume_find, Option.map_eq_none_iff] at hnone
    exact h.absent tid hnone

theorem onlyInGroup (h : Beside arch calls k l) {group : Pid} {pids : List Pid}
    (honly : k.onlyInGroup group pids = true) : l.onlyInGroup group pids = true := by
  refine decide_eq_true fun tid htid => ?_
  obtain ⟨q, hq⟩ := Finmap.mem_iff.mp (Finmap.mem_keys.mp htid)
  obtain ⟨p, hp, hbeside⟩ := h.lookup_back hq
  have hkeys := of_decide_eq_true honly tid (Finmap.mem_keys.mpr (Finmap.mem_of_lookup_eq_some hp))
  rw [hp, Option.all_some, ← hbeside.group] at hkeys
  rw [hq, Option.all_some]
  exact hkeys

theorem deathPermitted (h : Beside arch calls k l) (hbeside : Task.Beside arch (calls.lookup pid) p q)
    (hdeath : k.deathPermitted pid p = true) : l.deathPermitted pid q = true := by
  rw [Kernel.deathPermitted, Bool.or_eq_true] at hdeath ⊢
  rw [hbeside.group]
  exact hdeath.imp id h.onlyInGroup

end Beside

end Kernel

namespace Task.Beside

variable {cfg : TracerConfig} {arch : Arch} {entry : Option SyscallRegs} {p q : Task}

/-- A tracee in a call of the switch tells of no event, and any other runs on. -/
theorem event (h : Beside arch entry p q) (hdying : p.dying = false)
    (hrequest : p.request = some .syscall) {nr : Word} (hlisted : listed arch nr = false)
    (hevent : eventOf cfg.plain arch p nr = true) :
    asksFor arch entry = false ∧ eventOf cfg.filtered arch q nr = true := by
  simp only [eventOf, hrequest, if_true, Bool.and_eq_true, beq_iff_eq, bne_iff_ne] at hevent
  obtain ⟨⟨hinside, hnr⟩, _⟩ := hevent
  have hasks : asksFor arch entry = false := by
    rw [h.inside] at hinside
    cases entry with
    | none => cases hinside
    | some r =>
      rw [Option.map_some, Option.some.injEq] at hinside
      rw [asksFor, Option.any_some]
      by_contra hyes
      rw [← hinside, listed_of_filterTraces (Bool.not_eq_false _ ▸ hyes)] at hlisted
      cases hlisted
  obtain ⟨hq, hqinside⟩ := h.running hdying (by rw [hrequest]; rfl)
  rw [hasks] at hq hqinside
  refine ⟨hasks, ?_⟩
  simp [eventOf, hq, hqinside, hnr, hlisted]

/-- A tracee about to be stopped by a signal is in no call, in both runs. -/
theorem signal (h : Beside arch entry p q) (hdying : p.dying = false)
    (hruns : p.fresh = true ∨ p.request.isSome = true) (hinside : p.inside = none) :
    (q.fresh = true ∨ q.request.isSome = true) ∧ q.inside = none ∧ asksFor arch entry = false := by
  have hentry : entry = none := by
    rw [h.inside, Option.map_eq_none_iff] at hinside
    exact hinside
  refine ⟨?_, ?_, by rw [hentry]; rfl⟩
  · rcases hruns with hfresh | hrequest
    · exact Or.inl (h.fresh.trans hfresh)
    · exact Or.inr (by rw [(h.running hdying hrequest).1]; rfl)
  · rcases hruns with hfresh | hrequest
    · exact (h.waiting (Or.inr hfresh)).2
    · rw [(h.running hdying hrequest).2, hinside, ite_self]

end Task.Beside

namespace Kernel.Beside

variable {arch : Arch} {calls calls' : PidMap SyscallRegs} {k l : Kernel} {pid : Pid}

theorem setTask (h : Beside arch calls k l)
    (hcalls : ∀ tid ≠ pid, calls'.lookup tid = calls.lookup tid) {p q : Task}
    (hnew : Task.Beside arch (calls'.lookup pid) p q) :
    Beside arch calls' (k.setTask pid p) (l.setTask pid q) := by
  refine ⟨fun tid => ?_, fun tid hnone => ?_⟩
  · rw [setTask_lookup, setTask_lookup]
    by_cases htid : tid = pid
    · rw [if_pos htid, if_pos htid, htid]
      exact .some hnew
    · rw [if_neg htid, if_neg htid, hcalls tid htid]
      exact h.tasks tid
  · rw [setTask_lookup] at hnone
    split at hnone
    · cases hnone
    · rename_i htid
      rw [hcalls tid htid]
      exact h.absent tid hnone

theorem announce (h : Beside arch calls k l) (child : Pid) :
    Beside arch calls (k.announce child) (l.announce child) := by
  cases hp : k.tasks.lookup child with
  | none =>
    have htask := h.tasks child
    rw [hp] at htask
    cases hq : l.tasks.lookup child with
    | none =>
      simp only [Kernel.announce, hp, hq]
      exact h
    | some q =>
      rw [hq] at htask
      cases htask
  | some p =>
    obtain ⟨q, hq, hbeside⟩ := h.lookup hp
    have hnew : Task.Beside arch (calls.lookup child) { p with announced := true }
        { q with announced := true } :=
      ⟨hbeside.group, hbeside.newborn, hbeside.fresh, rfl, hbeside.inside, hbeside.dying,
        fun hcase => hbeside.waiting (Or.inr (hcase.resolve_left (fun hno => by cases hno))),
        hbeside.running⟩
    have hset := h.setTask (fun _ _ => rfl) hnew
    simp only [Kernel.announce, hp, hq]
    exact ⟨hset.tasks, hset.absent⟩

theorem erase (h : Beside arch calls k l) (pid : Pid) : Beside arch (calls.erase pid)
    { k with tasks := k.tasks.erase pid } { l with tasks := l.tasks.erase pid } := by
  refine ⟨fun tid => ?_, fun tid hnone => ?_⟩
  · simp only [PidMap.lookup_erase]
    split
    · exact .none
    · exact h.tasks tid
  · simp only [PidMap.lookup_erase] at hnone ⊢
    split at hnone
    · rename_i htid
      exact if_pos htid
    · rename_i htid
      rw [if_neg htid]
      exact h.absent tid hnone

theorem any_announced (h : Beside arch calls k l) (pid : Pid) :
    (l.tasks.lookup pid).any Task.announced = (k.tasks.lookup pid).any Task.announced := by
  have htask := h.tasks pid
  cases hp : k.tasks.lookup pid with
  | none =>
    rw [hp] at htask
    cases hq : l.tasks.lookup pid with
    | none => rfl
    | some q =>
      rw [hq] at htask
      cases htask
  | some p =>
    obtain ⟨q, hq, hbeside⟩ := h.lookup hp
    rw [hq, Option.any_some, Option.any_some, hbeside.announced]

/-- The thread that exec'ed takes its call with it. -/
theorem execed (h : Beside arch calls k l) {former : Pid} {thread thread' : Task} {nr : Word}
    {entry : SyscallRegs} (hthread : k.tasks.lookup former = some thread)
    (hthread' : l.tasks.lookup former = some thread')
    (hleader : (k.tasks.lookup pid).any Task.announced = true) (hfresh : thread.fresh = false)
    (hnr : entry.nr = nr) (gone : Bool) :
    Beside arch ((calls.erase former).insert pid entry) (k.execed pid former nr gone)
      (l.execed pid former nr gone) := by
  obtain ⟨new, hnew, hexec⟩ := execed_lookup pid hthread nr gone
  obtain ⟨new', hnew', hexec'⟩ := execed_lookup pid hthread' nr gone
  obtain ⟨q, hq, hbeside⟩ := h.lookup hthread
  rw [hthread'] at hq
  cases hq
  refine ⟨fun tid => ?_, fun tid hnone => ?_⟩
  · rw [hexec, hexec', PidMap.lookup_insert, PidMap.lookup_erase]
    by_cases htid : tid = pid
    · rw [if_pos htid, if_pos htid, if_pos htid]
      refine .some ⟨?_, ?_, ?_, ?_, ?_, fun hlives => ?_, fun hcase => ?_, fun _ hrequest => ?_⟩
      · rw [hnew'.group, hnew.group, hbeside.group]
      · rw [hnew'.newborn, hnew.newborn, hbeside.newborn]
      · rw [hnew'.fresh, hnew.fresh, hbeside.fresh]
      · rw [hnew'.announced, hnew.announced, h.any_announced]
      · rw [hnew.inside, Option.map_some, hnr]
      · rw [hnew'.dying, ← hnew.dying]
        exact hlives
      · rw [hnew.announced, hleader, hnew.fresh, hfresh] at hcase
        rcases hcase with hno | hno
        · cases hno
        · cases hno
      · rw [hnew.request] at hrequest
        cases hrequest
    · rw [if_neg htid, if_neg htid, if_neg htid]
      split
      · exact .none
      · exact h.tasks tid
  · rw [hexec] at hnone
    rw [PidMap.lookup_insert, PidMap.lookup_erase]
    split at hnone
    · cases hnone
    · rename_i htid
      rw [if_neg htid]
      split at hnone
      · rename_i hformer
        rw [if_pos hformer]
      · rename_i hformer
        rw [if_neg hformer]
        exact h.absent tid hnone

end Kernel.Beside

namespace Tracer

variable {Q : Type} [MaxOutFilesQueue Q] {arch : Arch} {cfg : TracerConfig} {os : Os}
  {ptrace : Ptrace arch} {s s' : Tracer arch Q} {pid : Pid}

theorem Turned.of_signalStop {sig : BitVec 8} (h : Turned cfg os ptrace pid s s' (.signalStop sig)) :
    After s' s.context s.syscallStateMap
      (fun tid q => tid = pid ∧ pid ∈ s.syscallStateMap ∧ q = request cfg false) [] := by
  cases h with
  | unknown _ _ _ h => exact ⟨h.context, h.states, fun r hr => (h.resumed r hr).elim, h.calls⟩
  | dead _ hdeath => cases hdeath
  | signalled _ hpid h =>
    exact ⟨h.context, h.states, fun r hr => ⟨(h.resumed r hr).1, hpid, (h.resumed r hr).2⟩, h.calls⟩
  | stopped _ _ _ hs₁ => rcases hs₁ with ⟨hno, _⟩ | ⟨hno, _⟩ <;> cases hno

theorem Turned.of_exiting (h : Turned cfg os ptrace pid s s' .exiting) :
    After s' s.context s.syscallStateMap (fun tid _ => tid = pid ∧ pid ∈ s.syscallStateMap) [] := by
  cases h with
  | unknown _ _ _ h => exact ⟨h.context, h.states, fun r hr => (h.resumed r hr).elim, h.calls⟩
  | dead _ hdeath => cases hdeath
  | exiting hpid h => exact ⟨h.context, h.states, fun r hr => ⟨h.resumed r hr, hpid⟩, h.calls⟩
  | stopped _ _ _ hs₁ => rcases hs₁ with ⟨hno, _⟩ | ⟨hno, _⟩ <;> cases hno

end Tracer

/-! ## The two runs -/

theorem Notice.status_apart {arch : Arch} {ptrace : Ptrace arch} {notice : Notice}
    (hfits : Tracer.Fits ptrace notice) (hne : notice ≠ .secComp)
    (hstopped : wifstopped notice.status = true) :
    notice.status >>> 16 ≠ PTRACE_EVENT_SECCOMP ∧
      (isSyscallStop notice.status = true → notice = .syscallStop) := by
  have hevent : ∀ event : BitVec 32, event.toNat < 8 → event ≠ PTRACE_EVENT_SECCOMP →
      eventStatus event >>> 16 ≠ PTRACE_EVENT_SECCOMP ∧
        (isSyscallStop (eventStatus event) = true → notice = .syscallStop) := by
    intro event hlt hother
    obtain ⟨_, hsyscall, hshift⟩ := status_event hlt
    rw [hshift, hsyscall]
    exact ⟨hother, fun hno => absurd hno Bool.false_ne_true⟩
  cases notice with
  | exited code =>
    rw [(status_exited code).1] at hstopped
    cases hstopped
  | killed sig core =>
    rw [(status_killed hfits.1 hfits.2 core).1] at hstopped
    cases hstopped
  | signalStop sig =>
    obtain ⟨_, hsyscall, hshift⟩ := status_signalStop hfits
    rw [hshift, hsyscall]
    exact ⟨by decide, fun hno => absurd hno Bool.false_ne_true⟩
  | syscallStop => exact ⟨by decide, fun _ => rfl⟩
  | cloned event nr => exact hevent event.number event.number_spec.1 (by cases event <;> decide)
  | execed former nr => exact hevent PTRACE_EVENT_EXEC (by decide) (by decide)
  | exiting => exact hevent PTRACE_EVENT_EXIT (by decide) (by decide)
  | secComp => exact absurd rfl hne

namespace Recorded

variable {Q : Type} [MaxOutFilesQueue Q] {arch : Arch} {cfg : TracerConfig}
  {s s' : Recorded arch Q} {t t' : Traced arch Q} {pid : Pid} {notice : Notice} {os : Os}
  {ptrace : Ptrace arch} {input : Input arch}

theorem step_ok (h : s.step cfg input = .ok s') :
    s.traced.step cfg.plain input = .ok s'.traced ∧ s'.calls = recorded s.calls input := by
  obtain ⟨traced, htraced, h⟩ := bind_eq_ok_iff.mp h
  rw [pure_eq_ok_iff] at h
  subst h
  exact ⟨htraced, rfl⟩

/-- The run with the filter has told the tracker the same, and its tracees are where the others are,
except that they run through what the filter lets through. -/
structure Beside (cfg : TracerConfig) (s : Recorded arch Q) (t : Traced arch Q) : Prop where
  paired : s.traced.Paired cfg.plain
  tracers : s.traced.tracer.begin.Abreast t.tracer.begin
  kernels : Kernel.Beside arch s.calls s.traced.kernel t.kernel
  kept : ∀ tid, asksFor arch (s.calls.lookup tid) = true →
    t.tracer.syscallStateMap.lookup tid = s.traced.tracer.syscallStateMap.lookup tid
  undefined : cfg.secCompVer = .SEC_COMP_V1 → ∀ tid v, asksFor arch (s.calls.lookup tid) = false →
    t.tracer.syscallStateMap.lookup tid = some v → v = SYSCALL_UNDEFINED

theorem Beside.states (h : Beside cfg s t) (tid : Pid) :
    tid ∈ t.tracer.syscallStateMap ↔ tid ∈ s.traced.tracer.syscallStateMap :=
  h.tracers.states tid

/-- A tracee that runs without the filter. -/
theorem Beside.runs (h : Beside cfg s t) {p : Task}
    (hp : s.traced.kernel.tasks.lookup pid = some p) (hdying : p.dying = false)
    (hrequest : p.request.isSome = true) :
    p.request = some .syscall ∧ p.announced = true ∧ p.fresh = false ∧
      pid ∈ s.traced.tracer.syscallStateMap := by
  obtain ⟨hannounced, hfresh, v, q, hv, hq, hphase⟩ := h.paired.running hp hdying hrequest
  refine ⟨?_, hannounced, hfresh, Finmap.mem_of_lookup_eq_some hv⟩
  rw [hq]
  generalize p.inside = inside at hphase
  generalize p.picked = picked at hphase
  cases hphase with
  | outside => rfl
  | inside => rfl
  | running _ hmode => cases hmode
  | waiting hmode => cases hmode
  | traced _ _ hmode => cases hmode

/-- What is permitted without the filter is with it, but for the stops at calls. -/
theorem Beside.permitted (h : Beside cfg s t)
    (hpermit : s.Permitted cfg (.notice pid notice os ptrace))
    (hordinary : s.ordinary cfg (.notice pid notice os ptrace) = true)
    (hne : notice ≠ .syscallStop) :
    t.Permitted cfg.filtered (.notice pid notice os ptrace) := by
  obtain ⟨p, hp, hallowed⟩ := Kernel.permits_iff.mp hpermit
  obtain ⟨q, hq, hbeside⟩ := h.kernels.lookup hp
  refine Kernel.permits_iff.mpr ⟨q, hq, ?_⟩
  cases notice with
  | exited code => exact h.kernels.deathPermitted hbeside hallowed
  | killed sig core =>
    simp only [Kernel.permitsTask, Bool.and_eq_true] at hallowed ⊢
    exact ⟨⟨h.kernels.deathPermitted hbeside hallowed.1.1, hallowed.1.2⟩, hallowed.2⟩
  | exiting => exact hallowed
  | syscallStop => exact absurd rfl hne
  | secComp =>
    simp only [Kernel.permitsTask, Bool.and_eq_true] at hallowed
    cases (secComp_permitted hallowed.2).1
  | signalStop sig =>
    simp only [Kernel.permitsTask, Kernel.stopPermitted, Bool.and_eq_true, Bool.not_eq_true',
      Bool.or_eq_true, Option.isNone_iff_eq_none] at hallowed ⊢
    obtain ⟨hdying, ⟨⟨hruns, hinside⟩, hnewborn⟩, hsig⟩ := hallowed
    obtain ⟨hruns', hinside', _⟩ := hbeside.signal hdying hruns hinside
    exact ⟨hbeside.dying hdying, ⟨⟨hruns', hinside'⟩, hbeside.newborn.trans hnewborn⟩, hsig⟩
  | cloned event nr =>
    simp only [ordinary, Bool.and_eq_true, Bool.not_eq_true'] at hordinary
    obtain ⟨_, hlisted, _⟩ := hordinary
    simp only [Kernel.permitsTask, Kernel.stopPermitted, Bool.and_eq_true, Bool.not_eq_true']
      at hallowed ⊢
    obtain ⟨hdying, ⟨hrequest, hevent⟩, hnewborn⟩ := hallowed
    have hplain := (h.runs hp hdying hrequest).1
    obtain ⟨_, hevent'⟩ := hbeside.event hdying hplain hlisted hevent
    rw [hbeside.newborn, (hbeside.running hdying hrequest).1]
    exact ⟨hbeside.dying hdying, ⟨rfl, hevent'⟩, hnewborn⟩
  | execed former nr =>
    simp only [ordinary, Bool.and_eq_true, Bool.not_eq_true'] at hordinary
    obtain ⟨_, hlisted, _⟩ := hordinary
    obtain ⟨thread, hthread, hrest⟩ := (Option.any_eq_true _ _).mp hallowed
    obtain ⟨thread', hthread', hbeside'⟩ := h.kernels.lookup hthread
    refine (Option.any_eq_true _ _).mpr ⟨thread', hthread', ?_⟩
    simp only [Bool.and_eq_true, beq_iff_eq, Bool.not_eq_true', Option.isNone_iff_eq_none]
      at hrest ⊢
    obtain ⟨⟨⟨⟨⟨⟨hgroup, hrequest⟩, hdying⟩, hnewborn⟩, hevent⟩, hmsg⟩, honly⟩ := hrest
    have hplain := (h.runs hthread hdying hrequest).1
    obtain ⟨_, hevent'⟩ := hbeside'.event hdying hplain hlisted hevent
    rw [(hbeside'.running hdying hrequest).1]
    exact ⟨⟨⟨⟨⟨⟨hbeside'.group.trans hgroup, rfl⟩, hbeside'.dying hdying⟩,
      hbeside'.newborn.trans hnewborn⟩, hevent'⟩, hmsg⟩, h.kernels.onlyInGroup honly⟩

/-- A notice that both runs have. -/
structure Passed (cfg : TracerConfig) (s s' : Recorded arch Q) (t t' : Traced arch Q) (pid : Pid)
    (notice : Notice) (os : Os) (ptrace : Ptrace arch) : Prop where
  tracers : s'.traced.tracer.Abreast t'.tracer
  paired : s'.traced.Paired cfg.plain
  turned : Tracer.Turned cfg.plain os ptrace pid s.traced.tracer s'.traced.tracer notice
  turned' : Tracer.Turned cfg.filtered os ptrace pid t.tracer t'.tracer notice
  kernel : s'.traced.kernel = s'.traced.tracer.resumes.foldl Kernel.resume
    (s.traced.kernel.noticed cfg.plain pid ptrace notice)
  kernel' : t'.kernel = t'.tracer.resumes.foldl Kernel.resume
    (t.kernel.noticed cfg.filtered pid ptrace notice)
  calls : s'.calls = recorded s.calls (.notice pid notice os ptrace)

theorem Beside.match_turn (h : Beside cfg s t) (os : Os) (hfits : Tracer.Fits ptrace notice)
    (hne : notice ≠ .secComp) (hsame : notice = .syscallStop →
      t.tracer.syscallStateMap.lookup pid = s.traced.tracer.syscallStateMap.lookup pid) :
    Match Tracer.Abreast (s.traced.tracer.turn cfg.plain os ptrace (.status pid notice.status))
      (t.tracer.turn cfg.filtered os ptrace (.status pid notice.status)) :=
  h.tracers.turn fun hstopped =>
    have hapart := Notice.status_apart hfits hne hstopped
    ⟨hapart.1, fun hyes => hsame (hapart.2 hyes)⟩

theorem Beside.pass (h : Beside cfg s t)
    (hpermit : s.Permitted cfg (.notice pid notice os ptrace))
    (hordinary : s.ordinary cfg (.notice pid notice os ptrace) = true)
    (hpermit' : t.Permitted cfg.filtered (.notice pid notice os ptrace)) (hne : notice ≠ .secComp)
    (hsame : notice = .syscallStop →
      t.tracer.syscallStateMap.lookup pid = s.traced.tracer.syscallStateMap.lookup pid)
    (hstep : s.step cfg (.notice pid notice os ptrace) = .ok s') :
    ∃ t', t.step cfg.filtered (.notice pid notice os ptrace) = .ok t' ∧
      Passed cfg s s' t t' pid notice os ptrace := by
  obtain ⟨htraced, hcalls⟩ := step_ok hstep
  simp only [ordinary, Bool.and_eq_true] at hordinary
  have hpaired := h.paired.step hpermit hordinary.1 htraced
  obtain ⟨hturned, hkernel⟩ := Traced.step_notice hpermit htraced
  obtain ⟨tracer, hturn, hrest⟩ := bind_eq_ok_iff.mp htraced
  rw [pure_eq_ok_iff] at hrest
  have hmatch := h.match_turn os (Kernel.permits_fits hpermit) hne hsame
  rw [hturn] at hmatch
  obtain ⟨tracer', hturn', habreast⟩ := hmatch.of_ok
  have hstep' : t.step cfg.filtered (.notice pid notice os ptrace) = .ok ⟨tracer',
      tracer'.resumes.foldl Kernel.resume (t.kernel.noticed cfg.filtered pid ptrace notice)⟩ := by
    simp only [Traced.step, hturn', bind_ok, pure, Except.pure]
  obtain ⟨hturned', hkernel'⟩ := Traced.step_notice hpermit' hstep'
  refine ⟨_, hstep', ⟨?_, hpaired, hturned, hturned', hkernel, hkernel', hcalls⟩⟩
  rw [← hrest]
  exact habreast

/-- What is left to show of such a notice. -/
theorem Passed.beside (h : Passed cfg s s' t t' pid notice os ptrace)
    (hkernels : Kernel.Beside arch s'.calls (s.traced.kernel.noticed cfg.plain pid ptrace notice)
      (t.kernel.noticed cfg.filtered pid ptrace notice))
    (hresumed : ∀ r ∈ t'.tracer.resumes, ∀ p q,
      (s.traced.kernel.noticed cfg.plain pid ptrace notice).tasks.lookup r.pid = some p →
      (t.kernel.noticed cfg.filtered pid ptrace notice).tasks.lookup r.pid = some q →
      Task.Beside arch (s'.calls.lookup r.pid) (p.resumed .syscall) (q.resumed r.request))
    (hkept : ∀ tid, asksFor arch (s'.calls.lookup tid) = true →
      t'.tracer.syscallStateMap.lookup tid = s'.traced.tracer.syscallStateMap.lookup tid)
    (hundefined : cfg.secCompVer = .SEC_COMP_V1 → ∀ tid v,
      asksFor arch (s'.calls.lookup tid) = false →
      t'.tracer.syscallStateMap.lookup tid = some v → v = SYSCALL_UNDEFINED) :
    Beside cfg s' t' := by
  refine ⟨h.paired, h.tracers.begin, ?_, hkept, hundefined⟩
  rw [h.kernel, h.kernel']
  exact hkernels.resumes h.tracers.resumed h.tracers.requests hresumed

/-- A tracee the tracer has an entry for was announced to it. -/
theorem Beside.announced (h : Beside cfg s t) {p : Task}
    (hp : s.traced.kernel.tasks.lookup pid = some p)
    (hpid : pid ∈ s.traced.tracer.syscallStateMap) : p.announced = true := by
  by_contra hno
  have hnone := (h.paired.paired pid p hp).apart (Bool.not_eq_true _ ▸ hno)
  exact Finmap.lookup_eq_none.mp hnone hpid

namespace Passed

/-- A notice about its tracee alone. -/
theorem alone (h : Beside cfg s t) (hpassed : Passed cfg s s' t t' pid notice os ptrace)
    (hplain : Tracer.Plain notice) {p q : Task} (hp : s.traced.kernel.tasks.lookup pid = some p)
    (hq : t.kernel.tasks.lookup pid = some q)
    (hcalls : ∀ tid ≠ pid, s'.calls.lookup tid = s.calls.lookup tid)
    (hnew : Task.Beside arch (s'.calls.lookup pid) (p.noticed cfg.plain ptrace notice)
      (q.noticed cfg.filtered ptrace notice))
    (hresumed : ∀ r ∈ t'.tracer.resumes, r.pid = pid ∧ Task.Beside arch (s'.calls.lookup pid)
      ((p.noticed cfg.plain ptrace notice).resumed .syscall)
      ((q.noticed cfg.filtered ptrace notice).resumed r.request))
    (hstates : ∀ tid ≠ pid,
      s'.traced.tracer.syscallStateMap.lookup tid = s.traced.tracer.syscallStateMap.lookup tid ∧
        t'.tracer.syscallStateMap.lookup tid = t.tracer.syscallStateMap.lookup tid)
    (hkept : asksFor arch (s'.calls.lookup pid) = true →
      t'.tracer.syscallStateMap.lookup pid = s'.traced.tracer.syscallStateMap.lookup pid)
    (hundefined : cfg.secCompVer = .SEC_COMP_V1 → asksFor arch (s'.calls.lookup pid) = false →
      ∀ v, t'.tracer.syscallStateMap.lookup pid = some v → v = SYSCALL_UNDEFINED) :
    Beside cfg s' t' := by
  have hnoticed : s.traced.kernel.noticed cfg.plain pid ptrace notice =
      s.traced.kernel.setTask pid (p.noticed cfg.plain ptrace notice) :=
    (noticed_plain cfg.plain hp hplain).1
  have hnoticed' : t.kernel.noticed cfg.filtered pid ptrace notice =
      t.kernel.setTask pid (q.noticed cfg.filtered ptrace notice) :=
    (noticed_plain cfg.filtered hq hplain).1
  refine hpassed.beside ?_ ?_ (fun tid hasks => ?_) fun hver tid v hasks hv => ?_
  · rw [hnoticed, hnoticed']
    exact h.kernels.setTask hcalls hnew
  · intro r hr p' q' hp' hq'
    obtain ⟨hpid, hnew⟩ := hresumed r hr
    rw [hpid, hnoticed, Kernel.setTask_lookup, if_pos rfl] at hp'
    rw [hpid, hnoticed', Kernel.setTask_lookup, if_pos rfl] at hq'
    cases hp'
    cases hq'
    rw [hpid]
    exact hnew
  · by_cases htid : tid = pid
    · subst htid
      exact hkept hasks
    · rw [(hstates tid htid).1, (hstates tid htid).2]
      rw [hcalls tid htid] at hasks
      exact h.kept tid hasks
  · by_cases htid : tid = pid
    · subst htid
      exact hundefined hver hasks v hv
    · rw [(hstates tid htid).2] at hv
      rw [hcalls tid htid] at hasks
      exact h.undefined hver tid v hasks hv

theorem signalled {sig : BitVec 8} (h : Beside cfg s t)
    (hpermit : s.Permitted cfg (.notice pid (.signalStop sig) os ptrace))
    (hpassed : Passed cfg s s' t t' pid (.signalStop sig) os ptrace) : Beside cfg s' t' := by
  obtain ⟨p, hp, hallowed⟩ := Kernel.permits_iff.mp hpermit
  obtain ⟨q, hq, hbeside⟩ := h.kernels.lookup hp
  simp only [Kernel.permitsTask, Kernel.stopPermitted, Bool.and_eq_true, Bool.not_eq_true',
    Bool.or_eq_true, Option.isNone_iff_eq_none] at hallowed
  obtain ⟨hdying, ⟨⟨hruns, hinside⟩, _⟩, _⟩ := hallowed
  obtain ⟨_, hinside', hasks⟩ := hbeside.signal hdying hruns hinside
  have hafter := hpassed.turned.of_signalStop
  have hafter' := hpassed.turned'.of_signalStop
  have hcalls : s'.calls = s.calls := hpassed.calls
  have hnew : Task.Beside arch (s.calls.lookup pid) (p.noticed cfg.plain ptrace (.signalStop sig))
      (q.noticed cfg.filtered ptrace (.signalStop sig)) :=
    ⟨hbeside.group, hbeside.newborn, rfl, hbeside.announced, hbeside.inside, hbeside.dying,
      fun _ => ⟨rfl, hinside'⟩, fun _ hno => by cases hno⟩
  rw [← hcalls] at hnew hasks
  refine alone h hpassed trivial hp hq (fun tid _ => by rw [hcalls]) hnew (fun r hr => ?_)
    (fun tid _ => by rw [hafter.states, hafter'.states]; exact ⟨rfl, rfl⟩) (fun hno => ?_)
    fun hver _ v hv => ?_
  · obtain ⟨hpid, hknown, hrequest⟩ := hafter'.resumed r hr
    have hannounced : p.announced = true := h.announced hp ((h.states pid).mp hknown)
    refine ⟨hpid, hnew.resumed rfl hannounced (fun _ => ?_) fun _ hno => ?_⟩
    · rw [hrequest, hasks]
      rfl
    · rw [hasks] at hno
      cases hno
  · rw [hasks] at hno
    cases hno
  · rw [hafter'.states] at hv
    rw [hcalls] at hasks
    exact h.undefined hver pid v hasks hv

theorem exiting (h : Beside cfg s t) (hpermit : s.Permitted cfg (.notice pid .exiting os ptrace))
    (hpassed : Passed cfg s s' t t' pid .exiting os ptrace) : Beside cfg s' t' := by
  obtain ⟨p, hp, _⟩ := Kernel.permits_iff.mp hpermit
  obtain ⟨q, hq, hbeside⟩ := h.kernels.lookup hp
  have hafter := hpassed.turned.of_exiting
  have hafter' := hpassed.turned'.of_exiting
  have hcalls : s'.calls = s.calls := hpassed.calls
  have hnew : Task.Beside arch (s.calls.lookup pid) (p.noticed cfg.plain ptrace .exiting)
      (q.noticed cfg.filtered ptrace .exiting) :=
    ⟨hbeside.group, hbeside.newborn, hbeside.fresh, hbeside.announced, hbeside.inside,
      (fun hno => by cases hno), fun hcase => ⟨rfl, (hbeside.waiting hcase).2⟩,
      (fun hno => by cases hno)⟩
  refine alone h hpassed trivial hp hq (fun tid _ => by rw [hcalls]) (hcalls ▸ hnew)
    (fun r hr => ?_) (fun tid _ => by rw [hafter.states, hafter'.states]; exact ⟨rfl, rfl⟩)
    (fun hyes => ?_) fun hver hno v hv => ?_
  · obtain ⟨hpid, hknown⟩ := hafter'.resumed r hr
    have hannounced : p.announced = true := h.announced hp ((h.states pid).mp hknown)
    rw [hcalls]
    exact ⟨hpid, hnew.resumed rfl hannounced (fun hno => by cases hno) (fun hno => by cases hno)⟩
  · rw [hafter.states, hafter'.states]
    rw [hcalls] at hyes
    exact h.kept pid hyes
  · rw [hafter'.states] at hv
    rw [hcalls] at hno
    exact h.undefined hver pid v hno hv

theorem dead (h : Beside cfg s t) (hpermit : s.Permitted cfg (.notice pid notice os ptrace))
    (hdeath : notice.isDeath = true) (hpassed : Passed cfg s s' t t' pid notice os ptrace) :
    Beside cfg s' t' := by
  obtain ⟨p, hp, _⟩ := Kernel.permits_iff.mp hpermit
  obtain ⟨q, hq, _⟩ := h.kernels.lookup hp
  obtain ⟨_, _, _, hafter, _⟩ := hpassed.turned.of_dead hdeath
  obtain ⟨_, _, _, hafter', _⟩ := hpassed.turned'.of_dead hdeath
  have hcalls : s'.calls = s.calls.erase pid := by
    rw [hpassed.calls]
    cases notice with
    | exited code => rfl
    | killed sig core => rfl
    | _ => cases hdeath
  refine hpassed.beside ?_ (fun r hr p' q' hp' => ?_) (fun tid hasks => ?_)
    fun hver tid v hasks hv => ?_
  · rw [Traced.noticed_death hp hdeath, Traced.noticed_death hq hdeath, hcalls]
    exact h.kernels.erase pid
  · rw [Traced.noticed_death hp hdeath, hafter'.resumed r hr, PidMap.lookup_erase, if_pos rfl] at hp'
    cases hp'
  · rw [hafter.states, hafter'.states, PidMap.lookup_erase, PidMap.lookup_erase]
    rw [hcalls, PidMap.lookup_erase] at hasks
    split at hasks
    · cases hasks
    · rename_i htid
      rw [if_neg htid, if_neg htid]
      exact h.kept tid hasks
  · rw [hafter'.states, PidMap.lookup_erase] at hv
    rw [hcalls, PidMap.lookup_erase] at hasks
    split at hv
    · cases hv
    · rename_i htid
      rw [if_neg htid] at hasks
      exact h.undefined hver tid v hasks hv

/-- The creator of a tracee, stopped at the event in both runs. -/
theorem creator (h : Beside cfg s t) {event : CloneEvent} {nr : Word}
    (hpermit : s.Permitted cfg (.notice pid (.cloned event nr) os ptrace))
    (hordinary : s.ordinary cfg (.notice pid (.cloned event nr) os ptrace) = true) :
    ∃ p q child, s.traced.kernel.tasks.lookup pid = some p ∧ t.kernel.tasks.lookup pid = some q ∧
      p.newborn = some child ∧ q.newborn = some child ∧ p.announced = true ∧
      pid ∈ s.traced.tracer.syscallStateMap ∧ asksFor arch (s.calls.lookup pid) = false ∧
      (∀ msg, ptrace.eventMsg = .ok msg → asInt msg = child) ∧
      Task.Beside arch (s.calls.lookup pid) (p.noticed cfg.plain ptrace (.cloned event nr))
        (q.noticed cfg.filtered ptrace (.cloned event nr)) := by
  obtain ⟨p, hp, hallowed⟩ := Kernel.permits_iff.mp hpermit
  obtain ⟨q, hq, hbeside⟩ := h.kernels.lookup hp
  simp only [ordinary, Bool.and_eq_true, Bool.not_eq_true'] at hordinary
  obtain ⟨_, hlisted, _⟩ := hordinary
  simp only [Kernel.permitsTask, Bool.and_eq_true, Bool.not_eq_true'] at hallowed
  obtain ⟨hdying, hallowed⟩ := hallowed
  obtain ⟨hrequest, hevent, child, hchild, hreads⟩ := Kernel.clone_permitted hallowed
  obtain ⟨hplain, hannounced, hfresh, hpid⟩ := h.runs hp hdying hrequest
  have hasks := (hbeside.event hdying hplain hlisted hevent).1
  simp only [eventOf, hplain, if_true, Bool.and_eq_true, beq_iff_eq] at hevent
  refine ⟨p, q, child, hp, hq, hchild, hbeside.newborn.trans hchild, hannounced, hpid, hasks,
    fun msg hmsg => (Kernel.readsAs_iff.mp (hreads msg hmsg)).1, ?_⟩
  refine ⟨hbeside.group, rfl, hbeside.fresh, hbeside.announced, ?_, fun h => h, fun hno => ?_,
    fun _ hno => by cases hno⟩
  · rw [← hbeside.inside, hevent.1.1]
    rfl
  · rcases hno with hno | hno
    · exact absurd (hannounced.symm.trans hno) Bool.true_eq_false.mp
    · exact absurd (hfresh.symm.trans hno) Bool.false_ne_true

theorem untold (h : Beside cfg s t) {event : CloneEvent} {nr : Word}
    (hpermit : s.Permitted cfg (.notice pid (.cloned event nr) os ptrace))
    (hordinary : s.ordinary cfg (.notice pid (.cloned event nr) os ptrace) = true)
    (hpassed : Passed cfg s s' t t' pid (.cloned event nr) os ptrace)
    (htold : told ptrace event = false) : Beside cfg s' t' := by
  obtain ⟨p, q, child, hp, hq, hchild, hchild', hannounced, hpid, hasks, _, hnew⟩ :=
    creator h hpermit hordinary
  have hcalls : s'.calls = s.calls := hpassed.calls
  rcases hpassed.turned.of_cloned hpid with ⟨_, hcause, hafter⟩ | ⟨hno, _⟩
  swap
  · rw [htold] at hno
    cases hno
  rcases hpassed.turned'.of_cloned ((h.states pid).mpr hpid) with ⟨_, _, hafter'⟩ | ⟨hno, _⟩
  swap
  · rw [htold] at hno
    cases hno
  -- the flags are not negative, so the tracee is gone
  have hdying : (p.noticed cfg.plain ptrace (.cloned event nr)).dying = true := by
    by_contra hlives
    simp only [Task.noticed, Bool.not_eq_true, Bool.or_eq_false_iff] at hlives
    simp only [ordinary, Bool.and_eq_true, Bool.not_eq_true'] at hordinary
    rcases hcause with hgone | ⟨hclone, flags, hflags, hneg⟩
    · rw [hgone] at hlives
      cases hlives.1
    · subst hclone
      have hread : flagsGone arch ptrace = false := hlives.2
      have hnegative : Traced.negativeFlags ptrace .clone = true := by
        simp [Traced.negativeFlags, hlives.1, hread, hflags, hneg]
      rw [hnegative] at hordinary
      cases hordinary.2.2
  refine hpassed.beside ?_ (fun r hr p' q' hp' hq' => ?_) (fun tid hyes => ?_)
    fun hver tid v hno hv => ?_
  · rw [Traced.noticed_cloned hp hchild, Traced.noticed_cloned hq hchild', htold,
      if_neg Bool.false_ne_true, if_neg Bool.false_ne_true, hcalls]
    exact h.kernels.setTask (fun _ _ => rfl) hnew
  · rw [(hafter'.resumed r hr).1, Traced.noticed_cloned hp hchild, htold,
      if_neg Bool.false_ne_true, Kernel.setTask_lookup, if_pos rfl] at hp'
    rw [(hafter'.resumed r hr).1, Traced.noticed_cloned hq hchild', htold,
      if_neg Bool.false_ne_true, Kernel.setTask_lookup, if_pos rfl] at hq'
    cases hp'
    cases hq'
    rw [(hafter'.resumed r hr).1, hcalls]
    refine hnew.resumed rfl hannounced (fun hlives => ?_) fun hlives => ?_
    · rw [hdying] at hlives
      cases hlives
    · rw [hdying] at hlives
      cases hlives
  · rw [hafter.states, hafter'.states]
    rw [hcalls] at hyes
    exact h.kept tid hyes
  · rw [hafter'.states] at hv
    rw [hcalls] at hno
    exact h.undefined hver tid v hno hv

theorem arrived (h : Beside cfg s t) {event : CloneEvent} {nr : Word}
    (hpermit : s.Permitted cfg (.notice pid (.cloned event nr) os ptrace))
    (hordinary : s.ordinary cfg (.notice pid (.cloned event nr) os ptrace) = true)
    (hpassed : Passed cfg s s' t t' pid (.cloned event nr) os ptrace)
    (htold : told ptrace event = true) : Beside cfg s' t' := by
  obtain ⟨p, q, child, hp, hq, hchild, hchild', hannounced, hpid, hasks, hreads, hnew⟩ :=
    creator h hpermit hordinary
  have hcalls : s'.calls = s.calls := hpassed.calls
  rcases hpassed.turned.of_cloned hpid with ⟨hno, _⟩ | ⟨_, msg, c, hmsg, _, hafter⟩
  · rw [htold] at hno
    cases hno
  rcases hpassed.turned'.of_cloned ((h.states pid).mpr hpid) with
    ⟨hno, _⟩ | ⟨_, msg', c', hmsg', _, hafter'⟩
  · rw [htold] at hno
    cases hno
  rw [hreads msg hmsg] at hafter
  rw [hreads msg' hmsg'] at hafter'
  obtain ⟨new, hnewborn, hunannounced, _⟩ :=
    Optrace.Known.newborn h.paired.known pid p child hp hchild
  obtain ⟨new', hnewborn', hchildren⟩ := h.kernels.lookup hnewborn
  have hfree := (h.paired.paired child new hnewborn).apart hunannounced
  have hidle := (h.paired.paired child new hnewborn).idle hfree
  have hne : child ≠ pid := by
    rintro rfl
    exact Finmap.lookup_eq_none.mp hfree hpid
  have hasksChild : asksFor arch (s.calls.lookup child) = false := by
    rw [hchildren.inside, Option.map_eq_none_iff] at hidle
    rw [hidle]
    rfl
  have hothers : ∀ tid ≠ pid, s.calls.lookup tid = s.calls.lookup tid := fun _ _ => rfl
  have hset := h.kernels.setTask hothers hnew
  have hset' := hset.announce child
  refine hpassed.beside ?_ (fun r hr p' q' hp' hq' => ?_) (fun tid hyes => ?_)
    fun hver tid v hno hv => ?_
  · rw [Traced.noticed_cloned hp hchild, Traced.noticed_cloned hq hchild', htold, if_pos rfl,
      if_pos rfl, hcalls]
    exact hset'
  · obtain ⟨hcase, hrequest⟩ := hafter'.resumed r hr
    rw [Traced.noticed_cloned hp hchild, htold, if_pos rfl] at hp'
    rw [Traced.noticed_cloned hq hchild', htold, if_pos rfl] at hq'
    obtain ⟨q₀, hq₀, hbeside⟩ := hset'.lookup hp'
    rw [hq'] at hq₀
    cases hq₀
    simp only [Kernel.announce, Kernel.setTask_lookup, if_neg hne, hnewborn] at hp'
    simp only [Kernel.announce, Kernel.setTask_lookup, if_neg hne, hnewborn'] at hq'
    rw [hcalls]
    rcases hcase with hr' | hr'
    · rw [hr', if_pos rfl] at hp' hq'
      cases hp'
      cases hq'
      rw [hr'] at hbeside ⊢
      refine hbeside.resumed (hchildren.waiting (Or.inl hunannounced)).1 rfl (fun _ => ?_)
        fun _ hyes => ?_
      · rw [hrequest, hasksChild]
        rfl
      · rw [hasksChild] at hyes
        cases hyes
    · rw [hr', if_neg (Ne.symm hne), if_pos rfl] at hp' hq'
      cases hp'
      cases hq'
      rw [hr'] at hbeside ⊢
      refine hbeside.resumed rfl hannounced (fun _ => ?_) fun _ hyes => ?_
      · rw [hrequest, hasks]
        rfl
      · rw [hasks] at hyes
        cases hyes
  · rw [hafter.states, hafter'.states, PidMap.lookup_insert, PidMap.lookup_insert]
    rw [hcalls] at hyes
    rw [h.kept tid hyes]
  · rw [hafter'.states, PidMap.lookup_insert] at hv
    rw [hcalls] at hno
    split at hv
    · cases hv
      rfl
    · exact h.undefined hver tid v hno hv

theorem execed (h : Beside cfg s t) {former : Pid} {nr : Word}
    (hpermit : s.Permitted cfg (.notice pid (.execed former nr) os ptrace))
    (hordinary : s.ordinary cfg (.notice pid (.execed former nr) os ptrace) = true)
    (hpassed : Passed cfg s s' t t' pid (.execed former nr) os ptrace) : Beside cfg s' t' := by
  obtain ⟨leader, hleader, hallowed⟩ := Kernel.permits_iff.mp hpermit
  obtain ⟨leader', hleader', _⟩ := h.kernels.lookup hleader
  obtain ⟨thread, hthread, hgroup, hrequest, hdying, _, hevent, _⟩ := Kernel.exec_permitted hallowed
  obtain ⟨thread', hthread', hbeside⟩ := h.kernels.lookup hthread
  obtain ⟨hplain, _, hfresh, hformer⟩ := h.runs hthread hdying hrequest
  have hpid : pid ∈ s.traced.tracer.syscallStateMap :=
    hgroup ▸ Optrace.Known.group_mem h.paired.known hthread hformer
  simp only [ordinary, Bool.and_eq_true, Bool.or_eq_true, Bool.not_eq_true', beq_iff_eq]
    at hordinary
  obtain ⟨_, hlisted, hleaderCall⟩ := hordinary
  have hasks := (hbeside.event hdying hplain hlisted hevent).1
  simp only [eventOf, hplain, if_true, Bool.and_eq_true, beq_iff_eq] at hevent
  -- the call of the thread is the one the event names
  obtain ⟨entry, hentry, hnr⟩ : ∃ entry, s.calls.lookup former = some entry ∧ entry.nr = nr := by
    have hinside := hbeside.inside
    rw [hevent.1.1] at hinside
    exact Option.map_eq_some_iff.mp hinside.symm
  have hasksEntry : asksFor arch (some entry) = false := hentry ▸ hasks
  have hcalls : ∀ tid, s'.calls.lookup tid =
      if tid = pid then some entry else if tid = former then none else s.calls.lookup tid := by
    intro tid
    rw [hpassed.calls]
    simp only [recorded, hentry, PidMap.lookup_insert, PidMap.lookup_erase]
  have hannounced : (s.traced.kernel.tasks.lookup pid).any Task.announced = true := by
    rw [hleader]
    exact h.announced hleader hpid
  have hkernels := h.kernels.execed hthread hthread' hannounced hfresh hnr
    ptrace.eventMsg.isGone
  have hsame : (s.calls.erase former).insert pid entry = s'.calls := by
    refine Finmap.ext_lookup fun tid => ?_
    rw [hcalls, PidMap.lookup_insert, PidMap.lookup_erase]
  rw [hsame] at hkernels
  have hnoticed : s.traced.kernel.noticed cfg.plain pid ptrace (.execed former nr) =
      s.traced.kernel.execed pid former nr ptrace.eventMsg.isGone := Traced.noticed_execed hleader
  have hnoticed' : t.kernel.noticed cfg.filtered pid ptrace (.execed former nr) =
      t.kernel.execed pid former nr ptrace.eventMsg.isGone := Traced.noticed_execed hleader'
  -- whoever is resumed is the leader, or is no more
  have hresumed : ∀ r ∈ t'.tracer.resumes, (r.pid = former ∧ former ≠ pid) ∨ (r.pid = pid ∧
      (ptrace.eventMsg.isGone = false → r.request = .cont)) := by
    intro r hr
    rcases hpassed.turned'.of_execed ((h.states pid).mpr hpid) with
      ⟨hgone, hafter⟩ | ⟨_, c, _, _, hafter⟩
    · refine Or.inr ⟨(hafter.resumed r hr).1, fun hno => ?_⟩
      rw [hgone] at hno
      cases hno
    · exact (hafter.resumed r hr).imp id fun hq => ⟨hq.1, fun _ => hq.2⟩
  have hstates : ∀ tid, t'.tracer.syscallStateMap.lookup tid =
        t.tracer.syscallStateMap.lookup tid ∧
          s'.traced.tracer.syscallStateMap.lookup tid =
            s.traced.tracer.syscallStateMap.lookup tid ∨
      t'.tracer.syscallStateMap.lookup tid = none ∧
        s'.traced.tracer.syscallStateMap.lookup tid = none := by
    intro tid
    rcases hpassed.turned.of_execed hpid with ⟨hgone, hafter⟩ | ⟨hgone, c, _, _, hafter⟩
    · rcases hpassed.turned'.of_execed ((h.states pid).mpr hpid) with
        ⟨_, hafter'⟩ | ⟨hno, _⟩
      · rw [hafter.states, hafter'.states]
        exact Or.inl ⟨rfl, rfl⟩
      · rw [hgone] at hno
        cases hno
    · rcases hpassed.turned'.of_execed ((h.states pid).mpr hpid) with
        ⟨hno, _⟩ | ⟨_, c', _, _, hafter'⟩
      · rw [hgone] at hno
        cases hno
      · rw [hafter.states, hafter'.states]
        split
        · exact Or.inl ⟨rfl, rfl⟩
        · rw [PidMap.lookup_erase, PidMap.lookup_erase]
          split
          · exact Or.inr ⟨rfl, rfl⟩
          · exact Or.inl ⟨rfl, rfl⟩
  refine hpassed.beside ?_ (fun r hr p q hp hq => ?_) (fun tid hyes => ?_)
    fun hver tid v hno hv => ?_
  · rw [hnoticed, hnoticed']
    exact hkernels
  · obtain ⟨new, hnew, hexec⟩ := Kernel.execed_lookup pid hthread nr ptrace.eventMsg.isGone
    obtain ⟨new', hnew', hexec'⟩ := Kernel.execed_lookup pid hthread' nr ptrace.eventMsg.isGone
    rw [hnoticed, hexec] at hp
    rw [hnoticed', hexec'] at hq
    rcases hresumed r hr with ⟨hr, hne⟩ | ⟨hr, hcont⟩
    · rw [hr, if_neg hne, if_pos rfl] at hp
      cases hp
    · have hbesideNew := hkernels.tasks pid
      rw [hexec, hexec', if_pos rfl, if_pos rfl] at hbesideNew
      rw [hr, if_pos rfl] at hp hq
      cases hp
      cases hq
      cases hbesideNew with
      | some hbesideNew =>
        have hasksNew : asksFor arch (s'.calls.lookup pid) = false := by
          rw [hcalls, if_pos rfl]
          exact hasksEntry
        rw [hr]
        refine hbesideNew.resumed hnew'.request (hnew.announced.trans hannounced)
          (fun hlives => ?_) fun _ hyes => ?_
        · rw [hcont (hnew.dying ▸ hlives), hasksNew]
          rfl
        · rw [hasksNew] at hyes
          cases hyes
  · rcases hstates tid with ⟨ht, hs⟩ | ⟨ht, hs⟩
    · rw [ht, hs]
      rw [hcalls] at hyes
      split at hyes
      · rw [hasksEntry] at hyes
        cases hyes
      · split at hyes
        · cases hyes
        · exact h.kept tid hyes
    · rw [ht, hs]
  · rcases hstates tid with ⟨ht, _⟩ | ⟨ht, _⟩
    · rw [ht] at hv
      rw [hcalls] at hno
      split at hno
      · rename_i htid
        -- the leader's value is the one that is kept
        rw [htid] at hv
        refine h.undefined hver pid v ?_ hv
        rcases hleaderCall with (hsame | hnew) | huntraced
        · rw [← hsame]
          exact hasks
        · rw [hver] at hnew
          cases hnew
        · exact huntraced
      · split at hno
        · rename_i hformer
          rw [hformer] at hv
          exact h.undefined hver former v hasks hv
        · exact h.undefined hver tid v hno hv
    · rw [ht] at hv
      cases hv

end Passed

end Recorded

end Optrace
