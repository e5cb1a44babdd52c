import Optrace.Lib.Simulation
import Optrace.Parity

/-!
# Two tracers abreast

`RunTracer` without seccomp beside `RunTracer` with it: what the filter lets through leaves the
tracker alone, and a turn on the same stop does the same in both but for the way tracees are resumed.
-/

namespace Optrace

set_option autoImplicit false
set_option linter.unusedSectionVars false

open Except

/-- `RunTracer` without and with seccomp. -/
abbrev TracerConfig.plain (cfg : TracerConfig) : TracerConfig := { cfg with useSecComp := false }

abbrev TracerConfig.filtered (cfg : TracerConfig) : TracerConfig := { cfg with useSecComp := true }

/-! ## Calls the filter lets through -/

/-- The exit stop shows no call of the switch, or the one that was entered and not a successful
`fcntl` with the command `F_DUPFD`. -/
def leavesAs (arch : Arch) (entry exit : SyscallRegs) : Bool :=
  (syscallOf arch exit.nr).isNone ||
    (exit.nr == entry.nr && exit.arg1 == entry.arg1 && exit.arg2 == entry.arg2 &&
      !(syscallOf arch exit.nr == some .SYS_fcntl && exit.arg1 == F_DUPFD &&
        decide (0 ≤ asInt exit.retdata)))

section Filter

variable {arch : Arch}

/-- The filter asks for a stop at what the switch acts on, except for `F_DUPFD`. -/
theorem filterTraces_of_dispatches {r : SyscallRegs} (h : Dispatches arch r)
    (hdup : ¬(syscallOf arch r.nr = some .SYS_fcntl ∧ r.arg1 = F_DUPFD)) :
    filterTraces arch r = true := by
  rw [filterTraces, beq_iff_eq]
  cases hs : syscallOf arch r.nr with
  | none =>
    obtain ⟨op, hop, _⟩ := h
    rw [syscallSwitch_none hs] at hop
    cases hop
  | some s =>
    rw [sysK_eq hs]
    rcases handled_cases hs with htracing | ⟨rfl, rfl⟩ | rfl | rfl
    · exact filterVerdict_tracing htracing _ _
    · exact filterVerdict_open _ _ ((opensForWriting_iff _).mp (dispatches_open hs h))
    · exact filterVerdict_openat arch _ _ ((opensForWriting_iff _).mp (dispatches_openat hs h))
    · rcases dispatches_fcntl hs h with hcmd | hcmd
      · exact absurd ⟨hs, hcmd⟩ hdup
      · exact filterVerdict_command arch _ hcmd

theorem filterTraces_congr {r e : SyscallRegs} (hnr : e.nr = r.nr) (harg1 : e.arg1 = r.arg1)
    (harg2 : e.arg2 = r.arg2) : filterTraces arch e = filterTraces arch r := by
  rw [filterTraces, filterTraces, hnr, harg1, harg2]

theorem fcntl_dispatches_retdata {r : SyscallRegs} (h : Dispatches arch r)
    (hs : syscallOf arch r.nr = some .SYS_fcntl) : 0 ≤ asInt r.retdata := by
  obtain ⟨op, hop, _⟩ := h
  simp only [syscallSwitch, hs] at hop
  split at hop
  · assumption
  · cases hop

variable {Q : Type} [MaxOutFilesQueue Q]

/-- What the filter lets through leaves the tracker as it is. -/
theorem Context.syscallExit_untraced (c : Context Q) (os : Os) (pid : Pid)
    {registers : UserRegs arch} {entry : SyscallRegs} (htraces : filterTraces arch entry = false)
    (hleaves : leavesAs arch entry (syscallRegs arch registers) = true) :
    c.syscallExit arch os pid registers = .ok c := by
  have hidle : ¬Dispatches arch (syscallRegs arch registers) := by
    intro hdispatches
    rw [leavesAs, Bool.or_eq_true, Option.isNone_iff_eq_none] at hleaves
    rcases hleaves with hnone | hsame
    · obtain ⟨op, hop, _⟩ := hdispatches
      rw [syscallSwitch_none hnone] at hop
      cases hop
    · simp only [Bool.and_eq_true, beq_iff_eq, Bool.not_eq_true', Bool.and_eq_false_imp,
        decide_eq_false_iff_not] at hsame
      obtain ⟨⟨⟨hnr, harg1⟩, harg2⟩, hdup⟩ := hsame
      have htraced := filterTraces_of_dispatches hdispatches fun hcmd =>
        hdup hcmd (fcntl_dispatches_retdata hdispatches hcmd.1)
      rw [filterTraces_congr hnr harg1 harg2, htraces] at htraced
      cases htraced
  rw [syscallExit]
  cases hop : syscallSwitch arch (syscallRegs arch registers) with
  | none => rfl
  | some op =>
    by_cases hopens : ∃ fd flags, op = .opOpenFile fd flags ∧ opensForWriting flags = false
    · obtain ⟨fd, flags, rfl, hflags⟩ := hopens
      simp only [perform, opOpenFile, hflags, Bool.false_eq_true, if_false]
    · refine absurd ⟨op, hop, fun fd flags heq => ?_⟩ hidle
      by_contra hno
      exact hopens ⟨fd, flags, heq, Bool.not_eq_true _ ▸ hno⟩

end Filter

/-! ## Two tracers abreast -/

namespace Tracer

variable {Q : Type} [MaxOutFilesQueue Q] {arch : Arch}

/-- The tracers have told the tracker the same, and resumed the same tracees. How they resumed them,
and what they keep of the calls the tracees are in, may differ. -/
structure Abreast (p q : Tracer arch Q) : Prop where
  context : q.context = p.context
  suspended : q.suspendedThreads = p.suspendedThreads
  exitCode : q.traceeExitCode = p.traceeExitCode
  calls : q.calls = p.calls
  resumed : q.resumes.map Resume.pid = p.resumes.map Resume.pid
  requests : ∀ r ∈ p.resumes, r.request = .syscall
  states : ∀ tid, tid ∈ q.syscallStateMap ↔ tid ∈ p.syscallStateMap

namespace Abreast

variable {cfg : TracerConfig} {os : Os} {ptrace : Ptrace arch} {p q : Tracer arch Q} {pid : Pid}
  {signal : Int}

theorem begin (h : Abreast p q) : Abreast p.begin q.begin :=
  ⟨h.context, h.suspended, h.exitCode, rfl, rfl, by simp [Tracer.begin], h.states⟩

theorem call (h : Abreast p q) (call : Call arch) : Match Abreast (p.call call) (q.call call) := by
  unfold Tracer.call
  rw [h.context]
  cases call.apply p.context with
  | ok c => exact .ok ⟨rfl, h.suspended, h.exitCode, by rw [h.calls], h.resumed, h.requests, h.states⟩
  | error a => exact .error _

theorem resume (h : Abreast p q) (pid : Pid) (request : Request) (signal : Int) {signal' : Int} :
    Match Abreast (p.resume ptrace pid .syscall signal) (q.resume ptrace pid request signal') := by
  refine Match.same fun reply => ?_
  cases reply with
  | none => exact .ok h
  | some u =>
    refine .ok ⟨h.context, h.suspended, h.exitCode, h.calls, ?_, fun r hr => ?_, h.states⟩
    · rw [List.map_append, List.map_append, h.resumed]
      rfl
    · rcases List.mem_append.mp hr with hold | hnew
      · exact h.requests r hold
      · rw [List.mem_singleton.mp hnew]

theorem setSyscallState (h : Abreast p q) (pid : Pid) (v w : Int) :
    Abreast (p.setSyscallState pid v) (q.setSyscallState pid w) := by
  refine ⟨h.context, h.suspended, h.exitCode, h.calls, h.resumed, h.requests, fun tid => ?_⟩
  rw [Tracer.setSyscallState, Tracer.setSyscallState, Finmap.mem_insert, Finmap.mem_insert,
    h.states]

theorem setRight (h : Abreast p q) (hpid : pid ∈ p.syscallStateMap) (w : Int) :
    Abreast p (q.setSyscallState pid w) := by
  refine ⟨h.context, h.suspended, h.exitCode, h.calls, h.resumed, h.requests, fun tid => ?_⟩
  rw [Tracer.setSyscallState, Finmap.mem_insert, h.states]
  constructor
  · rintro (rfl | hin)
    · exact hpid
    · exact hin
  · exact Or.inr

theorem setRegs (h : Abreast p q) (pid : Pid) (registers : UserRegs arch) :
    Match Abreast (p.setRegs ptrace pid registers) (q.setRegs ptrace pid registers) := by
  refine Match.same fun reply => ?_
  cases reply with
  | none => exact .ok h
  | some u => exact .ok ⟨h.context, h.suspended, h.exitCode, h.calls, h.resumed, h.requests, h.states⟩

theorem vanishThread (h : Abreast p q) (pid : Pid) (notify : Bool) :
    Match Abreast (p.vanishThread ptrace pid notify) (q.vanishThread ptrace pid notify) := by
  unfold Tracer.vanishThread
  by_cases hpid : pid ∈ p.syscallStateMap
  · rw [if_pos hpid, if_pos ((h.states pid).mpr hpid)]
    have herased : Abreast { p with syscallStateMap := p.syscallStateMap.erase pid }
        { q with syscallStateMap := q.syscallStateMap.erase pid } := by
      refine ⟨h.context, h.suspended, h.exitCode, h.calls, h.resumed, h.requests, fun tid => ?_⟩
      rw [Finmap.mem_erase, Finmap.mem_erase, h.states]
    cases notify with
    | false => exact herased.resume pid .syscall 0
    | true => exact (herased.call _).bind fun _ _ h => h.resume pid .syscall 0
  · rw [if_neg hpid, if_neg fun hno => hpid ((h.states pid).mp hno)]
    exact .error _

theorem terminated (h : Abreast p q) (pid : Pid) (exitCode : Int) :
    Match Abreast (p.terminated cfg.plain ptrace pid exitCode)
      (q.terminated cfg.filtered ptrace pid exitCode) := by
  refine (h.vanishThread pid true).bind fun p q h => ?_
  have hcode : Abreast
      (if p.traceeExitCode = EXIT_CODE_UNKNOWN then { p with traceeExitCode := exitCode } else p)
      (if q.traceeExitCode = EXIT_CODE_UNKNOWN then { q with traceeExitCode := exitCode } else q) := by
    rw [h.exitCode]
    split
    · exact ⟨h.context, h.suspended, rfl, h.calls, h.resumed, h.requests, h.states⟩
    · exact h
  by_cases htracee : pid = cfg.traceePid
  · by_cases hwait : (cfg.followForks && cfg.waitDaemons) = true
    · simp only [if_pos htracee, if_pos hwait]
      exact .ok hcode
    · simp only [if_pos htracee, if_neg hwait]
      exact .error _
  · simp only [if_neg htracee]
    exact .ok h

theorem restart (h : Abreast p q) (pid : Pid) (syscallStop : Bool) (signal : Int) {signal' : Int} :
    Match Abreast (p.restart cfg.plain ptrace pid syscallStop signal)
      (q.restart cfg.filtered ptrace pid syscallStop signal') := by
  simp only [Tracer.restart, Bool.false_eq_true, if_false, if_true]
  split
  · exact h.resume pid .syscall signal
  · exact h.resume pid .cont signal

theorem syscallEntered (h : Abreast p q) (pid : Pid) (registers : UserRegs arch) :
    Match Abreast (p.syscallEntered ptrace pid registers)
      (q.syscallEntered ptrace pid registers) := by
  unfold Tracer.syscallEntered
  simp only
  split
  · exact .error _
  · cases arch with
    | x86_64 => exact .ok (h.setSyscallState pid _ _)
    | aarch64 => exact (h.setSyscallState pid _ _).setRegs pid _

/-- A syscall stop, where the tracers have kept the same of the tracee. -/
theorem syscallStopped (h : Abreast p q)
    (hsame : q.syscallStateMap.lookup pid = p.syscallStateMap.lookup pid)
    (registers : UserRegs arch) :
    Match Abreast (p.syscallStopped os ptrace pid registers)
      (q.syscallStopped os ptrace pid registers) := by
  unfold Tracer.syscallStopped
  rw [hsame]
  split
  · exact .error _
  · split
    · exact h.syscallEntered pid registers
    · exact (h.setSyscallState pid _ _).call _

theorem proceed_false (cfg : TracerConfig) (os : Os) (h : Abreast p q) (pid : Pid) (signal : Int)
    {signal' : Int} : Match Abreast (p.proceed cfg.plain os ptrace pid false signal)
      (q.proceed cfg.filtered os ptrace pid false signal') := by
  have hrestart := @restart Q _ arch cfg ptrace p q h pid false signal signal'
  exact hrestart

theorem proceed (h : Abreast p q) {syscallStop : Bool} (hsame : syscallStop = true →
    q.syscallStateMap.lookup pid = p.syscallStateMap.lookup pid) (signal : Int) {signal' : Int} :
    Match Abreast (p.proceed cfg.plain os ptrace pid syscallStop signal)
      (q.proceed cfg.filtered os ptrace pid syscallStop signal') := by
  cases syscallStop with
  | false => exact h.proceed_false cfg os pid signal
  | true =>
    refine Match.same fun reply => ?_
    cases reply with
    | none => exact h.resume pid .syscall 0
    | some registers =>
      exact (h.syscallStopped (hsame rfl) registers).bind fun _ _ h => h.restart pid true signal

theorem registerChild (h : Abreast p q) (pid child : Pid) (isThread : Bool) :
    Match Abreast (p.registerChild cfg.plain os ptrace pid child isThread)
      (q.registerChild cfg.filtered os ptrace pid child isThread) := by
  refine (h.call _).bind fun p q h => ?_
  have hset := h.setSyscallState child SYSCALL_UNDEFINED SYSCALL_UNDEFINED
  have hwaits : child ∈ (q.setSyscallState child SYSCALL_UNDEFINED).suspendedThreads ↔
      child ∈ (p.setSyscallState child SYSCALL_UNDEFINED).suspendedThreads := by rw [hset.suspended]
  simp only [hwaits]
  split
  · have herased : Abreast
        { p.setSyscallState child SYSCALL_UNDEFINED with
          suspendedThreads := (p.setSyscallState child SYSCALL_UNDEFINED).suspendedThreads.erase child }
        { q.setSyscallState child SYSCALL_UNDEFINED with
          suspendedThreads :=
            (q.setSyscallState child SYSCALL_UNDEFINED).suspendedThreads.erase child } :=
      ⟨hset.context, by rw [hset.suspended], hset.exitCode, hset.calls, hset.resumed,
        hset.requests, hset.states⟩
    exact (herased.resume child _ 0).bind fun _ _ h => .ok (h.setSyscallState child _ _)
  · exact .ok hset

theorem cloned (h : Abreast p q) (pid : Pid) (event : BitVec 32) (msg : Word) (signal : Int) :
    Match Abreast (p.cloned cfg.plain os ptrace pid event msg signal)
      (q.cloned cfg.filtered os ptrace pid event msg signal) := by
  have hflags : ∀ flags : Word, Match Abreast
      (if flags.toInt < 0 then p.resume ptrace pid .syscall 0
        else p.registerChild cfg.plain os ptrace pid (asInt msg) (hasFlag flags CLONE_THREAD) >>=
          fun p => p.proceed cfg.plain os ptrace pid false signal)
      (if flags.toInt < 0 then q.resume ptrace pid .syscall 0
        else q.registerChild cfg.filtered os ptrace pid (asInt msg) (hasFlag flags CLONE_THREAD) >>=
          fun q => q.proceed cfg.filtered os ptrace pid false signal) := by
    intro flags
    split
    · exact h.resume pid .syscall 0
    · exact (h.registerChild pid (asInt msg) (hasFlag flags CLONE_THREAD)).bind fun _ _ h =>
        h.proceed_false cfg os pid signal
  unfold Tracer.cloned
  split
  · exact Match.same hflags
  · exact hflags 0

theorem execed (h : Abreast p q) (pid : Pid) (msg : Word) (signal : Int) :
    Match Abreast (p.execed cfg.plain os ptrace pid msg signal)
      (q.execed cfg.filtered os ptrace pid msg signal) := by
  refine (h.call _).bind fun p q h => ?_
  split
  · refine (h.vanishThread (asInt msg) false).bind fun _ _ h => ?_
    exact h.proceed_false cfg os pid signal
  · exact h.proceed_false cfg os pid signal

theorem evented (h : Abreast p q) {event : BitVec 32} (hevent : event ≠ PTRACE_EVENT_SECCOMP)
    {syscallStop : Bool} (hsame : syscallStop = true →
      q.syscallStateMap.lookup pid = p.syscallStateMap.lookup pid) (signal : Int) :
    Match Abreast (p.evented cfg.plain os ptrace pid event syscallStop signal)
      (q.evented cfg.filtered os ptrace pid event syscallStop signal) := by
  refine Match.same fun msg => ?_
  simp only [if_neg hevent]
  split
  · exact h.resume pid .syscall 0
  · split
    · exact h.cloned pid event msg signal
    · split
      · exact h.execed pid msg signal
      · exact h.proceed hsame signal

/-- A turn on a status that is no stop of the filter. -/
theorem turn (h : Abreast p q) {status : BitVec 32}
    (hstop : wifstopped status = true → status >>> 16 ≠ PTRACE_EVENT_SECCOMP ∧
      (isSyscallStop status = true →
        q.syscallStateMap.lookup pid = p.syscallStateMap.lookup pid)) :
    Match Abreast (p.turn cfg.plain os ptrace (.status pid status))
      (q.turn cfg.filtered os ptrace (.status pid status)) := by
  have hbegin := h.begin
  simp only [Tracer.turn]
  split
  · rename_i hstopped
    obtain ⟨hevent, hsame⟩ := hstop hstopped
    simp only [Tracer.stopped, h.states]
    split
    · split
      · exact hbegin.evented hevent hsame _
      · exact hbegin.proceed hsame _
    · exact .ok ⟨h.context, by rw [h.suspended], h.exitCode, rfl, rfl, hbegin.requests, h.states⟩
  · split
    · split
      · exact (hbegin.call _).bind fun _ _ h => h.terminated pid _
      · exact hbegin.terminated pid _
    · split
      · exact hbegin.terminated pid _
      · exact .error _

end Abreast

end Tracer

end Optrace
