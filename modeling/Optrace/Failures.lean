import Optrace.Turns

/-!
# How a turn can fail

Where the program can stop within a turn. The failures of interest are a parameter: a failed
assertion here, a return from the loop there.
-/

namespace Optrace

set_option autoImplicit false
set_option linter.unusedSectionVars false

open Except

/-- Of the ways to abort, only failed assertions are bad. -/
def Tolerates (bad : Stop → Prop) : Prop := ∀ a, bad (.abort a) → ∃ x, a = .assertion x

namespace Tolerates

variable {bad : Stop → Prop} (hbad : Tolerates bad)
include hbad

theorem exit2 : ¬bad (.abort .exit2) := by
  intro h
  obtain ⟨x, hx⟩ := hbad _ h
  cases hx

theorem undefined : ¬bad (.abort .undefined) := by
  intro h
  obtain ⟨x, hx⟩ := hbad _ h
  cases hx

theorem ptraceSafeCall {α : Type} (reply : Reply α) : (ptraceSafeCall reply).Avoids bad := by
  cases reply with
  | ok a => exact Avoids.ok _
  | gone => exact Avoids.ok _
  | failed => exact Avoids.error hbad.exit2

theorem getCloneFlags {arch : Arch} (ptrace : Ptrace arch) :
    (getCloneFlags arch ptrace).Avoids bad := by
  cases arch with
  | x86_64 =>
    refine (hbad.ptraceSafeCall _).bind fun reply _ => ?_
    cases reply with
    | none => exact Avoids.ok _
    | some flags =>
      simp only
      split
      · exact Avoids.error hbad.exit2
      · exact Avoids.ok _
  | aarch64 =>
    refine (hbad.ptraceSafeCall _).bind fun reply _ => ?_
    cases reply with
    | none => exact Avoids.error hbad.undefined
    | some registers => exact Avoids.ok _

end Tolerates

/-- A core file changes the storage only. -/
theorem Context.registerCoreDump_same {Q : Type} [MaxOutFilesQueue Q] {c c' : Context Q} {os : Os}
    {pid : Pid} {termSig : Int} (h : c.registerCoreDump os pid termSig = .ok c') :
    c'.heap = c.heap ∧ c'.groupLeaders = c.groupLeaders ∧ c'.procMap = c.procMap := by
  obtain ⟨q, _, h⟩ := bind_eq_ok_iff.mp h
  split at h
  · cases h
    unfold searchAndRegisterCoreDumpFile
    simp only
    split
    · exact ⟨rfl, rfl, rfl⟩
    · exact ⟨rfl, rfl, rfl⟩
  · cases h
    exact ⟨rfl, rfl, rfl⟩

namespace Tracer

variable {Q : Type} [MaxOutFilesQueue Q] {arch : Arch} {cfg : TracerConfig} {os : Os}
  {ptrace : Ptrace arch} {s s' : Tracer arch Q} {pid : Pid} {notice : Notice} {bad : Stop → Prop}

/-! ## The parts -/

theorem resume_avoids (hbad : Tolerates bad) (request : Request) (signal : Int) :
    (s.resume ptrace pid request signal).Avoids bad := by
  refine (hbad.ptraceSafeCall _).bind fun reply _ => ?_
  cases reply with
  | none => exact Avoids.ok _
  | some u => exact Avoids.ok _

theorem call_avoids {call : Call arch}
    (h : (call.apply s.context).Avoids fun a => bad (.abort a)) : (s.call call).Avoids bad := by
  unfold Tracer.call
  split
  · exact Avoids.ok _
  · rename_i e he
    exact Avoids.error (h e he)

theorem restart_avoids (hbad : Tolerates bad) (syscallStop : Bool) (signal : Int) :
    (s.restart cfg ptrace pid syscallStop signal).Avoids bad := by
  unfold restart
  split
  · split <;> exact resume_avoids hbad _ _
  · exact resume_avoids hbad _ _

theorem vanishThread_avoids (hbad : Tolerates bad) {notify : Bool}
    (hpid : bad (.abort (.assertion .vanishThread)) → pid ∈ s.syscallStateMap)
    (hvanish : notify = true → pid ∈ s.syscallStateMap →
      (s.context.vanishProcess pid).Avoids fun a => bad (.abort a)) :
    (s.vanishThread ptrace pid notify).Avoids bad := by
  unfold vanishThread
  split
  · rename_i hmem
    cases notify with
    | false =>
      simp only [Bool.false_eq_true, if_false, bind_ok]
      exact resume_avoids hbad _ _
    | true =>
      simp only [if_true]
      refine Avoids.bind (call_avoids ?_) fun s₁ _ => resume_avoids hbad _ _
      exact hvanish rfl hmem
  · rename_i hmem
    exact Avoids.error fun h => hmem (hpid h)

theorem terminated_avoids (hbad : Tolerates bad) {exitCode : Int}
    (hpid : bad (.abort (.assertion .vanishThread)) → pid ∈ s.syscallStateMap)
    (hvanish : pid ∈ s.syscallStateMap →
      (s.context.vanishProcess pid).Avoids fun a => bad (.abort a))
    (hcode : ¬bad (.returned exitCode)) : (s.terminated cfg ptrace pid exitCode).Avoids bad := by
  unfold terminated
  refine (vanishThread_avoids hbad hpid fun _ => hvanish).bind fun s₁ _ => ?_
  split
  · split
    · exact Avoids.ok _
    · exact Avoids.error hcode
  · exact Avoids.ok _

theorem setRegs_avoids (hbad : Tolerates bad) {registers : UserRegs arch} :
    (s.setRegs ptrace pid registers).Avoids bad := by
  unfold setRegs
  refine (hbad.ptraceSafeCall _).bind fun reply _ => ?_
  cases reply with
  | none => exact Avoids.ok _
  | some u => exact Avoids.ok _

theorem syscallEntered_avoids (hbad : Tolerates bad) {registers : UserRegs arch}
    (hearly : asInt (getSyscallNumber arch registers) = -2 → ¬bad (.returned (-2))) :
    (s.syscallEntered ptrace pid registers).Avoids bad := by
  unfold syscallEntered
  simp only
  split
  · rename_i heq
    exact Avoids.error (hearly heq)
  · cases arch with
    | x86_64 => exact Avoids.ok _
    | aarch64 => exact setRegs_avoids hbad

theorem proceed_avoids (hbad : Tolerates bad) {syscallStop : Bool} (signal : Int)
    (hpid : pid ∈ s.syscallStateMap)
    (hexit : ∀ registers : UserRegs arch,
      (s.context.syscallExit arch os pid registers).Avoids fun a => bad (.abort a))
    (hearly : syscallStop = true → ∀ registers, ptrace.regs = .ok registers →
      s.syscallStateMap.lookup pid = some SYSCALL_UNDEFINED →
      asInt (getSyscallNumber arch registers) = -2 → ¬bad (.returned (-2))) :
    (s.proceed cfg os ptrace pid syscallStop signal).Avoids bad := by
  unfold proceed
  split
  · rename_i hstop
    cases hregs : ptrace.regs with
    | failed => exact (hbad.ptraceSafeCall _).bind fun reply hreply => by cases hreply
    | gone => exact resume_avoids hbad _ _
    | ok registers =>
      simp only [ptraceSafeCall, bind_ok]
      refine Avoids.bind ?_ fun s₁ _ => restart_avoids hbad _ _
      obtain ⟨prev, hprev⟩ := Option.isSome_iff_exists.mp (Finmap.lookup_isSome.mpr hpid)
      simp only [syscallStopped, hprev]
      split
      · rename_i hundefined
        rw [hundefined] at hprev
        exact syscallEntered_avoids hbad (hearly hstop registers hregs hprev)
      · exact call_avoids (hexit registers)
  · exact restart_avoids hbad _ _

theorem registerChild_avoids (hbad : Tolerates bad) {child : Pid} {isThread : Bool}
    (hcall : ((registration os pid child isThread : Call arch).apply s.context).Avoids
      fun a => bad (.abort a)) :
    (s.registerChild cfg os ptrace pid child isThread).Avoids bad := by
  unfold registerChild
  refine Avoids.bind (call_avoids hcall) fun s₁ _ => ?_
  simp only
  split
  · exact (resume_avoids hbad _ _).bind fun _ _ => Avoids.ok _
  · exact Avoids.ok _

theorem cloned_avoids (hbad : Tolerates bad) {event : CloneEvent} {msg : Word} {signal : Int}
    (hmsg : ptrace.eventMsg = .ok msg)
    (hcall : told ptrace event = true →
      ((registration os pid (asInt msg) (asThread ptrace event) : Call arch).apply
        s.context).Avoids fun a => bad (.abort a)) :
    (s.cloned cfg os ptrace pid event.number msg signal).Avoids bad := by
  rw [cloned_eq]
  refine Avoids.bind ?_ fun flags hflags => ?_
  · split
    · exact hbad.getCloneFlags ptrace
    · exact Avoids.ok _
  · obtain ⟨htold, hthread⟩ := told_of_flags hmsg hflags
    split
    · exact resume_avoids hbad _ _
    · rename_i hnonneg
      refine Avoids.bind ?_ fun s₁ _ => restart_avoids hbad false _
      rw [← hthread]
      refine registerChild_avoids hbad (hcall ?_)
      rw [htold, decide_eq_true_iff]
      omega

theorem execed_avoids (hbad : Tolerates bad) {former : Pid} {msg : Word} {signal : Int}
    (hmsg : asInt msg = former)
    (hexec : (s.context.registerExec os pid former).Avoids fun a => bad (.abort a))
    (hformer : bad (.abort (.assertion .vanishThread)) → former ∈ s.syscallStateMap) :
    (s.execed cfg os ptrace pid msg signal).Avoids bad := by
  rw [execed_eq, hmsg]
  refine Avoids.bind (call_avoids hexec) fun s₁ hcall => ?_
  obtain ⟨c, _, rfl⟩ := call_ok hcall
  refine Avoids.bind ?_ fun s₂ _ => restart_avoids hbad false _
  split
  · exact vanishThread_avoids hbad hformer fun h => by cases h
  · exact Avoids.ok _

theorem evented_avoids (hbad : Tolerates bad) {event : BitVec 32} {syscallStop : Bool}
    {signal : Int}
    (h : ∀ msg, ptrace.eventMsg = .ok msg →
      (if event = PTRACE_EVENT_CLONE ∨ event = PTRACE_EVENT_FORK ∨ event = PTRACE_EVENT_VFORK then
          s.cloned cfg os ptrace pid event msg signal
        else if event = PTRACE_EVENT_EXEC then s.execed cfg os ptrace pid msg signal
        else if event = PTRACE_EVENT_SECCOMP then s.secComped cfg os ptrace pid signal
        else s.proceed cfg os ptrace pid syscallStop signal).Avoids bad) :
    (s.evented cfg os ptrace pid event syscallStop signal).Avoids bad := by
  refine Avoids.bind ((hbad.ptraceSafeCall _).bind fun _ _ => Avoids.ok _) fun reported hreported => ?_
  obtain ⟨answer, hanswer, hget⟩ := bind_eq_ok_iff.mp hreported
  rw [pure_eq_ok_iff] at hget
  subst hget
  split
  · exact resume_avoids hbad _ _
  · rename_i hnonneg
    cases hreply : ptrace.eventMsg with
    | failed =>
      rw [hreply] at hanswer
      cases hanswer
    | gone =>
      rw [hreply] at hanswer
      cases hanswer
      exact absurd (by decide) hnonneg
    | ok msg =>
      rw [hreply] at hanswer
      cases hanswer
      exact h msg hreply

/-! ## Whole turns -/

/-- No bad failure can come out of what a turn does on the notice. -/
structure Guarded (bad : Stop → Prop) (cfg : TracerConfig) (os : Os) (ptrace : Ptrace arch)
    (pid : Pid) (s : Tracer arch Q) (notice : Notice) : Prop where
  dies : notice.isDeath = true → bad (.abort (.assertion .vanishThread)) → pid ∈ s.syscallStateMap
  code : ∀ code : Int, 0 ≤ code → ¬bad (.returned code)
  dump : notice.isDeath = true → ∀ sig,
    (s.context.registerCoreDump os pid sig).Avoids fun a => bad (.abort a)
  vanish : pid ∈ s.syscallStateMap → ∀ c : Context Q, c.procMap = s.context.procMap →
    (c.vanishProcess pid).Avoids fun a => bad (.abort a)
  exit : pid ∈ s.syscallStateMap → ∀ registers : UserRegs arch,
    (s.context.syscallExit arch os pid registers).Avoids fun a => bad (.abort a)
  register : pid ∈ s.syscallStateMap → ∀ event nr msg, notice = .cloned event nr →
    ptrace.eventMsg = .ok msg → told ptrace event = true →
    ((registration os pid (asInt msg) (asThread ptrace event) : Call arch).apply s.context).Avoids
      fun a => bad (.abort a)
  exec : pid ∈ s.syscallStateMap → ∀ former,
    (s.context.registerExec os pid former).Avoids fun a => bad (.abort a)
  former : ∀ former nr, notice = .execed former nr →
    bad (.abort (.assertion .vanishThread)) → former ∈ s.syscallStateMap
  early : ∀ registers, ptrace.regs = .ok registers →
    (notice = .syscallStop ∧ s.syscallStateMap.lookup pid = some SYSCALL_UNDEFINED ∨
      notice = .secComp ∧ cfg.secCompVer = .SEC_COMP_V2) →
    asInt (getSyscallNumber arch registers) = -2 → ¬bad (.returned (-2))

theorem dead_avoids (hbad : Tolerates bad) (hdeath : notice.isDeath = true)
    (hfits : Fits ptrace notice) (h : Guarded bad cfg os ptrace pid s notice) :
    (s.turn cfg os ptrace (.status pid notice.status)).Avoids bad := by
  have hterminated : ∀ (c : Context Q) calls (code : Int), c.procMap = s.context.procMap → 0 ≤ code →
      (({ s.begin with context := c, calls := calls } : Tracer arch Q).terminated cfg ptrace pid
        code).Avoids bad :=
    fun c calls code hmap hcode => terminated_avoids hbad (h.dies hdeath)
      (fun hpid => h.vanish hpid c hmap) (h.code code hcode)
  cases notice with
  | exited code =>
    obtain ⟨hstopped, hsignaled, hexited, _⟩ := status_exited code
    simp only [turn, hstopped, hsignaled, hexited, Bool.false_eq_true, if_false, if_true]
    exact hterminated s.context [] _ rfl (Int.natCast_nonneg _)
  | killed sig core =>
    obtain ⟨hstopped, hsignaled, _, hcore⟩ := status_killed hfits.1 hfits.2 core
    cases core with
    | false =>
      simp only [turn, hstopped, hsignaled, hcore, Bool.false_eq_true, if_false, if_true, bind_ok]
      exact hterminated s.context [] _ rfl (by omega)
    | true =>
      simp only [turn, hstopped, hsignaled, hcore, Bool.false_eq_true, if_false, if_true]
      refine Avoids.bind (call_avoids (h.dump rfl _)) fun s₁ hcall => ?_
      obtain ⟨c₁, hc₁, rfl⟩ := call_ok hcall
      exact hterminated c₁ _ _ (Context.registerCoreDump_same hc₁).2.2 (by omega)
  | _ => cases hdeath

theorem turn_avoids (hbad : Tolerates bad) (hfits : Fits ptrace notice)
    (h : Guarded bad cfg os ptrace pid s notice) :
    (s.turn cfg os ptrace (.status pid notice.status)).Avoids bad := by
  by_cases hdead : notice.isDeath = true
  · exact dead_avoids hbad hdead hfits h
  rw [Bool.not_eq_true] at hdead
  by_cases hpid : pid ∈ s.syscallStateMap
  · have hpid' : pid ∈ s.begin.syscallStateMap := hpid
    have hexit := h.exit hpid
    cases notice with
    | exited code => cases hdead
    | killed sig core => cases hdead
    | signalStop sig =>
      obtain ⟨hstatus, hsyscall, hshift⟩ := status_signalStop hfits
      rw [turn_status _ hstatus]
      simp only [stopped, if_pos hpid', hsyscall, hshift, ne_eq, not_true_eq_false, if_false]
      exact proceed_avoids hbad _ hpid' hexit fun hno => by cases hno
    | syscallStop =>
      have hshift : Notice.syscallStop.status >>> 16 = 0 := by decide
      rw [turn_status _ (by decide)]
      simp only [stopped, if_pos hpid', hshift, ne_eq, not_true_eq_false, if_false]
      exact proceed_avoids hbad _ hpid' hexit fun _ registers hregs hprev =>
        h.early registers hregs (Or.inl ⟨rfl, hprev⟩)
    | cloned event nr =>
      obtain ⟨hlt, hne, hnumber⟩ := event.number_spec
      have hturn := @turn_event Q _ arch cfg os ptrace s pid event.number hlt hne hpid
      rw [Notice.status, hturn]
      refine evented_avoids hbad fun msg hmsg => ?_
      rw [if_pos hnumber]
      exact cloned_avoids hbad hmsg (h.register hpid event nr msg rfl hmsg)
    | execed former nr =>
      have hturn :=
        @turn_event Q _ arch cfg os ptrace s pid PTRACE_EVENT_EXEC (by decide) (by decide) hpid
      rw [Notice.status, hturn]
      refine evented_avoids hbad fun msg hmsg => ?_
      rw [if_neg (by decide), if_pos rfl]
      exact execed_avoids hbad (hfits msg hmsg).1 (h.exec hpid former) (h.former former nr rfl)
    | exiting =>
      have hturn :=
        @turn_event Q _ arch cfg os ptrace s pid PTRACE_EVENT_EXIT (by decide) (by decide) hpid
      rw [Notice.status, hturn]
      refine evented_avoids hbad fun msg hmsg => ?_
      rw [if_neg (by decide), if_neg (by decide), if_neg (by decide)]
      exact proceed_avoids hbad _ hpid' hexit fun hno => by cases hno
    | secComp =>
      have hturn :=
        @turn_event Q _ arch cfg os ptrace s pid PTRACE_EVENT_SECCOMP (by decide) (by decide) hpid
      rw [Notice.status, hturn]
      refine evented_avoids hbad fun msg hmsg => ?_
      rw [if_neg (by decide), if_neg (by decide), if_pos rfl]
      unfold secComped
      split
      · exact resume_avoids hbad _ _
      · rename_i hver
        exact proceed_avoids hbad _ (Finmap.mem_insert.mpr (Or.inl rfl)) hexit
          fun _ registers hregs _ => h.early registers hregs (Or.inr ⟨rfl, hver⟩)
  · have hpid' : pid ∉ s.begin.syscallStateMap := hpid
    rw [turn_status _ (stop_status hdead hfits)]
    simp only [stopped, if_neg hpid']
    exact Avoids.ok _

end Tracer

end Optrace
