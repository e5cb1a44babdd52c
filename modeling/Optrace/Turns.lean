import Optrace.Kernel

/-!
# What a turn does

The turn for each notice, decoded from its status word and inverted once: which calls it makes
on the tracker, what becomes of the two maps, and whom it resumes.
-/

namespace Optrace

set_option autoImplicit false
set_option linter.unusedSectionVars false

open Except

/-! ## Decoding -/

theorem status_exited (code : BitVec 8) :
    wifstopped (Notice.exited code).status = false ∧ wifsignaled (Notice.exited code).status = false ∧
      wifexited (Notice.exited code).status = true ∧
      wexitstatus (Notice.exited code).status = code.setWidth 32 := by
  revert code
  decide +kernel

theorem status_killed {sig : BitVec 7} (hsig : sig ≠ 0) (hstop : sig ≠ 0x7f) (core : Bool) :
    wifstopped (Notice.killed sig core).status = false ∧
      wifsignaled (Notice.killed sig core).status = true ∧
      wtermsig (Notice.killed sig core).status = sig.setWidth 32 ∧
      wcoredump (Notice.killed sig core).status = core := by
  revert sig core
  decide +kernel

theorem status_signalStop {sig : BitVec 8} (hsig : sig ≠ 0x85) :
    wifstopped (Notice.signalStop sig).status = true ∧
      isSyscallStop (Notice.signalStop sig).status = false ∧
      (Notice.signalStop sig).status >>> 16 = 0 := by
  revert sig
  decide +kernel

theorem status_event {event : BitVec 32} (h : event.toNat < 8) :
    wifstopped (eventStatus event) = true ∧ isSyscallStop (eventStatus event) = false ∧
      eventStatus event >>> 16 = event := by
  obtain ⟨n, rfl⟩ : ∃ n : Fin 8, event = BitVec.ofNat 32 n.val :=
    ⟨⟨event.toNat, h⟩, by simp⟩
  revert n
  decide

theorem CloneEvent.number_spec (event : CloneEvent) : event.number.toNat < 8 ∧ event.number ≠ 0 ∧
    (event.number = PTRACE_EVENT_CLONE ∨ event.number = PTRACE_EVENT_FORK ∨
      event.number = PTRACE_EVENT_VFORK) := by
  cases event <;> decide

/-- What a call that resumes a tracee adds to those resumed. -/
def resumption {arch : Arch} (ptrace : Ptrace arch) (pid : Pid) (request : Request)
    (signal : Int) : List Resume :=
  match ptrace.resume pid with
  | .ok () => [⟨pid, request, signal⟩]
  | _ => []

namespace Tracer

variable {Q : Type} [MaxOutFilesQueue Q] {arch : Arch} {cfg : TracerConfig} {os : Os}
  {ptrace : Ptrace arch} {s s' : Tracer arch Q} {pid : Pid}

/-- The state at the beginning of a turn. -/
def begin (s : Tracer arch Q) : Tracer arch Q := { s with calls := [], resumes := [], stores := [] }

/-! ## The parts -/

/-- The tracee was resumed so, or could not be; nothing else happened. -/
def Resumed (pid : Pid) (request : Request) (s s' : Tracer arch Q) : Prop :=
  ∃ rs, s' = { s with resumes := s.resumes ++ rs } ∧ ∀ r ∈ rs, r.pid = pid ∧ r.request = request

theorem resume_inv {q : Request} {signal : Int} (h : s.resume ptrace pid q signal = .ok s') :
    s' = { s with resumes := s.resumes ++ resumption ptrace pid q signal } := by
  unfold resumption
  obtain ⟨reply, hreply, h⟩ := bind_eq_ok_iff.mp h
  cases hresume : ptrace.resume pid with
  | ok u =>
    rw [hresume] at hreply
    cases hreply
    cases h
    rfl
  | gone =>
    rw [hresume] at hreply
    cases hreply
    cases h
    simp
  | failed =>
    rw [hresume] at hreply
    cases hreply

theorem mem_resumption {q : Request} {signal : Int} {r : Resume}
    (h : r ∈ resumption ptrace pid q signal) : r.pid = pid ∧ r.request = q := by
  unfold resumption at h
  split at h
  · rw [List.mem_singleton.mp h]
    exact ⟨rfl, rfl⟩
  · cases h

theorem resume_ok {request : Request} {signal : Int}
    (h : s.resume ptrace pid request signal = .ok s') : Resumed pid request s s' :=
  ⟨_, resume_inv h, fun _ => mem_resumption⟩

theorem call_ok {call : Call arch} (h : s.call call = .ok s') :
    ∃ c, call.apply s.context = .ok c ∧
      s' = { s with context := c, calls := s.calls ++ [call] } := by
  unfold Tracer.call at h
  split at h
  · rename_i c hc
    cases h
    exact ⟨c, hc, rfl⟩
  · cases h

/-- How a tracee is resumed at the end of a turn. -/
def request (cfg : TracerConfig) (inCall : Bool) : Request :=
  if cfg.useSecComp && !inCall then .cont else .syscall

theorem restart_ok {syscallStop : Bool} {signal : Int}
    (h : s.restart cfg ptrace pid syscallStop signal = .ok s') :
    Resumed pid (request cfg (syscallStop &&
      (s.syscallStateMap.lookup pid).getD 0 != SYSCALL_UNDEFINED)) s s' := by
  unfold restart at h
  unfold request
  split at h
  · rename_i hseccomp
    split at h
    · rename_i hcall
      rw [hseccomp, hcall]
      exact resume_ok h
    · rename_i hcall
      rw [Bool.not_eq_true] at hcall
      rw [hseccomp, hcall]
      exact resume_ok h
  · rename_i hseccomp
    rw [Bool.not_eq_true] at hseccomp
    rw [hseccomp]
    exact resume_ok h

theorem setSyscallState_lookup (syscall : Int) :
    (s.setSyscallState pid syscall).syscallStateMap.lookup pid = some syscall :=
  Finmap.lookup_insert _

theorem proceed_false_ok {signal : Int} (h : s.proceed cfg os ptrace pid false signal = .ok s') :
    Resumed pid (request cfg false) s s' := by
  have hrestart : s.restart cfg ptrace pid false signal = .ok s' := h
  exact restart_ok hrestart

theorem proceed_false_eq (signal : Int) : s.proceed cfg os ptrace pid false signal =
    s.resume ptrace pid (request cfg false) signal := by
  have hrestart : s.proceed cfg os ptrace pid false signal =
      s.restart cfg ptrace pid false signal := rfl
  rw [hrestart, restart, request]
  cases cfg.useSecComp <;> rfl

theorem setRegs_ok {registers : UserRegs arch} (h : s.setRegs ptrace pid registers = .ok s') :
    ∃ stores, s' = { s with stores := s.stores ++ stores } ∧
      ∀ store ∈ stores, store = ⟨pid, registers⟩ := by
  obtain ⟨reply, _, h⟩ := bind_eq_ok_iff.mp h
  cases reply with
  | none =>
    cases h
    exact ⟨[], by simp, by simp⟩
  | some u =>
    cases h
    exact ⟨[⟨pid, registers⟩], rfl, fun store hstore => List.mem_singleton.mp hstore⟩

/-- Registers as the entry handler leaves them. -/
def entrySaved : (arch : Arch) → UserRegs arch → Option (UserRegs arch)
  | .x86_64, _ => none
  | .aarch64, registers => some (saveArg0 registers)

theorem syscallEntered_ok {registers : UserRegs arch}
    (h : s.syscallEntered ptrace pid registers = .ok s') :
    asInt (getSyscallNumber arch registers) ≠ -2 ∧ ∃ stores,
      s' = { s.setSyscallState pid (asInt (getSyscallNumber arch registers)) with
        stores := s.stores ++ stores } ∧
      ∀ store ∈ stores, store.pid = pid ∧ entrySaved arch registers = some store.registers := by
  unfold syscallEntered at h
  simp only at h
  split at h
  · cases h
  · rename_i hnr
    refine ⟨hnr, ?_⟩
    cases arch with
    | x86_64 =>
      cases h
      exact ⟨[], by rw [List.append_nil]; rfl, by simp⟩
    | aarch64 =>
      obtain ⟨stores, hs', hstores⟩ := setRegs_ok h
      refine ⟨stores, hs', fun store hstore => ?_⟩
      rw [hstores store hstore]
      exact ⟨rfl, rfl⟩

/-- What a syscall stop does, by the value the map has for the tracee. -/
inductive Stopped (cfg : TracerConfig) (os : Os) (pid : Pid) (s : Tracer arch Q) :
    Reply (UserRegs arch) → Tracer arch Q → Prop where
  | gone (s' : Tracer arch Q) (hs' : Resumed pid .syscall s s') : Stopped cfg os pid s .gone s'
  | entered (registers : UserRegs arch) (s' : Tracer arch Q)
      (hprev : s.syscallStateMap.lookup pid = some SYSCALL_UNDEFINED)
      (hnr : asInt (getSyscallNumber arch registers) ≠ -2)
      (stores : List (Store arch)) (hstores : ∀ store ∈ stores,
        store.pid = pid ∧ entrySaved arch registers = some store.registers)
      (hs' : Resumed pid
        (request cfg (asInt (getSyscallNumber arch registers) != SYSCALL_UNDEFINED))
        { s.setSyscallState pid (asInt (getSyscallNumber arch registers)) with
          stores := s.stores ++ stores } s') :
      Stopped cfg os pid s (.ok registers) s'
  | left (registers : UserRegs arch) (s' : Tracer arch Q) (prev : Int) (c : Context Q)
      (hprev : s.syscallStateMap.lookup pid = some prev) (hne : prev ≠ SYSCALL_UNDEFINED)
      (hexit : s.context.syscallExit arch os pid registers = .ok c)
      (hs' : Resumed pid (request cfg false)
        { s.setSyscallState pid SYSCALL_UNDEFINED with
          context := c
          calls := s.calls ++ [.syscallExit os pid registers] } s') :
      Stopped cfg os pid s (.ok registers) s'

theorem proceed_true_ok {signal : Int} (h : s.proceed cfg os ptrace pid true signal = .ok s') :
    Stopped cfg os pid s ptrace.regs s' := by
  rw [proceed, if_pos rfl] at h
  cases hregs : ptrace.regs with
  | failed =>
    rw [hregs] at h
    cases h
  | gone =>
    rw [hregs] at h
    exact .gone s' (resume_ok h)
  | ok registers =>
    simp only [hregs, ptraceSafeCall, bind_ok] at h
    obtain ⟨s₁, hstopped, hrestart⟩ := bind_eq_ok_iff.mp h
    have hresumed := restart_ok hrestart
    rw [Bool.true_and] at hresumed
    unfold syscallStopped at hstopped
    split at hstopped
    · cases hstopped
    · rename_i prev hprev
      split at hstopped
      · rename_i hundefined
        subst hundefined
        obtain ⟨hnr, stores, rfl, hstores⟩ := syscallEntered_ok hstopped
        have hlookup := @setSyscallState_lookup Q _ arch s pid
          (asInt (getSyscallNumber arch registers))
        simp only [hlookup, Option.getD_some] at hresumed
        exact .entered registers s' hprev hnr stores hstores hresumed
      · rename_i hne
        obtain ⟨c, hexit, rfl⟩ := call_ok hstopped
        have hlookup := @setSyscallState_lookup Q _ arch s pid SYSCALL_UNDEFINED
        simp only [hlookup, Option.getD_some, bne_self_eq_false] at hresumed
        exact .left registers s' prev c hprev hne hexit hresumed

theorem vanishThread_ok {notify : Bool} (h : s.vanishThread ptrace pid notify = .ok s') :
    pid ∈ s.syscallStateMap ∧ ∃ c,
      (if notify then s.context.vanishProcess pid = .ok c else c = s.context) ∧
      Resumed pid .syscall { s with
        context := c
        syscallStateMap := s.syscallStateMap.erase pid
        calls := s.calls ++ if notify then [.vanishProcess pid] else [] } s' := by
  unfold vanishThread at h
  split at h
  · rename_i hpid
    refine ⟨hpid, ?_⟩
    cases notify with
    | false =>
      simp only [Bool.false_eq_true, if_false, bind_ok] at h
      refine ⟨s.context, rfl, ?_⟩
      simp only [Bool.false_eq_true, if_false, List.append_nil]
      exact resume_ok h
    | true =>
      simp only [if_true] at h
      obtain ⟨s₁, hcall, h⟩ := bind_eq_ok_iff.mp h
      obtain ⟨c, hc, rfl⟩ := call_ok hcall
      exact ⟨c, hc, resume_ok h⟩
  · cases h

theorem terminated_ok {exitCode : Int} (h : s.terminated cfg ptrace pid exitCode = .ok s') :
    ∃ s₁ code, s.vanishThread ptrace pid true = .ok s₁ ∧ s' = { s₁ with traceeExitCode := code } := by
  obtain ⟨s₁, hvanish, h⟩ := bind_eq_ok_iff.mp h
  refine ⟨s₁, s'.traceeExitCode, hvanish, ?_⟩
  split at h
  · split at h
    · rw [pure_eq_ok_iff] at h
      subst h
      split <;> rfl
    · cases h
  · rw [pure_eq_ok_iff] at h
    subst h
    rfl

/-- The call that registers a new tracee. -/
def registration (os : Os) (pid child : Pid) (isThread : Bool) : Call arch :=
  if isThread then .registerThread pid child else .registerProcess os pid child

/-- The state with an entry for the new tracee in both maps. -/
def withChild (s : Tracer arch Q) (c : Context Q) (call : Call arch) (child : Pid) :
    Tracer arch Q :=
  { s with
    context := c
    syscallStateMap := s.syscallStateMap.insert child SYSCALL_UNDEFINED
    calls := s.calls ++ [call] }

theorem erase_of_notMem {β : Type} {m : PidMap β} (h : pid ∉ m) : m.erase pid = m := by
  refine Finmap.ext_lookup fun tid => ?_
  rw [PidMap.lookup_erase]
  split
  · rename_i htid
    rw [htid]
    exact (Finmap.lookup_eq_none.mpr h).symm
  · rfl

/-- A new tracee is restarted if it was waiting for that. -/
def awaited (cfg : TracerConfig) (ptrace : Ptrace arch) (s : Tracer arch Q) (child : Pid) :
    List Resume :=
  if child ∈ s.suspendedThreads then resumption ptrace child (request cfg false) 0 else []

/-- The state after a new tracee was registered. -/
def withArrival (cfg : TracerConfig) (ptrace : Ptrace arch) (s : Tracer arch Q) (c : Context Q)
    (call : Call arch) (child : Pid) : Tracer arch Q :=
  { s.withChild c call child with
    suspendedThreads := s.suspendedThreads.erase child
    resumes := s.resumes ++ s.awaited cfg ptrace child }

theorem registerChild_bind (child : Pid) (isThread : Bool) :
    s.registerChild cfg os ptrace pid child isThread =
      s.call (registration os pid child isThread) >>= fun s₁ =>
        if child ∈ s₁.suspendedThreads then do
          let s₂ ← ({ s₁.setSyscallState child SYSCALL_UNDEFINED with
            suspendedThreads := s₁.suspendedThreads.erase child } : Tracer arch Q).resume ptrace
              child (if cfg.useSecComp then .cont else .syscall) 0
          return s₂.setSyscallState child SYSCALL_UNDEFINED
        else return s₁.setSyscallState child SYSCALL_UNDEFINED := rfl

theorem registerChild_inv {child : Pid} {isThread : Bool}
    (h : s.registerChild cfg os ptrace pid child isThread = .ok s') :
    ∃ c, (registration os pid child isThread : Call arch).apply s.context = .ok c ∧
      s' = s.withArrival cfg ptrace c (registration os pid child isThread) child := by
  rw [registerChild_bind] at h
  obtain ⟨s₁, hcall, h⟩ := bind_eq_ok_iff.mp h
  obtain ⟨c, hc, rfl⟩ := call_ok hcall
  refine ⟨c, hc, ?_⟩
  have hrequest : (if cfg.useSecComp then Request.cont else .syscall) = request cfg false := by
    simp [request]
  unfold withArrival awaited
  split at h
  · rename_i hwaits
    obtain ⟨s₂, hresume, h⟩ := bind_eq_ok_iff.mp h
    rw [pure_eq_ok_iff] at h
    subst h
    rw [hrequest] at hresume
    rw [resume_inv hresume, if_pos hwaits]
    simp only [setSyscallState, withChild, Finmap.insert_insert]
  · rename_i hwaits
    cases h
    rw [if_neg hwaits, List.append_nil, erase_of_notMem hwaits]
    rfl

/-- The child gets an entry in both maps, and is resumed at most. -/
theorem registerChild_ok {child : Pid} {isThread : Bool}
    (h : s.registerChild cfg os ptrace pid child isThread = .ok s') :
    ∃ c suspended rs, (registration os pid child isThread : Call arch).apply s.context = .ok c ∧
      s' = { s.withChild c (registration os pid child isThread) child with
        suspendedThreads := suspended
        resumes := s.resumes ++ rs } ∧
      ∀ r ∈ rs, r.pid = child ∧ r.request = request cfg false := by
  obtain ⟨c, hc, rfl⟩ := registerChild_inv h
  refine ⟨c, s.suspendedThreads.erase child, s.awaited cfg ptrace child, hc, rfl, fun r hr => ?_⟩
  unfold awaited at hr
  split at hr
  · exact mem_resumption hr
  · cases hr

/-! ## Whole turns -/

/-- What is left of a turn: the tracker, the states of the calls, whom it resumed and how, and
the calls it made. -/
structure After (s' : Tracer arch Q) (c : Context Q) (states : PidMap Int)
    (resumed : Pid → Request → Prop) (calls : List (Call arch)) : Prop where
  context : s'.context = c
  states : s'.syscallStateMap = states
  resumed : ∀ r ∈ s'.resumes, resumed r.pid r.request
  calls : s'.calls = calls

theorem Resumed.after {request : Request} (h : Resumed pid request s s')
    (hs : s.resumes = []) :
    After s' s.context s.syscallStateMap (fun tid q => tid = pid ∧ q = request) s.calls := by
  obtain ⟨rs, rfl, hrs⟩ := h
  refine ⟨rfl, rfl, fun r hr => hrs r ?_, rfl⟩
  rwa [hs, List.nil_append] at hr

/-- The new tracee is a thread, as far as the tracer can tell. -/
def asThread (ptrace : Ptrace arch) (event : CloneEvent) : Bool :=
  event == .clone && match getCloneFlags arch ptrace with
    | .ok flags => hasFlag flags CLONE_THREAD
    | .error _ => false

/-- The status word and the event message are those of the notice. -/
def Fits (ptrace : Ptrace arch) : Notice → Prop
  | .killed sig _ => sig ≠ 0 ∧ sig ≠ 0x7f
  | .signalStop sig => sig ≠ 0x85
  | .execed former _ => ∀ msg, ptrace.eventMsg = .ok msg →
    asInt msg = former ∧ msg.toInt = former ∧ 0 ≤ former
  | .exited _ => True
  | .syscallStop => True
  | _ => ∀ msg, ptrace.eventMsg = .ok msg → 0 ≤ msg.toInt

/-- Why a new tracee is not registered: its pid was not read, or a flags word reads as an error. -/
def Missed (ptrace : Ptrace arch) (event : CloneEvent) : Prop :=
  ptrace.eventMsg.isGone = true ∨
    event = .clone ∧ ∃ flags, getCloneFlags arch ptrace = .ok flags ∧ flags.toInt < 0

/-- What a turn does on a notice. -/
inductive Turned (cfg : TracerConfig) (os : Os) (ptrace : Ptrace arch) (pid : Pid)
    (s s' : Tracer arch Q) : Notice → Prop where
  | unknown (notice : Notice) (hdeath : notice.isDeath = false) (hpid : pid ∉ s.syscallStateMap)
      (h : After s' s.context s.syscallStateMap (fun _ _ => False) []) :
      Turned cfg os ptrace pid s s' notice
  | dead (notice : Notice) (hdeath : notice.isDeath = true) (hpid : pid ∈ s.syscallStateMap)
      (c₁ c : Context Q) (dump : List (Call arch))
      (hdump : (c₁ = s.context ∧ dump = []) ∨ ∃ sig,
        s.context.registerCoreDump os pid sig = .ok c₁ ∧ dump = [.registerCoreDump os pid sig])
      (hvanish : c₁.vanishProcess pid = .ok c)
      (h : After s' c (s.syscallStateMap.erase pid) (fun tid _ => tid = pid)
        (dump ++ [.vanishProcess pid])) : Turned cfg os ptrace pid s s' notice
  | signalled (sig : BitVec 8) (hpid : pid ∈ s.syscallStateMap)
      (h : After s' s.context s.syscallStateMap
        (fun tid q => tid = pid ∧ q = request cfg false) []) :
      Turned cfg os ptrace pid s s' (.signalStop sig)
  | exiting (hpid : pid ∈ s.syscallStateMap)
      (h : After s' s.context s.syscallStateMap (fun tid _ => tid = pid) []) :
      Turned cfg os ptrace pid s s' .exiting
  | untold (event : CloneEvent) (nr : Word) (hpid : pid ∈ s.syscallStateMap)
      (htold : told ptrace event = false) (hcause : Missed ptrace event)
      (h : After s' s.context s.syscallStateMap (fun tid q => tid = pid ∧ q = .syscall) []) :
      Turned cfg os ptrace pid s s' (.cloned event nr)
  | cloned (event : CloneEvent) (nr msg : Word) (c : Context Q) (hpid : pid ∈ s.syscallStateMap)
      (htold : told ptrace event = true) (hmsg : ptrace.eventMsg = .ok msg)
      (hc : (registration os pid (asInt msg) (asThread ptrace event) : Call arch).apply s.context =
        .ok c)
      (h : After s' c (s.syscallStateMap.insert (asInt msg) SYSCALL_UNDEFINED)
        (fun tid q => (tid = asInt msg ∨ tid = pid) ∧ q = request cfg false)
        [registration os pid (asInt msg) (asThread ptrace event)]) :
      Turned cfg os ptrace pid s s' (.cloned event nr)
  | execLost (former : Pid) (nr : Word) (hpid : pid ∈ s.syscallStateMap)
      (hgone : ptrace.eventMsg.isGone = true)
      (h : After s' s.context s.syscallStateMap (fun tid q => tid = pid ∧ q = .syscall) []) :
      Turned cfg os ptrace pid s s' (.execed former nr)
  | execed (former : Pid) (nr : Word) (c : Context Q) (hpid : pid ∈ s.syscallStateMap)
      (hgone : ptrace.eventMsg.isGone = false)
      (hc : s.context.registerExec os pid former = .ok c)
      (hformer : former ≠ pid → former ∈ s.syscallStateMap)
      (h : After s' c
        (if former = pid then s.syscallStateMap else s.syscallStateMap.erase former)
        (fun tid q => tid = former ∧ former ≠ pid ∨ tid = pid ∧ q = request cfg false)
        [.registerExec os pid former]) : Turned cfg os ptrace pid s s' (.execed former nr)
  | picked (hpid : pid ∈ s.syscallStateMap)
      (hcause : ptrace.eventMsg.isGone = true ∨ cfg.secCompVer = .SEC_COMP_V1)
      (h : After s' s.context s.syscallStateMap (fun tid q => tid = pid ∧ q = .syscall) []) :
      Turned cfg os ptrace pid s s' .secComp
  | stopped (notice : Notice) (hpid : pid ∈ s.syscallStateMap) (s₁ : Tracer arch Q)
      (hs₁ : (notice = .syscallStop ∧ s₁ = s.begin) ∨ (notice = .secComp ∧
        ptrace.eventMsg.isGone = false ∧ cfg.secCompVer = .SEC_COMP_V2 ∧
        s₁ = s.begin.setSyscallState pid SYSCALL_UNDEFINED))
      (h : Stopped cfg os pid s₁ ptrace.regs s') : Turned cfg os ptrace pid s s' notice

variable {notice : Notice}

theorem turn_status (status : BitVec 32) (h : wifstopped status = true) :
    s.turn cfg os ptrace (.status pid status) = s.begin.stopped cfg os ptrace pid status := by
  simp only [turn, h, if_true]
  rfl

theorem turned_dead (hdeath : notice.isDeath = true) (hfits : Fits ptrace notice)
    (h : s.turn cfg os ptrace (.status pid notice.status) = .ok s') :
    Turned cfg os ptrace pid s s' notice := by
  -- a death is one call of `terminated`, after the core file if there is one
  have hterminated : ∃ c₁ dump code, ((c₁ = s.context ∧ dump = []) ∨ ∃ sig,
      s.context.registerCoreDump os pid sig = .ok c₁ ∧ dump = [.registerCoreDump os pid sig]) ∧
      ({ s.begin with context := c₁, calls := dump } : Tracer arch Q).terminated cfg ptrace pid
        code = .ok s' := by
    cases notice with
    | exited code =>
      obtain ⟨hstopped, hsignaled, hexited, _⟩ := status_exited code
      simp only [turn, hstopped, hsignaled, hexited, Bool.false_eq_true, if_false, if_true] at h
      exact ⟨s.context, [], _, Or.inl ⟨rfl, rfl⟩, h⟩
    | killed sig core =>
      obtain ⟨hstopped, hsignaled, _, hcore⟩ := status_killed hfits.1 hfits.2 core
      cases core with
      | false =>
        simp only [turn, hstopped, hsignaled, hcore, Bool.false_eq_true, if_false, if_true,
          bind_ok] at h
        exact ⟨s.context, [], _, Or.inl ⟨rfl, rfl⟩, h⟩
      | true =>
        simp only [turn, hstopped, hsignaled, hcore, Bool.false_eq_true, if_false, if_true] at h
        obtain ⟨s₁, hdump, h⟩ := bind_eq_ok_iff.mp h
        obtain ⟨c₁, hc₁, rfl⟩ := call_ok hdump
        exact ⟨c₁, _, _, Or.inr ⟨_, hc₁, rfl⟩, h⟩
    | _ => cases hdeath
  obtain ⟨c₁, dump, code, hdump, hterm⟩ := hterminated
  obtain ⟨s₁, code', hvanish, rfl⟩ := terminated_ok hterm
  obtain ⟨hpid, c, hc, hresumed⟩ := vanishThread_ok hvanish
  have hafter := hresumed.after rfl
  refine .dead notice hdeath hpid c₁ c dump hdump hc ⟨hafter.context, hafter.states, ?_, hafter.calls⟩
  exact fun r hr => (hafter.resumed r hr).1

/-- A stop of a tracee that nobody told of. -/
theorem turned_unknown (hdeath : notice.isDeath = false)
    (hstatus : wifstopped notice.status = true) (hpid : pid ∉ s.syscallStateMap)
    (h : s.turn cfg os ptrace (.status pid notice.status) = .ok s') :
    Turned cfg os ptrace pid s s' notice := by
  rw [turn_status _ hstatus] at h
  have hpid' : pid ∉ s.begin.syscallStateMap := hpid
  simp only [stopped, if_neg hpid'] at h
  cases h
  exact .unknown notice hdeath hpid ⟨rfl, rfl, by simp [begin], rfl⟩

theorem turn_event {event : BitVec 32} (hevent : event.toNat < 8) (hne : event ≠ 0)
    (hpid : pid ∈ s.syscallStateMap) :
    s.turn cfg os ptrace (.status pid (eventStatus event)) =
      s.begin.evented cfg os ptrace pid event false 5 := by
  obtain ⟨hstopped, hsyscall, hshift⟩ := status_event hevent
  have hpid' : pid ∈ s.begin.syscallStateMap := hpid
  have hsig : wstopsig (eventStatus event) = 5 := by
    obtain ⟨n, rfl⟩ : ∃ n : Fin 8, event = BitVec.ofNat 32 n.val := ⟨⟨event.toNat, hevent⟩, by simp⟩
    revert n
    decide
  rw [turn_status _ hstopped]
  simp only [stopped, hsyscall, hshift, if_pos hpid', if_pos hne, hsig, Bool.false_eq_true, if_false]
  rfl

theorem evented_inv {event : BitVec 32} {syscallStop : Bool} {signal : Int}
    (h : s.evented cfg os ptrace pid event syscallStop signal = .ok s') :
    ((ptrace.eventMsg.isGone = true ∨ ∃ msg, ptrace.eventMsg = .ok msg ∧ msg.toInt < 0) ∧
        s.resume ptrace pid .syscall 0 = .ok s') ∨
      ∃ msg, ptrace.eventMsg = .ok msg ∧ 0 ≤ msg.toInt ∧
        (if event = PTRACE_EVENT_CLONE ∨ event = PTRACE_EVENT_FORK ∨ event = PTRACE_EVENT_VFORK then
          s.cloned cfg os ptrace pid event msg signal
        else if event = PTRACE_EVENT_EXEC then s.execed cfg os ptrace pid msg signal
        else if event = PTRACE_EVENT_SECCOMP then s.secComped cfg os ptrace pid signal
        else s.proceed cfg os ptrace pid syscallStop signal) = .ok s' := by
  obtain ⟨reported, hreported, h⟩ := bind_eq_ok_iff.mp h
  obtain ⟨answer, hanswer, hget⟩ := bind_eq_ok_iff.mp hreported
  rw [pure_eq_ok_iff] at hget
  subst hget
  cases hreply : ptrace.eventMsg with
  | failed =>
    rw [hreply] at hanswer
    cases hanswer
  | gone =>
    rw [hreply] at hanswer
    cases hanswer
    rw [if_pos (by decide)] at h
    exact Or.inl ⟨Or.inl rfl, h⟩
  | ok msg =>
    rw [hreply] at hanswer
    cases hanswer
    rw [Option.getD_some] at h
    split at h
    · rename_i hneg
      exact Or.inl ⟨Or.inr ⟨msg, rfl, hneg⟩, h⟩
    · rename_i hnonneg
      exact Or.inr ⟨msg, rfl, by omega, h⟩

theorem evented_ok {event : BitVec 32} {syscallStop : Bool} {signal : Int}
    (hmsg : ∀ msg, ptrace.eventMsg = .ok msg → 0 ≤ msg.toInt)
    (h : s.evented cfg os ptrace pid event syscallStop signal = .ok s') :
    (ptrace.eventMsg.isGone = true ∧ Resumed pid .syscall s s') ∨
      ∃ msg, ptrace.eventMsg = .ok msg ∧
        (if event = PTRACE_EVENT_CLONE ∨ event = PTRACE_EVENT_FORK ∨ event = PTRACE_EVENT_VFORK then
          s.cloned cfg os ptrace pid event msg signal
        else if event = PTRACE_EVENT_EXEC then s.execed cfg os ptrace pid msg signal
        else if event = PTRACE_EVENT_SECCOMP then s.secComped cfg os ptrace pid signal
        else s.proceed cfg os ptrace pid syscallStop signal) = .ok s' := by
  rcases evented_inv h with ⟨hgone | ⟨msg, hok, hneg⟩, hresume⟩ | ⟨msg, hok, _, hrest⟩
  · exact Or.inl ⟨hgone, resume_ok hresume⟩
  · exact absurd (hmsg msg hok) (not_le.mpr hneg)
  · exact Or.inr ⟨msg, hok, hrest⟩

theorem cloned_eq (event : CloneEvent) (msg : Word) (signal : Int) :
    s.cloned cfg os ptrace pid event.number msg signal =
      (if event = .clone then getCloneFlags arch ptrace else .ok 0) >>= fun flags =>
        if flags.toInt < 0 then s.resume ptrace pid .syscall 0
        else s.registerChild cfg os ptrace pid (asInt msg) (hasFlag flags CLONE_THREAD) >>= fun s₁ =>
          s₁.proceed cfg os ptrace pid false signal := by
  cases event <;> rfl

/-- Whether to register the new tracee, and as what, is read off one word. -/
theorem told_of_flags {event : CloneEvent} {msg flags : Word} (hmsg : ptrace.eventMsg = .ok msg)
    (hflags : (if event = .clone then getCloneFlags arch ptrace else .ok 0) = .ok flags) :
    told ptrace event = decide (0 ≤ flags.toInt) ∧
      asThread ptrace event = hasFlag flags CLONE_THREAD := by
  unfold told asThread
  rw [hmsg]
  by_cases hclone : event = .clone
  · rw [if_pos hclone] at hflags
    simp [hclone, hflags, Reply.isGone]
  · rw [if_neg hclone] at hflags
    cases hflags
    simp only [Reply.isGone, Bool.not_false, Bool.true_and, bne_iff_ne.mpr hclone, Bool.true_or,
      beq_eq_false_iff_ne.mpr hclone, Bool.false_and]
    decide

/-- A clone event whose message was read: it is told apart from an error by its flags. -/
theorem cloned_inv {event : CloneEvent} {msg : Word} {signal : Int}
    (hmsg : ptrace.eventMsg = .ok msg)
    (h : s.cloned cfg os ptrace pid event.number msg signal = .ok s') :
    (told ptrace event = false ∧ Missed ptrace event ∧
        s.resume ptrace pid .syscall 0 = .ok s') ∨
      (told ptrace event = true ∧ ∃ s₁,
        s.registerChild cfg os ptrace pid (asInt msg) (asThread ptrace event) = .ok s₁ ∧
        s₁.resume ptrace pid (request cfg false) signal = .ok s') := by
  rw [cloned_eq] at h
  obtain ⟨flags, hflags, h⟩ := bind_eq_ok_iff.mp h
  obtain ⟨htold, hthread⟩ := told_of_flags hmsg hflags
  rw [htold, hthread]
  split at h
  · rename_i hneg
    refine Or.inl ⟨decide_eq_false (by omega), Or.inr ?_, h⟩
    by_cases hclone : event = .clone
    · rw [if_pos hclone] at hflags
      exact ⟨hclone, flags, hflags, hneg⟩
    · rw [if_neg hclone] at hflags
      cases hflags
      exact absurd hneg (by decide)
  · rename_i hnonneg
    obtain ⟨s₁, hregister, h⟩ := bind_eq_ok_iff.mp h
    rw [proceed_false_eq] at h
    exact Or.inr ⟨decide_eq_true (by omega), s₁, hregister, h⟩

theorem execed_eq (msg : Word) (signal : Int) :
    s.execed cfg os ptrace pid msg signal =
      s.call (.registerExec os pid (asInt msg)) >>= fun s₁ =>
        (if msg.toInt ≠ pid then s₁.vanishThread ptrace (asInt msg) false else .ok s₁) >>= fun s₂ =>
          s₂.proceed cfg os ptrace pid false signal := by
  unfold execed
  split <;> rfl

theorem execed_ok {former : Pid} {msg : Word} {signal : Int} (hmsg : asInt msg = former)
    (hint : msg.toInt = former) (h : s.execed cfg os ptrace pid msg signal = .ok s') :
    ∃ c, s.context.registerExec os pid former = .ok c ∧
      (former ≠ pid → former ∈ s.syscallStateMap) ∧ ∃ s₁,
      (if former = pid then
        s₁ = { s with context := c, calls := s.calls ++ [.registerExec os pid former] }
      else Resumed former .syscall { s with
        context := c
        calls := s.calls ++ [.registerExec os pid former]
        syscallStateMap := s.syscallStateMap.erase former } s₁) ∧
      Resumed pid (request cfg false) s₁ s' := by
  rw [execed_eq] at h
  obtain ⟨s₂, hcall, hrest⟩ := bind_eq_ok_iff.mp h
  rw [hmsg] at hcall
  obtain ⟨c, hc, rfl⟩ := call_ok hcall
  obtain ⟨s₁, hvanish, hproceed⟩ := bind_eq_ok_iff.mp hrest
  rw [hint, hmsg] at hvanish
  by_cases hformer : former = pid
  · rw [if_neg (not_not.mpr hformer)] at hvanish
    cases hvanish
    exact ⟨c, hc, fun hne => absurd hformer hne, _, by rw [if_pos hformer], proceed_false_ok hproceed⟩
  · rw [if_pos hformer] at hvanish
    obtain ⟨hmem, c', hsame, hresumed⟩ := vanishThread_ok hvanish
    simp only [Bool.false_eq_true, if_false] at hsame
    subst hsame
    refine ⟨c', hc, fun _ => hmem, s₁, ?_, proceed_false_ok hproceed⟩
    rw [if_neg hformer]
    simpa using hresumed

theorem Resumed.trans {s₁ s₂ : Tracer arch Q} {tid : Pid} {q q' : Request}
    (h : Resumed pid q s s₁) (h' : Resumed tid q' s₁ s₂) (hs : s.resumes = []) :
    After s₂ s.context s.syscallStateMap
      (fun i r => i = pid ∧ r = q ∨ i = tid ∧ r = q') s.calls := by
  obtain ⟨rs, rfl, hrs⟩ := h
  obtain ⟨rs', rfl, hrs'⟩ := h'
  refine ⟨rfl, rfl, fun r hr => ?_, rfl⟩
  simp only [hs, List.nil_append, List.mem_append] at hr
  rcases hr with hr | hr
  · exact Or.inl (hrs r hr)
  · exact Or.inr (hrs' r hr)

theorem turned_cloned {event : CloneEvent} {nr : Word} (hfits : Fits ptrace (.cloned event nr))
    (hpid : pid ∈ s.syscallStateMap)
    (h : s.turn cfg os ptrace (.status pid (Notice.cloned event nr).status) = .ok s') :
    Turned cfg os ptrace pid s s' (.cloned event nr) := by
  have hnumber := event.number_spec
  have hturn := @turn_event Q _ arch cfg os ptrace s pid event.number hnumber.1 hnumber.2.1 hpid
  rw [Notice.status, hturn] at h
  rcases evented_ok hfits h with ⟨hgone, hresumed⟩ | ⟨msg, hmsg, h⟩
  · refine .untold event nr hpid ?_ (Or.inl hgone) (hresumed.after rfl)
    simp [told, hgone]
  · rw [if_pos hnumber.2.2] at h
    rcases cloned_inv hmsg h with ⟨htold, hcause, hresume⟩ | ⟨htold, s₁, hregister, hresume⟩
    · exact .untold event nr hpid htold hcause ((resume_ok hresume).after rfl)
    · obtain ⟨c, suspended, rs, hc, rfl, hrs⟩ := registerChild_ok hregister
      obtain ⟨rs', rfl, hrs'⟩ := resume_ok hresume
      refine .cloned event nr msg c hpid htold hmsg hc ⟨rfl, rfl, fun r hr => ?_, rfl⟩
      have hr : r ∈ rs ++ rs' := by simpa [begin] using hr
      rcases List.mem_append.mp hr with hr | hr
      · exact ⟨Or.inl (hrs r hr).1, (hrs r hr).2⟩
      · exact ⟨Or.inr (hrs' r hr).1, (hrs' r hr).2⟩

theorem turned_execed {former : Pid} {nr : Word} (hfits : Fits ptrace (.execed former nr))
    (hpid : pid ∈ s.syscallStateMap)
    (h : s.turn cfg os ptrace (.status pid (Notice.execed former nr).status) = .ok s') :
    Turned cfg os ptrace pid s s' (.execed former nr) := by
  have hturn := @turn_event Q _ arch cfg os ptrace s pid PTRACE_EVENT_EXEC (by decide) (by decide) hpid
  rw [Notice.status, hturn] at h
  have hnonneg : ∀ msg, ptrace.eventMsg = .ok msg → 0 ≤ msg.toInt := by
    intro msg hmsg
    obtain ⟨_, hint, hformer⟩ := hfits msg hmsg
    rwa [hint]
  rcases evented_ok hnonneg h with ⟨hgone, hresumed⟩ | ⟨msg, hmsg, h⟩
  · exact .execLost former nr hpid hgone (hresumed.after rfl)
  · rw [if_neg (by decide), if_pos rfl] at h
    obtain ⟨hasInt, hint, _⟩ := hfits msg hmsg
    obtain ⟨c, hc, hformer, s₁, hs₁, hresumed⟩ := execed_ok hasInt hint h
    have hgone : ptrace.eventMsg.isGone = false := by
      rw [hmsg]
      rfl
    refine .execed former nr c hpid hgone hc hformer ?_
    by_cases heq : former = pid
    · rw [if_pos heq] at hs₁ ⊢
      subst hs₁
      have hafter := hresumed.after rfl
      exact ⟨hafter.context, hafter.states, fun r hr => Or.inr (hafter.resumed r hr), hafter.calls⟩
    · rw [if_neg heq] at hs₁ ⊢
      have hafter := hs₁.trans hresumed rfl
      refine ⟨hafter.context, hafter.states, fun r hr => ?_, hafter.calls⟩
      rcases hafter.resumed r hr with ⟨htid, _⟩ | hr
      · exact Or.inl ⟨htid, heq⟩
      · exact Or.inr hr

theorem turned_secComp (hfits : Fits ptrace .secComp) (hpid : pid ∈ s.syscallStateMap)
    (h : s.turn cfg os ptrace (.status pid Notice.secComp.status) = .ok s') :
    Turned cfg os ptrace pid s s' .secComp := by
  have hturn := @turn_event Q _ arch cfg os ptrace s pid PTRACE_EVENT_SECCOMP (by decide) (by decide)
    hpid
  rw [Notice.status, hturn] at h
  rcases evented_ok hfits h with ⟨hgone, hresumed⟩ | ⟨msg, hmsg, h⟩
  · exact .picked hpid (Or.inl hgone) (hresumed.after rfl)
  · rw [if_neg (by decide), if_neg (by decide), if_pos rfl] at h
    unfold secComped at h
    split at h
    · rename_i hver
      exact .picked hpid (Or.inr hver) ((resume_ok h).after rfl)
    · rename_i hver
      have hgone : ptrace.eventMsg.isGone = false := by
        rw [hmsg]
        rfl
      exact .stopped _ hpid _ (Or.inr ⟨rfl, hgone, hver, rfl⟩) (proceed_true_ok h)

theorem turned_exiting (hfits : Fits ptrace .exiting) (hpid : pid ∈ s.syscallStateMap)
    (h : s.turn cfg os ptrace (.status pid Notice.exiting.status) = .ok s') :
    Turned cfg os ptrace pid s s' .exiting := by
  have hturn := @turn_event Q _ arch cfg os ptrace s pid PTRACE_EVENT_EXIT (by decide) (by decide) hpid
  rw [Notice.status, hturn] at h
  have hresumed : ∃ q, Resumed pid q s.begin s' := by
    rcases evented_ok hfits h with ⟨_, hresumed⟩ | ⟨msg, _, h⟩
    · exact ⟨_, hresumed⟩
    · rw [if_neg (by decide), if_neg (by decide), if_neg (by decide)] at h
      exact ⟨_, proceed_false_ok h⟩
  obtain ⟨q, hresumed⟩ := hresumed
  have hafter := hresumed.after rfl
  exact .exiting hpid ⟨hafter.context, hafter.states, fun r hr => (hafter.resumed r hr).1,
    hafter.calls⟩

theorem stop_status (hdeath : notice.isDeath = false) (hfits : Fits ptrace notice) :
    wifstopped notice.status = true := by
  cases notice with
  | signalStop sig => exact (status_signalStop hfits).1
  | cloned event nr => cases event <;> exact (status_event (by decide)).1
  | exited code => cases hdeath
  | killed sig core => cases hdeath
  | syscallStop => decide
  | _ => exact (status_event (by decide)).1

/-- The spec of a turn. -/
theorem turned (hfits : Fits ptrace notice)
    (h : s.turn cfg os ptrace (.status pid notice.status) = .ok s') :
    Turned cfg os ptrace pid s s' notice := by
  by_cases hdeath : notice.isDeath = true
  · exact turned_dead hdeath hfits h
  rw [Bool.not_eq_true] at hdeath
  have hstatus := stop_status hdeath hfits
  by_cases hpid : pid ∈ s.syscallStateMap
  · have hpid' : pid ∈ s.begin.syscallStateMap := hpid
    cases notice with
    | signalStop sig =>
      obtain ⟨_, hsyscall, hshift⟩ := status_signalStop hfits
      rw [turn_status _ hstatus] at h
      simp only [stopped, if_pos hpid', hsyscall, hshift, ne_eq, not_true_eq_false, if_false] at h
      exact .signalled sig hpid ((proceed_false_ok h).after rfl)
    | syscallStop =>
      rw [turn_status _ hstatus] at h
      have hshift : Notice.syscallStop.status >>> 16 = 0 := by decide
      have hsyscall : isSyscallStop Notice.syscallStop.status = true := by decide
      simp only [stopped, if_pos hpid', hsyscall, hshift, ne_eq, not_true_eq_false, if_false] at h
      exact .stopped _ hpid _ (Or.inl ⟨rfl, rfl⟩) (proceed_true_ok h)
    | cloned event nr => exact turned_cloned hfits hpid h
    | execed former nr => exact turned_execed hfits hpid h
    | exiting => exact turned_exiting hfits hpid h
    | secComp => exact turned_secComp hfits hpid h
    | exited code => cases hdeath
    | killed sig core => cases hdeath
  · exact turned_unknown hdeath hstatus hpid h

/-- A notice about the tracee alone. -/
def Plain : Notice → Prop
  | .exited _ => False
  | .killed _ _ => False
  | .cloned _ _ => False
  | .execed _ _ => False
  | _ => True

/-- A syscall stop changes the value of the tracee only, and the tracker by `SyscallExit` at most. -/
theorem Stopped.after {reply : Reply (UserRegs arch)} (h : Stopped cfg os pid s reply s')
    (hs : s.resumes = []) (hpid : pid ∈ s.syscallStateMap) :
    ∃ c states calls, After s' c states (fun tid _ => tid = pid) calls ∧
      (∀ tid, tid ∈ states ↔ tid ∈ s.syscallStateMap) ∧
      (c = s.context ∨ ∃ registers, s.context.syscallExit arch os pid registers = .ok c) := by
  have hinsert : ∀ (v : Int) (tid : Pid),
      tid ∈ s.syscallStateMap.insert pid v ↔ tid ∈ s.syscallStateMap := by
    intro v tid
    rw [Finmap.mem_insert]
    constructor
    · rintro (rfl | hin)
      · exact hpid
      · exact hin
    · exact Or.inr
  cases h with
  | gone _ hs' =>
    have hafter := hs'.after hs
    exact ⟨_, _, _, ⟨hafter.context, hafter.states, fun r hr => (hafter.resumed r hr).1, hafter.calls⟩,
      fun tid => Iff.rfl, Or.inl rfl⟩
  | entered registers _ _ _ _ _ hs' =>
    have hafter := hs'.after hs
    exact ⟨_, _, _, ⟨hafter.context, hafter.states, fun r hr => (hafter.resumed r hr).1, hafter.calls⟩,
      hinsert _, Or.inl rfl⟩
  | left registers _ prev c _ _ hexit hs' =>
    have hafter := hs'.after hs
    exact ⟨_, _, _, ⟨hafter.context, hafter.states, fun r hr => (hafter.resumed r hr).1, hafter.calls⟩,
      hinsert _, Or.inr ⟨registers, hexit⟩⟩

theorem Turned.plain (h : Turned cfg os ptrace pid s s' notice) (hplain : Plain notice) :
    ∃ c states calls, After s' c states (fun tid _ => tid = pid ∧ pid ∈ s.syscallStateMap) calls ∧
      (∀ tid, tid ∈ states ↔ tid ∈ s.syscallStateMap) ∧
      (c = s.context ∨ pid ∈ s.syscallStateMap ∧
        ∃ registers, s.context.syscallExit arch os pid registers = .ok c) := by
  cases h with
  | unknown _ hdeath hpid h =>
    exact ⟨_, _, _, ⟨h.context, h.states, fun r hr => (h.resumed r hr).elim, h.calls⟩,
      fun _ => Iff.rfl, Or.inl rfl⟩
  | signalled sig hpid h =>
    exact ⟨_, _, _, ⟨h.context, h.states, fun r hr => ⟨(h.resumed r hr).1, hpid⟩, h.calls⟩,
      fun _ => Iff.rfl, Or.inl rfl⟩
  | exiting hpid h =>
    exact ⟨_, _, _, ⟨h.context, h.states, fun r hr => ⟨h.resumed r hr, hpid⟩, h.calls⟩,
      fun _ => Iff.rfl, Or.inl rfl⟩
  | picked hpid _ h =>
    exact ⟨_, _, _, ⟨h.context, h.states, fun r hr => ⟨(h.resumed r hr).1, hpid⟩, h.calls⟩,
      fun _ => Iff.rfl, Or.inl rfl⟩
  | stopped _ hpid s₁ hs₁ h =>
    have hstart : s₁.resumes = [] ∧ s₁.context = s.context ∧
        ∀ tid, tid ∈ s₁.syscallStateMap ↔ tid ∈ s.syscallStateMap := by
      rcases hs₁ with ⟨_, rfl⟩ | ⟨_, _, _, rfl⟩
      · exact ⟨rfl, rfl, fun _ => Iff.rfl⟩
      · refine ⟨rfl, rfl, fun tid => ?_⟩
        rw [setSyscallState, Finmap.mem_insert]
        constructor
        · rintro (rfl | hin)
          · exact hpid
          · exact hin
        · exact Or.inr
    obtain ⟨hresumes, hcontext, hmem⟩ := hstart
    obtain ⟨c, states, calls, h, hkeys, hc⟩ := h.after hresumes ((hmem pid).mpr hpid)
    refine ⟨c, states, calls,
      ⟨h.context, h.states, fun r hr => ⟨h.resumed r hr, hpid⟩, h.calls⟩,
      fun tid => (hkeys tid).trans (hmem tid), ?_⟩
    rw [hcontext] at hc
    exact hc.imp id fun hexit => ⟨hpid, hexit⟩
  | dead _ hdeath =>
    cases notice with
    | exited code => exact hplain.elim
    | killed sig core => exact hplain.elim
    | _ => cases hdeath
  | untold => exact hplain.elim
  | cloned => exact hplain.elim
  | execLost => exact hplain.elim
  | execed => exact hplain.elim

theorem Turned.of_dead (h : Turned cfg os ptrace pid s s' notice) (hdeath : notice.isDeath = true) :
    ∃ c₁ c dump, After s' c (s.syscallStateMap.erase pid) (fun tid _ => tid = pid)
        (dump ++ [.vanishProcess pid]) ∧
      pid ∈ s.syscallStateMap ∧ c₁.vanishProcess pid = .ok c ∧
      ((c₁ = s.context ∧ dump = []) ∨ ∃ sig,
        s.context.registerCoreDump os pid sig = .ok c₁ ∧ dump = [.registerCoreDump os pid sig]) := by
  cases h with
  | unknown _ hno =>
    rw [hdeath] at hno
    cases hno
  | dead _ _ hpid c₁ c dump hdump hvanish h => exact ⟨c₁, c, dump, h, hpid, hvanish, hdump⟩
  | stopped _ _ _ hs₁ =>
    rcases hs₁ with ⟨rfl, _⟩ | ⟨rfl, _⟩
    · cases hdeath
    · cases hdeath
  | _ => cases hdeath

theorem Turned.of_cloned {event : CloneEvent} {nr : Word}
    (h : Turned cfg os ptrace pid s s' (.cloned event nr)) (hpid : pid ∈ s.syscallStateMap) :
    (told ptrace event = false ∧ Missed ptrace event ∧
      After s' s.context s.syscallStateMap (fun tid q => tid = pid ∧ q = .syscall) []) ∨
    (told ptrace event = true ∧ ∃ msg c, ptrace.eventMsg = .ok msg ∧
      (registration os pid (asInt msg) (asThread ptrace event) : Call arch).apply s.context = .ok c ∧
      After s' c (s.syscallStateMap.insert (asInt msg) SYSCALL_UNDEFINED)
        (fun tid q => (tid = asInt msg ∨ tid = pid) ∧ q = request cfg false)
        [registration os pid (asInt msg) (asThread ptrace event)]) := by
  cases h with
  | unknown _ _ hno => exact absurd hpid hno
  | dead _ hdeath => cases hdeath
  | untold _ _ _ htold hcause hafter => exact Or.inl ⟨htold, hcause, hafter⟩
  | cloned _ _ msg c _ htold hmsg hc hafter => exact Or.inr ⟨htold, msg, c, hmsg, hc, hafter⟩
  | stopped _ _ _ hs₁ => rcases hs₁ with ⟨h, _⟩ | ⟨h, _⟩ <;> cases h

theorem Turned.of_execed {former : Pid} {nr : Word}
    (h : Turned cfg os ptrace pid s s' (.execed former nr)) (hpid : pid ∈ s.syscallStateMap) :
    (ptrace.eventMsg.isGone = true ∧
      After s' s.context s.syscallStateMap (fun tid q => tid = pid ∧ q = .syscall) []) ∨
    (ptrace.eventMsg.isGone = false ∧ ∃ c, s.context.registerExec os pid former = .ok c ∧
      (former ≠ pid → former ∈ s.syscallStateMap) ∧
      After s' c (if former = pid then s.syscallStateMap else s.syscallStateMap.erase former)
        (fun tid q => tid = former ∧ former ≠ pid ∨ tid = pid ∧ q = request cfg false)
        [.registerExec os pid former]) := by
  cases h with
  | unknown _ _ hno => exact absurd hpid hno
  | dead _ hdeath => cases hdeath
  | execLost _ _ _ hgone hafter => exact Or.inl ⟨hgone, hafter⟩
  | execed _ _ c _ hgone hc hformer hafter => exact Or.inr ⟨hgone, c, hc, hformer, hafter⟩
  | stopped _ _ _ hs₁ => rcases hs₁ with ⟨h, _⟩ | ⟨h, _⟩ <;> cases h

end Tracer

end Optrace
