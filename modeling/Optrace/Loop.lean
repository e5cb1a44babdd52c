import Optrace.Turns

/-!
# The loop on any input

Turns of `RunTracer` on arbitrary wait statuses and answers of `ptrace`. Which tracees wait in
`suspendedThreads`, which are in `syscallStateMap`, and who is restarted.
-/

namespace Optrace

set_option autoImplicit false
set_option linter.unusedSectionVars false

open Except

/-- What one turn is given. -/
structure Heard (arch : Arch) where
  os : Os
  ptrace : Ptrace arch
  wait : Wait

/-- The notification is about the tracee, or an exec event names it. -/
def Heard.mentions {arch : Arch} (i : Heard arch) (tid : Pid) : Bool :=
  match i.wait with
  | .status pid status => pid == tid || (status >>> 16 == PTRACE_EVENT_EXEC &&
      match i.ptrace.eventMsg with
      | .ok msg => asInt msg == tid
      | _ => false)
  | _ => false

/-- An event by which a tracee announces another one. -/
def Heard.Announces {arch : Arch} (i : Heard arch) (pid : Pid) (event : CloneEvent) : Prop :=
  ∃ status, i.wait = .status pid status ∧ wifstopped status = true ∧ status >>> 16 = event.number

/-- The notification tells of no death. -/
def Heard.Stops {arch : Arch} (i : Heard arch) : Prop :=
  ∀ pid status, i.wait = .status pid status → wifstopped status = true

theorem Heard.stops_of_status {arch : Arch} {i : Heard arch} {pid : Pid} {status : BitVec 32}
    (hwait : i.wait = .status pid status) (hstopped : wifstopped status = true) : i.Stops := by
  intro pid' status' hwait'
  rw [hwait] at hwait'
  cases hwait'
  exact hstopped

/-- The exit code that a tracee died with. -/
def exitCodeOf (status : BitVec 32) : Option Int :=
  if wifsignaled status then some (128 + (wtermsig status).toNat)
  else if wifexited status then some (wexitstatus status).toNat
  else none

def Call.isCoreDump {arch : Arch} : Call arch → Bool
  | .registerCoreDump _ _ _ => true
  | _ => false

namespace Tracer

variable {Q : Type} [MaxOutFilesQueue Q] {arch : Arch}

def hear (cfg : TracerConfig) (s : Tracer arch Q) (i : Heard arch) : Except Stop (Tracer arch Q) :=
  s.turn cfg i.os i.ptrace i.wait

/-- Whom a run restarts, up to the turn that stops it. -/
def restarts (cfg : TracerConfig) : Tracer arch Q → List (Heard arch) → List Resume
  | _, [] => []
  | s, i :: is =>
    match s.hear cfg i with
    | .ok s' => s'.resumes ++ restarts cfg s' is
    | .error _ => []

variable {cfg : TracerConfig} {os : Os} {ptrace : Ptrace arch} {s s' s₁ s₂ : Tracer arch Q}
  {pid : Pid}

theorem resume_eq {q : Request} (signal : Int) (h : ptrace.resume pid ≠ .failed) :
    s.resume ptrace pid q signal =
      .ok { s with resumes := s.resumes ++ resumption ptrace pid q signal } := by
  unfold resumption
  cases hresume : ptrace.resume pid with
  | ok u => simp [Tracer.resume, hresume, ptraceSafeCall, bind_ok, pure, Except.pure]
  | gone => simp [Tracer.resume, hresume, ptraceSafeCall, bind_ok, pure, Except.pure]
  | failed => exact absurd hresume h

/-! ## Steps that leave the tables alone -/

/-- Nobody was suspended, nobody got an entry, no core was looked for, and only such tracees were
resumed. -/
structure Steady (p : Pid → Prop) (s s' : Tracer arch Q) : Prop where
  suspended : s'.suspendedThreads = s.suspendedThreads
  states : ∀ tid ∈ s'.syscallStateMap, tid ∈ s.syscallStateMap
  exitCode : s'.traceeExitCode = s.traceeExitCode
  called : ∃ calls : List (Call arch), (∀ call ∈ calls, call.isCoreDump = false) ∧
    Runs.run Call.apply s.context calls = .ok s'.context
  resumes : ∃ rs, s'.resumes = s.resumes ++ rs ∧ ∀ r ∈ rs, p r.pid

namespace Steady

variable {p : Pid → Prop}

/-- The tracker was not called. -/
theorem uncalled (s : Tracer arch Q) : ∃ calls : List (Call arch),
    (∀ call ∈ calls, call.isCoreDump = false) ∧
      Runs.run Call.apply s.context calls = .ok s.context :=
  ⟨[], by simp, rfl⟩

theorem refl (s : Tracer arch Q) : Steady p s s :=
  ⟨rfl, fun _ h => h, rfl, uncalled s, [], by simp, by simp⟩

theorem trans (h₁ : Steady p s s₁) (h₂ : Steady p s₁ s₂) : Steady p s s₂ := by
  obtain ⟨calls₁, hcalls₁, hrun₁⟩ := h₁.called
  obtain ⟨calls₂, hcalls₂, hrun₂⟩ := h₂.called
  obtain ⟨rs₁, hrs₁, hp₁⟩ := h₁.resumes
  obtain ⟨rs₂, hrs₂, hp₂⟩ := h₂.resumes
  refine ⟨h₂.suspended.trans h₁.suspended, fun tid htid => h₁.states tid (h₂.states tid htid),
    h₂.exitCode.trans h₁.exitCode, ⟨calls₁ ++ calls₂, fun call hcall => ?_,
      Runs.run_append_ok_iff.mpr ⟨s₁.context, hrun₁, hrun₂⟩⟩,
    rs₁ ++ rs₂, by rw [hrs₂, hrs₁, List.append_assoc], fun r hr => ?_⟩
  · rcases List.mem_append.mp hcall with hcall | hcall
    · exact hcalls₁ call hcall
    · exact hcalls₂ call hcall
  · rcases List.mem_append.mp hr with hr | hr
    · exact hp₁ r hr
    · exact hp₂ r hr

theorem resume {q : Request} {signal : Int} (hp : p pid)
    (h : s.resume ptrace pid q signal = .ok s') : Steady p s s' := by
  rw [resume_inv h]
  refine ⟨rfl, fun _ h => h, rfl, uncalled s, _, rfl, fun r hr => ?_⟩
  rw [(mem_resumption hr).1]
  exact hp

theorem call {call : Call arch} (hcall : call.isCoreDump = false) (h : s.call call = .ok s') :
    Steady p s s' := by
  obtain ⟨c, hc, rfl⟩ := call_ok h
  refine ⟨rfl, fun _ h => h, rfl, ⟨[call], ?_, ?_⟩, [], by simp, by simp⟩
  · simpa using hcall
  · exact Runs.run_cons_ok_iff.mpr ⟨c, hc, rfl⟩

theorem setSyscallState (hpid : pid ∈ s.syscallStateMap) (syscall : Int) :
    Steady p s (s.setSyscallState pid syscall) := by
  refine ⟨rfl, fun tid htid => ?_, rfl, uncalled s, [], by simp [Tracer.setSyscallState], by simp⟩
  rw [Tracer.setSyscallState, Finmap.mem_insert] at htid
  rcases htid with rfl | htid
  · exact hpid
  · exact htid

theorem stored (s : Tracer arch Q) (stores : List (Store arch)) :
    Steady p s { s with stores := stores } :=
  ⟨rfl, fun _ h => h, rfl, uncalled s, [], by simp, by simp⟩

theorem vanishThread {notify : Bool} (hp : pid ∈ s.syscallStateMap → p pid)
    (h : s.vanishThread ptrace pid notify = .ok s') : Steady p s s' := by
  obtain ⟨hpid, c, hc, rs, rfl, hrs⟩ := vanishThread_ok h
  refine ⟨rfl, fun tid htid => ?_, rfl, ?_, rs, rfl, fun r hr => ?_⟩
  · exact (Finmap.mem_erase.mp htid).2
  · cases notify with
    | false =>
      rw [if_neg Bool.false_ne_true] at hc
      rw [hc]
      exact uncalled s
    | true =>
      rw [if_pos rfl] at hc
      exact ⟨[.vanishProcess pid], by simp [Call.isCoreDump], Runs.run_cons_ok_iff.mpr ⟨c, hc, rfl⟩⟩
  · rw [(hrs r hr).1]
    exact hp hpid

theorem restart {syscallStop : Bool} {signal : Int} (hp : p pid)
    (h : s.restart cfg ptrace pid syscallStop signal = .ok s') : Steady p s s' := by
  unfold Tracer.restart at h
  split at h
  · split at h
    · exact .resume hp h
    · exact .resume hp h
  · exact .resume hp h

theorem syscallStopped {registers : UserRegs arch}
    (h : s.syscallStopped os ptrace pid registers = .ok s') : Steady p s s' := by
  unfold Tracer.syscallStopped at h
  split at h
  · cases h
  · rename_i prev hprev
    have hpid : pid ∈ s.syscallStateMap := Finmap.mem_of_lookup_eq_some hprev
    split at h
    · obtain ⟨_, stores, rfl, _⟩ := syscallEntered_ok h
      exact (Steady.setSyscallState hpid _).trans (.stored _ _)
    · exact (Steady.setSyscallState hpid _).trans (.call rfl h)

theorem proceed {syscallStop : Bool} {signal : Int} (hp : p pid)
    (h : s.proceed cfg os ptrace pid syscallStop signal = .ok s') : Steady p s s' := by
  unfold Tracer.proceed at h
  split at h
  · obtain ⟨reply, _, h⟩ := bind_eq_ok_iff.mp h
    cases reply with
    | none => exact .resume hp h
    | some registers =>
      obtain ⟨s₁, hstopped, hrestart⟩ := bind_eq_ok_iff.mp h
      exact (Steady.syscallStopped hstopped).trans (.restart hp hrestart)
  · exact .restart hp h

theorem execed {msg : Word} {signal : Int} (hp : p pid)
    (hformer : asInt msg ∈ s.syscallStateMap → p (asInt msg))
    (h : s.execed cfg os ptrace pid msg signal = .ok s') : Steady p s s' := by
  rw [execed_eq] at h
  obtain ⟨s₁, hcall, h⟩ := bind_eq_ok_iff.mp h
  obtain ⟨s₂, hvanish, h⟩ := bind_eq_ok_iff.mp h
  have hcalled : Steady p s s₁ := .call rfl hcall
  refine hcalled.trans (Steady.trans ?_ (.proceed hp h))
  split at hvanish
  · exact .vanishThread (fun hin => hformer (hcalled.states _ hin)) hvanish
  · cases hvanish
    exact .refl _

theorem secComped {signal : Int} (hpid : pid ∈ s.syscallStateMap) (hp : p pid)
    (h : s.secComped cfg os ptrace pid signal = .ok s') : Steady p s s' := by
  unfold Tracer.secComped at h
  split at h
  · exact .resume hp h
  · exact (Steady.setSyscallState hpid _).trans (.proceed hp h)

end Steady

/-! ## Events that announce a tracee -/

theorem registerChild_eq {child : Pid} {isThread : Bool} {c : Context Q}
    (hc : (registration os pid child isThread : Call arch).apply s.context = .ok c)
    (hresume : ptrace.resume child ≠ .failed) :
    s.registerChild cfg os ptrace pid child isThread =
      .ok (s.withArrival cfg ptrace c (registration os pid child isThread) child) := by
  cases h : s.registerChild cfg os ptrace pid child isThread with
  | ok s' =>
    obtain ⟨c', hc', rfl⟩ := registerChild_inv h
    rw [hc] at hc'
    cases hc'
    rfl
  | error e =>
    have hcall : s.call (registration os pid child isThread) =
        .ok { s with context := c, calls := s.calls ++ [registration os pid child isThread] } := by
      rw [call, hc]
    rw [registerChild_bind, hcall, bind_ok] at h
    split at h
    · rw [resume_eq 0 hresume] at h
      cases h
    · cases h

/-- Where the flags are read, the new tracee is told of or not by their sign. -/
theorem cloned_untold_eq {event : CloneEvent} {msg : Word} (signal : Int) {flags : Word}
    (hmsg : ptrace.eventMsg = .ok msg)
    (hflags : (if event = .clone then getCloneFlags arch ptrace else .ok 0) = .ok flags)
    (htold : told ptrace event = false) :
    s.cloned cfg os ptrace pid event.number msg signal = s.resume ptrace pid .syscall 0 := by
  rw [(told_of_flags hmsg hflags).1] at htold
  rw [cloned_eq, hflags, bind_ok, if_pos (not_le.mp (of_decide_eq_false htold))]

theorem cloned_told_eq {event : CloneEvent} {msg : Word} (signal : Int)
    (hmsg : ptrace.eventMsg = .ok msg) (htold : told ptrace event = true) :
    s.cloned cfg os ptrace pid event.number msg signal =
      s.registerChild cfg os ptrace pid (asInt msg) (asThread ptrace event) >>= fun s₁ =>
        s₁.resume ptrace pid (request cfg false) signal := by
  obtain ⟨flags, hflags⟩ : ∃ flags,
      (if event = .clone then getCloneFlags arch ptrace else .ok 0) = .ok flags := by
    by_cases hclone : event = .clone
    · rw [if_pos hclone]
      cases hget : getCloneFlags arch ptrace with
      | ok flags => exact ⟨flags, rfl⟩
      | error e => simp [told, hclone, hget] at htold
    · exact ⟨0, if_neg hclone⟩
  obtain ⟨hsign, hthread⟩ := told_of_flags hmsg hflags
  rw [hsign] at htold
  rw [cloned_eq, hflags, bind_ok, if_neg (not_lt.mpr (of_decide_eq_true htold)), hthread]
  simp only [proceed_false_eq]

/-! ## Any turn -/

/-- The signal a stopped tracee is restarted with. -/
def stopSignal (status : BitVec 32) : Int :=
  if isSyscallStop status then 0 else ((wstopsig status).toNat : Int)

/-- The part of a turn on a death that comes first: a core file is looked for. -/
def dumped (s : Tracer arch Q) (i : Heard arch) : Except Stop (Tracer arch Q) :=
  match i.wait with
  | .status pid status =>
    if !wifstopped status && wifsignaled status && wcoredump status then
      s.begin.call (.registerCoreDump i.os pid (wtermsig status).toNat)
    else .ok s.begin
  | _ => .ok s.begin

theorem dumped_same {i : Heard arch} (h : s.dumped i = .ok s₁) :
    ∃ c calls, s₁ = { s.begin with context := c, calls := calls } := by
  unfold dumped at h
  split at h
  · split at h
    · obtain ⟨c, _, rfl⟩ := call_ok h
      exact ⟨c, _, rfl⟩
    · cases h
      exact ⟨s.context, [], rfl⟩
  · cases h
    exact ⟨s.context, [], rfl⟩

/-- What a turn does to the two tables and whom it restarts. -/
inductive Moved (cfg : TracerConfig) (i : Heard arch) (s s' : Tracer arch Q) : Prop where
  | steady (hstops : i.Stops)
      (h : Steady (fun tid => tid ∈ s.syscallStateMap ∧ i.mentions tid = true) s.begin s') :
      Moved cfg i s s'
  | dead (pid : Pid) (status : BitVec 32) (code : Int) (hwait : i.wait = .status pid status)
      (hstopped : wifstopped status = false) (s₁ s₂ : Tracer arch Q) (hdump : s.dumped i = .ok s₁)
      (h : Steady (fun tid => tid ∈ s.syscallStateMap ∧ i.mentions tid = true) s₁ s₂)
      (hs' : s' = { s₂ with traceeExitCode := code }) : Moved cfg i s s'
  | suspended (pid : Pid) (status : BitVec 32) (hwait : i.wait = .status pid status)
      (hstopped : wifstopped status = true) (hpid : pid ∉ s.syscallStateMap)
      (hs' : s' = { s.begin with suspendedThreads := s.suspendedThreads.insert pid status }) :
      Moved cfg i s s'
  | arrived (pid : Pid) (event : CloneEvent) (msg : Word) (c : Context Q) (signal : Int)
      (hannounces : i.Announces pid event) (hpid : pid ∈ s.syscallStateMap)
      (hmsg : i.ptrace.eventMsg = .ok msg) (htold : told i.ptrace event = true)
      (hc : (registration i.os pid (asInt msg) (asThread i.ptrace event) : Call arch).apply s.context =
        .ok c)
      (hs' : (s.begin.withArrival cfg i.ptrace c (registration i.os pid (asInt msg)
        (asThread i.ptrace event)) (asInt msg)).resume i.ptrace pid (request cfg false) signal =
          .ok s') : Moved cfg i s s'

theorem hear_announced_eq {i : Heard arch} {event : CloneEvent} {status : BitVec 32} {msg : Word}
    (hwait : i.wait = .status pid status) (hstopped : wifstopped status = true)
    (hshift : status >>> 16 = event.number) (hpid : pid ∈ s.syscallStateMap)
    (hmsg : i.ptrace.eventMsg = .ok msg) (hnonneg : 0 ≤ msg.toInt) :
    s.hear cfg i = s.begin.cloned cfg i.os i.ptrace pid event.number msg (stopSignal status) := by
  have hpid' : pid ∈ s.begin.syscallStateMap := hpid
  obtain ⟨_, hne, hnumber⟩ := event.number_spec
  rw [hear, hwait, turn_status _ hstopped]
  simp only [stopped, if_pos hpid', hshift, if_pos hne, evented, ptraceGetEventMsg, hmsg,
    ptraceSafeCall, bind_ok, Option.getD_some, pure, Except.pure, if_neg (not_lt.mpr hnonneg),
    if_pos hnumber]
  rfl

theorem hear_announced {i : Heard arch} {event : CloneEvent} (hannounces : i.Announces pid event)
    (hpid : pid ∈ s.syscallStateMap) (h : s.hear cfg i = .ok s') :
    ((told i.ptrace event = false ∨ ∃ msg, i.ptrace.eventMsg = .ok msg ∧ msg.toInt < 0) ∧
        s.begin.resume i.ptrace pid .syscall 0 = .ok s') ∨
      (told i.ptrace event = true ∧ ∃ msg c signal, i.ptrace.eventMsg = .ok msg ∧
        (registration i.os pid (asInt msg) (asThread i.ptrace event) : Call arch).apply s.context =
          .ok c ∧
        (s.begin.withArrival cfg i.ptrace c (registration i.os pid (asInt msg)
          (asThread i.ptrace event)) (asInt msg)).resume i.ptrace pid (request cfg false) signal =
            .ok s') := by
  obtain ⟨status, hwait, hstopped, hshift⟩ := hannounces
  have hpid' : pid ∈ s.begin.syscallStateMap := hpid
  obtain ⟨_, hne, hnumber⟩ := event.number_spec
  rw [hear, hwait, turn_status _ hstopped] at h
  simp only [stopped, if_pos hpid', hshift, if_pos hne] at h
  rcases evented_inv h with ⟨hgone | hneg, hresume⟩ | ⟨msg, hmsg, _, hcloned⟩
  · exact Or.inl ⟨Or.inl (by simp [told, hgone]), hresume⟩
  · exact Or.inl ⟨Or.inr hneg, hresume⟩
  · rw [if_pos hnumber] at hcloned
    rcases cloned_inv hmsg hcloned with ⟨htold, _, hresume⟩ | ⟨htold, s₁, hregister, hresume⟩
    · exact Or.inl ⟨Or.inl htold, hresume⟩
    · obtain ⟨c, hc, rfl⟩ := registerChild_inv hregister
      exact Or.inr ⟨htold, msg, c, _, hmsg, hc, hresume⟩

theorem hear_dead_eq {i : Heard arch} {status : BitVec 32} (hwait : i.wait = .status pid status)
    (hstopped : wifstopped status = false) :
    s.hear cfg i = s.dumped i >>= fun s₁ =>
      match exitCodeOf status with
      | some code => s₁.terminated cfg i.ptrace pid code
      | none => .error (.abort .exit2) := by
  rw [hear, dumped, hwait]
  simp only [turn, hstopped, Bool.false_eq_true, if_false, exitCodeOf, Bool.not_false, Bool.true_and]
  cases wifsignaled status with
  | true =>
    cases wcoredump status with
    | true => rfl
    | false => rfl
  | false =>
    cases wifexited status with
    | true => rfl
    | false => rfl

theorem hear_dead {i : Heard arch} {status : BitVec 32} (hwait : i.wait = .status pid status)
    (hstopped : wifstopped status = false) (h : s.hear cfg i = .ok s') :
    ∃ code s₁, exitCodeOf status = some code ∧ s.dumped i = .ok s₁ ∧
      s₁.terminated cfg i.ptrace pid code = .ok s' := by
  rw [hear_dead_eq hwait hstopped] at h
  obtain ⟨s₁, hdump, h⟩ := bind_eq_ok_iff.mp h
  cases hcode : exitCodeOf status with
  | none =>
    rw [hcode] at h
    cases h
  | some code =>
    rw [hcode] at h
    exact ⟨code, s₁, rfl, hdump, h⟩

theorem number_of_event {event : BitVec 32}
    (h : event = PTRACE_EVENT_CLONE ∨ event = PTRACE_EVENT_FORK ∨ event = PTRACE_EVENT_VFORK) :
    ∃ e : CloneEvent, e.number = event := by
  rcases h with rfl | rfl | rfl
  · exact ⟨.clone, rfl⟩
  · exact ⟨.fork, rfl⟩
  · exact ⟨.vfork, rfl⟩

/-- Every turn that goes on is one of these moves. -/
theorem moved {i : Heard arch} (h : s.hear cfg i = .ok s') : Moved cfg i s s' := by
  cases hwait : i.wait with
  | interrupted =>
    rw [hear, hwait] at h
    cases h
    exact .steady (fun _ _ hstatus => by rw [hwait] at hstatus; cases hstatus) (.refl _)
  | noChild =>
    rw [hear, hwait] at h
    cases h
  | failed =>
    rw [hear, hwait] at h
    cases h
  | status pid status =>
    have hmentions : i.mentions pid = true := by simp [Heard.mentions, hwait]
    cases hstopped : wifstopped status with
    | false =>
      obtain ⟨_, s₁, _, hdump, hterminated⟩ := hear_dead hwait hstopped h
      obtain ⟨s₂, code, hvanish, rfl⟩ := terminated_ok hterminated
      refine .dead pid status code hwait hstopped s₁ s₂ hdump ?_ rfl
      obtain ⟨c, calls, rfl⟩ := dumped_same hdump
      exact .vanishThread (fun hpid => ⟨hpid, hmentions⟩) hvanish
    | true =>
      by_cases hpid : pid ∈ s.syscallStateMap
      · by_cases hannounces : ∃ event, i.Announces pid event
        · obtain ⟨event, hannounces⟩ := hannounces
          rcases hear_announced hannounces hpid h with
            ⟨_, hresume⟩ | ⟨htold, msg, c, signal, hmsg, hc, hresume⟩
          · exact .steady (i.stops_of_status hwait hstopped) (.resume ⟨hpid, hmentions⟩ hresume)
          · exact .arrived pid event msg c signal hannounces hpid hmsg htold hc hresume
        · have hpid' : pid ∈ s.begin.syscallStateMap := hpid
          have hother : ¬(status >>> 16 = PTRACE_EVENT_CLONE ∨ status >>> 16 = PTRACE_EVENT_FORK ∨
              status >>> 16 = PTRACE_EVENT_VFORK) := by
            intro hevent
            obtain ⟨event, hnumber⟩ := number_of_event hevent
            exact hannounces ⟨event, status, hwait, hstopped, hnumber.symm⟩
          rw [hear, hwait, turn_status _ hstopped] at h
          simp only [stopped, if_pos hpid'] at h
          refine .steady (i.stops_of_status hwait hstopped) ?_
          split at h
          · rcases evented_inv h with ⟨_, hresume⟩ | ⟨msg, hmsg, _, hrest⟩
            · exact .resume ⟨hpid, hmentions⟩ hresume
            · rw [if_neg hother] at hrest
              split at hrest
              · rename_i hexec
                refine .execed ⟨hpid, hmentions⟩ (fun hin => ⟨hin, ?_⟩) hrest
                simp [Heard.mentions, hwait, hexec, hmsg]
              · split at hrest
                · exact .secComped hpid ⟨hpid, hmentions⟩ hrest
                · exact .proceed ⟨hpid, hmentions⟩ hrest
          · exact .proceed ⟨hpid, hmentions⟩ h
      · have hpid' : pid ∉ s.begin.syscallStateMap := hpid
        rw [hear, hwait, turn_status _ hstopped] at h
        simp only [stopped, if_neg hpid'] at h
        cases h
        exact .suspended pid status hwait hstopped hpid rfl

end Tracer

end Optrace
