import Optrace.Loop
import Optrace.Assertions

/-!
# New tracees

What becomes of a tracee between its first stop and its creator's event, in any order of the
two, and what the event registers it as.
-/

namespace Optrace

set_option autoImplicit false
set_option linter.unusedSectionVars false

open Except

def SIGSTOP : BitVec 8 := 19

namespace Tracer

variable {Q : Type} [MaxOutFilesQueue Q] {arch : Arch} {cfg : TracerConfig} {os : Os}
  {ptrace : Ptrace arch} {s s' : Tracer arch Q} {pid : Pid} {i : Heard arch}

/-! ## Nobody is lost -/

/-- No suspended tracee has an entry in `syscallStateMap`. -/
def Disjoint (s : Tracer arch Q) : Prop := ∀ tid ∈ s.suspendedThreads, tid ∉ s.syscallStateMap

/-- The tracee is registered in both maps and does not wait any more. -/
structure Arrived (s : Tracer arch Q) (child : Pid) : Prop where
  procMap : child ∈ s.context.procMap
  states : child ∈ s.syscallStateMap
  suspended : child ∉ s.suspendedThreads

/-- The restarts of one tracee. -/
def restartsOf (tid : Pid) (rs : List Resume) : List Resume := rs.filter fun r => r.pid == tid

theorem restartsOf_append (tid : Pid) (rs rs' : List Resume) :
    restartsOf tid (rs ++ rs') = restartsOf tid rs ++ restartsOf tid rs' := List.filter_append ..

theorem restartsOf_eq_nil {tid : Pid} {rs : List Resume} (h : ∀ r ∈ rs, r.pid ≠ tid) :
    restartsOf tid rs = [] := by
  refine List.filter_eq_nil_iff.mpr fun r hr => ?_
  simpa using h r hr

theorem restartsOf_resumption {tid : Pid} {q : Request} {signal : Int} :
    restartsOf tid (resumption ptrace tid q signal) = resumption ptrace tid q signal :=
  List.filter_eq_self.mpr fun _ hr => beq_iff_eq.mpr (mem_resumption hr).1

theorem restartsOf_resumption_ne {tid : Pid} {q : Request} {signal : Int} (h : pid ≠ tid) :
    restartsOf tid (resumption ptrace pid q signal) = [] :=
  restartsOf_eq_nil fun r hr => by rwa [(mem_resumption hr).1]

theorem Steady.disjoint {p : Pid → Prop} (hsteady : Steady p s s') (hs : s.Disjoint) :
    s'.Disjoint := by
  intro tid htid hin
  rw [hsteady.suspended] at htid
  exact hs tid htid (hsteady.states tid hin)

theorem Disjoint.hear (hs : s.Disjoint) (h : s.hear cfg i = .ok s') : s'.Disjoint := by
  intro tid htid
  cases moved h with
  | steady hstops hsteady => exact hsteady.disjoint hs tid htid
  | dead pid status code hwait hstopped s₁ s₂ hdump hsteady hs' =>
    subst hs'
    obtain ⟨c, calls, rfl⟩ := dumped_same hdump
    exact hsteady.disjoint hs tid htid
  | suspended pid status hwait hstopped hpid hs' =>
    subst hs'
    rcases Finmap.mem_insert.mp htid with rfl | htid
    · exact hpid
    · exact hs tid htid
  | arrived pid event msg c signal hannounces hpid hmsg htold hc hs' =>
    rw [resume_inv hs'] at htid ⊢
    obtain ⟨hne, htid⟩ := Finmap.mem_erase.mp htid
    intro hin
    rcases Finmap.mem_insert.mp hin with heq | hin
    · exact hne heq
    · exact hs tid htid hin

theorem disjoint_run {c : Context Q} {inputs : List (Heard arch)}
    (h : Runs.run (Tracer.hear cfg) (Tracer.new cfg c) inputs = .ok s) : s.Disjoint := by
  have hstart : (Tracer.new cfg c : Tracer arch Q).Disjoint := fun tid htid =>
    absurd htid Finmap.notMem_empty
  exact Runs.run_preserves (fun _ _ _ hs h => Disjoint.hear hs h) hstart h

theorem restartsOf_awaited (tid child : Pid) : restartsOf tid (s.awaited cfg ptrace child) =
    if child = tid then s.awaited cfg ptrace tid else [] := by
  by_cases hchild : child = tid
  · subst hchild
    rw [if_pos rfl]
    unfold awaited
    split
    · exact restartsOf_resumption
    · rfl
  · rw [if_neg hchild]
    unfold awaited
    split
    · exact restartsOf_resumption_ne hchild
    · rfl

/-- A tracee that no resumed one is stays as it is. -/
theorem Steady.restartsOf_eq_nil {p : Pid → Prop} {tid : Pid} (hsteady : Steady p s s')
    (hnone : s.resumes = []) (htid : ¬p tid) : restartsOf tid s'.resumes = [] := by
  obtain ⟨rs, hrs, hp⟩ := hsteady.resumes
  rw [hrs, hnone]
  refine Tracer.restartsOf_eq_nil fun r hr heq => htid ?_
  rw [← heq]
  exact hp r hr

/-- A turn that tells nothing of a tracee leaves it as it is, unless another one announces it. -/
theorem unmentioned_hear {tid : Pid} (hquiet : i.mentions tid = false)
    (h : s.hear cfg i = .ok s') :
    (tid ∈ s'.suspendedThreads ↔ tid ∈ s.suspendedThreads) ∧ restartsOf tid s'.resumes = [] ∨
      tid ∉ s'.suspendedThreads ∧ restartsOf tid s'.resumes = s.awaited cfg i.ptrace tid := by
  have hnever : ¬(tid ∈ s.syscallStateMap ∧ i.mentions tid = true) := by simp [hquiet]
  cases moved h with
  | steady hstops hsteady =>
    refine Or.inl ⟨?_, hsteady.restartsOf_eq_nil rfl hnever⟩
    rw [hsteady.suspended]
    rfl
  | dead pid status code hwait hstopped s₁ s₂ hdump hsteady hs' =>
    subst hs'
    obtain ⟨c, calls, rfl⟩ := dumped_same hdump
    refine Or.inl ⟨?_, hsteady.restartsOf_eq_nil rfl hnever⟩
    show tid ∈ s₂.suspendedThreads ↔ _
    rw [hsteady.suspended]
    rfl
  | suspended pid status hwait hstopped hpid hs' =>
    subst hs'
    have hne : tid ≠ pid := by
      rintro rfl
      simp [Heard.mentions, hwait] at hquiet
    refine Or.inl ⟨?_, rfl⟩
    rw [Finmap.mem_insert, or_iff_right hne]
  | arrived pid event msg c signal hannounces hpid hmsg htold hc hs' =>
    have hne : pid ≠ tid := by
      rintro rfl
      obtain ⟨status, hwait, _⟩ := hannounces
      simp [Heard.mentions, hwait] at hquiet
    have hrestarts : restartsOf tid s'.resumes =
        restartsOf tid (s.awaited cfg i.ptrace (asInt msg)) := by
      rw [resume_inv hs', restartsOf_append, restartsOf_resumption_ne hne, List.append_nil]
      rfl
    have hsuspended : s'.suspendedThreads = s.suspendedThreads.erase (asInt msg) := by
      rw [resume_inv hs']
      rfl
    rw [hrestarts, hsuspended, Finmap.mem_erase, restartsOf_awaited]
    by_cases hchild : asInt msg = tid
    · rw [if_pos hchild]
      exact Or.inr ⟨fun h => h.1 hchild.symm, rfl⟩
    · rw [if_neg hchild]
      exact Or.inl ⟨and_iff_right fun h => hchild h.symm, rfl⟩

theorem restarts_cons {is : List (Heard arch)} (h : s.hear cfg i = .ok s') :
    restarts cfg s (i :: is) = s'.resumes ++ restarts cfg s' is := by
  rw [restarts, h]

/-- A tracee that does not wait is not restarted before something is told of it. -/
theorem running_run {tid : Pid} {is : List (Heard arch)} (htid : tid ∉ s.suspendedThreads)
    (hquiet : ∀ i ∈ is, i.mentions tid = false) (h : Runs.run (hear cfg) s is = .ok s') :
    tid ∉ s'.suspendedThreads ∧ restartsOf tid (restarts cfg s is) = [] := by
  induction is generalizing s with
  | nil =>
    cases h
    exact ⟨htid, rfl⟩
  | cons i is ih =>
    obtain ⟨s₁, hs₁, h⟩ := Runs.run_cons_ok_iff.mp h
    have hnow : tid ∉ s₁.suspendedThreads ∧ restartsOf tid s₁.resumes = [] := by
      rcases unmentioned_hear (hquiet i List.mem_cons_self) hs₁ with
        ⟨hsame, hnone⟩ | ⟨hno, hrestarts⟩
      · exact ⟨fun hin => htid (hsame.mp hin), hnone⟩
      · exact ⟨hno, hrestarts.trans (if_neg htid)⟩
    obtain ⟨hlater, hrest⟩ := ih hnow.1 (fun j hj => hquiet j (List.mem_cons_of_mem _ hj)) h
    exact ⟨hlater, by rw [restarts_cons hs₁, restartsOf_append, hnow.2, hrest, List.nil_append]⟩

/-- Until something is told of a suspended tracee itself, it waits, or it was restarted once. -/
theorem waiting_run {tid : Pid} {is : List (Heard arch)} (htid : tid ∈ s.suspendedThreads)
    (hquiet : ∀ i ∈ is, i.mentions tid = false) (h : Runs.run (hear cfg) s is = .ok s') :
    tid ∈ s'.suspendedThreads ∧ restartsOf tid (restarts cfg s is) = [] ∨
      tid ∉ s'.suspendedThreads ∧ ∃ i ∈ is,
        restartsOf tid (restarts cfg s is) = resumption i.ptrace tid (request cfg false) 0 := by
  induction is generalizing s with
  | nil =>
    cases h
    exact Or.inl ⟨htid, rfl⟩
  | cons i is ih =>
    obtain ⟨s₁, hs₁, h⟩ := Runs.run_cons_ok_iff.mp h
    have hquiet' : ∀ j ∈ is, j.mentions tid = false :=
      fun j hj => hquiet j (List.mem_cons_of_mem _ hj)
    rw [restarts_cons hs₁, restartsOf_append]
    rcases unmentioned_hear (hquiet i List.mem_cons_self) hs₁ with ⟨hsame, hnone⟩ | ⟨hno, hrestarts⟩
    · rw [hnone, List.nil_append]
      exact (ih (hsame.mpr htid) hquiet' h).imp_right fun ⟨hlater, j, hj, hrest⟩ =>
        ⟨hlater, j, List.mem_cons_of_mem _ hj, hrest⟩
    · obtain ⟨hlater, hrest⟩ := running_run hno hquiet' h
      refine Or.inr ⟨hlater, i, List.mem_cons_self, ?_⟩
      rw [hrestarts, hrest, List.append_nil, awaited, if_pos htid]

/-- After its creator's event a new tracee is registered if and only if the event told of it. -/
theorem arrived_iff_told {event : CloneEvent} {child : Pid} (hannounces : i.Announces pid event)
    (hpid : pid ∈ s.syscallStateMap) (hnew : child ∉ s.syscallStateMap)
    (hmsg : i.ptrace.eventMsg.all (readsAs child) = true) (h : s.hear cfg i = .ok s') :
    s'.Arrived child ↔ told i.ptrace event = true := by
  rcases hear_announced hannounces hpid h with
    ⟨hmissed, hresume⟩ | ⟨htold, msg, c, signal, hok, hc, hresume⟩
  · have hstates : s'.syscallStateMap = s.syscallStateMap := by
      rw [resume_inv hresume]
      rfl
    refine iff_of_false (fun harrived => hnew (hstates ▸ harrived.states)) ?_
    rcases hmissed with hmissed | ⟨msg, hok, hneg⟩
    · rw [hmissed]
      exact Bool.false_ne_true
    · obtain ⟨_, hint, hchild⟩ := Kernel.readsAs_iff.mp (Kernel.Reply.all_ok hmsg hok)
      rw [hint] at hneg
      exact absurd hneg (not_lt.mpr hchild)
  · refine iff_of_true ?_ htold
    obtain ⟨hread, _, _⟩ := Kernel.readsAs_iff.mp (Kernel.Reply.all_ok hmsg hok)
    rw [hread] at hc hresume
    rw [resume_inv hresume]
    refine ⟨?_, Finmap.mem_insert.mpr (Or.inl rfl), fun hin => (Finmap.mem_erase.mp hin).1 rfl⟩
    show child ∈ c.procMap
    obtain ⟨p, hp⟩ := Context.registration_procMap hc
    rw [hp]
    exact Finmap.mem_insert.mpr (Or.inl rfl)

/-- What holds of new tracees in a state. -/
structure LosesNobody (cfg : TracerConfig) (s : Tracer arch Q) : Prop where
  disjoint : s.Disjoint
  announced : ∀ (i : Heard arch) (pid : Pid) (event : CloneEvent) (child : Pid) (s' : Tracer arch Q),
    i.Announces pid event → pid ∈ s.syscallStateMap → child ∉ s.syscallStateMap →
    i.ptrace.eventMsg.all (readsAs child) = true → s.hear cfg i = .ok s' →
    (s'.Arrived child ↔ told i.ptrace event = true)
  restarted : ∀ tid ∈ s.suspendedThreads, ∀ (is : List (Heard arch)) (s' : Tracer arch Q),
    (∀ i ∈ is, i.mentions tid = false) → Runs.run (hear cfg) s is = .ok s' →
    tid ∈ s'.suspendedThreads ∧ restartsOf tid (restarts cfg s is) = [] ∨
      tid ∉ s'.suspendedThreads ∧ ∃ i ∈ is,
        restartsOf tid (restarts cfg s is) = resumption i.ptrace tid (request cfg false) 0

/-- In every reachable state nobody is lost, but for those whose creator's event did not tell of
them. -/
theorem loses_nobody {c : Context Q} {inputs : List (Heard arch)}
    (hrun : Runs.run (hear cfg) (Tracer.new cfg c) inputs = .ok s) : s.LosesNobody cfg :=
  ⟨disjoint_run hrun,
    fun _ _ _ _ _ hannounces hpid hnew hmsg h => arrived_iff_told hannounces hpid hnew hmsg h,
    fun _ htid _ _ hquiet h => waiting_run htid hquiet h⟩

end Tracer

/-! ## Threads and processes -/

/-- The calls that raise a clone event. -/
inductive CloneCall where
  | clone
  | clone3

/-- The first argument of a call in which a tracee is. -/
def firstArgument : (arch : Arch) → UserRegs arch → Word
  | .x86_64, registers => X86Regs.rdi registers
  | .aarch64, registers => Aarch64Regs.regs registers 0

/-- The flags the kernel goes by: `clone3` takes a pointer to a record that begins with them. -/
def CloneCall.flags {arch : Arch} (call : CloneCall) (memory : Word → Word)
    (registers : UserRegs arch) : Word :=
  match call with
  | .clone => firstArgument arch registers
  | .clone3 => memory (firstArgument arch registers)

/-- The word `GetCloneFlags` takes for the flags. -/
def flagsWord : (arch : Arch) → UserRegs arch → Word
  | .x86_64, registers => X86Regs.rdi registers
  | .aarch64, registers => Aarch64Regs.regs registers 2

/-- The answers of `ptrace` are read from these registers. -/
structure Ptrace.Reads {arch : Arch} (ptrace : Ptrace arch) (registers : UserRegs arch) : Prop where
  regs : ptrace.regs = .ok registers
  rdi : arch = .x86_64 → ptrace.rdi = .ok (firstArgument arch registers)

theorem getCloneFlags_reads {arch : Arch} {ptrace : Ptrace arch} {registers : UserRegs arch}
    (h : ptrace.Reads registers) : getCloneFlags arch ptrace = .ok (flagsWord arch registers) ∨
      (flagsWord arch registers = -1 ∧ ∃ e, getCloneFlags arch ptrace = .error e) := by
  cases arch with
  | x86_64 =>
    have hword : firstArgument .x86_64 registers = flagsWord .x86_64 registers := rfl
    simp only [getCloneFlags, h.rdi rfl, ptraceSafeCall, bind_ok, hword]
    split
    · rename_i hminus
      exact Or.inr ⟨hminus, _, rfl⟩
    · exact Or.inl rfl
  | aarch64 =>
    simp only [getCloneFlags, h.regs, ptraceSafeCall, bind_ok]
    exact Or.inl rfl

namespace Tracer

variable {Q : Type} [MaxOutFilesQueue Q] {arch : Arch} {cfg : TracerConfig} {s : Tracer arch Q}
  {pid child : Pid} {i : Heard arch}

theorem registration_ok {c : Context Q} (os : Os) (isThread : Bool) (hpid : pid ∈ c.procMap)
    (hchild : child ∉ c.procMap) :
    ∃ c', (registration os pid child isThread : Call arch).apply c = .ok c' := by
  obtain ⟨p, hp⟩ := (Context.mem_procMap c pid).mp hpid
  cases isThread with
  | true =>
    refine ⟨{ c with procMap := c.procMap.insert child p }, ?_⟩
    show c.registerThread pid child = _
    simp only [Context.registerThread, hp, Finmap.lookup_eq_none.mpr hchild]
  | false =>
    refine ⟨{ c with
      heap := c.copyProc os p false child pid
      groupLeaders := insert child c.groupLeaders
      procMap := c.procMap.insert child c.heap.procCount }, ?_⟩
    show c.registerProcess os pid child = _
    rw [Context.registerProcess, if_neg hchild, Context.getProcState_ok_iff.mpr hp]
    rfl

theorem registration_inj {os : Os} {a b : Bool}
    (h : (registration os pid child a : Call arch) = registration os pid child b) : a = b := by
  cases a <;> cases b <;> first | rfl | cases h

theorem hear_clone_calls {event : CloneEvent} {msg : Word} {s' : Tracer arch Q}
    (hannounces : i.Announces pid event) (hpid : pid ∈ s.syscallStateMap)
    (hmsg : i.ptrace.eventMsg = .ok msg) (hnonneg : 0 ≤ msg.toInt) (h : s.hear cfg i = .ok s') :
    s'.calls = if told i.ptrace event
      then [registration i.os pid (asInt msg) (asThread i.ptrace event)] else [] := by
  rcases hear_announced hannounces hpid h with
    ⟨hmissed, hresume⟩ | ⟨htold, msg', c, signal, hok, _, hresume⟩
  · have htold : told i.ptrace event = false := by
      rcases hmissed with htold | ⟨msg', hok, hneg⟩
      · exact htold
      · rw [hmsg] at hok
        cases hok
        omega
    rw [resume_inv hresume, htold]
    rfl
  · rw [hmsg] at hok
    cases hok
    rw [resume_inv hresume, htold]
    rfl

/-- The new tracee is registered as what it was created as if and only if the word taken for the
flags reads as nonnegative and agrees with the flags in `CLONE_THREAD`. -/
theorem registers_as_created_iff {call : CloneCall} {memory : Word → Word}
    {registers : UserRegs arch} {msg : Word} (hannounces : i.Announces pid .clone)
    (hpid : pid ∈ s.syscallStateMap) (hproc : pid ∈ s.context.procMap)
    (hnew : child ∉ s.context.procMap) (hreads : i.ptrace.Reads registers)
    (hmsg : i.ptrace.eventMsg = .ok msg) (hchild : readsAs child msg = true)
    (hresume : ∀ tid, i.ptrace.resume tid ≠ .failed) :
    (∃ s', s.hear cfg i = .ok s' ∧ s'.calls =
      [registration i.os pid child (hasFlag (call.flags memory registers) CLONE_THREAD)]) ↔
      0 ≤ (flagsWord arch registers).toInt ∧
        hasFlag (flagsWord arch registers) CLONE_THREAD =
          hasFlag (call.flags memory registers) CLONE_THREAD := by
  obtain ⟨hread, hint, hpos⟩ := Kernel.readsAs_iff.mp hchild
  have hnonneg : 0 ≤ msg.toInt := by rw [hint]; exact hpos
  rcases getCloneFlags_reads hreads with hflags | ⟨hminus, e, hflags⟩
  · have hword : (if CloneEvent.clone = .clone then getCloneFlags arch i.ptrace else .ok 0) =
        .ok (flagsWord arch registers) := (if_pos rfl).trans hflags
    obtain ⟨hsign, hthread⟩ := told_of_flags hmsg hword
    constructor
    · rintro ⟨s', h, hcalls⟩
      rw [hear_clone_calls hannounces hpid hmsg hnonneg h, hsign, hread, hthread] at hcalls
      split at hcalls
      · rename_i hyes
        exact ⟨of_decide_eq_true hyes, registration_inj (List.cons.inj hcalls).1⟩
      · cases hcalls
    · rintro ⟨hyes, hsame⟩
      obtain ⟨status, hwait, hstopped, hshift⟩ := hannounces
      obtain ⟨c, hc⟩ := @registration_ok Q _ arch pid child s.begin.context i.os
        (asThread i.ptrace .clone) hproc hnew
      have htold : told i.ptrace .clone = true := by
        rw [hsign]
        exact decide_eq_true hyes
      have hturn := @hear_announced_eq Q _ arch cfg s pid i .clone status msg hwait hstopped
        hshift hpid hmsg hnonneg
      rw [cloned_told_eq _ hmsg htold, hread, registerChild_eq hc (hresume child), bind_ok,
        resume_eq _ (hresume pid)] at hturn
      rw [← hsame, ← hthread]
      exact ⟨_, hturn, rfl⟩
  · have htold : told i.ptrace .clone = false := by
      simp [told, hflags]
    apply iff_of_false
    · rintro ⟨s', h, hcalls⟩
      rw [hear_clone_calls hannounces hpid hmsg hnonneg h, htold] at hcalls
      cases hcalls
    · rintro ⟨hyes, -⟩
      rw [hminus] at hyes
      exact absurd hyes (by decide)

/-! ## The two orders -/

/-- What is left of a run: the three maps, and the restarts of the new tracee. -/
structure Outcome (arch : Arch) where
  maps : Except Stop (PidMap Nat × PidMap Int × PidMap (BitVec 32))
  restarts : List Resume

def outcome (cfg : TracerConfig) (s : Tracer arch Q) (child : Pid) (is : List (Heard arch)) :
    Outcome arch where
  maps := (Runs.run (hear cfg) s is).map fun t =>
    (t.context.procMap, t.syscallStateMap, t.suspendedThreads)
  restarts := restartsOf child (restarts cfg s is)

/-- The state after a stop of a tracee that nobody told of. -/
def suspend (s : Tracer arch Q) (pid : Pid) (status : BitVec 32) : Tracer arch Q :=
  { s.begin with suspendedThreads := s.suspendedThreads.insert pid status }

theorem hear_stop_unknown {sig : BitVec 8}
    (hwait : i.wait = .status pid (Notice.signalStop sig).status)
    (hsig : sig ≠ 0x85) (hpid : pid ∉ s.syscallStateMap) :
    s.hear cfg i = .ok (s.suspend pid (Notice.signalStop sig).status) := by
  have hpid' : pid ∉ s.begin.syscallStateMap := hpid
  rw [hear, hwait, turn_status _ (status_signalStop hsig).1]
  simp only [stopped, if_neg hpid']
  rfl

theorem hear_stop_known {sig : BitVec 8}
    (hwait : i.wait = .status pid (Notice.signalStop sig).status)
    (hsig : sig ≠ 0x85) (hpid : pid ∈ s.syscallStateMap) :
    s.hear cfg i = s.begin.resume i.ptrace pid (request cfg false)
      (wstopsig (Notice.signalStop sig).status).toNat := by
  have hpid' : pid ∈ s.begin.syscallStateMap := hpid
  obtain ⟨hstopped, hsyscall, hshift⟩ := status_signalStop hsig
  rw [hear, hwait, turn_status _ hstopped]
  simp only [stopped, if_pos hpid', hsyscall, hshift, ne_eq, not_true_eq_false, if_false,
    Bool.false_eq_true, proceed_false_eq]

theorem outcome_error {e : Stop} (is : List (Heard arch)) (h : s.hear cfg i = .error e) :
    s.outcome cfg child (i :: is) = ⟨.error e, []⟩ := by
  simp [outcome, Runs.run, restarts, h, Except.map, restartsOf]

theorem outcome_ok {t : Tracer arch Q} (is : List (Heard arch)) (h : s.hear cfg i = .ok t) :
    s.outcome cfg child (i :: is) =
      ⟨(t.outcome cfg child is).maps,
        restartsOf child t.resumes ++ (t.outcome cfg child is).restarts⟩ := by
  simp [outcome, Runs.run, restarts, h, restartsOf_append]

theorem outcome_nil : s.outcome cfg child [] =
    ⟨.ok (s.context.procMap, s.syscallStateMap, s.suspendedThreads), []⟩ := rfl

theorem resumption_ok {ptrace : Ptrace arch} (h : ptrace.resume pid = .ok ()) (q : Request)
    (signal : Int) : resumption ptrace pid q signal = [⟨pid, q, signal⟩] := by
  rw [resumption, h]

theorem outcome_stop_unknown {sig : BitVec 8}
    (hwait : i.wait = .status pid (Notice.signalStop sig).status) (hsig : sig ≠ 0x85)
    (hpid : pid ∉ s.syscallStateMap) : s.outcome cfg pid [i] =
      ⟨.ok (s.context.procMap, s.syscallStateMap,
        s.suspendedThreads.insert pid (Notice.signalStop sig).status), []⟩ := by
  rw [outcome_ok [] (hear_stop_unknown hwait hsig hpid)]
  rfl

theorem outcome_stop_known {sig : BitVec 8}
    (hwait : i.wait = .status pid (Notice.signalStop sig).status) (hsig : sig ≠ 0x85)
    (hpid : pid ∈ s.syscallStateMap) (hresume : i.ptrace.resume pid = .ok ()) :
    s.outcome cfg pid [i] = ⟨.ok (s.context.procMap, s.syscallStateMap, s.suspendedThreads),
      [⟨pid, request cfg false, (wstopsig (Notice.signalStop sig).status).toNat⟩]⟩ := by
  have hfails : i.ptrace.resume pid ≠ .failed := fun h => by
    rw [hresume] at h
    cases h
  have h := @hear_stop_known Q _ arch cfg s pid i sig hwait hsig hpid
  rw [resume_eq _ hfails] at h
  have hrestarts : restartsOf pid (s.begin.resumes ++ resumption i.ptrace pid (request cfg false)
      (wstopsig (Notice.signalStop sig).status).toNat) =
        [⟨pid, request cfg false, (wstopsig (Notice.signalStop sig).status).toNat⟩] := by
    rw [restartsOf_append, restartsOf_resumption, resumption_ok hresume]
    rfl
  rw [outcome_ok [] h, outcome_nil, hrestarts]
  rfl

theorem registerChild_error {os : Os} {ptrace : Ptrace arch} {isThread : Bool} {a : Abort}
    (h : (registration os pid child isThread : Call arch).apply s.context = .error a) :
    s.registerChild cfg os ptrace pid child isThread = .error (.abort a) := by
  have hcall : s.call (registration os pid child isThread) = .error (.abort a) := by
    rw [call, h]
  rw [registerChild_bind, hcall]
  rfl

section Orders

variable {event : CloneEvent} {status : BitVec 32} {msg : Word} {j : Heard arch}
  (hwait : i.wait = .status pid status) (hstopped : wifstopped status = true)
  (hshift : status >>> 16 = event.number)
  (hstop : j.wait = .status child (Notice.signalStop SIGSTOP).status)
  (hpid : pid ∈ s.syscallStateMap) (hnew : child ∉ s.syscallStateMap)
  (hmsg : i.ptrace.eventMsg = .ok msg) (hchild : readsAs child msg = true)
  (hi : ∀ tid, i.ptrace.resume tid = .ok ())
include hwait hstopped hshift hstop hpid hnew hmsg hchild hi

/-- Where the event does not register the new tracee, the orders end alike. -/
theorem outcomes_unregistered (hno : ¬(told i.ptrace event = true ∧ ∃ c,
    (registration i.os pid child (asThread i.ptrace event) : Call arch).apply s.context = .ok c)) :
    s.outcome cfg child [i, j] = s.outcome cfg child [j, i] := by
  obtain ⟨hread, hint, hpos⟩ := Kernel.readsAs_iff.mp hchild
  have hnonneg : 0 ≤ msg.toInt := by rw [hint]; exact hpos
  have hne : pid ≠ child := fun h => hnew (h ▸ hpid)
  have hfails : i.ptrace.resume pid ≠ .failed := fun h => by
    rw [hi pid] at h
    cases h
  have hevent : ∀ t : Tracer arch Q, pid ∈ t.syscallStateMap → t.hear cfg i =
      t.begin.cloned cfg i.os i.ptrace pid event.number msg (stopSignal status) :=
    fun t ht => hear_announced_eq hwait hstopped hshift ht hmsg hnonneg
  have hfirst := hevent s hpid
  have hsecond := hevent (s.suspend child (Notice.signalStop SIGSTOP).status) hpid
  rw [outcome_ok [i] (hear_stop_unknown hstop (by decide) hnew)]
  cases htold : told i.ptrace event with
  | false =>
    cases hflags : (if event = .clone then getCloneFlags arch i.ptrace else .ok 0) with
    | error e =>
      have herror : ∀ t : Tracer arch Q,
          t.cloned cfg i.os i.ptrace pid event.number msg (stopSignal status) = .error e := by
        intro t
        rw [cloned_eq, hflags]
        rfl
      rw [outcome_error [j] (hfirst.trans (herror _)), outcome_error [] (hsecond.trans (herror _))]
      rfl
    | ok flags =>
      rw [cloned_untold_eq _ hmsg hflags htold, resume_eq _ hfails] at hfirst hsecond
      rw [outcome_ok [j] hfirst, outcome_ok [] hsecond, outcome_stop_unknown hstop (by decide)]
      · simp only [outcome_nil, restartsOf_append, restartsOf_resumption_ne hne, List.append_nil]
        rfl
      · exact hnew
  | true =>
    rw [cloned_told_eq _ hmsg htold, hread] at hfirst hsecond
    cases hregister : (registration i.os pid child (asThread i.ptrace event) : Call arch).apply
        s.context with
    | error a =>
      have herror : ∀ t : Tracer arch Q, t.context = s.context →
          t.registerChild cfg i.os i.ptrace pid child (asThread i.ptrace event) =
            .error (.abort a) := fun t ht => registerChild_error (ht ▸ hregister)
      rw [herror s.begin rfl] at hfirst
      rw [herror (s.suspend child _).begin rfl] at hsecond
      rw [outcome_error [j] hfirst, outcome_error [] hsecond]
      rfl
    | ok c => exact absurd ⟨htold, c, hregister⟩ hno

/-- Where it does, the maps are the same, but not the signal. -/
theorem outcomes_registered {c : Context Q} (hfirst : child ∉ s.suspendedThreads)
    (hj : ∀ tid, j.ptrace.resume tid = .ok ()) (htold : told i.ptrace event = true)
    (hc : (registration i.os pid child (asThread i.ptrace event) : Call arch).apply s.context =
      .ok c) :
    ∃ maps, s.outcome cfg child [i, j] = ⟨maps, [⟨child, request cfg false, 19⟩]⟩ ∧
      s.outcome cfg child [j, i] = ⟨maps, [⟨child, request cfg false, 0⟩]⟩ := by
  obtain ⟨hread, hint, hpos⟩ := Kernel.readsAs_iff.mp hchild
  have hnonneg : 0 ≤ msg.toInt := by rw [hint]; exact hpos
  have hne : pid ≠ child := fun h => hnew (h ▸ hpid)
  have hfails : ∀ tid, i.ptrace.resume tid ≠ .failed := fun tid h => by
    rw [hi tid] at h
    cases h
  have hevent : ∀ t : Tracer arch Q, pid ∈ t.syscallStateMap → t.context = s.context →
      t.hear cfg i = .ok { t.begin.withArrival cfg i.ptrace c
        (registration i.os pid child (asThread i.ptrace event)) child with
          resumes := t.begin.awaited cfg i.ptrace child ++
            resumption i.ptrace pid (request cfg false) (stopSignal status) } := by
    intro t ht hcontext
    have hok : (registration i.os pid child (asThread i.ptrace event) : Call arch).apply
        t.begin.context = .ok c := hcontext ▸ hc
    rw [hear_announced_eq hwait hstopped hshift ht hmsg hnonneg, cloned_told_eq _ hmsg htold, hread,
      registerChild_eq hok (hfails child), bind_ok, resume_eq _ (hfails pid)]
    rfl
  have hunawaited : s.begin.awaited cfg i.ptrace child = [] := if_neg hfirst
  have hawaited : (s.suspend child (Notice.signalStop SIGSTOP).status).begin.awaited cfg
      i.ptrace child = [⟨child, request cfg false, 0⟩] :=
    (if_pos (Finmap.mem_insert.mpr (Or.inl rfl))).trans (resumption_ok (hi child) _ _)
  refine ⟨.ok (c.procMap, s.syscallStateMap.insert child SYSCALL_UNDEFINED, s.suspendedThreads),
    ?_, ?_⟩
  · have hmaps : s.suspendedThreads.erase child = s.suspendedThreads := erase_of_notMem hfirst
    rw [outcome_ok [j] (hevent s hpid rfl), outcome_stop_known hstop (by decide) _ (hj child)]
    · simp only [hunawaited, restartsOf_append, restartsOf_resumption_ne hne]
      simp only [withArrival, withChild, begin, hmaps]
      rfl
    · exact Finmap.mem_insert.mpr (Or.inl rfl)
  · have hmaps : (s.suspendedThreads.insert child (Notice.signalStop SIGSTOP).status).erase child =
        s.suspendedThreads := by
      refine Finmap.ext_lookup fun tid => ?_
      rw [PidMap.lookup_erase, PidMap.lookup_insert]
      split
      · rename_i htid
        rw [htid]
        exact (Finmap.lookup_eq_none.mpr hfirst).symm
      · rfl
    rw [outcome_ok [i] (hear_stop_unknown hstop (by decide) hnew),
      outcome_ok [] (hevent (s.suspend child _) hpid rfl), outcome_nil]
    simp only [hawaited, restartsOf_append, restartsOf_resumption_ne hne]
    simp only [withArrival, withChild, begin, suspend, hmaps]
    simp [restartsOf]

end Orders

/-- The two orders of a first stop and of its creator's event end alike if and only if the event
does not register the new tracee: one restarts it with `SIGSTOP`, the other with no signal. -/
theorem arrival_order_iff {event : CloneEvent} {msg : Word} {j : Heard arch}
    (hannounces : i.Announces pid event)
    (hstop : j.wait = .status child (Notice.signalStop SIGSTOP).status)
    (hpid : pid ∈ s.syscallStateMap) (hnew : child ∉ s.syscallStateMap)
    (hfirst : child ∉ s.suspendedThreads) (hmsg : i.ptrace.eventMsg = .ok msg)
    (hchild : readsAs child msg = true) (hi : ∀ tid, i.ptrace.resume tid = .ok ())
    (hj : ∀ tid, j.ptrace.resume tid = .ok ()) :
    s.outcome cfg child [i, j] = s.outcome cfg child [j, i] ↔
      ¬(told i.ptrace event = true ∧ ∃ c,
        (registration i.os pid child (asThread i.ptrace event) : Call arch).apply s.context = .ok c) := by
  obtain ⟨status, hwait, hstopped, hshift⟩ := hannounces
  constructor
  · rintro heq ⟨htold, c, hc⟩
    obtain ⟨maps, hevent, hstop⟩ := @outcomes_registered Q _ arch cfg s pid child i event status msg j
      hwait hstopped hshift hstop hpid hnew hmsg hchild hi c hfirst hj htold hc
    rw [hevent, hstop] at heq
    simp at heq
  · intro hno
    exact outcomes_unregistered hwait hstopped hshift hstop hpid hnew hmsg hchild hi hno

end Tracer

/-- An event of the tracee 1. -/
def eventOfOne (ptrace : Ptrace .x86_64) (event : CloneEvent) : Heard .x86_64 :=
  ⟨plainOs 0, ptrace, .status 1 (Notice.cloned event 57).status⟩

/-- The first stop of the tracee 2. -/
def firstStop : Heard .x86_64 :=
  ⟨plainOs 0, plainPtrace 0 0 (entryRegs 0), .status 2 (Notice.signalStop SIGSTOP).status⟩

theorem eventOfOne_announces (ptrace : Ptrace .x86_64) (event : CloneEvent) :
    (eventOfOne ptrace event).Announces 1 event :=
  ⟨_, rfl, by cases event <;> decide, by cases event <;> decide⟩

open FileStorage in
theorem loses_nobody_fork :
    ∃ s : Tracer .x86_64 FileQueue,
      Runs.run (Tracer.hear plainConfig) (Tracer.new plainConfig plainStart)
        [firstStop, eventOfOne (plainPtrace 2 0 (entryRegs 0)) .fork] = .ok s ∧
      2 ∈ s.syscallStateMap ∧ s.LosesNobody plainConfig :=
  ⟨_, rfl, by decide, @Tracer.loses_nobody FileQueue _ .x86_64 plainConfig _ plainStart
    [firstStop, eventOfOne (plainPtrace 2 0 (entryRegs 0)) .fork] rfl⟩

open FileStorage in
/-- The creator is killed in the stop of its event: nobody tells of the tracee 2 any more. -/
theorem killedCreator_loses :
    ∃ s : Tracer .x86_64 FileQueue,
      Runs.run (Tracer.hear plainConfig) (Tracer.new plainConfig plainStart)
        [firstStop, eventOfOne { plainPtrace 2 0 (entryRegs 0) with eventMsg := .gone } .fork] = .ok s ∧
      2 ∈ s.suspendedThreads ∧ 2 ∉ s.syscallStateMap ∧ 2 ∉ s.context.procMap := by
  refine ⟨_, rfl, ?_⟩
  decide

open FileStorage in
/-- With a flags word that reads as negative the orders end alike. -/
theorem arrival_order_iff_negative :
    (Tracer.new plainConfig plainStart : Tracer .x86_64 FileQueue).outcome plainConfig 2
        [eventOfOne (plainPtrace 2 0x8000000000000000 (entryRegs 0)) .clone, firstStop] =
      (Tracer.new plainConfig plainStart : Tracer .x86_64 FileQueue).outcome plainConfig 2
        [firstStop, eventOfOne (plainPtrace 2 0x8000000000000000 (entryRegs 0)) .clone] := by
  refine (@Tracer.arrival_order_iff FileQueue _ .x86_64 plainConfig
    (Tracer.new plainConfig plainStart) 1 2 _ .clone 2 firstStop
    (eventOfOne_announces (plainPtrace 2 0x8000000000000000 (entryRegs 0)) .clone) rfl
    (by decide) (by decide) (by decide) rfl (by decide) (fun _ => rfl) (fun _ => rfl)).mpr ?_
  rintro ⟨htold, -⟩
  revert htold
  decide

open FileStorage in
theorem arrivalOrder_signals :
    ((Tracer.new plainConfig plainStart : Tracer .x86_64 FileQueue).outcome plainConfig 2
        [eventOfOne (plainPtrace 2 0 (entryRegs 0)) .fork, firstStop]).restarts = [⟨2, .syscall, 19⟩] ∧
      ((Tracer.new plainConfig plainStart : Tracer .x86_64 FileQueue).outcome plainConfig 2
        [firstStop, eventOfOne (plainPtrace 2 0 (entryRegs 0)) .fork]).restarts =
          [⟨2, .syscall, 0⟩] := by
  decide

/-- The registers of `clone3` with a pointer that has the bit of `CLONE_THREAD`. -/
def pointerRegs : UserRegs .x86_64 := exitRegs .x86_64 ⟨435, -38, 0x7ffd00010000, 0x58, 0, 0⟩

open FileStorage in
theorem registers_as_created_thread :
    ∃ s' : Tracer .x86_64 FileQueue, (Tracer.new plainConfig plainStart).hear plainConfig
        (eventOfOne (plainPtrace 2 0x7ffd00010000 pointerRegs) .clone) = .ok s' ∧
      s'.calls = [Tracer.registration (plainOs 0) 1 2
        (hasFlag (CloneCall.clone3.flags (fun _ => 0x10f00) pointerRegs) CLONE_THREAD)] :=
  (@Tracer.registers_as_created_iff FileQueue _ .x86_64 plainConfig (Tracer.new plainConfig plainStart)
    1 2 _ .clone3 (fun _ => 0x10f00) pointerRegs 2
    (eventOfOne_announces (plainPtrace 2 0x7ffd00010000 pointerRegs) .clone) (by decide) (by decide)
    (by decide) ⟨rfl, fun _ => rfl⟩ rfl (by decide) (fun _ h => nomatch h)).mpr (by decide)

open FileStorage in
/-- A process made by `clone3` is registered as a thread. -/
theorem clone3_as_thread :
    ∃ s' : Tracer .x86_64 FileQueue, (Tracer.new plainConfig plainStart).hear plainConfig
        (eventOfOne (plainPtrace 2 0x7ffd00010000 pointerRegs) .clone) = .ok s' ∧
      s'.calls = [.registerThread 1 2] ∧
      hasFlag (CloneCall.clone3.flags (fun _ => 0x200) pointerRegs) CLONE_THREAD = false :=
  ⟨_, rfl, rfl, by decide⟩

end Optrace
