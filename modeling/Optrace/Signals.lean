import Optrace.Arrivals

/-!
# The signals of the tracees

A tracee is stopped before a signal is delivered to it, and gets the signal it is restarted with.
What the tracees are given in a run of the whole system, against the signals they were stopped for.
-/

namespace Optrace

set_option autoImplicit false
set_option linter.unusedSectionVars false

open Except

/-! ## The signals of a turn -/

namespace Tracer

variable {Q : Type} [MaxOutFilesQueue Q] {arch : Arch} {cfg : TracerConfig} {os : Os}
  {ptrace : Ptrace arch} {s s' s₁ : Tracer arch Q} {pid : Pid} {signal : Int}

/-- No tracee but this one is restarted with a signal, and this one with no other. -/
def Carries (pid : Pid) (signal : Int) (s s' : Tracer arch Q) : Prop :=
  ∀ r ∈ s'.resumes, r ∈ s.resumes ∨ r.signal = 0 ∨ r.pid = pid ∧ r.signal = signal

namespace Carries

theorem of_eq (h : s'.resumes = s.resumes) : Carries pid signal s s' :=
  fun _ hr => Or.inl (h ▸ hr)

theorem trans (h : Carries pid signal s s₁) (h' : Carries pid signal s₁ s') :
    Carries pid signal s s' := by
  intro r hr
  rcases h' r hr with hold | hnew
  · exact h r hold
  · exact Or.inr hnew

theorem resume {tid : Pid} {q : Request} {sig : Int} (hsig : sig = 0 ∨ tid = pid ∧ sig = signal)
    (h : s.resume ptrace tid q sig = .ok s') : Carries pid signal s s' := by
  rw [resume_inv h]
  intro r hr
  rcases List.mem_append.mp hr with hold | hnew
  · exact Or.inl hold
  · unfold resumption at hnew
    split at hnew
    · rw [List.mem_singleton.mp hnew]
      exact Or.inr hsig
    · cases hnew

theorem call {call : Call arch} (h : s.call call = .ok s') : Carries pid signal s s' := by
  obtain ⟨c, _, rfl⟩ := call_ok h
  exact of_eq rfl

theorem vanishThread {tid : Pid} {notify : Bool} (h : s.vanishThread ptrace tid notify = .ok s') :
    Carries pid signal s s' := by
  unfold Tracer.vanishThread at h
  have herased : Carries pid signal s
      { s with syscallStateMap := s.syscallStateMap.erase tid } := of_eq rfl
  split at h
  · cases notify with
    | false => exact herased.trans (.resume (Or.inl rfl) h)
    | true =>
      obtain ⟨s₁, hcall, h⟩ := bind_eq_ok_iff.mp h
      exact herased.trans (Carries.trans (.call hcall) (.resume (Or.inl rfl) h))
  · cases h

theorem restart {syscallStop : Bool} (h : s.restart cfg ptrace pid syscallStop signal = .ok s') :
    Carries pid signal s s' := by
  unfold Tracer.restart at h
  split at h
  · split at h
    · exact .resume (Or.inr ⟨rfl, rfl⟩) h
    · exact .resume (Or.inr ⟨rfl, rfl⟩) h
  · exact .resume (Or.inr ⟨rfl, rfl⟩) h

theorem syscallStopped {registers : UserRegs arch}
    (h : s.syscallStopped os ptrace pid registers = .ok s') : Carries pid signal s s' := by
  unfold Tracer.syscallStopped at h
  split at h
  · cases h
  · split at h
    · obtain ⟨_, stores, rfl, _⟩ := syscallEntered_ok h
      exact of_eq rfl
    · have hreset : Carries pid signal s (s.setSyscallState pid SYSCALL_UNDEFINED) := of_eq rfl
      exact hreset.trans (.call h)

theorem proceed {syscallStop : Bool} (h : s.proceed cfg os ptrace pid syscallStop signal = .ok s') :
    Carries pid signal s s' := by
  unfold Tracer.proceed at h
  split at h
  · obtain ⟨reply, _, h⟩ := bind_eq_ok_iff.mp h
    cases reply with
    | none => exact .resume (Or.inl rfl) h
    | some registers =>
      obtain ⟨s₁, hstopped, hrestart⟩ := bind_eq_ok_iff.mp h
      exact (syscallStopped hstopped).trans (.restart hrestart)
  · exact .restart h

/-- A new tracee that was waiting is restarted with no signal. -/
theorem registerChild {child : Pid} {isThread : Bool}
    (h : s.registerChild cfg os ptrace pid child isThread = .ok s') : Carries pid signal s s' := by
  rw [registerChild_bind] at h
  obtain ⟨s₁, hcall, h⟩ := bind_eq_ok_iff.mp h
  refine Carries.trans (.call hcall) ?_
  split at h
  · obtain ⟨s₂, hresume, h⟩ := bind_eq_ok_iff.mp h
    rw [pure_eq_ok_iff] at h
    subst h
    have hset : Carries pid signal s₁ { s₁.setSyscallState child SYSCALL_UNDEFINED with
        suspendedThreads := s₁.suspendedThreads.erase child } := of_eq rfl
    exact (hset.trans (.resume (Or.inl rfl) hresume)).trans (of_eq rfl)
  · cases h
    exact of_eq rfl

theorem cloned {event : BitVec 32} {msg : Word}
    (h : s.cloned cfg os ptrace pid event msg signal = .ok s') : Carries pid signal s s' := by
  have hflags : ∀ flags : Word,
      (if flags.toInt < 0 then s.resume ptrace pid .syscall 0
      else s.registerChild cfg os ptrace pid (asInt msg) (hasFlag flags CLONE_THREAD) >>=
        fun s₁ => s₁.proceed cfg os ptrace pid false signal) = .ok s' →
      Carries pid signal s s' := by
    intro flags h
    split at h
    · exact .resume (Or.inl rfl) h
    · obtain ⟨s₁, hchild, h⟩ := bind_eq_ok_iff.mp h
      exact (registerChild hchild).trans (.proceed h)
  unfold Tracer.cloned at h
  simp only at h
  split at h
  · obtain ⟨flags, _, h⟩ := bind_eq_ok_iff.mp h
    exact hflags flags h
  · exact hflags 0 h

theorem execed {msg : Word} (h : s.execed cfg os ptrace pid msg signal = .ok s') :
    Carries pid signal s s' := by
  rw [execed_eq] at h
  obtain ⟨s₁, hcall, h⟩ := bind_eq_ok_iff.mp h
  obtain ⟨s₂, hvanish, h⟩ := bind_eq_ok_iff.mp h
  refine Carries.trans (.call hcall) (Carries.trans ?_ (.proceed h))
  split at hvanish
  · exact .vanishThread hvanish
  · cases hvanish
    exact of_eq rfl

theorem secComped (h : s.secComped cfg os ptrace pid signal = .ok s') :
    Carries pid signal s s' := by
  unfold Tracer.secComped at h
  split at h
  · exact .resume (Or.inl rfl) h
  · have hreset : Carries pid signal s (s.setSyscallState pid SYSCALL_UNDEFINED) := of_eq rfl
    exact hreset.trans (.proceed h)

theorem evented {event : BitVec 32} {syscallStop : Bool}
    (h : s.evented cfg os ptrace pid event syscallStop signal = .ok s') :
    Carries pid signal s s' := by
  obtain ⟨msg, _, h⟩ := bind_eq_ok_iff.mp h
  split at h
  · exact .resume (Or.inl rfl) h
  split at h
  · exact .cloned h
  split at h
  · exact .execed h
  split at h
  · exact .secComped h
  · exact .proceed h

theorem stopped {status : BitVec 32} (h : s.stopped cfg os ptrace pid status = .ok s') :
    Carries pid (stopSignal status) s s' := by
  unfold Tracer.stopped at h
  simp only at h
  split at h
  · split at h
    · exact .evented h
    · exact .proceed h
  · cases h
    exact of_eq rfl

theorem terminated {exitCode : Int} (h : s.terminated cfg ptrace pid exitCode = .ok s') :
    Carries pid signal s s' := by
  obtain ⟨s₁, code, hvanish, rfl⟩ := terminated_ok h
  exact (Carries.vanishThread hvanish).trans (of_eq rfl)

end Carries

/-- A turn restarts nobody with a signal but the stopped tracee, and that one with the signal it was
stopped for. -/
theorem turn_signals {status : BitVec 32}
    (h : s.turn cfg os ptrace (.status pid status) = .ok s') {r : Resume} (hr : r ∈ s'.resumes) :
    r.signal = 0 ∨ wifstopped status = true ∧ r.pid = pid ∧ r.signal = stopSignal status := by
  unfold Tracer.turn at h
  simp only at h
  split at h
  · rename_i hstopped
    rcases Carries.stopped h r hr with hno | hzero | hsignal
    · cases hno
    · exact Or.inl hzero
    · exact Or.inr ⟨hstopped, hsignal⟩
  · -- the only restart after a death is the one of `vanishThread`
    have hcarries : Carries pid 0 s.begin s' := by
      split at h
      · split at h
        · obtain ⟨s₁, hdump, h⟩ := bind_eq_ok_iff.mp h
          exact (Carries.call hdump).trans (.terminated h)
        · exact .terminated h
      split at h
      · exact .terminated h
      · cases h
    rcases hcarries r hr with hno | hzero | ⟨_, hzero⟩
    · cases hno
    · exact Or.inl hzero
    · exact Or.inl hzero

end Tracer

/-! ## Tracees the tracer does not know -/

/-- A tracee without a syscall state has not run since it was made, and nobody told of it. -/
def Unheard (states : PidMap Int) (k : Kernel) : Prop :=
  ∀ tid task, k.tasks.lookup tid = some task → tid ∉ states →
    task.announced = false ∧ task.request = none

namespace Unheard

variable {states states' : PidMap Int} {k k' : Kernel} {pid : Pid} {task : Task}

theorem mem_of_running (h : Unheard states k) (htask : k.tasks.lookup pid = some task)
    (hrequest : task.request.isSome = true) : pid ∈ states := by
  by_contra hpid
  rw [(h pid task htask hpid).2] at hrequest
  cases hrequest

theorem resumes (h : Unheard states k) {resumed : Pid → Request → Prop}
    (hresumes : Kernel.Resumes resumed k k')
    (hmem : ∀ tid q, resumed tid q → tid ∈ states ∨ k.tasks.lookup tid = none) :
    Unheard states k' := by
  intro tid t ht htid
  obtain ⟨t₀, ht₀, rfl | ⟨q, hq, rfl⟩⟩ := hresumes.lookup ht
  · exact h tid t ht₀ htid
  · rcases hmem tid q hq with hin | hnone
    · exact absurd hin htid
    · rw [ht₀] at hnone
      cases hnone

theorem setTask (h : Unheard states k) {new : Task} (htask : k.tasks.lookup pid = some task)
    (hann : new.announced = task.announced) (hrequest : new.request = none) :
    Unheard states (k.setTask pid new) := by
  intro tid t ht htid
  rw [Kernel.setTask_lookup] at ht
  split at ht
  · rename_i heq
    cases ht
    rw [hann, (h pid task htask (heq ▸ htid)).1]
    exact ⟨rfl, hrequest⟩
  · exact h tid t ht htid

theorem mono (h : Unheard states k) (hsub : ∀ tid ∈ states, tid ∈ states') : Unheard states' k :=
  fun tid t ht htid => h tid t ht fun hin => htid (hsub tid hin)

theorem announce (h : Unheard states k) {child : Pid} (hchild : child ∈ states) :
    Unheard states (k.announce child) := by
  intro tid t ht htid
  unfold Kernel.announce at ht
  split at ht
  · exact h tid t ht htid
  · simp only [Kernel.setTask_lookup] at ht
    split at ht
    · rename_i heq
      exact absurd (heq ▸ hchild) htid
    · exact h tid t ht htid

end Unheard

namespace Traced

variable {Q : Type} [MaxOutFilesQueue Q] {arch : Arch} {cfg : TracerConfig} {s s' : Traced arch Q}
  {pid : Pid} {notice : Notice} {os : Os} {ptrace : Ptrace arch}

def Unheard (s : Traced arch Q) : Prop := Optrace.Unheard s.tracer.syscallStateMap s.kernel

theorem unheard_start (cfg : TracerConfig) (c : Context Q) :
    (start cfg c : Traced arch Q).Unheard := by
  intro tid task htask htid
  have hmem := Finmap.mem_of_lookup_eq_some htask
  simp only [start, Kernel.start, Finmap.mem_singleton] at hmem
  exact absurd ((Finmap.mem_singleton _ _ _).mpr hmem) htid

theorem unheard_born {creator child : Pid} {isThread : Bool} (hs : s.Unheard)
    (hpermit : s.Permitted cfg (.born creator child isThread))
    (h : s.step cfg (.born creator child isThread) = .ok s') : s'.Unheard := by
  cases h
  simp only [Permitted, Kernel.permits, Bool.and_eq_true, Option.any_eq_true] at hpermit
  obtain ⟨⟨⟨task, htask, ⟨hrequest, _⟩, _⟩, _⟩, _⟩ := hpermit
  have hcreator := Optrace.Unheard.mem_of_running hs htask hrequest
  intro tid t ht htid
  rcases Kernel.born_cases htask ht with ⟨_, _, hnone, _, hann⟩ | ⟨rfl, _⟩ | ⟨_, hold⟩
  · exact ⟨hann, hnone⟩
  · exact absurd hcreator htid
  · exact hs tid t hold htid

theorem unheard_plain (hs : s.Unheard) {task : Task} (htask : s.kernel.tasks.lookup pid = some task)
    (hturned : Tracer.Turned cfg os ptrace pid s.tracer s'.tracer notice)
    (hkernel : s'.kernel =
      s'.tracer.resumes.foldl Kernel.resume (s.kernel.noticed cfg pid ptrace notice))
    (hplain : Tracer.Plain notice) : s'.Unheard := by
  obtain ⟨c, states, calls, hafter, hkeys, _⟩ := hturned.plain hplain
  obtain ⟨hnoticed, _, hann, hrequest, _⟩ := noticed_plain cfg htask hplain
  have hset : Optrace.Unheard states (s.kernel.noticed cfg pid ptrace notice) := by
    rw [hnoticed]
    exact (Optrace.Unheard.setTask hs htask hann hrequest).mono fun tid => (hkeys tid).mpr
  unfold Unheard
  rw [hafter.states, hkernel]
  apply hset.resumes (hafter.resumes _)
  rintro tid _ ⟨rfl, hpid⟩
  exact Or.inl ((hkeys tid).mpr hpid)

theorem unheard_death (hs : s.Unheard) {task : Task}
    (htask : s.kernel.tasks.lookup pid = some task)
    (hturned : Tracer.Turned cfg os ptrace pid s.tracer s'.tracer notice)
    (hkernel : s'.kernel =
      s'.tracer.resumes.foldl Kernel.resume (s.kernel.noticed cfg pid ptrace notice))
    (hdeath : notice.isDeath = true) : s'.Unheard := by
  obtain ⟨c₁, c, dump, hafter, _⟩ := hturned.of_dead hdeath
  have herased : Optrace.Unheard (s.tracer.syscallStateMap.erase pid)
      { s.kernel with tasks := s.kernel.tasks.erase pid } := by
    intro tid t ht htid
    have ht : (s.kernel.tasks.erase pid).lookup tid = some t := ht
    rw [PidMap.lookup_erase] at ht
    split at ht
    · cases ht
    · rename_i hne
      exact hs tid t ht fun hin => htid (Finmap.mem_erase.mpr ⟨hne, hin⟩)
  unfold Unheard
  rw [hafter.states, hkernel, noticed_death htask hdeath]
  apply herased.resumes (hafter.resumes _)
  rintro tid _ rfl
  exact Or.inr (Finmap.lookup_erase tid _)

theorem unheard_cloned (hs : s.Unheard) {task : Task} {event : CloneEvent} {nr : Word}
    (htask : s.kernel.tasks.lookup pid = some task)
    (hallowed : Kernel.stopPermitted cfg task ptrace (.cloned event nr) = true)
    (hturned : Tracer.Turned cfg os ptrace pid s.tracer s'.tracer (.cloned event nr))
    (hkernel : s'.kernel = s'.tracer.resumes.foldl Kernel.resume
      (s.kernel.noticed cfg pid ptrace (.cloned event nr))) : s'.Unheard := by
  obtain ⟨hrequest, _, child, hchild, hmsg⟩ := Kernel.clone_permitted hallowed
  have hpid := Optrace.Unheard.mem_of_running hs htask hrequest
  have hset : Optrace.Unheard s.tracer.syscallStateMap
      (s.kernel.setTask pid (task.noticed cfg ptrace (.cloned event nr))) :=
    Optrace.Unheard.setTask hs htask rfl rfl
  unfold Unheard
  rcases step_cloned htask hpid hchild hmsg hturned hkernel with
    ⟨_, _, hstates, hresumes⟩ | ⟨_, _, hstates, hresumes⟩
  · rw [hstates]
    apply hset.resumes hresumes
    rintro tid _ ⟨rfl, _⟩
    exact Or.inl hpid
  · rw [hstates]
    have hsub : ∀ tid ∈ s.tracer.syscallStateMap,
        tid ∈ s.tracer.syscallStateMap.insert child SYSCALL_UNDEFINED :=
      fun tid hin => Finmap.mem_insert.mpr (Or.inr hin)
    apply ((hset.mono hsub).announce (Finmap.mem_insert.mpr (Or.inl rfl))).resumes hresumes
    rintro tid _ ⟨rfl | rfl, _⟩
    · exact Or.inl (Finmap.mem_insert.mpr (Or.inl rfl))
    · exact Or.inl (hsub _ hpid)

/-- The thread that exec'ed goes on under the pid of the leader, known or not as the leader was. -/
theorem unheard_execed (hs : s.Unheard) {leader : Task} {former : Pid} {nr : Word}
    (hleader : s.kernel.tasks.lookup pid = some leader)
    (hallowed : s.kernel.execPermitted cfg pid former nr ptrace = true)
    (hturned : Tracer.Turned cfg os ptrace pid s.tracer s'.tracer (.execed former nr))
    (hkernel : s'.kernel = s'.tracer.resumes.foldl Kernel.resume
      (s.kernel.noticed cfg pid ptrace (.execed former nr))) : s'.Unheard := by
  obtain ⟨thread, hthread, _⟩ := Kernel.exec_permitted hallowed
  obtain ⟨new, hnew, hlookup⟩ := Kernel.execed_lookup pid hthread nr ptrace.eventMsg.isGone
  have hexec : ∀ states : PidMap Int,
      (∀ tid, tid ∉ states → tid ∈ s.tracer.syscallStateMap → tid = former ∧ former ≠ pid) →
      Optrace.Unheard states (s.kernel.execed pid former nr ptrace.eventMsg.isGone) := by
    intro states hgone tid t ht htid
    rw [hlookup] at ht
    split at ht
    · rename_i heq
      cases ht
      have hpid : pid ∉ s.tracer.syscallStateMap := by
        intro hin
        obtain ⟨hformer, hne⟩ := hgone tid htid (heq ▸ hin)
        exact hne (hformer.symm.trans heq)
      refine ⟨?_, hnew.request⟩
      rw [hnew.announced, hleader]
      exact (hs pid leader hleader hpid).1
    · split at ht
      · cases ht
      · rename_i hformer
        exact hs tid t ht fun hin => hformer (hgone tid htid hin).1
  unfold Unheard
  rw [hkernel, noticed_execed hleader]
  by_cases hpid : pid ∈ s.tracer.syscallStateMap
  · rcases hturned.of_execed hpid with ⟨_, hafter⟩ | ⟨_, c, _, _, hafter⟩
    · rw [hafter.states]
      apply (hexec _ fun tid htid hin => absurd hin htid).resumes (hafter.resumes _)
      rintro tid _ ⟨rfl, _⟩
      exact Or.inl hpid
    · rw [hafter.states]
      refine (hexec _ fun tid htid hin => ?_).resumes (hafter.resumes _) ?_
      · split at htid
        · exact absurd hin htid
        · rename_i hne
          refine ⟨?_, hne⟩
          by_contra hother
          exact htid (Finmap.mem_erase.mpr ⟨hother, hin⟩)
      · rintro tid q (⟨rfl, hne⟩ | ⟨rfl, _⟩)
        · exact Or.inr (by rw [hlookup, if_neg hne, if_pos rfl])
        · apply Or.inl
          split
          · exact hpid
          · rename_i hne
            exact Finmap.mem_erase.mpr ⟨fun heq => hne heq.symm, hpid⟩
  · cases hturned with
    | unknown _ _ _ hafter =>
      rw [hafter.states]
      apply (hexec _ fun tid htid hin => absurd hin htid).resumes (hafter.resumes _)
      exact fun _ _ hno => hno.elim
    | dead _ hdeath => cases hdeath
    | execLost _ _ hin => exact absurd hin hpid
    | execed _ _ _ hin => exact absurd hin hpid
    | stopped _ hin => exact absurd hin hpid

/-- Every step keeps the tracees that the tracer does not know where they are. -/
theorem unheard_step {input : Input arch} (hs : s.Unheard) (hpermit : s.Permitted cfg input)
    (h : s.step cfg input = .ok s') : s'.Unheard := by
  cases input with
  | born creator child isThread => exact unheard_born hs hpermit h
  | notice pid notice os ptrace =>
    obtain ⟨hturned, hkernel⟩ := step_notice hpermit h
    obtain ⟨task, htask, hallowed⟩ := Kernel.permits_iff.mp hpermit
    cases notice with
    | signalStop sig => exact unheard_plain hs htask hturned hkernel trivial
    | syscallStop => exact unheard_plain hs htask hturned hkernel trivial
    | exiting => exact unheard_plain hs htask hturned hkernel trivial
    | secComp => exact unheard_plain hs htask hturned hkernel trivial
    | exited code => exact unheard_death hs htask hturned hkernel rfl
    | killed sig core => exact unheard_death hs htask hturned hkernel rfl
    | cloned event nr =>
      simp only [Kernel.permitsTask, Bool.and_eq_true] at hallowed
      exact unheard_cloned hs htask hallowed.2 hturned hkernel
    | execed former nr => exact unheard_execed hs htask hallowed hturned hkernel

end Traced

/-! ## Delivery -/

/-- A restart from such a stop gives the tracee its signal. At an event it is ignored. -/
def Notice.takesSignal : Notice → Bool
  | signalStop _ => true
  | syscallStop => true
  | _ => false

/-- The tracees that get the signal they are restarted with, and the signals given so far. -/
structure Delivery where
  listening : Finset Pid
  given : List (Pid × Int)

namespace Delivery

/-- A tracee has reported; the thread that called exec has taken the pid of its leader. -/
def noticed (d : Delivery) (pid : Pid) : Notice → Delivery
  | .execed former _ => { d with listening := (d.listening.erase former).erase pid }
  | notice =>
    { d with listening :=
        if notice.takesSignal then insert pid d.listening else d.listening.erase pid }

def resume (d : Delivery) (r : Resume) : Delivery :=
  if r.pid ∈ d.listening then
    { listening := d.listening.erase r.pid
      given := if r.signal = 0 then d.given else d.given ++ [(r.pid, r.signal)] }
  else d

theorem noticed_given (d : Delivery) (pid : Pid) (notice : Notice) :
    (d.noticed pid notice).given = d.given := by
  cases notice <;> rfl

theorem noticed_event (d : Delivery) (pid : Pid) {notice : Notice}
    (h : notice.takesSignal = false) : pid ∉ (d.noticed pid notice).listening := by
  cases notice with
  | signalStop sig => cases h
  | syscallStop => cases h
  | _ => exact Finset.notMem_erase _ _

theorem resume_given {d : Delivery} {r : Resume} (h : r.signal = 0 ∨ r.pid ∉ d.listening) :
    (d.resume r).given = d.given := by
  unfold resume
  split
  · rename_i hin
    exact if_pos (h.resolve_right (not_not.mpr hin))
  · rfl

theorem resume_listening (d : Delivery) (r : Resume) : (d.resume r).listening ⊆ d.listening := by
  unfold resume
  split
  · exact Finset.erase_subset _ _
  · exact Finset.Subset.refl _

theorem foldl_given {rs : List Resume} {d : Delivery}
    (h : ∀ r ∈ rs, r.signal = 0 ∨ r.pid ∉ d.listening) : (rs.foldl resume d).given = d.given := by
  induction rs generalizing d with
  | nil => rfl
  | cons r rs ih =>
    have hrest : ∀ r' ∈ rs, r'.signal = 0 ∨ r'.pid ∉ (d.resume r).listening :=
      fun r' hr' => (h r' (List.mem_cons_of_mem r hr')).imp_right
        fun hno hin => hno (d.resume_listening r hin)
    rw [List.foldl_cons, ih hrest, resume_given (h r List.mem_cons_self)]

end Delivery

/-- The whole system with the signals. -/
structure Signalled (arch : Arch) (Q : Type) where
  traced : Traced arch Q
  delivery : Delivery

/-- A stop before the delivery of a signal: whether the tracer knows the tracee, whether it is the
first stop of a tracee nobody told of yet, and whether the tracee refuses the restart. -/
structure SignalStop where
  pid : Pid
  sig : BitVec 8
  heard : Bool
  first : Bool
  gone : Bool

def SignalStop.passed (stop : SignalStop) : Bool := stop.heard && !stop.gone && stop.sig != 0

/-- The signals of the stops that are passed on. -/
def passedOn (stops : List SignalStop) : List (Pid × Int) :=
  (stops.filter SignalStop.passed).map fun stop => (stop.pid, (stop.sig.toNat : Int))

namespace Signalled

variable {Q : Type} [MaxOutFilesQueue Q] {arch : Arch}

def start (cfg : TracerConfig) (c : Context Q) : Signalled arch Q := ⟨.start cfg c, ⟨∅, []⟩⟩

def step (cfg : TracerConfig) (s : Signalled arch Q) :
    Input arch → Except Stop (Signalled arch Q)
  | .born creator child isThread => do
    return { s with traced := ← s.traced.step cfg (.born creator child isThread) }
  | .notice pid notice os ptrace => do
    let traced ← s.traced.step cfg (.notice pid notice os ptrace)
    return ⟨traced, traced.tracer.resumes.foldl Delivery.resume (s.delivery.noticed pid notice)⟩

def Permitted (cfg : TracerConfig) (s : Signalled arch Q) (input : Input arch) : Prop :=
  s.traced.Permitted cfg input

instance (cfg : TracerConfig) (s : Signalled arch Q) (input : Input arch) :
    Decidable (s.Permitted cfg input) :=
  inferInstanceAs (Decidable (s.traced.Permitted cfg input))

/-- The stop of a step, if it is one before a signal. -/
def signalStop (s : Signalled arch Q) : Input arch → List SignalStop
  | .notice pid (.signalStop sig) _ ptrace =>
    [{ pid := pid
       sig := sig
       heard := decide (pid ∈ s.traced.tracer.syscallStateMap)
       first := (s.traced.kernel.tasks.lookup pid).any fun task => task.fresh && !task.announced
       gone := (ptrace.resume pid).isGone }]
  | _ => []

/-- Those of a run, up to the step that stops it. -/
def signalStops (cfg : TracerConfig) : Signalled arch Q → List (Input arch) → List SignalStop
  | _, [] => []
  | s, input :: inputs => s.signalStop input ++
    match s.step cfg input with
    | .ok s' => signalStops cfg s' inputs
    | .error _ => []

variable {cfg : TracerConfig} {s s' : Signalled arch Q}

theorem traced_of_step {input : Input arch} (h : s.step cfg input = .ok s') :
    s.traced.step cfg input = .ok s'.traced := by
  cases input with
  | born creator child isThread =>
    obtain ⟨traced, htraced, h⟩ := bind_eq_ok_iff.mp h
    cases h
    exact htraced
  | notice pid notice os ptrace =>
    obtain ⟨traced, htraced, h⟩ := bind_eq_ok_iff.mp h
    cases h
    exact htraced

theorem passedOn_append (stops stops' : List SignalStop) :
    passedOn (stops ++ stops') = passedOn stops ++ passedOn stops' := by
  simp [passedOn]

theorem passedOn_singleton (stop : SignalStop) :
    passedOn [stop] = if stop.passed then [(stop.pid, (stop.sig.toNat : Int))] else [] := by
  cases h : stop.passed with
  | true => simp [passedOn, h]
  | false => simp [passedOn, h]

/-- A notice that is no stop before a signal gives nobody a signal. -/
theorem given_other {pid : Pid} {notice : Notice} {os : Os} {ptrace : Ptrace arch}
    (hother : ∀ sig, notice ≠ .signalStop sig)
    (h : s.step cfg (.notice pid notice os ptrace) = .ok s') :
    s'.delivery.given = s.delivery.given := by
  obtain ⟨traced, htraced, h⟩ := bind_eq_ok_iff.mp h
  obtain ⟨tracer, hturn, htraced⟩ := bind_eq_ok_iff.mp htraced
  cases htraced
  cases h
  refine Eq.trans (Delivery.foldl_given fun r hr => ?_) (s.delivery.noticed_given pid notice)
  rcases Tracer.turn_signals hturn hr with hzero | ⟨_, hpid, hsignal⟩
  · exact Or.inl hzero
  · cases htakes : notice.takesSignal with
    | false =>
      rw [hpid]
      exact Or.inr (s.delivery.noticed_event pid htakes)
    | true =>
      -- a syscall stop, which is left with no signal
      cases notice with
      | signalStop sig => exact absurd rfl (hother sig)
      | syscallStop => exact Or.inl (hsignal.trans (by decide))
      | _ => cases htakes

theorem wstopsig_signalStop (sig : BitVec 8) :
    (wstopsig (Notice.signalStop sig).status).toNat = sig.toNat := by
  revert sig
  decide +kernel

/-- A tracee the tracer knows is given the signal it was stopped for, once, unless it refuses. -/
theorem given_signal {pid : Pid} {sig : BitVec 8} {os : Os} {ptrace : Ptrace arch}
    (hsig : sig ≠ 0x85) (h : s.step cfg (.notice pid (.signalStop sig) os ptrace) = .ok s') :
    s'.delivery.given =
      s.delivery.given ++ passedOn (s.signalStop (.notice pid (.signalStop sig) os ptrace)) := by
  obtain ⟨traced, htraced, h⟩ := bind_eq_ok_iff.mp h
  obtain ⟨tracer, hturn, htraced⟩ := bind_eq_ok_iff.mp htraced
  cases htraced
  cases h
  let i : Heard arch := ⟨os, ptrace, .status pid (Notice.signalStop sig).status⟩
  have hhear : s.traced.tracer.hear cfg i = .ok tracer := hturn
  rw [signalStop, passedOn_singleton, SignalStop.passed]
  by_cases hpid : pid ∈ s.traced.tracer.syscallStateMap
  · have hknown := @Tracer.hear_stop_known Q _ arch cfg s.traced.tracer pid i sig rfl hsig hpid
    rw [hhear, wstopsig_signalStop] at hknown
    have hresumes : tracer.resumes =
        resumption ptrace pid (Tracer.request cfg false) (sig.toNat : Int) := by
      rw [Tracer.resume_inv hknown.symm]
      rfl
    cases hresume : ptrace.resume pid with
    | failed =>
      have hfailed : i.ptrace.resume pid = .failed := hresume
      simp [Tracer.resume, hfailed, ptraceSafeCall, bind, Except.bind] at hknown
    | gone =>
      have hnone : tracer.resumes = [] := by rw [hresumes, resumption, hresume]
      simp [hnone, Delivery.noticed, Reply.isGone]
    | ok u =>
      have hone : tracer.resumes = [⟨pid, Tracer.request cfg false, sig.toNat⟩] := by
        rw [hresumes, resumption, hresume]
      by_cases hzero : sig = 0
      · simp [hone, Delivery.noticed, Delivery.resume, Notice.takesSignal, hzero]
      · have hne : sig.toNat ≠ 0 := fun hno => hzero (BitVec.eq_of_toNat_eq hno)
        simpa [hone, Delivery.noticed, Delivery.resume, Notice.takesSignal, Reply.isGone, hpid, hne]
          using hzero
  · have hunknown := @Tracer.hear_stop_unknown Q _ arch cfg s.traced.tracer pid i sig rfl hsig hpid
    rw [hhear] at hunknown
    cases hunknown
    simp [Tracer.suspend, Tracer.begin, Delivery.noticed, hpid]

theorem given_step {input : Input arch} (hpermit : s.Permitted cfg input)
    (h : s.step cfg input = .ok s') :
    s'.delivery.given = s.delivery.given ++ passedOn (s.signalStop input) := by
  cases input with
  | born creator child isThread =>
    obtain ⟨traced, _, h⟩ := bind_eq_ok_iff.mp h
    cases h
    exact (List.append_nil _).symm
  | notice pid notice os ptrace =>
    cases notice with
    | signalStop sig => exact given_signal (Kernel.permits_fits hpermit) h
    | _ => exact (given_other (by simp) h).trans (List.append_nil _).symm

/-- The tracer knows every tracee that is stopped before a signal, but one nobody told of yet at its
first stop. -/
theorem first_of_unheard {input : Input arch} (hs : s.traced.Unheard)
    (hpermit : s.Permitted cfg input) {stop : SignalStop} (hstop : stop ∈ s.signalStop input)
    (hheard : stop.heard = false) : stop.first = true := by
  cases input with
  | born creator child isThread => cases hstop
  | notice pid notice os ptrace =>
    cases notice with
    | signalStop sig =>
      rw [signalStop, List.mem_singleton] at hstop
      subst hstop
      obtain ⟨task, htask, hallowed⟩ := Kernel.permits_iff.mp hpermit
      obtain ⟨hann, hrequest⟩ := hs pid task htask (of_decide_eq_false hheard)
      simp only [Kernel.permitsTask, Kernel.stopPermitted, hrequest, Option.isSome_none,
        Bool.or_false, Bool.and_eq_true] at hallowed
      obtain ⟨_, ⟨⟨hfresh, _⟩, _⟩, _⟩ := hallowed
      simp [htask, hfresh, hann]
    | _ => cases hstop

theorem signalStops_cons {input : Input arch} (inputs : List (Input arch))
    (h : s.step cfg input = .ok s') : signalStops cfg s (input :: inputs) =
      s.signalStop input ++ signalStops cfg s' inputs := by
  rw [signalStops, h]

theorem given_run {inputs : List (Input arch)} (hs : s.traced.Unheard)
    (hpermitted : Runs.Along (step cfg) (Permitted cfg) s inputs)
    (hrun : Runs.run (step cfg) s inputs = .ok s') :
    s'.delivery.given = s.delivery.given ++ passedOn (signalStops cfg s inputs) ∧
      ∀ stop ∈ signalStops cfg s inputs, stop.heard = false → stop.first = true := by
  induction inputs generalizing s with
  | nil =>
    cases hrun
    exact ⟨(List.append_nil _).symm, fun _ hno => by cases hno⟩
  | cons input inputs ih =>
    obtain ⟨s₁, hstep, hrest⟩ := Runs.run_cons_ok_iff.mp hrun
    have hs₁ := Traced.unheard_step hs hpermitted.1 (traced_of_step hstep)
    obtain ⟨hgiven, hfirst⟩ := ih hs₁ (hpermitted.2 s₁ hstep) hrest
    rw [signalStops_cons inputs hstep]
    constructor
    · rw [hgiven, given_step hpermitted.1 hstep, passedOn_append, List.append_assoc]
    · intro stop hstop
      rcases List.mem_append.mp hstop with hnow | hlater
      · exact first_of_unheard hs hpermitted.1 hnow
      · exact hfirst stop hlater

/-- In a run of the whole system the tracees are given the signals they were stopped for, each once
and in the order of the stops, and nothing else: not the `SIGTRAP` of an event, and none at a syscall
stop. Left out are the stops of a tracee that refuses the restart, and the first stop of a tracee
that comes before its creator's event. -/
theorem signals_passed_on {c : Context Q} {inputs : List (Input arch)}
    (hpermitted : Runs.Along (step cfg) (Permitted cfg) (start cfg c) inputs)
    (hrun : Runs.run (step cfg) (start cfg c) inputs = .ok s) :
    s.delivery.given = passedOn (signalStops cfg (start cfg c) inputs) ∧
      ∀ stop ∈ signalStops cfg (start cfg c) inputs, stop.heard = false → stop.first = true := by
  have hgiven := given_run (s := start cfg c) (Traced.unheard_start cfg c) hpermitted hrun
  rwa [show (start cfg c : Signalled arch Q).delivery.given = [] from rfl, List.nil_append] at hgiven

/-- A new process stops before its creator's event; later both are sent a signal. -/
def signalsAfterFork : List (Input .x86_64) :=
  [entryOf 1 57, .born 1 2 false,
    .notice 2 (.signalStop SIGSTOP) (plainOs 0) (plainPtrace 0 0 (entryRegs 0)),
    .notice 1 (.cloned .fork 57) (plainOs 0) (plainPtrace 2 0 (entryRegs 0)),
    entryOf 1 57,
    .notice 2 (.signalStop 10) (plainOs 0) (plainPtrace 0 0 (entryRegs 0)),
    .notice 1 (.signalStop 2) (plainOs 0) (plainPtrace 0 0 (entryRegs 0))]

open FileStorage in
theorem signals_passed_on_fork :
    ∃ (c₀ : Context FileQueue) (s : Signalled .x86_64 FileQueue),
      (Context.new plainOptions).registerTracee (plainOs 0) 1 = .ok c₀ ∧
      Runs.run (step plainConfig) (start plainConfig c₀) signalsAfterFork = .ok s ∧
      s.delivery.given = passedOn (signalStops plainConfig (start plainConfig c₀) signalsAfterFork) ∧
      s.delivery.given = [(2, 10), (1, 2)] := by
  refine ⟨_, _, rfl, rfl, ?_, by decide⟩
  refine (@signals_passed_on FileQueue _ .x86_64 plainConfig _ _ signalsAfterFork ?_ rfl).1
  decide

end Signalled

end Optrace
