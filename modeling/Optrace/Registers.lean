import Optrace.Arrivals

/-!
# The registers of the tracees

Which registers the loop writes, and what a thread's registers hold when a call returns, in a run
where user code, the kernel and the tracer take turns.
-/

namespace Optrace

set_option autoImplicit false
set_option linter.unusedSectionVars false

open Except

/-! ## What a turn writes -/

namespace Tracer

variable {Q : Type} [MaxOutFilesQueue Q] {arch : Arch} {cfg : TracerConfig} {os : Os}
  {ptrace : Ptrace arch} {s s' s₁ : Tracer arch Q} {pid : Pid}

/-- What was written is the tracee's own registers with the first argument saved among them. -/
def Writes (ptrace : Ptrace arch) (pid : Pid) (s s' : Tracer arch Q) : Prop :=
  ∀ store ∈ s'.stores, store ∈ s.stores ∨ store.pid = pid ∧
    ∃ registers, ptrace.regs = .ok registers ∧ entrySaved arch registers = some store.registers

namespace Writes

theorem of_eq (h : s'.stores = s.stores) : Writes ptrace pid s s' :=
  fun _ hstore => Or.inl (h ▸ hstore)

theorem trans (h : Writes ptrace pid s s₁) (h' : Writes ptrace pid s₁ s') :
    Writes ptrace pid s s' := by
  intro store hstore
  rcases h' store hstore with hold | hnew
  · exact h store hold
  · exact Or.inr hnew

theorem resume {tid : Pid} {q : Request} {signal : Int}
    (h : s.resume ptrace tid q signal = .ok s') : Writes ptrace pid s s' := by
  rw [resume_inv h]
  exact of_eq rfl

theorem call {call : Call arch} (h : s.call call = .ok s') : Writes ptrace pid s s' := by
  obtain ⟨c, _, rfl⟩ := call_ok h
  exact of_eq rfl

theorem vanishThread {tid : Pid} {notify : Bool}
    (h : s.vanishThread ptrace tid notify = .ok s') : Writes ptrace pid s s' := by
  obtain ⟨_, c, _, rs, rfl, _⟩ := vanishThread_ok h
  exact of_eq rfl

theorem restart {tid : Pid} {syscallStop : Bool} {signal : Int}
    (h : s.restart cfg ptrace tid syscallStop signal = .ok s') : Writes ptrace pid s s' := by
  obtain ⟨rs, rfl, _⟩ := restart_ok h
  exact of_eq rfl

theorem syscallStopped {registers : UserRegs arch} (hregs : ptrace.regs = .ok registers)
    (h : s.syscallStopped os ptrace pid registers = .ok s') : Writes ptrace pid s s' := by
  unfold Tracer.syscallStopped at h
  split at h
  · cases h
  · split at h
    · obtain ⟨_, stores, rfl, hstores⟩ := syscallEntered_ok h
      intro store hstore
      rcases List.mem_append.mp hstore with hold | hnew
      · exact Or.inl hold
      · obtain ⟨hpid, hsaved⟩ := hstores store hnew
        exact Or.inr ⟨hpid, registers, hregs, hsaved⟩
    · have hreset : Writes ptrace pid s (s.setSyscallState pid SYSCALL_UNDEFINED) := of_eq rfl
      exact hreset.trans (.call h)

theorem proceed {syscallStop : Bool} {signal : Int}
    (h : s.proceed cfg os ptrace pid syscallStop signal = .ok s') : Writes ptrace pid s s' := by
  unfold Tracer.proceed at h
  split at h
  · obtain ⟨reply, hreply, h⟩ := bind_eq_ok_iff.mp h
    cases hregs : ptrace.regs with
    | ok registers =>
      rw [hregs] at hreply
      cases hreply
      obtain ⟨s₁, hstopped, hrestart⟩ := bind_eq_ok_iff.mp h
      exact (syscallStopped hregs hstopped).trans (.restart hrestart)
    | gone =>
      rw [hregs] at hreply
      cases hreply
      exact .resume h
    | failed =>
      rw [hregs] at hreply
      cases hreply
  · exact .restart h

theorem registerChild {child : Pid} {isThread : Bool}
    (h : s.registerChild cfg os ptrace pid child isThread = .ok s') : Writes ptrace pid s s' := by
  obtain ⟨c, _, rfl⟩ := registerChild_inv h
  exact of_eq rfl

theorem cloned {event : BitVec 32} {msg : Word} {signal : Int}
    (h : s.cloned cfg os ptrace pid event msg signal = .ok s') : Writes ptrace pid s s' := by
  have hflags : ∀ flags : Word,
      (if flags.toInt < 0 then s.resume ptrace pid .syscall 0
      else s.registerChild cfg os ptrace pid (asInt msg) (hasFlag flags CLONE_THREAD) >>=
        fun s₁ => s₁.proceed cfg os ptrace pid false signal) = .ok s' → Writes ptrace pid s s' := by
    intro flags h
    split at h
    · exact .resume h
    · obtain ⟨s₁, hchild, h⟩ := bind_eq_ok_iff.mp h
      exact (registerChild hchild).trans (.proceed h)
  unfold Tracer.cloned at h
  simp only at h
  split at h
  · obtain ⟨flags, _, h⟩ := bind_eq_ok_iff.mp h
    exact hflags flags h
  · exact hflags 0 h

theorem execed {msg : Word} {signal : Int}
    (h : s.execed cfg os ptrace pid msg signal = .ok s') : Writes ptrace pid s s' := by
  rw [execed_eq] at h
  obtain ⟨s₁, hcall, h⟩ := bind_eq_ok_iff.mp h
  obtain ⟨s₂, hvanish, h⟩ := bind_eq_ok_iff.mp h
  refine Writes.trans (.call hcall) (Writes.trans ?_ (.proceed h))
  split at hvanish
  · exact .vanishThread hvanish
  · cases hvanish
    exact of_eq rfl

theorem secComped {signal : Int} (h : s.secComped cfg os ptrace pid signal = .ok s') :
    Writes ptrace pid s s' := by
  unfold Tracer.secComped at h
  split at h
  · exact .resume h
  · have hreset : Writes ptrace pid s (s.setSyscallState pid SYSCALL_UNDEFINED) := of_eq rfl
    exact hreset.trans (.proceed h)

theorem evented {event : BitVec 32} {syscallStop : Bool} {signal : Int}
    (h : s.evented cfg os ptrace pid event syscallStop signal = .ok s') :
    Writes ptrace pid s s' := by
  obtain ⟨msg, _, h⟩ := bind_eq_ok_iff.mp h
  split at h
  · exact .resume h
  split at h
  · exact .cloned h
  split at h
  · exact .execed h
  split at h
  · exact .secComped h
  · exact .proceed h

theorem stopped {status : BitVec 32} (h : s.stopped cfg os ptrace pid status = .ok s') :
    Writes ptrace pid s s' := by
  unfold Tracer.stopped at h
  simp only at h
  split at h
  · split at h
    · exact .evented h
    · exact .proceed h
  · cases h
    exact of_eq rfl

theorem terminated {exitCode : Int} (h : s.terminated cfg ptrace pid exitCode = .ok s') :
    Writes ptrace pid s s' := by
  obtain ⟨s₁, code, hvanish, rfl⟩ := terminated_ok h
  exact (Writes.vanishThread hvanish).trans (of_eq rfl)

end Writes

/-- The registers a turn may see: those of the tracee it is about. -/
def shownOf (wait : Wait) (ptrace : Ptrace arch) (pid : Pid) : Option (UserRegs arch) :=
  match wait, ptrace.regs with
  | .status tid _, .ok registers => if tid = pid then some registers else none
  | _, _ => none

/-- A turn writes to that tracee only, and only its saved argument. -/
theorem turn_stores {wait : Wait} (h : s.turn cfg os ptrace wait = .ok s') {store : Store arch}
    (hstore : store ∈ s'.stores) : ∃ shown, shownOf wait ptrace store.pid = some shown ∧
      entrySaved arch shown = some store.registers := by
  have hwrites : ∃ pid status, wait = .status pid status ∧ Writes ptrace pid s.begin s' := by
    unfold Tracer.turn at h
    cases wait with
    | interrupted =>
      cases h
      cases hstore
    | noChild => cases h
    | failed => cases h
    | status pid status =>
      refine ⟨pid, status, rfl, ?_⟩
      simp only at h
      split at h
      · exact .stopped h
      split at h
      · split at h
        · obtain ⟨s₁, hdump, h⟩ := bind_eq_ok_iff.mp h
          exact (Writes.call hdump).trans (.terminated h)
        · exact .terminated h
      split at h
      · exact .terminated h
      · cases h
  obtain ⟨pid, status, rfl, hwrites⟩ := hwrites
  rcases hwrites store hstore with hno | ⟨rfl, registers, hregs, hsaved⟩
  · cases hno
  · exact ⟨registers, by simp only [shownOf, hregs, if_true], hsaved⟩

end Tracer

/-! ## Register files -/

/-- The names of `regs.h`. -/
inductive X86Reg where
  | r15
  | r14
  | r13
  | r12
  | rbp
  | rbx
  | r11
  | r10
  | r9
  | r8
  | rax
  | rcx
  | rdx
  | rsi
  | rdi
  | orig_rax
  | rip
  | cs
  | eflags
  | rsp
  | ss
  | fs_base
  | gs_base
  | ds
  | es
  | fs
  | gs
  deriving DecidableEq

inductive Aarch64Reg where
  | x (i : Fin 31)
  | sp
  | pc
  | pstate
  deriving DecidableEq

def X86Regs.get (r : X86Regs) : X86Reg → Word
  | .r15 => r.r15
  | .r14 => r.r14
  | .r13 => r.r13
  | .r12 => r.r12
  | .rbp => r.rbp
  | .rbx => r.rbx
  | .r11 => r.r11
  | .r10 => r.r10
  | .r9 => r.r9
  | .r8 => r.r8
  | .rax => r.rax
  | .rcx => r.rcx
  | .rdx => r.rdx
  | .rsi => r.rsi
  | .rdi => r.rdi
  | .orig_rax => r.orig_rax
  | .rip => r.rip
  | .cs => r.cs
  | .eflags => r.eflags
  | .rsp => r.rsp
  | .ss => r.ss
  | .fs_base => r.fs_base
  | .gs_base => r.gs_base
  | .ds => r.ds
  | .es => r.es
  | .fs => r.fs
  | .gs => r.gs

def Aarch64Regs.get (r : Aarch64Regs) : Aarch64Reg → Word
  | .x i => r.regs i
  | .sp => r.sp
  | .pc => r.pc
  | .pstate => r.pstate

def Reg : Arch → Type
  | .x86_64 => X86Reg
  | .aarch64 => Aarch64Reg

instance reg_decidableEq (arch : Arch) : DecidableEq (Reg arch) :=
  match arch with
  | .x86_64 => inferInstanceAs (DecidableEq X86Reg)
  | .aarch64 => inferInstanceAs (DecidableEq Aarch64Reg)

/-- The registers of a thread. -/
abbrev RegFile (arch : Arch) := Reg arch → Word

def UserRegs.get : {arch : Arch} → UserRegs arch → RegFile arch
  | .x86_64, r => X86Regs.get r
  | .aarch64, r => Aarch64Regs.get r

def Aarch64Reg.savesArg0 (name : Aarch64Reg) : Bool := name = .x 9

/-- The register the first argument is saved in. -/
def savesArg0 : (arch : Arch) → Reg arch → Bool
  | .x86_64, _ => false
  | .aarch64, name => Aarch64Reg.savesArg0 name

theorem entrySaved_get {arch : Arch} {registers saved : UserRegs arch}
    (h : Tracer.entrySaved arch registers = some saved) (name : Reg arch) :
    saved.get name =
      if savesArg0 arch name then firstArgument arch registers else registers.get name := by
  cases arch with
  | x86_64 => cases h
  | aarch64 =>
    cases h
    cases name with
    | x i =>
      by_cases hi : i = 9
      · subst hi
        rfl
      · have hname : savesArg0 .aarch64 (.x i) = false :=
          decide_eq_false fun heq => hi (Aarch64Reg.x.inj heq)
        rw [hname]
        exact Function.update_of_ne hi _ _
    | sp => rfl
    | pc => rfl
    | pstate => rfl

/-! ## Threads, kernel and tracer -/

/-- A call a thread is in: its registers at the entry, those the kernel has changed since, and what
the stops of the call showed. -/
structure InCall (arch : Arch) where
  entry : RegFile arch
  changed : Reg arch → Bool
  shown : List (UserRegs arch)

/-- The kernel may hold registers back while a thread is stopped: it shows something else in them,
and takes nothing from there. -/
inductive Event (arch : Arch) where
  | runs (pid : Pid) (registers : RegFile arch)
  | enters (pid : Pid)
  | changes (pid : Pid) (name : Reg arch) (word : Word)
  | returns (pid : Pid)
  | stops (wait : Wait) (os : Os) (ptrace : Ptrace arch) (held : Reg arch → Bool)

structure Machine (arch : Arch) (Q : Type) where
  tracer : Tracer arch Q
  registers : Pid → RegFile arch
  inCall : Pid → Option (InCall arch)

/-- What the thread and the kernel do to the registers themselves. -/
def Event.own {arch : Arch} (registers : Pid → RegFile arch) : Event arch → Pid → RegFile arch
  | .runs pid values => Function.update registers pid values
  | .changes pid name word =>
    Function.update registers pid (Function.update (registers pid) name word)
  | _ => registers

/-- The registers without a tracer. -/
def untraced {arch : Arch} (registers : Pid → RegFile arch) (events : List (Event arch)) :
    Pid → RegFile arch :=
  events.foldl Event.own registers

/-- `PTRACE_SETREGSET`. -/
def writeRegs {arch : Arch} (held : Reg arch → Bool) (registers : Pid → RegFile arch)
    (store : Store arch) : Pid → RegFile arch :=
  Function.update registers store.pid fun name =>
    if held name then registers store.pid name else store.registers.get name

namespace Machine

variable {Q : Type} [MaxOutFilesQueue Q] {arch : Arch}

/-- The calls after an event. -/
def callsAfter (s : Machine arch Q) : Event arch → Pid → Option (InCall arch)
  | .runs _ _ => s.inCall
  | .enters pid => Function.update s.inCall pid (some ⟨s.registers pid, fun _ => false, []⟩)
  | .changes pid name _ => Function.update s.inCall pid ((s.inCall pid).map fun call =>
      { call with changed := Function.update call.changed name true })
  | .returns pid => Function.update s.inCall pid none
  | .stops wait _ ptrace _ => fun pid => (s.inCall pid).map fun call =>
      { call with shown := (Tracer.shownOf wait ptrace pid).toList ++ call.shown }

def step (cfg : TracerConfig) (s : Machine arch Q) (event : Event arch) :
    Except Stop (Machine arch Q) :=
  match event with
  | .stops wait os ptrace held =>
    match s.tracer.turn cfg os ptrace wait with
    | .ok tracer =>
      .ok ⟨tracer, tracer.stores.foldl (writeRegs held) s.registers, s.callsAfter event⟩
    | .error stop => .error stop
  | _ => .ok ⟨s.tracer, event.own s.registers, s.callsAfter event⟩

/-- User code runs outside of calls, the kernel changes registers in them, and a stop shows the
registers of the thread that stopped. -/
def Allowed (s : Machine arch Q) : Event arch → Prop
  | .runs pid _ => s.inCall pid = none
  | .enters pid => s.inCall pid = none
  | .changes pid _ _ => s.inCall pid ≠ none
  | .returns pid => s.inCall pid ≠ none
  | .stops wait _ ptrace held => ∀ pid shown, Tracer.shownOf wait ptrace pid = some shown →
      ∀ name, held name = false → shown.get name = s.registers pid name

/-- The calls in progress left their threads' registers as they were, but for the kernel's changes. -/
def AsEntered (s : Machine arch Q) : Prop :=
  ∀ pid call, s.inCall pid = some call → ∀ name, call.changed name = false →
    s.registers pid name = call.entry name

end Machine

/-- The registers in a call are those at its entry, but for the kernel's changes and for the one that
first arguments are saved in: that one may hold the first argument a stop of the call showed. -/
def InCall.Keeps {arch : Arch} (call : InCall arch) (registers : RegFile arch) : Prop :=
  ∀ name, call.changed name = false →
    (savesArg0 arch name = false → registers name = call.entry name) ∧
      (savesArg0 arch name = true → registers name = call.entry name ∨
        ∃ shown ∈ call.shown, registers name = firstArgument arch shown)

namespace Machine

variable {Q : Type} [MaxOutFilesQueue Q] {arch : Arch} {cfg : TracerConfig} {s s' : Machine arch Q}

/-- One store changes one register at most, and that one to the first argument shown. -/
theorem writeRegs_spec {store : Store arch} {shown : UserRegs arch} {held : Reg arch → Bool}
    {registers : Pid → RegFile arch} (hsaved : Tracer.entrySaved arch shown = some store.registers)
    (hshown : ∀ name, held name = false → savesArg0 arch name = false →
      shown.get name = registers store.pid name) (tid : Pid) (name : Reg arch) :
    writeRegs held registers store tid name = registers tid name ∨
      savesArg0 arch name = true ∧ tid = store.pid ∧
        writeRegs held registers store tid name = firstArgument arch shown := by
  unfold writeRegs
  by_cases htid : tid = store.pid
  · subst htid
    rw [Function.update_self]
    split
    · exact Or.inl rfl
    · rename_i hheld
      rw [Bool.not_eq_true] at hheld
      rw [entrySaved_get hsaved]
      split
      · rename_i hname
        exact Or.inr ⟨hname, rfl, rfl⟩
      · rename_i hname
        rw [Bool.not_eq_true] at hname
        exact Or.inl (hshown name hheld hname)
  · rw [Function.update_of_ne htid]
    exact Or.inl rfl

/-- And so does what a turn writes. -/
theorem foldl_writeRegs {wait : Wait} {ptrace : Ptrace arch} {held : Reg arch → Bool}
    {stores : List (Store arch)} {registers : Pid → RegFile arch}
    (hstores : ∀ store ∈ stores, ∃ shown, Tracer.shownOf wait ptrace store.pid = some shown ∧
      Tracer.entrySaved arch shown = some store.registers)
    (hshown : ∀ pid shown, Tracer.shownOf wait ptrace pid = some shown → ∀ name,
      held name = false → savesArg0 arch name = false → shown.get name = registers pid name)
    (pid : Pid) (name : Reg arch) :
    stores.foldl (writeRegs held) registers pid name = registers pid name ∨
      savesArg0 arch name = true ∧ ∃ shown, Tracer.shownOf wait ptrace pid = some shown ∧
        stores.foldl (writeRegs held) registers pid name = firstArgument arch shown := by
  induction stores generalizing registers with
  | nil => exact Or.inl rfl
  | cons store stores ih =>
    obtain ⟨shown, hwait, hsaved⟩ := hstores store List.mem_cons_self
    have hfirst := writeRegs_spec hsaved (hshown store.pid shown hwait)
    -- The register a store may change is not among those the next one is checked for.
    have hstill : ∀ tid shown, Tracer.shownOf wait ptrace tid = some shown → ∀ name,
        held name = false → savesArg0 arch name = false →
          shown.get name = writeRegs held registers store tid name := by
      intro tid shown' hwait' name hheld hname
      rcases hfirst tid name with hsame | ⟨hno, _⟩
      · rw [hsame]
        exact hshown tid shown' hwait' name hheld hname
      · rw [hname] at hno
        cases hno
    rw [List.foldl_cons]
    rcases ih (fun store hstore => hstores store (List.mem_cons_of_mem _ hstore)) hstill with
      hsame | hnew
    · rw [hsame]
      rcases hfirst pid name with hsame' | ⟨hname, rfl, hword⟩
      · exact Or.inl hsame'
      · exact Or.inr ⟨hname, shown, hwait, hword⟩
    · exact Or.inr hnew

/-- Every call in progress keeps the registers it was entered with. -/
def Undisturbed (s : Machine arch Q) : Prop :=
  ∀ pid call, s.inCall pid = some call → call.Keeps (s.registers pid)

/-- A stop leaves all registers of all threads alone but for the one. -/
theorem step_stops {wait : Wait} {os : Os} {ptrace : Ptrace arch} {held : Reg arch → Bool}
    (hallowed : s.Allowed (.stops wait os ptrace held))
    (h : s.step cfg (.stops wait os ptrace held) = .ok s') :
    s'.inCall = s.callsAfter (.stops wait os ptrace held) ∧ ∀ pid name,
      s'.registers pid name = s.registers pid name ∨
        savesArg0 arch name = true ∧ ∃ shown, Tracer.shownOf wait ptrace pid = some shown ∧
          s'.registers pid name = firstArgument arch shown := by
  unfold step at h
  simp only at h
  split at h
  · rename_i tracer hturn
    cases h
    exact ⟨rfl, foldl_writeRegs (fun store hstore => Tracer.turn_stores hturn hstore)
      fun pid shown hwait name hheld _ => hallowed pid shown hwait name hheld⟩
  · cases h

theorem Undisturbed.stops {wait : Wait} {os : Os} {ptrace : Ptrace arch} {held : Reg arch → Bool}
    (hs : s.Undisturbed) (hallowed : s.Allowed (.stops wait os ptrace held))
    (h : s.step cfg (.stops wait os ptrace held) = .ok s') : s'.Undisturbed := by
  obtain ⟨hcalls, hregisters⟩ := step_stops hallowed h
  intro pid call hcall name hname
  rw [hcalls] at hcall
  obtain ⟨old, hold, rfl⟩ := Option.map_eq_some_iff.mp hcall
  obtain ⟨hplain, hsaved⟩ := hs pid old hold name hname
  rcases hregisters pid name with hsame | ⟨hsaves, shown, hwait, hword⟩
  · rw [hsame]
    refine ⟨hplain, fun hsaves => (hsaved hsaves).imp_right ?_⟩
    rintro ⟨shown, hshown, hword⟩
    exact ⟨shown, List.mem_append_right _ hshown, hword⟩
  · have hnew : shown ∈ (Tracer.shownOf wait ptrace pid).toList ++ old.shown :=
      List.mem_append_left _ (Option.mem_toList.mpr hwait)
    refine ⟨fun hno => ?_, fun _ => Or.inr ⟨shown, hnew, hword⟩⟩
    rw [hsaves] at hno
    cases hno

theorem Undisturbed.step {event : Event arch} (hs : s.Undisturbed) (hallowed : s.Allowed event)
    (h : s.step cfg event = .ok s') : s'.Undisturbed := by
  cases event with
  | runs tid values =>
    cases h
    intro pid call hcall
    have hpid : pid ≠ tid := by
      rintro rfl
      exact Option.some_ne_none call (hcall.symm.trans hallowed)
    simp only [Event.own, Function.update_of_ne hpid]
    exact hs pid call hcall
  | enters tid =>
    cases h
    intro pid call hcall
    by_cases hpid : pid = tid
    · subst hpid
      have hnew := (Function.update_self _ _ _).symm.trans hcall
      cases hnew
      exact fun name _ => ⟨fun _ => rfl, fun _ => Or.inl rfl⟩
    · exact hs pid call ((Function.update_of_ne hpid _ _).symm.trans hcall)
  | changes tid changed word =>
    cases h
    intro pid call hcall
    by_cases hpid : pid = tid
    · subst hpid
      have hnew := (Function.update_self _ _ _).symm.trans hcall
      obtain ⟨old, hold, rfl⟩ := Option.map_eq_some_iff.mp hnew
      intro name hname
      have hne : name ≠ changed := by
        rintro rfl
        simp [Function.update_self] at hname
      have hname : old.changed name = false := (Function.update_of_ne hne _ _).symm.trans hname
      simp only [Event.own, Function.update_self, Function.update_of_ne hne]
      exact hs pid old hold name hname
    · simp only [Event.own, Function.update_of_ne hpid]
      exact hs pid call ((Function.update_of_ne hpid _ _).symm.trans hcall)
  | returns tid =>
    cases h
    intro pid call hcall
    by_cases hpid : pid = tid
    · subst hpid
      have hnew := (Function.update_self _ _ _).symm.trans hcall
      cases hnew
    · exact hs pid call ((Function.update_of_ne hpid _ _).symm.trans hcall)
  | stops wait os ptrace held => exact hs.stops hallowed h

theorem step_untraced {event : Event arch} {registers : Pid → RegFile arch}
    (hs : ∀ pid name, savesArg0 arch name = false → s.registers pid name = registers pid name)
    (hallowed : s.Allowed event) (h : s.step cfg event = .ok s') (pid : Pid) (name : Reg arch)
    (hname : savesArg0 arch name = false) :
    s'.registers pid name = event.own registers pid name := by
  cases event with
  | runs tid values =>
    cases h
    by_cases hpid : pid = tid
    · simp only [Event.own, hpid, Function.update_self]
    · simp only [Event.own, Function.update_of_ne hpid]
      exact hs pid name hname
  | changes tid changed word =>
    cases h
    by_cases hpid : pid = tid
    · subst hpid
      by_cases hchanged : name = changed
      · simp only [Event.own, hchanged, Function.update_self]
      · simp only [Event.own, Function.update_self, Function.update_of_ne hchanged]
        exact hs pid name hname
    · simp only [Event.own, Function.update_of_ne hpid]
      exact hs pid name hname
  | enters tid =>
    cases h
    exact hs pid name hname
  | returns tid =>
    cases h
    exact hs pid name hname
  | stops wait os ptrace held =>
    rcases (step_stops hallowed h).2 pid name with hsame | ⟨hsaves, _⟩
    · exact hsame.trans (hs pid name hname)
    · rw [hname] at hsaves
      cases hsaves

theorem run_untraced {events : List (Event arch)} {registers : Pid → RegFile arch}
    (hs : ∀ pid name, savesArg0 arch name = false → s.registers pid name = registers pid name)
    (hallowed : Runs.Along (step cfg) Allowed s events)
    (hrun : Runs.run (step cfg) s events = .ok s') (pid : Pid) (name : Reg arch)
    (hname : savesArg0 arch name = false) :
    s'.registers pid name = untraced registers events pid name := by
  induction events generalizing s registers with
  | nil =>
    cases hrun
    exact hs pid name hname
  | cons event events ih =>
    obtain ⟨s₁, hs₁, hrun⟩ := Runs.run_cons_ok_iff.mp hrun
    exact ih (step_untraced hs hallowed.1 hs₁) (hallowed.2 s₁ hs₁) hrun

/-- Tracing leaves a thread the registers it entered a call with, and those it would have without a
tracer, but for the one that first arguments are saved in. -/
theorem registers_kept {s₀ s : Machine arch Q} {events : List (Event arch)}
    (hstart : s₀.AsEntered) (hallowed : Runs.Along (step cfg) Allowed s₀ events)
    (hrun : Runs.run (step cfg) s₀ events = .ok s) :
    (∀ pid call, s.inCall pid = some call → call.Keeps (s.registers pid)) ∧
      ∀ pid name, savesArg0 arch name = false →
        s.registers pid name = untraced s₀.registers events pid name := by
  have hinit : s₀.Undisturbed := fun pid call hcall name hname =>
    ⟨fun _ => hstart pid call hcall name hname, fun _ => Or.inl (hstart pid call hcall name hname)⟩
  exact ⟨Runs.run_invariant (fun _ _ _ hs hallowed h => hs.step hallowed h) hinit hallowed hrun,
    run_untraced (fun _ _ _ => rfl) hallowed hrun⟩

/-! ## A call on aarch64 -/

/-- The registers of a `getppid`. -/
def getppidRegs (x0 x9 : Word) : UserRegs .aarch64 := exitRegs .aarch64 ⟨173, x0, x9, 0, 0, 0⟩

def getppidStop (x0 x9 : Word) : Event .aarch64 :=
  .stops (.status 1 Notice.syscallStop.status) (plainOs 0)
    ⟨.ok 0, .ok 0, .ok (getppidRegs x0 x9), .ok (), fun _ => .ok ()⟩ fun _ => false

/-- A thread that keeps 7 in `x9` across the call. -/
def getppidCall : List (Event .aarch64) :=
  [.enters 1, getppidStop 3 7, .changes 1 (.x 0) 5, getppidStop 5 3]

def getppidStart : Machine .aarch64 FileStorage.FileQueue :=
  ⟨Tracer.new plainConfig (Context.new plainOptions), fun _ => (getppidRegs 3 7).get,
    fun _ => none⟩

theorem getppidStop_allowed {s : Machine .aarch64 FileStorage.FileQueue} {x0 x9 : Word}
    (h : ∀ name, (getppidRegs x0 x9).get name = s.registers 1 name) :
    s.Allowed (getppidStop x0 x9) := by
  intro pid shown hshown name _
  have hpid : (if (1 : Pid) = pid then some (getppidRegs x0 x9) else none) = some shown := hshown
  split at hpid
  · rename_i heq
    subst heq
    cases hpid
    exact h name
  · cases hpid

theorem getppidCall_allowed :
    Runs.Along (step plainConfig) Allowed getppidStart getppidCall := by
  refine ⟨rfl, fun s hs => ?_⟩
  cases hs
  refine ⟨getppidStop_allowed fun _ => rfl, fun s hs => ?_⟩
  cases hs
  refine ⟨Option.some_ne_none _, fun s hs => ?_⟩
  cases hs
  refine ⟨getppidStop_allowed fun name => ?_, fun _ _ => trivial⟩
  cases name with
  | x i =>
    revert i
    decide
  | sp => rfl
  | pc => rfl
  | pstate => rfl

theorem registers_kept_getppidCall :
    ∃ (s : Machine .aarch64 FileStorage.FileQueue) (call : InCall .aarch64),
      Runs.run (step plainConfig) getppidStart getppidCall = .ok s ∧ s.inCall 1 = some call ∧
      call.Keeps (s.registers 1) :=
  ⟨_, _, rfl, rfl, (registers_kept (fun _ _ h => by cases h) getppidCall_allowed rfl).1 1 _ rfl⟩

/-- When it may return, there is the first argument in it, and without a tracer there is the 7. -/
theorem getppidCall_x9 :
    ∃ (s : Machine .aarch64 FileStorage.FileQueue) (call : InCall .aarch64),
      Runs.Along (step plainConfig) Allowed getppidStart getppidCall ∧
      Runs.run (step plainConfig) getppidStart getppidCall = .ok s ∧ s.Allowed (.returns 1) ∧
      s.inCall 1 = some call ∧ call.changed (.x 9) = false ∧ call.entry (.x 9) = 7 ∧
      s.registers 1 (.x 9) = 3 ∧
      untraced getppidStart.registers getppidCall 1 (.x 9) = 7 :=
  ⟨_, _, getppidCall_allowed, rfl, Option.some_ne_none _, rfl, rfl, rfl, rfl, rfl⟩

end Machine

end Optrace
