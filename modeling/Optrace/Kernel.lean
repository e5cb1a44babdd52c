import Optrace.Tracer
import Optrace.BpfProgram

/-!
# The kernel's side of `ptrace`

The tracees, what each may report next, and what resuming it does. A step of the whole system
is the birth of a tracee, or a notice that `RunTracer` handles in one turn of its loop. The
calls of a tracee resumed with `PTRACE_CONT` are not seen.
-/

namespace Optrace

set_option autoImplicit false
set_option linter.unusedSectionVars false

open Except

/-- The events of a call that makes a tracee. -/
inductive CloneEvent where
  | fork
  | vfork
  | clone
  deriving DecidableEq

/-- What a tracee reports; the events of a call name it. An exec is reported under the pid of the
group leader, whichever thread made it. -/
inductive Notice where
  | exited (code : BitVec 8)
  | killed (sig : BitVec 7) (core : Bool)
  | signalStop (sig : BitVec 8)
  | syscallStop
  | cloned (event : CloneEvent) (nr : Word)
  | execed (former : Pid) (nr : Word)
  | exiting
  | secComp
  deriving DecidableEq

def CloneEvent.number : CloneEvent → BitVec 32
  | fork => PTRACE_EVENT_FORK
  | vfork => PTRACE_EVENT_VFORK
  | clone => PTRACE_EVENT_CLONE

/-- The status of an event stop: `SIGTRAP | event << 8`, as a stop signal. -/
def eventStatus (event : BitVec 32) : BitVec 32 := (event <<< 16) ||| 0x057f

namespace Notice

/-- The status word `wait3` returns. -/
def status : Notice → BitVec 32
  | exited code => code.setWidth 32 <<< 8
  | killed sig core => sig.setWidth 32 ||| (if core then 0x80 else 0)
  | signalStop sig => (sig.setWidth 32 <<< 8) ||| 0x7f
  | syscallStop => 0x857f
  | cloned event _ => eventStatus event.number
  | execed _ _ => eventStatus PTRACE_EVENT_EXEC
  | exiting => eventStatus PTRACE_EVENT_EXIT
  | secComp => eventStatus PTRACE_EVENT_SECCOMP

def isDeath : Notice → Bool
  | exited _ => true
  | killed _ _ => true
  | _ => false

end Notice

/-- A tracee. It is stopped where `request` is `none`; `inside` is the call it is in, as far as
its entry or an event of it was reported; `picked` says that the filter has stopped it before the
entry that comes next. `announced` says that the tracer was told of it by its creator. -/
structure Task where
  group : Pid
  inside : Option Word
  picked : Bool
  request : Option Request
  newborn : Option Pid
  fresh : Bool
  dying : Bool
  announced : Bool
  deriving DecidableEq

/-- The tracees, and the tids that were given up in an exec by another thread than the leader
and not announced again. -/
structure Kernel where
  tasks : PidMap Task
  formers : Finset Pid

/-- One step: a tracee makes another, or one reports to the tracer. -/
inductive Input (arch : Arch) where
  | born (creator child : Pid) (isThread : Bool)
  | notice (pid : Pid) (notice : Notice) (os : Os) (ptrace : Ptrace arch)

variable {arch : Arch}

/-! ## What may happen -/

/-- The filter asks for a stop at the call. -/
def filterTraces (arch : Arch) (r : SyscallRegs) : Bool :=
  filterVerdict arch (lowWord r.nr) (lowWord r.arg1) (lowWord r.arg2) == SECCOMP_RET_TRACE

/-- The low word of the number, which is what the kernel goes by, is a case of the switch. -/
def listed (arch : Arch) (nr : Word) : Bool := (syscallOf arch ((lowWord nr).setWidth 64)).isSome

/-- The return word before a call. -/
def atEntry : (arch : Arch) → UserRegs arch → Bool
  | .x86_64, registers => asInt (X86Regs.rax registers) == -ENOSYS
  | .aarch64, _ => true

/-- Number -1 is no call: it is kept, and so is the error. -/
def atExit (arch : Arch) (nr : Word) (registers : UserRegs arch) : Bool :=
  asInt nr != SYSCALL_UNDEFINED ||
    ((syscallRegs arch registers).nr == nr && asInt (syscallRegs arch registers).retdata == -ENOSYS)

def Reply.all {α : Type} (p : α → Bool) : Reply α → Bool
  | .ok a => p a
  | _ => true

def Reply.isGone {α : Type} : Reply α → Bool
  | .gone => true
  | _ => false

/-- A message that reads as the pid. -/
def readsAs (pid : Pid) (msg : Word) : Bool :=
  asInt msg == pid && decide (msg.toInt = pid) && decide (0 ≤ pid)

/-- The call an event names is the one the tracee is in, if its entry was seen; a call the filter
traces is neither a clone nor an exec. -/
def eventOf (cfg : TracerConfig) (arch : Arch) (task : Task) (nr : Word) : Bool :=
  task.inside == (if task.request = some .syscall then some nr else none) &&
    asInt nr != SYSCALL_UNDEFINED && (!cfg.useSecComp || !listed arch nr)

namespace Kernel

variable (cfg : TracerConfig) (k : Kernel)

/-- No tracee of the group is left but those. -/
def onlyInGroup (group : Pid) (pids : List Pid) : Bool :=
  decide (∀ tid ∈ k.tasks.keys, tid ∈ pids ∨ (k.tasks.lookup tid).all fun t => t.group != group)

/-- A group leader is reported dead when nobody else is left in its group. -/
def deathPermitted (pid : Pid) (task : Task) : Bool :=
  task.group != pid || k.onlyInGroup pid [pid]

/-- The thread that called exec is the last of its group but for the leader. -/
def execPermitted (pid former : Pid) (nr : Word) (ptrace : Ptrace arch) : Bool :=
  (k.tasks.lookup former).any fun task =>
    task.group == pid && task.request.isSome && !task.dying && task.newborn.isNone &&
    eventOf cfg arch task nr && ptrace.eventMsg.all (readsAs former) &&
    k.onlyInGroup pid [pid, former]

/-- No signal is delivered between the entry stop and the exit stop of a call. -/
def stopPermitted (task : Task) (ptrace : Ptrace arch) : Notice → Bool
  | .signalStop sig => (task.fresh || task.request.isSome) && task.inside.isNone &&
    task.newborn.isNone && sig != 0x85
  | .syscallStop => task.request == some .syscall && task.newborn.isNone &&
    ptrace.regs.all fun registers =>
      match task.inside with
      | none => atEntry arch registers &&
        (!task.picked || filterTraces arch (syscallRegs arch registers))
      | some nr => atExit arch nr registers
  | .cloned _ nr => task.request.isSome && eventOf cfg arch task nr &&
    task.newborn.any fun child => ptrace.eventMsg.all (readsAs child)
  | .secComp => cfg.useSecComp && task.newborn.isNone &&
    ptrace.eventMsg.all (fun msg => decide (0 ≤ msg.toInt)) &&
    (match cfg.secCompVer with
      | .SEC_COMP_V1 => task.request.isSome && task.inside.isNone
      | .SEC_COMP_V2 => task.request == (if task.inside.isNone then some .cont else some .syscall)) &&
    ptrace.regs.all fun registers => atEntry arch registers &&
      filterTraces arch (syscallRegs arch registers) &&
      task.inside.all (· == (syscallRegs arch registers).nr)
  | _ => false

/-- What the kernel lets happen. -/
def permits : Input arch → Bool
  | .born creator child _ =>
    (k.tasks.lookup creator).any (fun task =>
      task.request.isSome && !task.dying && task.newborn.isNone) &&
    decide (child ∉ k.tasks) && decide (0 ≤ child)
  | .notice pid notice _ ptrace =>
    (k.tasks.lookup pid).any fun task =>
      match notice with
      | .exited _ => k.deathPermitted pid task
      | .killed sig _ => k.deathPermitted pid task && sig != 0 && sig != 0x7f
      | .exiting => ptrace.eventMsg.all fun msg => decide (0 ≤ msg.toInt)
      | .execed former nr => k.execPermitted cfg pid former nr ptrace
      | stop => !task.dying && stopPermitted cfg task ptrace stop

/-! ## What has happened then -/

def setTask (pid : Pid) (task : Task) : Kernel := { k with tasks := k.tasks.insert pid task }

def born (creator child : Pid) (isThread : Bool) : Kernel :=
  match k.tasks.lookup creator with
  | none => k
  | some task =>
    (k.setTask creator { task with newborn := some child }).setTask child
      { group := if isThread then task.group else child
        inside := none
        picked := false
        request := none
        newborn := none
        fresh := true
        dying := false
        announced := false }

end Kernel

/-- The registers could not be read for the flags of a clone. -/
def flagsGone : (arch : Arch) → Ptrace arch → Bool
  | .x86_64, ptrace => ptrace.rdi.isGone
  | .aarch64, ptrace => ptrace.regs.isGone

/-- The tracer gets to know the new tracee. -/
def told (ptrace : Ptrace arch) (event : CloneEvent) : Bool :=
  !ptrace.eventMsg.isGone && (event != .clone ||
    match getCloneFlags arch ptrace with
    | .ok flags => decide (0 ≤ flags.toInt)
    | .error _ => false)

/-- The call a tracee is in after a syscall stop. -/
def insideAfter (inside : Option Word) : Reply (UserRegs arch) → Option Word
  | .ok registers => if inside.isSome then none else some (syscallRegs arch registers).nr
  | _ => inside

/-- After a seccomp stop: the old order has it before the entry stop, the new one instead. -/
def insideAfterSecComp (cfg : TracerConfig) (inside : Option Word) :
    Reply (UserRegs arch) → Option Word
  | .ok registers =>
    match cfg.secCompVer with
    | .SEC_COMP_V1 => inside
    | .SEC_COMP_V2 => some (syscallRegs arch registers).nr
  | _ => inside

/-- A tracee of its own after it reported a stop. -/
def Task.noticed (cfg : TracerConfig) (task : Task) (ptrace : Ptrace arch) : Notice → Task
  | .signalStop _ => { task with request := none, fresh := false }
  | .syscallStop => { task with
      request := none
      inside := insideAfter task.inside ptrace.regs
      picked := false
      dying := ptrace.regs.isGone }
  | .cloned event nr => { task with
      request := none
      inside := some nr
      newborn := none
      dying := ptrace.eventMsg.isGone || (event == .clone && flagsGone arch ptrace) }
  | .secComp => { task with
      request := none
      inside := insideAfterSecComp cfg task.inside ptrace.regs
      picked := cfg.secCompVer == .SEC_COMP_V1
      dying := ptrace.eventMsg.isGone || ptrace.regs.isGone }
  | .exiting => { task with request := none, dying := true }
  | _ => task

/-- A stopped tracee is resumed; any other is left as it is. -/
def Task.resumed (task : Task) (request : Request) : Task :=
  if task.request.isNone && !task.fresh then
    { task with
      request := some request
      inside := if request = .cont then none else task.inside
      picked := request == .syscall && task.picked }
  else task

namespace Kernel

variable (cfg : TracerConfig) (k : Kernel)

def announce (child : Pid) : Kernel :=
  match k.tasks.lookup child with
  | none => k
  | some task =>
    { k.setTask child { task with announced := true } with formers := k.formers.erase child }

/-- The thread that called exec takes the place of the leader. -/
def execed (pid former : Pid) (nr : Word) (gone : Bool) : Kernel :=
  match k.tasks.lookup former with
  | none => k
  | some task =>
    { tasks := (k.tasks.erase former).insert pid { task with
        inside := some nr
        request := none
        dying := gone
        announced := (k.tasks.lookup pid).any Task.announced }
      formers := if former = pid then k.formers else insert former k.formers }

def noticed (pid : Pid) (ptrace : Ptrace arch) (notice : Notice) : Kernel :=
  match k.tasks.lookup pid with
  | none => k
  | some task =>
    match notice with
    | .exited _ => { k with tasks := k.tasks.erase pid }
    | .killed _ _ => { k with tasks := k.tasks.erase pid }
    | .execed former nr => k.execed pid former nr ptrace.eventMsg.isGone
    | .cloned event nr =>
      let k' := k.setTask pid (task.noticed cfg ptrace (.cloned event nr))
      match task.newborn with
      | some child => if told ptrace event then k'.announce child else k'
      | none => k'
    | stop => k.setTask pid (task.noticed cfg ptrace stop)

def resume (r : Resume) : Kernel :=
  match k.tasks.lookup r.pid with
  | none => k
  | some task => k.setTask r.pid (task.resumed r.request)

/-- The tracee that `RunTracer` starts with. -/
def start : Kernel where
  tasks := Finmap.singleton cfg.traceePid
    { group := cfg.traceePid
      inside := none
      picked := false
      request := some (if cfg.useSecComp then .cont else .syscall)
      newborn := none
      fresh := false
      dying := false
      announced := true }
  formers := ∅

end Kernel

/-! ## The whole system -/

structure Traced (arch : Arch) (Q : Type) where
  tracer : Tracer arch Q
  kernel : Kernel

namespace Traced

variable {Q : Type} [MaxOutFilesQueue Q]

def start (cfg : TracerConfig) (c : Context Q) : Traced arch Q :=
  ⟨Tracer.new cfg c, Kernel.start cfg⟩

def step (cfg : TracerConfig) (s : Traced arch Q) : Input arch → Except Stop (Traced arch Q)
  | .born creator child isThread => .ok { s with kernel := s.kernel.born creator child isThread }
  | .notice pid notice os ptrace => do
    let tracer ← s.tracer.turn cfg os ptrace (.status pid notice.status)
    let kernel := s.kernel.noticed cfg pid ptrace notice
    return ⟨tracer, tracer.resumes.foldl Kernel.resume kernel⟩

def Permitted (cfg : TracerConfig) (s : Traced arch Q) (input : Input arch) : Prop :=
  s.kernel.permits cfg input = true

instance (cfg : TracerConfig) (s : Traced arch Q) (input : Input arch) :
    Decidable (s.Permitted cfg input) :=
  inferInstanceAs (Decidable (s.kernel.permits cfg input = true))

end Traced

end Optrace
