import Optrace.Trace

/-!
# The tracing loop

`RunTracer` of `optrace.cpp`, one turn of its loop at a time. A turn takes what `wait3`
returned and the answers of the `ptrace` calls it makes, and either gives the next state or
stops the program. It records the calls it makes on the tracker and the tracees it resumes.
-/

namespace Optrace

set_option autoImplicit false
set_option linter.unusedSectionVars false

open Except

def SIGTRAP : Int := 5
def SIGKILL : Int := 9
def EXIT_CODE_UNKNOWN : Int := -1
def SYSCALL_UNDEFINED : Int := -1
def CLONE_THREAD : Word := 0x10000

def PTRACE_EVENT_FORK : BitVec 32 := 1
def PTRACE_EVENT_VFORK : BitVec 32 := 2
def PTRACE_EVENT_CLONE : BitVec 32 := 3
def PTRACE_EVENT_EXEC : BitVec 32 := 4
def PTRACE_EVENT_EXIT : BitVec 32 := 6
def PTRACE_EVENT_SECCOMP : BitVec 32 := 7

/-! ## Wait statuses -/

def wtermsig (status : BitVec 32) : BitVec 32 := status &&& 0x7f

def wexitstatus (status : BitVec 32) : BitVec 32 := (status &&& 0xff00) >>> 8

def wstopsig (status : BitVec 32) : BitVec 32 := wexitstatus status

def wifexited (status : BitVec 32) : Bool := wtermsig status == 0

def wifstopped (status : BitVec 32) : Bool := status &&& 0xff == 0x7f

def wifsignaled (status : BitVec 32) : Bool := wtermsig status != 0 && wtermsig status != 0x7f

def wcoredump (status : BitVec 32) : Bool := status &&& 0x80 != 0

/-- `SIGTRAP | 0x80`, the stop signal of a syscall stop. -/
def isSyscallStop (status : BitVec 32) : Bool := wstopsig status == 0x85

/-! ## `ptrace` -/

/-- What `ptrace` returns: a value, `ESRCH`, or another error. -/
inductive Reply (α : Type) where
  | ok (a : α)
  | gone
  | failed

inductive Request where
  | syscall
  | cont
  deriving DecidableEq

/-- The answers to the calls of one turn. -/
structure Ptrace (arch : Arch) where
  eventMsg : Reply Word
  rdi : Reply Word
  regs : Reply (UserRegs arch)
  setRegs : Reply Unit
  resume : Pid → Reply Unit

/-- A tracee that was resumed, and how. -/
structure Resume where
  pid : Pid
  request : Request
  signal : Int
  deriving DecidableEq

/-- Registers that were written to a tracee. -/
structure Store (arch : Arch) where
  pid : Pid
  registers : UserRegs arch

/-- How the program stops. -/
inductive Stop where
  | abort (a : Abort)
  | returned (code : Int)
  deriving DecidableEq

/-- `PtraceSafeCall`: any error but `ESRCH` exits. -/
def ptraceSafeCall {α : Type} : Reply α → Except Stop (Option α)
  | .ok a => .ok (some a)
  | .gone => .ok none
  | .failed => .error (.abort .exit2)

def ptraceGetEventMsg {arch : Arch} (ptrace : Ptrace arch) : Except Stop Word := do
  return (← ptraceSafeCall ptrace.eventMsg).getD (-1)

/-- A word that reads as -1 is taken for an error, whose number is not `ESRCH` then. On aarch64
the registers are not looked at for success. -/
def getCloneFlags : (arch : Arch) → Ptrace arch → Except Stop Word
  | .x86_64, ptrace => do
    match ← ptraceSafeCall ptrace.rdi with
    | some flags => if flags = -1 then .error (.abort .exit2) else return flags
    | none => return -1
  | .aarch64, ptrace => do
    match ← ptraceSafeCall ptrace.regs with
    | some registers => return Aarch64Regs.regs registers 2
    | none => .error (.abort .undefined)

def ENOSYS : Int := 38

/-- On x86_64 the return word tells an entry stop from an exit stop. -/
def getSyscallNumber : (arch : Arch) → UserRegs arch → Word
  | .x86_64, registers =>
    if asInt (X86Regs.rax registers) ≠ -ENOSYS then -2 else X86Regs.orig_rax registers
  | .aarch64, registers => Aarch64Regs.regs registers 8

/-- `registers.regs[9] = registers.regs[0]`. -/
def saveArg0 (registers : UserRegs .aarch64) : UserRegs .aarch64 :=
  ({ registers with regs := Function.update registers.regs 9 (registers.regs 0) } : Aarch64Regs)

inductive SecCompVer where
  | SEC_COMP_V1
  | SEC_COMP_V2
  deriving DecidableEq

/-- What `RunTracer` is told, and the order of seccomp stops of the running kernel. -/
structure TracerConfig where
  traceePid : Pid
  followForks : Bool
  waitDaemons : Bool
  useSecComp : Bool
  secCompVer : SecCompVer

/-- The local state of `RunTracer`. The calls, the tracees resumed and the registers written are
those of the last turn, kept for reference only. -/
structure Tracer (arch : Arch) (Q : Type) where
  context : Context Q
  suspendedThreads : PidMap (BitVec 32)
  syscallStateMap : PidMap Int
  traceeExitCode : Int
  calls : List (Call arch)
  resumes : List Resume
  stores : List (Store arch)

/-- What `wait3` returns. -/
inductive Wait where
  | interrupted
  | noChild
  | failed
  | status (pid : Pid) (status : BitVec 32)

namespace Tracer

variable {Q : Type} [MaxOutFilesQueue Q] {arch : Arch}

/-- The state at the head of the loop. -/
def new (cfg : TracerConfig) (c : Context Q) : Tracer arch Q where
  context := c
  suspendedThreads := ∅
  syscallStateMap := Finmap.singleton cfg.traceePid SYSCALL_UNDEFINED
  traceeExitCode := EXIT_CODE_UNKNOWN
  calls := []
  resumes := [⟨cfg.traceePid, if cfg.useSecComp then .cont else .syscall, 0⟩]
  stores := []

variable (cfg : TracerConfig) (os : Os) (ptrace : Ptrace arch) (s : Tracer arch Q)

def call (call : Call arch) : Except Stop (Tracer arch Q) :=
  match call.apply s.context with
  | .ok c => .ok { s with context := c, calls := s.calls ++ [call] }
  | .error a => .error (.abort a)

/-- `PtraceRestartSyscall` or `PtraceContinueSyscall`. -/
def resume (pid : Pid) (request : Request) (signal : Int) : Except Stop (Tracer arch Q) := do
  match ← ptraceSafeCall (ptrace.resume pid) with
  | some () => return { s with resumes := s.resumes ++ [⟨pid, request, signal⟩] }
  | none => return s

def setSyscallState (pid : Pid) (syscall : Int) : Tracer arch Q :=
  { s with syscallStateMap := s.syscallStateMap.insert pid syscall }

/-- `PtraceSetRegs`. -/
def setRegs (pid : Pid) (registers : UserRegs arch) : Except Stop (Tracer arch Q) := do
  match ← ptraceSafeCall ptrace.setRegs with
  | some () => return { s with stores := s.stores ++ [⟨pid, registers⟩] }
  | none => return s

def vanishThread (pid : Pid) (notify : Bool) : Except Stop (Tracer arch Q) :=
  if pid ∈ s.syscallStateMap then do
    let s := { s with syscallStateMap := s.syscallStateMap.erase pid }
    let s ← if notify then s.call (.vanishProcess pid) else .ok s
    s.resume ptrace pid .syscall 0
  else .error (.abort (.assertion .vanishThread))

/-- A tracee is dead. -/
def terminated (pid : Pid) (exitCode : Int) : Except Stop (Tracer arch Q) := do
  let s ← s.vanishThread ptrace pid true
  if pid = cfg.traceePid then
    if cfg.followForks && cfg.waitDaemons then
      return if s.traceeExitCode = EXIT_CODE_UNKNOWN then { s with traceeExitCode := exitCode } else s
    else .error (.returned exitCode)
  else return s

/-- The part of a turn that resumes the tracee. -/
def restart (pid : Pid) (syscallStop : Bool) (signal : Int) : Except Stop (Tracer arch Q) :=
  if cfg.useSecComp then
    if syscallStop && (s.syscallStateMap.lookup pid).getD 0 != SYSCALL_UNDEFINED then
      s.resume ptrace pid .syscall signal
    else s.resume ptrace pid .cont signal
  else s.resume ptrace pid .syscall signal

/-- A stop at an entry: `SyscallEnter` does nothing, and on aarch64 the first argument is saved in
the register `SYSCALL_ARG0` names. -/
def syscallEntered (pid : Pid) (registers : UserRegs arch) : Except Stop (Tracer arch Q) :=
  let syscall := asInt (getSyscallNumber arch registers)
  if syscall = -2 then .error (.returned (-2))
  else
    match arch with
    | .x86_64 => .ok (s.setSyscallState pid syscall)
    | .aarch64 => (s.setSyscallState pid syscall).setRegs ptrace pid (saveArg0 registers)

def syscallStopped (pid : Pid) (registers : UserRegs arch) : Except Stop (Tracer arch Q) :=
  match s.syscallStateMap.lookup pid with
  | none => .error (.abort (.assertion .syscallState))
  | some prev =>
    if prev = SYSCALL_UNDEFINED then s.syscallEntered ptrace pid registers
    else (s.setSyscallState pid SYSCALL_UNDEFINED).call (.syscallExit os pid registers)

/-- The rest of a turn, after the events. -/
def proceed (pid : Pid) (syscallStop : Bool) (signal : Int) : Except Stop (Tracer arch Q) :=
  if syscallStop then do
    match ← ptraceSafeCall ptrace.regs with
    | none => s.resume ptrace pid .syscall 0
    | some registers =>
      let s ← s.syscallStopped os ptrace pid registers
      s.restart cfg ptrace pid true signal
  else s.restart cfg ptrace pid false signal

/-- A new tracee is registered, and resumed if it was waiting for that. -/
def registerChild (pid child : Pid) (isThread : Bool) : Except Stop (Tracer arch Q) := do
  let s ← s.call (if isThread then .registerThread pid child else .registerProcess os pid child)
  let s := s.setSyscallState child SYSCALL_UNDEFINED
  if child ∈ s.suspendedThreads then
    let s := { s with suspendedThreads := s.suspendedThreads.erase child }
    let s ← s.resume ptrace child (if cfg.useSecComp then .cont else .syscall) 0
    return s.setSyscallState child SYSCALL_UNDEFINED
  else return s

/-- Only a clone event is asked for its flags; a fork or vfork is never a thread. -/
def cloned (pid : Pid) (event : BitVec 32) (reportedPid : Word) (signal : Int) :
    Except Stop (Tracer arch Q) := do
  let cloneFlags ← if event = PTRACE_EVENT_CLONE then getCloneFlags arch ptrace else .ok 0
  if cloneFlags.toInt < 0 then s.resume ptrace pid .syscall 0
  else do
    let s ← s.registerChild cfg os ptrace pid (asInt reportedPid) (hasFlag cloneFlags CLONE_THREAD)
    s.proceed cfg os ptrace pid false signal

def execed (pid : Pid) (reportedPid : Word) (signal : Int) : Except Stop (Tracer arch Q) := do
  let s ← s.call (.registerExec os pid (asInt reportedPid))
  let s ← if reportedPid.toInt ≠ pid then s.vanishThread ptrace (asInt reportedPid) false else .ok s
  s.proceed cfg os ptrace pid false signal

def secComped (pid : Pid) (signal : Int) : Except Stop (Tracer arch Q) :=
  match cfg.secCompVer with
  | .SEC_COMP_V1 => s.resume ptrace pid .syscall 0
  | .SEC_COMP_V2 =>
    (s.setSyscallState pid SYSCALL_UNDEFINED).proceed cfg os ptrace pid true signal

def evented (pid : Pid) (event : BitVec 32) (syscallStop : Bool) (signal : Int) :
    Except Stop (Tracer arch Q) := do
  let reportedPid ← ptraceGetEventMsg ptrace
  if reportedPid.toInt < 0 then s.resume ptrace pid .syscall 0
  else if event = PTRACE_EVENT_CLONE ∨ event = PTRACE_EVENT_FORK ∨ event = PTRACE_EVENT_VFORK then
    s.cloned cfg os ptrace pid event reportedPid signal
  else if event = PTRACE_EVENT_EXEC then s.execed cfg os ptrace pid reportedPid signal
  else if event = PTRACE_EVENT_SECCOMP then s.secComped cfg os ptrace pid signal
  else s.proceed cfg os ptrace pid syscallStop signal

/-- A stopped tracee nobody told of yet is left alone until its creator's event. -/
def stopped (pid : Pid) (status : BitVec 32) : Except Stop (Tracer arch Q) :=
  let syscallStop := isSyscallStop status
  let signal := if syscallStop then 0 else ((wstopsig status).toNat : Int)
  let event := status >>> 16
  if pid ∈ s.syscallStateMap then
    if event ≠ 0 then s.evented cfg os ptrace pid event syscallStop signal
    else s.proceed cfg os ptrace pid syscallStop signal
  else .ok { s with suspendedThreads := s.suspendedThreads.insert pid status }

/-- A turn of the loop. -/
def turn (wait : Wait) : Except Stop (Tracer arch Q) :=
  let s := { s with calls := [], resumes := [], stores := [] }
  match wait with
  | .interrupted => .ok s
  | .noChild => .error (.returned
      (if s.traceeExitCode = EXIT_CODE_UNKNOWN then 128 + SIGKILL else s.traceeExitCode))
  | .failed => .error (.abort .exit2)
  | .status pid status =>
    if wifstopped status then s.stopped cfg os ptrace pid status
    else if wifsignaled status then do
      let termSig : Int := (wtermsig status).toNat
      let s ← if wcoredump status then s.call (.registerCoreDump os pid termSig) else .ok s
      s.terminated cfg ptrace pid (128 + termSig)
    else if wifexited status then s.terminated cfg ptrace pid (wexitstatus status).toNat
    else .error (.abort .exit2)

end Tracer

end Optrace
