import Optrace.Heap
import Optrace.Storage
import Optrace.Syscall
import Optrace.Lib.Run

/-!
# The tracker

`TContext` of `context.h` and `context.cpp`, operation by operation. An operation either
returns the next tracker or stops the program: by a failed assertion, by `exit(2)`, by an
exception that leaves a `noexcept` function, or by undefined behaviour.
-/

namespace Optrace

set_option autoImplicit false

open SlotTable

inductive Assertion where
  | registerTracee
  | registerProcess
  | registerThread
  | tearDownFd
  | vanishProcess
  | getProcState
  | vanishThread
  | syscallState
  deriving DecidableEq

inductive Abort where
  | assertion (a : Assertion)
  | exit2
  | terminate
  | undefined
  deriving DecidableEq

/-- A `TOutputFile` handed to the storage, and the file state it was made from; one for a core
file is made from none. -/
structure Report where
  file : Option Nat
  output : OutputFile

/-- `TContext`. The reports and the signals sent are kept for reference only; no operation
reads them. -/
structure Context (Q : Type) where
  options : Options
  groupLeaders : Finset Pid
  procMap : PidMap Nat
  fileStorage : FileStorage Q
  heap : Heap
  reports : List Report
  kills : List (Pid × Int)

namespace Context

variable {Q : Type} [MaxOutFilesQueue Q]

/-- `TContext(opts)`. -/
def new (opts : Options) : Context Q :=
  ⟨opts, ∅, ∅, FileStorage.new opts.filesInReport opts.storeEmptyFiles, Heap.empty, [], []⟩

def getProcState (c : Context Q) (pid : Pid) : Except Abort Nat :=
  match c.procMap.lookup pid with
  | some p => .ok p
  | none => .error (.assertion .getProcState)

/-- `NewProcState`. -/
def newProcState (os : Os) (c : Context Q) (pid ppid : Pid) : ProcInfo :=
  let comm := if c.options.searchForCoreDumps then readFileSafe os (procPath pid "comm") (-1) else ""
  ⟨pid, ppid, comm, getCommandLine os pid c.options.commandLengthLimit⟩

def readLink (os : Os) (filename : String) : Except Abort String :=
  match os.readlink filename with
  | some target => .ok target
  | none => .error .exit2

/-- `vector::resize` of a table of 16-byte shared pointers. -/
def resizeFds (fds : SlotTable Nat) (n : Word) : Except Abort (SlotTable Nat) :=
  if n.toNat < 2 ^ 59 then .ok (fds.resize n.toNat) else .error .terminate

/-- A process state goes when no entry of `ProcMap` points to it, and its slots with it. -/
def releaseProc (c : Context Q) (p : Nat) : Context Q :=
  if ∃ pid ∈ c.procMap.keys, c.procMap.lookup pid = some p then c
  else { c with heap := c.heap.setFds p [] }

/-! ## Tearing down -/

/-- Hand a file state to the storage. -/
def report (c : Context Q) (r : Nat) (pinfo : ProcInfo) : Context Q :=
  let output := OutputFile.ofState (c.heap.files r) pinfo
  { c with fileStorage := c.fileStorage.addFileEntry output, reports := c.reports ++ [⟨some r, output⟩] }

/-- `TearDownFd` on a slot of a process state. -/
def tearDownFd (c : Context Q) (p fd : Nat) : Except Abort (Context Q) :=
  match slot (c.heap.fds p) fd with
  | none => .error (.assertion .tearDownFd)
  | some r =>
    let c := if c.heap.useCount r = 1 then c.report r (c.heap.procs p).procInfo else c
    .ok { c with heap := c.heap.setFds p ((c.heap.fds p).set fd none) }

/-- The loop over `proc->Fds`, from the given index on for the given number of slots. -/
def tearDownFrom (p : Nat) : Nat → Nat → Context Q → Except Abort (Context Q)
  | _, 0, c => .ok c
  | fd, n + 1, c =>
    match slot (c.heap.fds p) fd with
    | none => tearDownFrom p (fd + 1) n c
    | some _ => do
      let c ← c.tearDownFd p fd
      tearDownFrom p (fd + 1) n c

/-- The part of `VanishProcess` that only a group leader runs. -/
def vanishLeader (c : Context Q) (pid : Pid) : Except Abort (Context Q) := do
  let p ← c.getProcState pid
  let c ← tearDownFrom p 0 (c.heap.fds p).length c
  return { c with groupLeaders := c.groupLeaders.erase pid }

def vanishProcess (c : Context Q) (pid : Pid) : Except Abort (Context Q) := do
  let c ← if pid ∈ c.groupLeaders then c.vanishLeader pid else .ok c
  match c.procMap.lookup pid with
  | none => .error (.assertion .vanishProcess)
  | some p => return releaseProc { c with procMap := c.procMap.erase pid } p

/-! ## Registration -/

/-- The loop of `FillFds`, downwards from the slot below the given bound. -/
def fillFdsBelow (os : Os) (p : Nat) (pid : Pid) : Nat → Context Q → Except Abort (Context Q)
  | 0, c => .ok c
  | fd + 1, c =>
    match os.fdFlags fd with
    | none => fillFdsBelow os p pid fd c
    | some flags =>
      if os.isFile fd then do
        let filename ← readLink os (fdPath pid fd)
        let heap := c.heap.newFiles [FileState.ofOpen os filename flags]
        let heap := heap.setFds p ((heap.fds p).set fd (some c.heap.fileCount))
        fillFdsBelow os p pid fd { c with heap := heap }
      else fillFdsBelow os p pid fd c

/-- With no descriptor above 0 the logarithm that sizes the path buffer has no value, and the
largest `int` has no successor. -/
def fillFds (os : Os) (c : Context Q) (p : Nat) (pid : Pid) : Except Abort (Context Q) :=
  let highestFd := os.myHighestFd.toInt
  if highestFd < 0 then .ok c
  else if highestFd = 0 ∨ highestFd = 2 ^ 31 - 1 then .error .undefined
  else do
    let fds ← resizeFds (c.heap.fds p) (BitVec.ofInt 64 (highestFd + 1))
    fillFdsBelow os p pid (highestFd.toNat + 1) { c with heap := c.heap.setFds p fds }

def registerTracee (os : Os) (c : Context Q) (pid : Pid) : Except Abort (Context Q) :=
  if pid ∈ c.procMap then .error (.assertion .registerTracee)
  else
    let p := c.heap.procCount
    let heap := c.heap.newProc ⟨[], c.newProcState os pid 0⟩
    let c := { c with
      heap := heap
      procMap := c.procMap.insert pid p
      groupLeaders := insert pid c.groupLeaders }
    c.fillFds os p pid

/-- The new process state both copying operations build before anything else changes. -/
def copyProc (os : Os) (c : Context Q) (src : Nat) (cloexecFree : Bool) (pid ppid : Pid) :
    Heap :=
  let (newfds, states) := c.heap.copyTable os cloexecFree (c.heap.fds src)
  (c.heap.newFiles states).newProc ⟨newfds, c.newProcState os pid ppid⟩

def registerExec (os : Os) (c : Context Q) (pid _execpid : Pid) : Except Abort (Context Q) := do
  let oldproc ← c.getProcState pid
  let newproc := c.heap.procCount
  let heap := c.copyProc os oldproc true pid (c.heap.procs oldproc).procInfo.ppid
  let c ← { c with heap := heap }.vanishProcess pid
  return { c with
    groupLeaders := insert pid c.groupLeaders
    procMap := c.procMap.insert pid newproc }

def registerProcess (os : Os) (c : Context Q) (parent child : Pid) :
    Except Abort (Context Q) :=
  if child ∈ c.procMap then .error (.assertion .registerProcess)
  else do
    let pproc ← c.getProcState parent
    return { c with
      heap := c.copyProc os pproc false child parent
      groupLeaders := insert child c.groupLeaders
      procMap := c.procMap.insert child c.heap.procCount }

/-- Whatever `ProcMap[thread]` pointed to before is let go. -/
def registerThread (c : Context Q) (pid thread : Pid) : Except Abort (Context Q) :=
  match c.procMap.lookup pid with
  | none => .error (.assertion .registerThread)
  | some p =>
    let c' := { c with procMap := c.procMap.insert thread p }
    match c.procMap.lookup thread with
    | none => .ok c'
    | some old => .ok (c'.releaseProc old)

def searchAndRegisterCoreDumpFile (os : Os) (c : Context Q) (pinfo : ProcInfo) (termSig : Int) :
    Context Q :=
  let filename := os.recoverCoreDumpFile pinfo.pid pinfo.commandName os.getCwd termSig
  if filename = "" then c
  else
    let output := OutputFile.mk (getFileLength os filename) filename pinfo
    { c with
      fileStorage := c.fileStorage.addFileEntry output
      reports := c.reports ++ [⟨none, output⟩] }

def registerCoreDump (os : Os) (c : Context Q) (pid : Pid) (termSig : Int) :
    Except Abort (Context Q) := do
  let p ← c.getProcState pid
  if c.options.searchForCoreDumps then
    return c.searchAndRegisterCoreDumpFile os (c.heap.procs p).procInfo termSig
  else return c

/-! ## The operations behind the syscall switch -/

/-- `fds.size() > fd && !!fds[fd]`: apply a member function to the file state of the slot. -/
def onTracked (c : Context Q) (p : Nat) (fd : Word) (f : FileState → FileState) : Context Q :=
  match slot (c.heap.fds p) fd.toNat with
  | some r => { c with heap := c.heap.updateFile r f }
  | none => c

def opOnTracked (c : Context Q) (pid : Pid) (fd : Word) (f : FileState → FileState) :
    Except Abort (Context Q) := do
  let p ← c.getProcState pid
  return c.onTracked p fd f

def opWriteChangeOffset (c : Context Q) (pid : Pid) (fd offset : Word) :=
  c.opOnTracked pid fd (FileState.enroll offset)

def opWriteNoOffsetChange (c : Context Q) (pid : Pid) (fd nbytes offset : Word) :=
  c.opOnTracked pid fd (FileState.enrollNoShift nbytes offset)

def opResize (c : Context Q) (pid : Pid) (fd size : Word) :=
  c.opOnTracked pid fd (FileState.enrollNoShift size 0)

def opSeek (c : Context Q) (pid : Pid) (fd pos : Word) :=
  c.opOnTracked pid fd (FileState.setCurrPos pos)

def opSetFlag (c : Context Q) (pid : Pid) (fd flags : Word) :=
  c.opOnTracked pid fd (FileState.setFlags flags)

/-- `ProcessInterruptionTarget`: `kill` the opener of a matching file. -/
def processInterruptionTarget (os : Os) (c : Context Q) (pid : Pid) (filename : String) :
    Context Q :=
  if os.fnmatch c.options.interruptionTarget filename then
    { c with kills := c.kills ++ [(pid, c.options.interruptionSignal)] }
  else c

/-- `fds[fd] = ...` behind the size test and the resize that go with it. -/
def growTo (fds : SlotTable Nat) (fd : Word) : Except Abort (SlotTable Nat) :=
  if fds.length ≤ fd.toNat then resizeFds fds (fd + 1) else .ok fds

def putSlot (fds : SlotTable Nat) (fd : Word) (r : Nat) : Except Abort (SlotTable Nat) :=
  if fd.toNat < fds.length then .ok (fds.set fd.toNat (some r)) else .error .undefined

/-- The slot is overwritten: what it held before is let go without a report. -/
def opOpenWriteFile (os : Os) (c : Context Q) (pid : Pid) (fd flags : Word) :
    Except Abort (Context Q) := do
  let p ← c.getProcState pid
  let fds ← growTo (c.heap.fds p) fd
  let filename ← readLink os (fdPath pid fd.toNat)
  let c := if c.options.interruptionSignal ≠ 0 then c.processInterruptionTarget os pid filename
    else c
  let heap := c.heap.newFiles [FileState.ofOpen os filename flags]
  let fds ← putSlot fds fd c.heap.fileCount
  return { c with heap := heap.setFds p fds }

def opOpenFile (os : Os) (c : Context Q) (pid : Pid) (fd flags : Word) :
    Except Abort (Context Q) :=
  if opensForWriting flags then c.opOpenWriteFile os pid fd flags else .ok c

def opClose (c : Context Q) (pid : Pid) (fd : Word) : Except Abort (Context Q) := do
  let p ← c.getProcState pid
  match slot (c.heap.fds p) fd.toNat with
  | some _ => c.tearDownFd p fd.toNat
  | none => return c

def opDup2 (c : Context Q) (pid : Pid) (oldfd newfd : Word) : Except Abort (Context Q × Bool) := do
  let p ← c.getProcState pid
  if oldfd = newfd then return (c, false)
  else
    -- newfd is an open descriptor, which the call closed
    let c ← match slot (c.heap.fds p) newfd.toNat with
      | some _ => c.opClose pid newfd
      | none => .ok c
    match slot (c.heap.fds p) oldfd.toNat with
    -- oldfd is not opened for writing
    | none => return (c, false)
    | some r =>
      let fds ← growTo (c.heap.fds p) newfd
      let fds ← putSlot fds newfd r
      return ({ c with heap := c.heap.setFds p fds }, true)

def opDup (c : Context Q) (pid : Pid) (fd newfd : Word) := c.opDup2 pid fd newfd

def opDup3 (c : Context Q) (pid : Pid) (oldfd newfd flags : Word) :
    Except Abort (Context Q × Bool) := do
  let (c, done) ← c.opDup pid oldfd newfd
  if done then
    let p ← c.getProcState pid
    return (c.onTracked p newfd (FileState.setCloexecFlag (hasFlag flags O_CLOEXEC)), true)
  else return (c, false)

/-- Run the operation the switch picked. -/
def perform (os : Os) (c : Context Q) (pid : Pid) : Op → Except Abort (Context Q)
  | .opWriteChangeOffset fd offset => c.opWriteChangeOffset pid fd offset
  | .opWriteNoOffsetChange fd nbytes offset => c.opWriteNoOffsetChange pid fd nbytes offset
  | .opOpenWriteFile fd flags => c.opOpenWriteFile os pid fd flags
  | .opOpenFile fd flags => c.opOpenFile os pid fd flags
  | .opClose fd => c.opClose pid fd
  | .opDup fd newfd => do return (← c.opDup pid fd newfd).1
  | .opDup2 oldfd newfd => do return (← c.opDup2 pid oldfd newfd).1
  | .opDup3 oldfd newfd flags => do return (← c.opDup3 pid oldfd newfd flags).1
  | .opSetFlag fd flags => c.opSetFlag pid fd flags
  | .opResize fd size => c.opResize pid fd size
  | .opSeek fd pos => c.opSeek pid fd pos

def syscallEnter (c : Context Q) (_pid : Pid) : Context Q := c

def syscallExit (arch : Arch) (os : Os) (c : Context Q) (pid : Pid) (registers : UserRegs arch) :
    Except Abort (Context Q) :=
  match syscallSwitch arch (syscallRegs arch registers) with
  | none => .ok c
  | some op => c.perform os pid op

/-! ## The end of a trace -/

/-- Which key `ProcMap.begin()` names when so many turns are left. The order of a hash map is
not specified, and may be another one after each erasure. -/
structure HashOrder where
  first : Nat → PidMap Nat → Pid
  first_mem : ∀ (n : Nat) (m : PidMap Nat), m ≠ ∅ → first n m ∈ m

/-- The order of the numbers is one such order. -/
def HashOrder.smallest : HashOrder where
  first _ m := if h : m.keys.Nonempty then m.keys.min' h else 0
  first_mem n m hm := by
    have hne : m.keys.Nonempty := by
      rw [Finset.nonempty_iff_ne_empty]
      intro hkeys
      refine hm (Finmap.ext_lookup fun pid => ?_)
      rw [Finmap.lookup_empty, Finmap.lookup_eq_none, ← Finmap.mem_keys, hkeys]
      exact Finset.notMem_empty pid
    rw [dif_pos hne, ← Finmap.mem_keys]
    exact m.keys.min'_mem hne

/-- The loop of `PostProcess`, given how many turns it may take. -/
def vanishAll (order : HashOrder) : Nat → Context Q → Option (Except Abort (Context Q))
  | 0, c => if c.procMap = ∅ then some (.ok c) else none
  | n + 1, c =>
    if c.procMap = ∅ then some (.ok c)
    else
      match c.vanishProcess (order.first n c.procMap) with
      | .ok c => vanishAll order n c
      | .error e => some (.error e)

end Context

end Optrace
