import Mathlib.Data.BitVec
import Mathlib.Data.Finmap

/-!
# Tracker records

The records of `types.h` and `optrace.h`. A `size_t` is a 64-bit word; whatever the
tracer asks the running system while it handles one notification is read from an
`Os` snapshot. A file state is a mutable object: the heap that gives it an identity
is in `Context`.
-/

namespace Optrace

set_option autoImplicit false

/-- `size_t`, `unsigned long long` and a register. -/
abbrev Word := BitVec 64

/-- `pid_t`. -/
abbrev Pid := Int

abbrev PidMap (β : Type) := Finmap fun _ : Pid => β

theorem PidMap.lookup_insert {β : Type} (m : PidMap β) (pid tid : Pid) (v : β) :
    Finmap.lookup tid (m.insert pid v) = if tid = pid then some v else m.lookup tid := by
  by_cases htid : tid = pid
  · subst htid
    simp
  · rw [if_neg htid, Finmap.lookup_insert_of_ne m htid]

theorem PidMap.lookup_erase {β : Type} (m : PidMap β) (pid tid : Pid) :
    Finmap.lookup tid (m.erase pid) = if tid = pid then none else m.lookup tid := by
  by_cases htid : tid = pid
  · subst htid
    simp
  · rw [if_neg htid, Finmap.lookup_erase_ne htid]

/-- `(ssize_t)w`. -/
def asSsize (w : Word) : Int := w.toInt

/-- `(int)w`: the low half, read as signed. -/
def asInt (w : Word) : Int := (w.setWidth 32).toInt

theorem asInt_error {w : Word} (hlow : -4095 ≤ w.toInt) (hneg : w.toInt < 0) : asInt w < 0 := by
  rw [BitVec.toInt_eq_toNat_cond] at hlow hneg
  rw [asInt, BitVec.toInt_eq_toNat_cond, BitVec.toNat_setWidth]
  have hlt := w.isLt
  split at hlow
  · omega
  · split <;> omega

def O_WRONLY : Word := 0o1
def O_RDWR : Word := 0o2
def O_APPEND : Word := 0o2000
def O_CLOEXEC : Word := 0o2000000

def FD_CLOEXEC : Word := 1

/-- A flag test `flags & mask` in a boolean context. -/
def hasFlag (flags mask : Word) : Bool := flags &&& mask != 0

structure Options where
  output : String
  appendOutput : Bool
  followForks : Bool
  waitDaemons : Bool
  jailForks : Bool
  humanReadableSizes : Bool
  filesInReport : Int
  commandLengthLimit : Int
  useSecComp : Bool
  searchForCoreDumps : Bool
  forwardingSignals : List Int
  forwardAllSignals : Bool
  storeEmptyFiles : Bool
  interruptionTarget : String
  interruptionSignal : Int

/-- One look at the running system: `/proc`, `stat`, `readlink`, the tracer's own
descriptors, and the two helpers of `utils.cpp` and `cores.cpp` that read nothing else. -/
structure Os where
  fileContent : String → Option String
  stat : String → Option Word
  readlink : String → Option String
  fdFlags : Nat → Option Word
  isFile : Nat → Bool
  myHighestFd : BitVec 32
  getCwd : String
  recoverCoreDumpFile : Pid → String → String → Int → String
  fnmatch : String → String → Bool

def isSpace (ch : Char) : Bool := ch == ' ' || ch == '\t' || ch == '\n' || ch == '\r'

def stripString (str : String) : String :=
  let kept := (str.toList.reverse.dropWhile isSpace).reverse
  String.ofList (kept.dropWhile isSpace)

/-- A negative limit reads the whole file, and `0` nothing of it. -/
def readFileSafe (os : Os) (filename : String) (limit : Int) : String :=
  match os.fileContent filename with
  | none => ""
  | some text =>
    if limit < 0 then stripString text
    else stripString (String.ofList (text.toList.take limit.toNat))

/-- A failed `stat` counts as length 0. -/
def getFileLength (os : Os) (filename : String) : Word := (os.stat filename).getD 0

def procPath (pid : Pid) (entry : String) : String := "/proc/" ++ toString pid ++ "/" ++ entry

def fdPath (pid : Pid) (fd : Nat) : String := procPath pid ("fd/" ++ toString fd)

/-- A number in text is digits, and at most a dash. -/
theorem toString_chars (n : Int) {ch : Char} (h : ch ∈ (toString n).toList) :
    ch.isDigit = true ∨ ch = '-' := by
  rw [Int.toString_eq_repr, Int.repr_eq_if] at h
  split at h
  · rw [Nat.toList_repr] at h
    exact Or.inl (Nat.isDigit_of_mem_toDigits (by decide) (by decide) h)
  · rw [String.toList_append, Nat.toList_repr, List.mem_append] at h
    rcases h with h | h
    · exact Or.inr (by simpa using h)
    · exact Or.inl (Nat.isDigit_of_mem_toDigits (by decide) (by decide) h)

def getCommandLine (os : Os) (pid : Pid) (limit : Int) : String :=
  let cmdline := readFileSafe os (procPath pid "cmdline") limit
  String.ofList (cmdline.toList.map fun ch => if ch = Char.ofNat 0 then ' ' else ch)

structure ProcInfo where
  pid : Pid
  ppid : Pid
  commandName : String
  commandLine : String
  deriving DecidableEq, Inhabited

structure FileState where
  maxPos : Word
  currPos : Word
  flags : Word
  initSize : Word
  filename : String
  deriving DecidableEq, Inhabited

namespace FileState

def isAppendSet (s : FileState) : Bool := hasFlag s.flags O_APPEND

def isCloexecSet (s : FileState) : Bool := hasFlag s.flags O_CLOEXEC

/-- `TFileState(filename, flags)`. -/
def ofOpen (os : Os) (filename : String) (flags : Word) : FileState :=
  let initSize := getFileLength os filename
  { maxPos := 0
    currPos := if hasFlag flags O_APPEND then initSize else 0
    flags := flags
    initSize := initSize
    filename := filename }

/-- `TFileState(const TFileState&)`: only the initial size is read anew. -/
def copy (os : Os) (s : FileState) : FileState :=
  { s with initSize := getFileLength os s.filename }

def setFlags (flags : Word) (s : FileState) : FileState := { s with flags := flags }

def setCloexecFlag (on : Bool) (s : FileState) : FileState :=
  { s with flags := if on then s.flags ||| O_CLOEXEC else s.flags &&& ~~~O_CLOEXEC }

def setCurrPos (pos : Word) (s : FileState) : FileState := { s with currPos := pos }

def getOutputSize (s : FileState) : Word :=
  if s.initSize < s.maxPos then s.maxPos - s.initSize else 0

def enroll (nbytes : Word) (s : FileState) : FileState :=
  let currPos := s.currPos + nbytes
  { s with currPos := currPos, maxPos := if s.maxPos < currPos then currPos else s.maxPos }

def enrollNoShift (nbytes offset : Word) (s : FileState) : FileState :=
  { s with maxPos := if s.maxPos < offset + nbytes then offset + nbytes else s.maxPos }

@[simp] theorem copy_maxPos (os : Os) (s : FileState) : (s.copy os).maxPos = s.maxPos := rfl

@[simp] theorem copy_filename (os : Os) (s : FileState) : (s.copy os).filename = s.filename := rfl

@[simp] theorem copy_initSize (os : Os) (s : FileState) :
    (s.copy os).initSize = getFileLength os s.filename := rfl

/-- The reported size is the truncated difference. -/
theorem getOutputSize_toNat (s : FileState) :
    s.getOutputSize.toNat = s.maxPos.toNat - s.initSize.toNat := by
  unfold getOutputSize
  split
  · rename_i hlt
    exact BitVec.toNat_sub_of_le (BitVec.le_of_lt hlt)
  · rename_i hle
    have hle' : s.maxPos.toNat ≤ s.initSize.toNat := by simpa [BitVec.lt_def] using hle
    simp [Nat.sub_eq_zero_of_le hle']

theorem getOutputSize_eq_zero_iff (s : FileState) :
    s.getOutputSize = 0 ↔ s.maxPos.toNat ≤ s.initSize.toNat := by
  rw [← BitVec.toNat_inj, getOutputSize_toNat]
  simp [Nat.sub_eq_zero_iff_le]

theorem isCloexecSet_setCloexecFlag (on : Bool) (s : FileState) :
    (s.setCloexecFlag on).isCloexecSet = on := by
  cases on
  · simp [isCloexecSet, setCloexecFlag, hasFlag, BitVec.and_assoc]
  · have hor : (s.flags ||| O_CLOEXEC) &&& O_CLOEXEC = O_CLOEXEC := by
      ext i hi
      simp only [BitVec.getElem_and, BitVec.getElem_or]
      cases s.flags[i] <;> simp
    simp [isCloexecSet, setCloexecFlag, hasFlag, hor]
    decide

end FileState

/-- What `TFileStorage` keeps of a file. -/
structure OutputFile where
  size : Word
  filename : String
  procInfo : ProcInfo
  deriving DecidableEq, Inhabited

/-- `TOutputFile(TFileState const*, TProcInfoPtr)`. -/
def OutputFile.ofState (file : FileState) (pinfo : ProcInfo) : OutputFile :=
  ⟨file.getOutputSize, file.filename, pinfo⟩

end Optrace
