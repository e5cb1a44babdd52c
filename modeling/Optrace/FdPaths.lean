import Optrace.Context
import Optrace.HighestFd
import Mathlib.Analysis.SpecialFunctions.Log.Base
import Mathlib.Data.EReal.Operations

/-!
# The paths of the open descriptors

`FillFds` keeps the path it reads a link from in one string, and prints each descriptor's number
over the number before. Here it is with that string, whose size comes from a logarithm.
-/

namespace Optrace

set_option autoImplicit false

/-- What is in `prefix` at first. -/
def fdPrefix (pid : Pid) : List Char := ("/proc/" ++ toString pid ++ "/fd/").toList

/-- The size for which `prefix` is resized; the logarithm of 0 is minus infinity, which no `size_t`
can hold. -/
def pathSize (prefixSize highestFd : Nat) : Option Nat :=
  if highestFd = 0 then none else some (prefixSize + Nat.log 10 highestFd + 1)

/-- `prefix` after that, and the terminator behind it. -/
def pathBuffer (pid : Pid) (highestFd : Nat) : Option (List Char) :=
  (pathSize (fdPrefix pid).length highestFd).map fun size =>
    fdPrefix pid ++ (List.replicate (size - (fdPrefix pid).length) nul ++ [nul])

/-- The number goes behind the prefix, and the limit is the size the prefix had. -/
def printFd (pid : Pid) (fd : Nat) (buffer : List Char) : Option (List Char) :=
  Buffer.snprintf nul buffer (fdPrefix pid).length (fdPrefix pid).length (toString fd).toList

/-- What `readlink` is asked for. -/
def pathIn (buffer : List Char) : String := String.ofList (Buffer.text nul buffer)

/-! ## The logarithm -/

/-- `std::log10`, as the exact logarithm. -/
noncomputable def log10 (n : Nat) : EReal := if n = 0 then ⊥ else (Real.logb 10 n : ℝ)

/-- A floating number as a `size_t`: its whole part, if it is a number. -/
noncomputable def toSize (x : EReal) : Option Nat :=
  if x = ⊥ ∨ x = ⊤ then none else some ⌊x.toReal⌋₊

theorem toSize_coe (x : ℝ) : toSize x = some ⌊x⌋₊ := by
  rw [toSize, if_neg (not_or.mpr ⟨EReal.coe_ne_bot x, EReal.coe_ne_top x⟩), EReal.toReal_coe]

theorem toSize_log10 (prefixSize highestFd : Nat) :
    toSize (prefixSize + log10 highestFd + 1) = pathSize prefixSize highestFd := by
  rw [log10, pathSize]
  split
  · rw [EReal.add_bot, EReal.bot_add, toSize, if_pos (Or.inl rfl)]
  · have hcast : ((prefixSize : EReal) + ((Real.logb 10 highestFd : ℝ) : EReal) + 1) =
        ((Real.logb 10 highestFd + ((prefixSize + 1 : Nat) : ℝ) : ℝ) : EReal) := by
      push_cast
      rw [add_comm (prefixSize : EReal), add_assoc]
    have hnonneg : 0 ≤ Real.logb 10 highestFd := by
      rcases Nat.eq_zero_or_pos highestFd with rfl | hpos
      · simp
      · exact Real.logb_nonneg (by norm_num) (by exact_mod_cast hpos)
    have hfloor := Real.natFloor_logb_natCast 10 highestFd
    rw [hcast, toSize_coe, Nat.floor_add_natCast hnonneg]
    push_cast at hfloor
    rw [hfloor]
    congr 1
    omega

/-! ## The loop -/

/-- A buffer the loop arrives with at a descriptor, whichever it printed before. -/
inductive Arrives (pid : Pid) (highestFd : Nat) : Nat → List Char → Prop where
  | start {buffer : List Char} (h : pathBuffer pid highestFd = some buffer) :
      Arrives pid highestFd highestFd buffer
  | skip {fd : Nat} {buffer : List Char} (h : Arrives pid highestFd (fd + 1) buffer) :
      Arrives pid highestFd fd buffer
  | print {fd : Nat} {buffer buffer' : List Char} (h : Arrives pid highestFd (fd + 1) buffer)
      (hprint : printFd pid (fd + 1) buffer = some buffer') : Arrives pid highestFd fd buffer'

/-- What each printing relies on: the room for the highest number, behind the prefix. -/
structure Room (pid : Pid) (highestFd : Nat) (buffer : List Char) : Prop where
  length : buffer.length = (fdPrefix pid).length + Nat.log 10 highestFd + 2
  pre : buffer.take (fdPrefix pid).length = fdPrefix pid

theorem pathBuffer_eq_some_iff {pid : Pid} {highestFd : Nat} {buffer : List Char} :
    pathBuffer pid highestFd = some buffer ↔ highestFd ≠ 0 ∧
      buffer = fdPrefix pid ++ (List.replicate (Nat.log 10 highestFd + 1) nul ++ [nul]) := by
  have hroom : (fdPrefix pid).length + Nat.log 10 highestFd + 1 - (fdPrefix pid).length =
      Nat.log 10 highestFd + 1 := by omega
  unfold pathBuffer pathSize
  split
  · rename_i hzero
    simp [hzero]
  · rename_i hne
    rw [Option.map_some, hroom, Option.some.injEq]
    exact ⟨fun h => ⟨hne, h.symm⟩, fun h => h.2.symm⟩

theorem pathBuffer_room {pid : Pid} {highestFd : Nat} {buffer : List Char}
    (h : pathBuffer pid highestFd = some buffer) : Room pid highestFd buffer := by
  obtain ⟨-, rfl⟩ := pathBuffer_eq_some_iff.mp h
  constructor
  · simp only [List.length_append, List.length_replicate, List.length_singleton]
    omega
  · exact List.take_left

/-- No number up to the highest has more digits. -/
theorem length_toString_le {fd highestFd : Nat} (h : fd ≤ highestFd) :
    (toString fd).toList.length ≤ Nat.log 10 highestFd + 1 := by
  have hlt : highestFd < 10 ^ (Nat.log 10 highestFd + 1) :=
    Nat.lt_pow_succ_log_self (by decide) highestFd
  rw [String.length_toList, Nat.toString_eq_repr, Nat.length_repr_le_iff (by omega)]
  omega

theorem nul_not_mem_toString (n : Int) : nul ∉ (toString n).toList :=
  fun h => absurd (toString_chars n h) (by decide)

theorem length_toString_pos (n : Int) : 0 < (toString n).length := by
  rw [Int.toString_eq_repr, Int.repr_eq_if]
  split
  · exact Nat.length_repr_pos
  · rw [String.length_append]
    exact Nat.add_pos_right _ Nat.length_repr_pos

theorem length_fdPrefix (pid : Pid) : (fdPrefix pid).length = 6 + (toString pid).length + 4 := by
  rw [fdPrefix, String.length_toList, String.length_append, String.length_append]
  rfl

theorem nul_not_mem_fdPrefix (pid : Pid) : nul ∉ fdPrefix pid := by
  rw [fdPrefix, String.toList_append, String.toList_append, List.mem_append, List.mem_append]
  exact not_or.mpr ⟨not_or.mpr ⟨by decide, nul_not_mem_toString pid⟩, by decide⟩

/-- The shortest prefix is longer than the longest `int`. -/
theorem length_toString_lt (pid : Pid) {fd : Nat} (h : fd < 2 ^ 31) :
    (toString fd).toList.length < (fdPrefix pid).length := by
  have hdigits : (toString fd).toList.length ≤ 10 := by
    rw [String.length_toList, Nat.toString_eq_repr, Nat.length_repr_le_iff (by omega)]
    omega
  have hpid := length_toString_pos pid
  have hprefix := length_fdPrefix pid
  omega

theorem fdPath_eq (pid : Pid) (fd : Nat) :
    fdPath pid fd = String.ofList (fdPrefix pid ++ (toString fd).toList) := by
  have hslash : "/" ++ ("fd/" ++ toString fd) = "/fd/" ++ toString fd := by
    rw [← String.append_assoc]
    rfl
  rw [fdPath, procPath, fdPrefix, String.ofList_append, String.ofList_toList, String.ofList_toList,
    String.append_assoc, hslash, ← String.append_assoc]

/-- One printing: the number fits in, is not cut off, and makes the path of its descriptor. -/
theorem Room.print {pid : Pid} {highestFd fd : Nat} {buffer : List Char}
    (h : Room pid highestFd buffer) (hfd : fd ≤ highestFd) (hint : fd < 2 ^ 31) :
    ∃ buffer', printFd pid fd buffer = some buffer' ∧ Room pid highestFd buffer' ∧
      pathIn buffer' = fdPath pid fd := by
  have hdigits := length_toString_le hfd
  have hprint : printFd pid fd buffer =
      Buffer.store buffer (fdPrefix pid).length ((toString fd).toList ++ [nul]) :=
    Buffer.snprintf_eq_store (length_toString_lt pid hint)
  rw [hprint]
  cases hstore : Buffer.store buffer (fdPrefix pid).length ((toString fd).toList ++ [nul]) with
  | none =>
    have hlt := Buffer.store_eq_none_iff.mp hstore
    rw [h.length, List.length_append, List.length_singleton] at hlt
    omega
  | some buffer' =>
    have hbefore : nul ∉ buffer.take (fdPrefix pid).length := by
      rw [h.pre]
      exact nul_not_mem_fdPrefix pid
    refine ⟨buffer', rfl, ⟨?_, ?_⟩, ?_⟩
    · rw [Buffer.length_store hstore, h.length]
    · rw [Buffer.take_store hstore, h.pre]
    · rw [pathIn, Buffer.text_store hstore hbefore (nul_not_mem_toString fd), h.pre, fdPath_eq]

/-- Every buffer of the loop has the room, and so the loop never runs out of it. -/
theorem Arrives.room {pid : Pid} {highestFd fd : Nat} {buffer : List Char}
    (hint : highestFd < 2 ^ 31) (h : Arrives pid highestFd fd buffer) :
    fd ≤ highestFd ∧ Room pid highestFd buffer := by
  induction h with
  | start h => exact ⟨le_refl _, pathBuffer_room h⟩
  | skip _ ih => exact ⟨by omega, ih.2⟩
  | @print fd buffer buffer' _ hprint ih =>
    obtain ⟨hfd, hroom⟩ := ih
    obtain ⟨buffer'', hprint', hroom', -⟩ := hroom.print hfd (by omega)
    rw [hprint] at hprint'
    cases hprint'
    exact ⟨by omega, hroom'⟩

/-- What the string is for: it has a size, and at every descriptor of the loop the number and its
terminator stay inside, nothing of them is cut off, and the path is the descriptor's own. -/
structure ReadsLinks (pid : Pid) (highestFd : Nat) : Prop where
  size : ∃ size buffer, toSize ((fdPrefix pid).length + log10 highestFd + 1) = some size ∧
    pathBuffer pid highestFd = some buffer ∧ buffer.length = size + 1
  uncut : ∀ fd ≤ highestFd, (toString fd).toList.length + 1 ≤ (fdPrefix pid).length
  inside : ∀ fd buffer, Arrives pid highestFd fd buffer →
    (fdPrefix pid).length + (toString fd).toList.length + 1 ≤ buffer.length
  path : ∀ fd buffer, Arrives pid highestFd fd buffer →
    ∃ buffer', printFd pid fd buffer = some buffer' ∧ pathIn buffer' = fdPath pid fd

/-- All of it holds as soon as a descriptor above 0 is open. -/
theorem readsLinks_iff (pid : Pid) {highestFd : BitVec 32} (h : 0 ≤ highestFd.toInt) :
    ReadsLinks pid highestFd.toInt.toNat ↔ 1 ≤ highestFd.toInt := by
  have hint : highestFd.toInt.toNat < 2 ^ 31 := by
    have := @BitVec.toInt_lt 32 highestFd
    omega
  generalize highestFd.toInt = n at h hint ⊢
  constructor
  · rintro ⟨⟨size, buffer, -, hbuffer, -⟩, -⟩
    obtain ⟨hne, -⟩ := pathBuffer_eq_some_iff.mp hbuffer
    omega
  · intro hpos
    have hne : n.toNat ≠ 0 := by omega
    refine ⟨?_, ?_, ?_, ?_⟩
    · have hbuffer := pathBuffer_eq_some_iff.mpr ⟨hne, (rfl : _ = fdPrefix pid ++ _)⟩
      refine ⟨_, _, (toSize_log10 _ _).trans (if_neg hne), hbuffer, ?_⟩
      rw [(pathBuffer_room hbuffer).length]
    · intro fd hfd
      exact length_toString_lt pid (by omega)
    · intro fd buffer harrives
      obtain ⟨hfd, hroom⟩ := harrives.room hint
      have hdigits := length_toString_le hfd
      rw [hroom.length]
      omega
    · intro fd buffer harrives
      obtain ⟨hfd, hroom⟩ := harrives.room hint
      obtain ⟨buffer', hprint, -, hpath⟩ := hroom.print hfd (by omega)
      exact ⟨buffer', hprint, hpath⟩

theorem readsLinks_iff_three : ReadsLinks 77 (3 : BitVec 32).toInt.toNat :=
  (readsLinks_iff 77 (by decide)).mpr (by decide)

/-- With standard input alone there is no size. -/
theorem not_readsLinks_zero : ¬ReadsLinks 77 (0 : BitVec 32).toInt.toNat := by
  rintro ⟨⟨size, buffer, -, hbuffer, -⟩, -⟩
  cases hbuffer

/-! ## The whole operation -/

namespace Context

variable {Q : Type}

/-- The loop of `FillFds` with its string. -/
def fillFdsFrom (os : Os) (p : Nat) (pid : Pid) :
    Nat → List Char → Context Q → Except Abort (Context Q)
  | 0, _, c => .ok c
  | fd + 1, buffer, c =>
    match os.fdFlags fd with
    | none => fillFdsFrom os p pid fd buffer c
    | some flags =>
      if os.isFile fd then
        match printFd pid fd buffer with
        | none => .error .undefined
        | some buffer => do
          let filename ← readLink os (pathIn buffer)
          let heap := c.heap.newFiles [FileState.ofOpen os filename flags]
          let heap := heap.setFds p ((heap.fds p).set fd (some c.heap.fileCount))
          fillFdsFrom os p pid fd buffer { c with heap := heap }
      else fillFdsFrom os p pid fd buffer c

/-- `FillFds` with its string. -/
def fillFdsInPlace (os : Os) (c : Context Q) (p : Nat) (pid : Pid) : Except Abort (Context Q) :=
  let highestFd := os.myHighestFd.toInt
  if highestFd < 0 then .ok c
  else if highestFd = 2 ^ 31 - 1 then .error .undefined
  else do
    let fds ← resizeFds (c.heap.fds p) (BitVec.ofInt 64 (highestFd + 1))
    match pathBuffer pid highestFd.toNat with
    | none => .error .undefined
    | some buffer =>
      fillFdsFrom os p pid (highestFd.toNat + 1) buffer { c with heap := c.heap.setFds p fds }

theorem fillFdsFrom_eq {os : Os} {p highestFd : Nat} {pid : Pid} (hint : highestFd < 2 ^ 31)
    (n : Nat) (hn : n ≤ highestFd + 1) {buffer : List Char} (hroom : Room pid highestFd buffer)
    (c : Context Q) : fillFdsFrom os p pid n buffer c = fillFdsBelow os p pid n c := by
  induction n generalizing buffer c with
  | zero => rfl
  | succ fd ih =>
    rw [fillFdsFrom, fillFdsBelow]
    cases os.fdFlags fd with
    | none => exact ih (by omega) hroom c
    | some flags =>
      have hfd : fd ≤ highestFd := by omega
      obtain ⟨buffer', hprint, hroom', hpath⟩ := hroom.print hfd (by omega)
      simp only [hprint, hpath, ih (by omega) hroom']
      split
      · rfl
      · exact ih (by omega) hroom c

/-- The string does its work: the operation is the one that reads the descriptors' own links. -/
theorem fillFdsInPlace_eq (os : Os) (c : Context Q) (p : Nat) (pid : Pid) :
    c.fillFdsInPlace os p pid = c.fillFds os p pid := by
  have hint := @BitVec.toInt_lt 32 os.myHighestFd
  unfold fillFdsInPlace fillFds
  generalize os.myHighestFd.toInt = n at hint ⊢
  simp only
  by_cases hneg : n < 0
  · rw [if_pos hneg, if_pos hneg]
  rw [if_neg hneg, if_neg hneg]
  by_cases hzero : n = 0
  · subst hzero
    rfl
  by_cases hmax : n = 2 ^ 31 - 1
  · rw [if_pos hmax, if_pos (Or.inr hmax)]
  rw [if_neg hmax, if_neg (not_or.mpr ⟨hzero, hmax⟩)]
  have hbuffer := pathBuffer_eq_some_iff.mpr ⟨(by omega : n.toNat ≠ 0), (rfl : _ = fdPrefix pid ++ _)⟩
  simp only [hbuffer, fillFdsFrom_eq (by omega) _ (le_refl _) (pathBuffer_room hbuffer)]

end Context

end Optrace
