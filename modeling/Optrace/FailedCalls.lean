import Optrace.BpfProgram
import Optrace.Trace

/-!
# Calls that fail

No case of the switch acts on a return word that is a kernel error, except the one of `close`,
which does not look at it; and a close is about one slot.
-/

namespace Optrace

set_option autoImplicit false
set_option linter.unusedSectionVars false

open SlotTable Context

variable {Q : Type} [MaxOutFilesQueue Q] {arch : Arch}

/-! ## The casts of a kernel error -/

theorem asSsize_failed {retdata : Word} (h : ¬Successful retdata) : ¬0 < asSsize retdata := by
  have herror := not_not.mp h
  unfold asSsize
  omega

theorem asInt_failed {retdata : Word} (h : ¬Successful retdata) : ¬0 ≤ asInt retdata := by
  obtain ⟨hlow, hhigh⟩ := not_not.mp h
  have hneg := asInt_error hlow (by omega)
  omega

theorem syscallSwitch_failed {r : SyscallRegs} (hfailed : ¬Successful r.retdata)
    (hclose : syscallOf arch r.nr ≠ some .SYS_close) : syscallSwitch arch r = none := by
  have hssize := asSsize_failed hfailed
  have hint := asInt_failed hfailed
  unfold syscallSwitch
  cases hs : syscallOf arch r.nr with
  | none => rfl
  | some s =>
    cases s with
    | SYS_close => exact absurd hs hclose
    | SYS_write => exact if_neg hssize
    | SYS_writev => exact if_neg hssize
    | SYS_pwritev => exact if_neg hssize
    | SYS_pwrite64 => exact if_neg hssize
    | SYS_pwritev2 => exact if_neg hssize
    | _ => exact if_neg hint

/-! ## What a close changes -/

/-- Nothing but the slot, and the storage if that was the last one of its file state. -/
structure ClosesOnly (p fd : Nat) (c c' : Context Q) : Prop where
  options : c'.options = c.options
  groupLeaders : c'.groupLeaders = c.groupLeaders
  procMap : c'.procMap = c.procMap
  procCount : c'.heap.procCount = c.heap.procCount
  procInfo : ∀ q, (c'.heap.procs q).procInfo = (c.heap.procs q).procInfo
  files : c'.heap.files = c.heap.files
  fileCount : c'.heap.fileCount = c.heap.fileCount
  kills : c'.kills = c.kills
  lengths : ∀ q, (c'.heap.fds q).length = (c.heap.fds q).length
  slots : ∀ q i, slot (c'.heap.fds q) i = if q = p ∧ i = fd then none else slot (c.heap.fds q) i
  lastRef : ∀ r, slot (c.heap.fds p) fd = some r → c.heap.useCount r = 1 →
    c'.fileStorage =
      c.fileStorage.addFileEntry (OutputFile.ofState (c.heap.files r) (c.heap.procs p).procInfo)
  storage : (∀ r, slot (c.heap.fds p) fd = some r → c.heap.useCount r ≠ 1) →
    c'.fileStorage = c.fileStorage

theorem clearSlot_kills (c : Context Q) (p fd r : Nat) : (c.clearSlot p fd r).kills = c.kills := by
  unfold clearSlot
  split <;> rfl

theorem clearSlot_length (c : Context Q) (p fd r q : Nat) :
    ((c.clearSlot p fd r).heap.fds q).length = (c.heap.fds q).length := by
  rw [clearSlot_heap, Heap.setFds_fds]
  split
  · rename_i hq
    rw [List.length_set, hq]
  · rfl

theorem closedAt_closesOnly (c : Context Q) (p fd : Nat) : ClosesOnly p fd c (c.closedAt p fd) := by
  have hsame : c.SameRegistry (c.closedAt p fd) := closedAt_sameRegistry fd
  obtain ⟨hoptions, hleaders, hmap, hcount, hinfo⟩ := hsame
  have hslots : ∀ q i, _ := closedAt_slot (c := c) (p := p) fd
  cases hslot : slot (c.heap.fds p) fd with
  | none =>
    have hsame : c.closedAt p fd = c := by simp only [closedAt, hslot]
    rw [hsame] at hslots ⊢
    refine ⟨rfl, rfl, rfl, rfl, fun _ => rfl, rfl, rfl, rfl, fun _ => rfl, hslots, ?_, fun _ => rfl⟩
    intro r hr
    rw [hslot] at hr
    cases hr
  | some r =>
    have hclear : c.closedAt p fd = c.clearSlot p fd r := by simp only [closedAt, hslot]
    rw [hclear] at hoptions hleaders hmap hcount hinfo hslots ⊢
    refine ⟨hoptions, hleaders, hmap, hcount, hinfo, rfl, rfl, clearSlot_kills c p fd r,
      clearSlot_length c p fd r, hslots, ?_, ?_⟩
    · intro s hs hone
      rw [hslot] at hs
      cases hs
      rw [clearSlot_fileStorage, if_pos hone]
    · intro hmore
      rw [clearSlot_fileStorage, if_neg (hmore r hslot)]

theorem syscallExit_close {os : Os} {c : Context Q} {pid : Pid} {p : Nat}
    {registers : UserRegs arch} (hp : c.procMap.lookup pid = some p)
    (hclose : syscallOf arch (syscallRegs arch registers).nr = some .SYS_close) :
    c.syscallExit arch os pid registers =
      .ok (c.closedAt p (syscallRegs arch registers).arg0.toNat) := by
  have hswitch : syscallSwitch arch (syscallRegs arch registers) =
      some (.opClose (syscallRegs arch registers).arg0) := by
    rw [syscallSwitch, hclose]
  rw [syscallExit, hswitch]
  exact opClose_eq hp _

/-- A call that fails leaves the tracker as it was, unless it is a close; and a close, whatever it
returns, changes one slot and reports what it held last. -/
theorem failed_calls_change_nothing {os : Os} {c : Context Q} {pid : Pid} {p : Nat}
    {registers : UserRegs arch} (hp : c.procMap.lookup pid = some p) :
    (¬Successful (syscallRegs arch registers).retdata →
      syscallOf arch (syscallRegs arch registers).nr ≠ some .SYS_close →
      c.syscallExit arch os pid registers = .ok c) ∧
    (syscallOf arch (syscallRegs arch registers).nr = some .SYS_close →
      ∃ c', c.syscallExit arch os pid registers = .ok c' ∧
        ClosesOnly p (syscallRegs arch registers).arg0.toNat c c') := by
  constructor
  · intro hfailed hclose
    rw [syscallExit, syscallSwitch_failed hfailed hclose]
  · intro hclose
    exact ⟨_, syscallExit_close hp hclose, closedAt_closesOnly c p _⟩

open FileStorage in
/-- An interrupted write to descriptor 3 (-512 is `ERESTARTSYS`), which is open for writing, and a
close of it that fails. -/
theorem failed_calls_change_nothing_open :
    ∃ c : Context FileQueue,
      plainStart.syscallExit .x86_64 (plainOs 0) 1 (exitRegs .x86_64 ⟨2, 3, 0, 1, 0, 0⟩) = .ok c ∧
      slot (c.heap.fds 0) 3 = some 0 ∧
      c.syscallExit .x86_64 (plainOs 0) 1 (exitRegs .x86_64 ⟨1, -512, 3, 0, 5, 0⟩) = .ok c ∧
      ∃ c', c.syscallExit .x86_64 (plainOs 0) 1 (exitRegs .x86_64 ⟨3, -9, 3, 0, 0, 0⟩) = .ok c' ∧
        ClosesOnly 0 3 c c' := by
  refine ⟨_, rfl, by decide, ?_, ?_⟩
  · refine (@failed_calls_change_nothing _ _ .x86_64 (plainOs 0) _ 1 0
      (exitRegs .x86_64 ⟨1, -512, 3, 0, 5, 0⟩) (by decide)).1 ?_ (by decide)
    exact not_not.mpr (by decide)
  · exact (@failed_calls_change_nothing _ _ .x86_64 (plainOs 0) _ 1 0
      (exitRegs .x86_64 ⟨3, -9, 3, 0, 0, 0⟩) (by decide)).2 (by decide)

end Optrace
