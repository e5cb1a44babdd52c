import Optrace.Operations

/-!
# The first table

`FillFds` makes a file state for each regular file the tracer has open, one descriptor after
another.
-/

namespace Optrace

set_option autoImplicit false
set_option linter.unusedSectionVars false

open SlotTable Except

variable {Q : Type} [MaxOutFilesQueue Q]

/-- The file state of a descriptor the tracer has open, if it is one of a regular file. -/
def inheritedState (os : Os) (pid : Pid) (fd : Nat) : Option FileState :=
  (os.fdFlags fd).bind fun flags =>
    if os.isFile fd then
      (os.readlink (fdPath pid fd)).map fun filename => FileState.ofOpen os filename flags
    else none

namespace Context

variable {c c' : Context Q} {os : Os} {pid : Pid} {p : Nat}

theorem fileAt_filled (h : Heap) {fd : Nat} (hfd : fd < (h.fds p).length)
    (hbound : ∀ i r, slot (h.fds p) i = some r → r < h.fileCount) (s : FileState) (i : Nat) :
    (slot ((h.fds p).set fd (some h.fileCount)) i).map (h.newFiles [s]).files =
      if fd = i then some s else (slot (h.fds p) i).map h.files := by
  rw [slot_set hfd]
  split
  · have hself := h.newFiles_files_new [s] (i := 0) rfl
    rw [Nat.add_zero] at hself
    rw [Option.map_some, hself]
  · cases hold : slot (h.fds p) i with
    | none => rfl
    | some r => rw [Option.map_some, Option.map_some, Heap.newFiles_files_old _ _ (hbound i r hold)]

/-- The loop fills the slots below its bound, each from its own descriptor. -/
theorem fillFdsBelow_fileAt (n : Nat) {c c' : Context Q} (hlen : n ≤ (c.heap.fds p).length)
    (hempty : ∀ i < n, slot (c.heap.fds p) i = none)
    (hbound : ∀ i r, slot (c.heap.fds p) i = some r → r < c.heap.fileCount)
    (h : fillFdsBelow os p pid n c = .ok c') (i : Nat) :
    (slot (c'.heap.fds p) i).map c'.heap.files =
      if i < n then inheritedState os pid i else (slot (c.heap.fds p) i).map c.heap.files := by
  induction n generalizing c with
  | zero =>
    cases h
    rw [if_neg (by omega)]
  | succ fd ih =>
    have hskip : inheritedState os pid fd = none → fillFdsBelow os p pid fd c = .ok c' →
        (slot (c'.heap.fds p) i).map c'.heap.files =
          if i < fd + 1 then inheritedState os pid i
          else (slot (c.heap.fds p) i).map c.heap.files := by
      intro hnone h
      rw [ih (by omega) (fun j hj => hempty j (by omega)) hbound h]
      by_cases hi : i = fd
      · subst hi
        rw [if_neg (by omega), if_pos (by omega), hempty i (by omega), hnone]
        rfl
      · have hiff : i < fd ↔ i < fd + 1 := by omega
        simp only [hiff]
    simp only [fillFdsBelow] at h
    cases hflags : os.fdFlags fd with
    | none =>
      rw [hflags] at h
      exact hskip (by rw [inheritedState, hflags]; rfl) h
    | some flags =>
      simp only [hflags] at h
      split at h
      · rename_i hfile
        obtain ⟨filename, hlink, h⟩ := bind_eq_ok_iff.mp h
        have hread := readLink_ok hlink
        have hslots : ∀ j, slot ((c.heap.fds p).set fd (some c.heap.fileCount)) j =
            if fd = j then some c.heap.fileCount else slot (c.heap.fds p) j :=
          slot_set (by omega) _
        rw [ih ?_ ?_ ?_ h]
        · simp only [Heap.setFds_fds_self, Heap.newFiles_fds, Heap.setFds_files,
            fileAt_filled c.heap hlen hbound]
          by_cases hi : i = fd
          · subst hi
            rw [if_neg (by omega), if_pos rfl, if_pos (by omega), inheritedState, hflags,
              Option.bind_some, if_pos hfile, hread, Option.map_some]
          · have hiff : i < fd ↔ i < fd + 1 := by omega
            rw [if_neg (Ne.symm hi)]
            simp only [hiff]
        · simp only [Heap.newFiles_fds, Heap.setFds_fds_self, List.length_set]
          omega
        · intro j hj
          simp only [Heap.newFiles_fds, Heap.setFds_fds_self, hslots]
          rw [if_neg (by omega)]
          exact hempty j (by omega)
        · intro j r hr
          simp only [Heap.newFiles_fds, Heap.setFds_fds_self, hslots] at hr
          simp only [Heap.setFds_fileCount, Heap.newFiles_fileCount, List.length_singleton]
          split at hr
          · cases hr
            omega
          · have := hbound j r hr
            omega
      · rename_i hfile
        exact hskip (by rw [inheritedState, hflags, Option.bind_some, if_neg hfile]) h

/-- The loop ends only if it could read every link it wanted to. -/
theorem fillFdsBelow_reads (n : Nat) {c c' : Context Q} (h : fillFdsBelow os p pid n c = .ok c')
    {i : Nat} (hi : i < n) {flags : Word} (hflags : os.fdFlags i = some flags)
    (hfile : os.isFile i = true) : ∃ filename, os.readlink (fdPath pid i) = some filename := by
  induction n generalizing c with
  | zero => omega
  | succ fd ih =>
    simp only [fillFdsBelow] at h
    by_cases hne : i = fd
    · subst hne
      simp only [hflags, if_pos hfile] at h
      obtain ⟨filename, hlink, -⟩ := bind_eq_ok_iff.mp h
      exact ⟨filename, readLink_ok hlink⟩
    · have hlt : i < fd := by omega
      split at h
      · exact ih h hlt
      · split at h
        · obtain ⟨_, -, h⟩ := bind_eq_ok_iff.mp h
          exact ih h hlt
        · exact ih h hlt

theorem registerTracee_reads (h : c.registerTracee os pid = .ok c') {fd : Nat}
    (hfd : (fd : Int) ≤ os.myHighestFd.toInt) {flags : Word} (hflags : os.fdFlags fd = some flags)
    (hfile : os.isFile fd = true) : ∃ filename, os.readlink (fdPath pid fd) = some filename := by
  unfold registerTracee at h
  split at h
  · cases h
  · rcases fillFds_ok h with ⟨hneg, -⟩ | ⟨_, h⟩
    · omega
    · exact fillFdsBelow_reads _ h (by omega) hflags hfile

/-- The table `RegisterTracee` begins with. -/
theorem registerTracee_fileAt (h : c.registerTracee os pid = .ok c') (fd : Nat) :
    (slot (c'.heap.fds c.heap.procCount) fd).map c'.heap.files =
      if (fd : Int) ≤ os.myHighestFd.toInt then inheritedState os pid fd else none := by
  have hnil : (c.heap.newProc ⟨[], c.newProcState os pid 0⟩).fds c.heap.procCount = [] :=
    c.heap.newProc_fds_self _
  unfold registerTracee at h
  split at h
  · cases h
  · rcases fillFds_ok h with ⟨hneg, rfl⟩ | ⟨hnonneg, h⟩
    · rw [if_neg (by omega), hnil, slot_nil, Option.map_none]
    · have hempty : ∀ i, slot ((({ c with
          heap := c.heap.newProc ⟨[], c.newProcState os pid 0⟩
          procMap := c.procMap.insert pid c.heap.procCount
          groupLeaders := insert pid c.groupLeaders } : Context Q).growTable c.heap.procCount
            (os.myHighestFd.toInt.toNat + 1)).heap.fds c.heap.procCount) i = none := by
        intro i
        rw [growTable_slot (by simp [hnil]), hnil, slot_nil]
      rw [fillFdsBelow_fileAt _ ?_ (fun i _ => hempty i) ?_ h, hempty, Option.map_none]
      · have hiff : fd < os.myHighestFd.toInt.toNat + 1 ↔ (fd : Int) ≤ os.myHighestFd.toInt := by
          omega
        simp only [hiff]
      · simp [growTable]
      · intro i r hr
        rw [hempty] at hr
        cases hr

end Context

end Optrace
