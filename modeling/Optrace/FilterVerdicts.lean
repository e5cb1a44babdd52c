import Optrace.BpfProgram

/-!
# What else the filter traces

Behind a call that passes no bit test the accumulator holds an argument, and the tests of
the `fcntl` command ask for a common bit only. Both let the filter trace calls it is not meant to.
-/

namespace Optrace

set_option autoImplicit false

open Bpf

def SharesBit (masks : List (BitVec 32)) (word : BitVec 32) : Prop :=
  ∃ mask ∈ masks, word &&& mask ≠ 0#32

instance (masks : List (BitVec 32)) (word : BitVec 32) : Decidable (SharesBit masks word) :=
  decidable_of_iff (masks.any fun mask => word &&& mask != 0#32) (by simp [SharesBit])

/-- The numbers the last comparisons of the filter look for. -/
def tracingNumbers (arch : Arch) : List (BitVec 32) := (tracingSyscalls arch).map (sysK arch)

/-- The calls the filter is written for: an open in an access mode that writes, an `fcntl` with one
of four commands, and `tracingSyscalls`. -/
def Wanted (arch : Arch) (nr arg1 arg2 : BitVec 32) : Prop :=
  (arch = .x86_64 ∧ nr = sysK arch .SYS_open ∧ SharesBit accessModes arg1) ∨
  (nr = sysK arch .SYS_openat ∧ SharesBit accessModes arg2) ∨
  (nr = sysK arch .SYS_fcntl ∧ arg1 ∈ fcntlCommands) ∨ nr ∈ tracingNumbers arch

instance (arch : Arch) (nr arg1 arg2 : BitVec 32) : Decidable (Wanted arch nr arg1 arg2) :=
  inferInstanceAs (Decidable (_ ∨ _ ∨ _ ∨ _))

/-- A command that shares a bit with a tested one, or is taken for the number of a call. -/
def PassesCommand (arch : Arch) (command : BitVec 32) : Prop :=
  SharesBit fcntlCommands command ∨ command ∈ tracingNumbers arch

instance (arch : Arch) (command : BitVec 32) : Decidable (PassesCommand arch command) :=
  inferInstanceAs (Decidable (_ ∨ _))

/-- An argument is taken for something else: the flags of a read-only open for the number of a call,
which may be `fcntl`, and another command for one of the four. -/
def Misread (arch : Arch) (nr arg1 arg2 : BitVec 32) : Prop :=
  (arch = .x86_64 ∧ nr = sysK arch .SYS_open ∧ ¬SharesBit accessModes arg1 ∧
    arg1 ∈ tracingNumbers arch) ∨
  (nr = sysK arch .SYS_openat ∧ ¬SharesBit accessModes arg2 ∧
    (arg2 ∈ tracingNumbers arch ∨ arg2 = sysK arch .SYS_fcntl ∧ PassesCommand arch arg1)) ∨
  (nr = sysK arch .SYS_fcntl ∧ arg1 ∉ fcntlCommands ∧ PassesCommand arch arg1)

instance (arch : Arch) (nr arg1 arg2 : BitVec 32) : Decidable (Misread arch nr arg1 arg2) :=
  inferInstanceAs (Decidable (_ ∨ _ ∨ _))

/-! ## Verdict by verdict -/

section

variable (arch : Arch)

theorem trace_ne_allow : SECCOMP_RET_ALLOW ≠ SECCOMP_RET_TRACE := by decide

theorem numbers_apart : sysK arch .SYS_openat ≠ sysK arch .SYS_fcntl ∧
    sysK .x86_64 .SYS_open ≠ sysK .x86_64 .SYS_openat ∧
    sysK .x86_64 .SYS_open ≠ sysK .x86_64 .SYS_fcntl := by
  cases arch <;> decide

theorem tracingNumbers_apart {nr : BitVec 32} (h : nr ∈ tracingNumbers arch) :
    nr ≠ sysK arch .SYS_open ∧ nr ≠ sysK arch .SYS_openat ∧ nr ≠ sysK arch .SYS_fcntl := by
  obtain ⟨s, hs, rfl⟩ := List.mem_map.mp h
  exact tracing_ne hs

theorem tailVerdict_trace_iff (acc : BitVec 32) :
    tailVerdict arch acc = SECCOMP_RET_TRACE ↔ acc ∈ tracingNumbers arch := by
  unfold tailVerdict
  split
  · rename_i hmem
    exact iff_of_true rfl hmem
  · rename_i hmem
    exact iff_of_false trace_ne_allow hmem

theorem argTestVerdict_trace_iff (nr word : BitVec 32) (masks : List (BitVec 32))
    (rest : BitVec 32 → BitVec 32) (acc : BitVec 32) :
    argTestVerdict nr word masks rest acc = SECCOMP_RET_TRACE ↔
      if acc = nr then SharesBit masks word ∨ rest word = SECCOMP_RET_TRACE
      else rest acc = SECCOMP_RET_TRACE := by
  unfold argTestVerdict
  by_cases hnr : acc = nr
  · rw [if_pos hnr, if_pos hnr]
    split
    · rename_i hbit
      exact iff_of_true rfl (Or.inl hbit)
    · rename_i hbit
      exact (or_iff_right hbit).symm
  · rw [if_neg hnr, if_neg hnr]

theorem fcntlVerdict_trace_iff (arg1 acc : BitVec 32) :
    fcntlVerdict arch arg1 acc = SECCOMP_RET_TRACE ↔
      acc ∈ tracingNumbers arch ∨ acc = sysK arch .SYS_fcntl ∧ PassesCommand arch arg1 := by
  rw [fcntlVerdict, argTestVerdict_trace_iff, tailVerdict_trace_iff, tailVerdict_trace_iff]
  by_cases hacc : acc = sysK arch .SYS_fcntl
  · have hapart : acc ∉ tracingNumbers arch := fun h => (tracingNumbers_apart arch h).2.2 hacc
    rw [if_pos hacc, or_iff_right hapart, and_iff_right hacc, PassesCommand]
  · rw [if_neg hacc, or_iff_left (fun h => hacc h.1)]

theorem openatVerdict_trace_iff (arg1 arg2 acc : BitVec 32) :
    openatVerdict arch arg1 arg2 acc = SECCOMP_RET_TRACE ↔
      if acc = sysK arch .SYS_openat then SharesBit accessModes arg2 ∨
        (arg2 ∈ tracingNumbers arch ∨ arg2 = sysK arch .SYS_fcntl ∧ PassesCommand arch arg1)
      else acc ∈ tracingNumbers arch ∨ acc = sysK arch .SYS_fcntl ∧ PassesCommand arch arg1 := by
  rw [openatVerdict, argTestVerdict_trace_iff, fcntlVerdict_trace_iff, fcntlVerdict_trace_iff]

/-- The flags of a read-only `open` are neither the number of `openat`, nor a command that passes
where they are the number of `fcntl`. -/
theorem flags_openat {arg1 : BitVec 32} (hflags : ¬SharesBit accessModes arg1) (arg2 : BitVec 32) :
    openatVerdict .x86_64 arg1 arg2 arg1 = SECCOMP_RET_TRACE ↔ arg1 ∈ tracingNumbers .x86_64 := by
  have hopenat : arg1 ≠ sysK .x86_64 .SYS_openat := by
    rintro rfl
    exact hflags (by decide)
  rw [openatVerdict_trace_iff, if_neg hopenat]
  apply or_iff_left
  rintro ⟨rfl, hpasses⟩
  revert hpasses
  decide

theorem filterVerdict_trace_iff (nr arg1 arg2 : BitVec 32) :
    filterVerdict arch nr arg1 arg2 = SECCOMP_RET_TRACE ↔
      if arch = .x86_64 ∧ nr = sysK arch .SYS_open then
        SharesBit accessModes arg1 ∨ arg1 ∈ tracingNumbers arch
      else openatVerdict arch arg1 arg2 nr = SECCOMP_RET_TRACE := by
  cases arch with
  | x86_64 =>
    rw [filterVerdict, if_pos rfl, argTestVerdict_trace_iff]
    simp only [true_and]
    split
    · by_cases hflags : SharesBit accessModes arg1
      · exact iff_of_true (Or.inl hflags) (Or.inl hflags)
      · rw [or_iff_right hflags, or_iff_right hflags, flags_openat hflags]
    · rfl
  | aarch64 => simp [filterVerdict]

theorem filterVerdict_cases (nr arg1 arg2 : BitVec 32) :
    filterVerdict arch nr arg1 arg2 = SECCOMP_RET_TRACE ∨
      filterVerdict arch nr arg1 arg2 = SECCOMP_RET_ALLOW := by
  have htail : ∀ acc, tailVerdict arch acc = SECCOMP_RET_TRACE ∨
      tailVerdict arch acc = SECCOMP_RET_ALLOW := fun acc => ite_eq_or_eq _ _ _
  have htest : ∀ {rest : BitVec 32 → BitVec 32} (number word : BitVec 32) masks,
      (∀ acc, rest acc = SECCOMP_RET_TRACE ∨ rest acc = SECCOMP_RET_ALLOW) →
      ∀ acc, argTestVerdict number word masks rest acc = SECCOMP_RET_TRACE ∨
        argTestVerdict number word masks rest acc = SECCOMP_RET_ALLOW := by
    intro rest number word masks hrest acc
    unfold argTestVerdict
    split
    · split
      · exact Or.inl rfl
      · exact hrest word
    · exact hrest acc
  have hopenat : ∀ acc, openatVerdict arch arg1 arg2 acc = SECCOMP_RET_TRACE ∨
      openatVerdict arch arg1 arg2 acc = SECCOMP_RET_ALLOW :=
    htest _ _ _ (htest _ _ _ htail)
  unfold filterVerdict
  split
  · exact htest _ _ _ hopenat nr
  · exact hopenat nr

/-- What is traced besides the calls the filter is written for. -/
theorem misread_iff (nr arg1 arg2 : BitVec 32) :
    filterVerdict arch nr arg1 arg2 = SECCOMP_RET_TRACE ∧ ¬Wanted arch nr arg1 arg2 ↔
      Misread arch nr arg1 arg2 := by
  obtain ⟨hopenatFcntl, hopenOpenat, hopenFcntl⟩ := numbers_apart arch
  have hapart := fun h => @tracingNumbers_apart arch nr h
  rw [filterVerdict_trace_iff, openatVerdict_trace_iff]
  unfold Wanted Misread
  by_cases hopen : arch = .x86_64 ∧ nr = sysK arch .SYS_open
  · obtain ⟨rfl, rfl⟩ := hopen
    simp only [true_and, if_true, hopenOpenat, hopenFcntl, false_and, false_or, or_false]
    tauto
  · have hopen' : ∀ q : Prop, ¬(arch = .x86_64 ∧ nr = sysK arch .SYS_open ∧ q) :=
      fun q h => hopen ⟨h.1, h.2.1⟩
    simp only [if_neg hopen, hopen', false_or]
    by_cases hopenat : nr = sysK arch .SYS_openat
    · subst hopenat
      simp only [true_and, if_true, hopenatFcntl, false_and, false_or, or_false]
      tauto
    · rw [if_neg hopenat]
      simp only [hopenat, false_and, false_or]
      tauto

end

/-- The filter traces nothing but what it is written for, unless it misreads an argument. -/
theorem traces_nothing_else_iff (arch : Arch) (d : SeccompData) :
    ((run d.load (installBpfProgram arch) = some SECCOMP_RET_TRACE →
          Wanted arch d.nr (lowWord (d.args 1)) (lowWord (d.args 2))) ∧
        (¬Wanted arch d.nr (lowWord (d.args 1)) (lowWord (d.args 2)) →
          run d.load (installBpfProgram arch) = some SECCOMP_RET_ALLOW)) ↔
      ¬Misread arch d.nr (lowWord (d.args 1)) (lowWord (d.args 2)) := by
  rw [run_installBpfProgram, ← misread_iff, Option.some_inj, Option.some_inj]
  constructor
  · rintro ⟨honly, _⟩ ⟨htrace, hunwanted⟩
    exact hunwanted (honly htrace)
  · intro hread
    have honly : filterVerdict arch d.nr (lowWord (d.args 1)) (lowWord (d.args 2)) =
        SECCOMP_RET_TRACE → Wanted arch d.nr (lowWord (d.args 1)) (lowWord (d.args 2)) := by
      intro htrace
      by_contra hunwanted
      exact hread ⟨htrace, hunwanted⟩
    refine ⟨honly, fun hunwanted => ?_⟩
    rcases filterVerdict_cases arch d.nr (lowWord (d.args 1)) (lowWord (d.args 2)) with
      htrace | hallow
    · exact absurd (honly htrace) hunwanted
    · exact hallow

/-- `fcntl(3, F_GETFL)` on x86_64, where 3 shares a bit with `F_SETFD`. -/
def getFlags : SeccompData := ⟨72, 0xc000003e, 0, fun _ => 3⟩

theorem getFlags_traced :
    ¬Wanted .x86_64 getFlags.nr (lowWord (getFlags.args 1)) (lowWord (getFlags.args 2)) ∧
      run getFlags.load (installBpfProgram .x86_64) = some SECCOMP_RET_TRACE := by
  obtain ⟨htrace, hunwanted⟩ := (misread_iff .x86_64 getFlags.nr (lowWord (getFlags.args 1))
    (lowWord (getFlags.args 2))).mpr (by decide)
  refine ⟨hunwanted, ?_⟩
  rw [run_installBpfProgram, htrace]

/-- A read-only `openat` with the flags 8 is taken for an `lseek`. -/
example : Misread .x86_64 257 0 8 := by decide

end Optrace
