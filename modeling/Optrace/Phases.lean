import Optrace.Announced

/-!
# Phases of a tracee

The value the tracer keeps for a tracee, against the call the tracee is in: the phase of a
running tracee says what its value has to be for the next stop to be taken for what it is.
-/

namespace Optrace

set_option autoImplicit false

/-! ## The calls the filter picks -/

theorem number_lt {arch : Arch} {s : Sys} {n : Nat} (h : Sys.number arch s = some n) :
    n < 2 ^ 31 := by
  cases arch <;> cases s <;> first | (cases h; decide) | cases h

theorem listed_iff {arch : Arch} {nr : Word} :
    listed arch nr = true ↔ ∃ s, Sys.number arch s = some (lowWord nr).toNat := by
  unfold listed
  rw [Option.isSome_iff_exists]
  refine exists_congr fun s => ?_
  rw [syscallOf_eq_some_iff, BitVec.toNat_setWidth_of_le (by decide)]

/-- The number of a call of the switch is neither of the two markers. -/
theorem listed_nonneg {arch : Arch} {nr : Word} (h : listed arch nr = true) : 0 ≤ asInt nr := by
  obtain ⟨s, hs⟩ := listed_iff.mp h
  have hlt := number_lt hs
  have hint : asInt nr = (lowWord nr).toNat :=
    BitVec.toInt_eq_toNat_of_lt (show 2 * (lowWord nr).toNat < 2 ^ 32 by omega)
  omega

theorem filterVerdict_listed {arch : Arch} {nr arg1 arg2 : BitVec 32}
    (h : filterVerdict arch nr arg1 arg2 = SECCOMP_RET_TRACE) :
    ∃ s, (Sys.number arch s).isSome = true ∧ nr = sysK arch s := by
  by_cases hopen : arch = .x86_64 ∧ nr = sysK arch .SYS_open
  · exact ⟨.SYS_open, by rw [hopen.1]; rfl, hopen.2⟩
  by_cases hopenat : nr = sysK arch .SYS_openat
  · exact ⟨.SYS_openat, by cases arch <;> rfl, hopenat⟩
  by_cases hfcntl : nr = sysK arch .SYS_fcntl
  · exact ⟨.SYS_fcntl, by cases arch <;> rfl, hfcntl⟩
  have htail : tailVerdict arch nr = SECCOMP_RET_TRACE := by
    rw [← h]
    unfold filterVerdict
    split
    · rename_i harch
      have hne : nr ≠ sysK arch .SYS_open := fun heq => hopen ⟨harch, heq⟩
      simp only [argTestVerdict, openatVerdict, fcntlVerdict, if_neg hne, if_neg hopenat,
        if_neg hfcntl]
    · simp only [argTestVerdict, openatVerdict, fcntlVerdict, if_neg hopenat, if_neg hfcntl]
  unfold tailVerdict at htail
  split at htail
  · rename_i hmem
    obtain ⟨s, hs, rfl⟩ := List.mem_map.mp hmem
    refine ⟨s, ?_, rfl⟩
    cases arch <;> cases s <;> first | rfl | exact absurd hs (by decide)
  · exact absurd htail (by decide)

theorem listed_of_filterTraces {arch : Arch} {r : SyscallRegs} (h : filterTraces arch r = true) :
    listed arch r.nr = true := by
  obtain ⟨s, hsome, hnr⟩ := filterVerdict_listed (beq_iff_eq.mp h)
  obtain ⟨n, hn⟩ := Option.isSome_iff_exists.mp hsome
  refine listed_iff.mpr ⟨s, ?_⟩
  have hlt := number_lt hn
  rw [hnr, sysK, hn, Option.getD_some, BitVec.toNat_ofNat, Nat.mod_eq_of_lt (by omega)]

/-- At an entry the number is read as it is. -/
theorem getSyscallNumber_entry {arch : Arch} {registers : UserRegs arch}
    (h : atEntry arch registers = true) :
    getSyscallNumber arch registers = (syscallRegs arch registers).nr := by
  cases arch with
  | x86_64 =>
    have hrax : asInt (X86Regs.rax registers) = -ENOSYS := beq_iff_eq.mp h
    simp only [getSyscallNumber, hrax, ne_eq, not_true_eq_false, if_false]
    rfl
  | aarch64 => rfl

/-- So it is at the exit of a call with the number -1. -/
theorem getSyscallNumber_exit {arch : Arch} {registers : UserRegs arch} {nr : Word}
    (h : atExit arch nr registers = true) (hnr : asInt nr = SYSCALL_UNDEFINED) :
    getSyscallNumber arch registers = nr := by
  simp only [atExit, hnr, bne_self_eq_false, Bool.false_or, Bool.and_eq_true, beq_iff_eq] at h
  obtain ⟨hsame, hret⟩ := h
  rw [← hsame]
  cases arch with
  | x86_64 =>
    have hrax : asInt (X86Regs.rax registers) = -ENOSYS := hret
    simp only [getSyscallNumber, hrax, ne_eq, not_true_eq_false, if_false]
    rfl
  | aarch64 => rfl

/-! ## Permitted stops -/

theorem syscallStop_permitted {cfg : TracerConfig} {arch : Arch} {task : Task}
    {ptrace : Ptrace arch} (h : Kernel.stopPermitted cfg task ptrace .syscallStop = true) :
    task.request = some .syscall ∧ ∀ registers, ptrace.regs = .ok registers →
      (task.inside = none → atEntry arch registers = true ∧
        (task.picked = true → filterTraces arch (syscallRegs arch registers) = true)) ∧
      ∀ nr, task.inside = some nr → atExit arch nr registers = true := by
  simp only [Kernel.stopPermitted, Bool.and_eq_true, beq_iff_eq] at h
  obtain ⟨⟨hrequest, _⟩, hregs⟩ := h
  refine ⟨hrequest, fun registers hok => ?_⟩
  have hstop := Kernel.Reply.all_ok hregs hok
  cases hinside : task.inside with
  | none =>
    simp only [hinside, Bool.and_eq_true, Bool.or_eq_true, Bool.not_eq_true'] at hstop
    refine ⟨fun _ => ⟨hstop.1, fun hpicked => ?_⟩, fun nr hno => ?_⟩
    · rcases hstop.2 with hno | hyes
      · rw [hpicked] at hno
        cases hno
      · exact hyes
    · cases hno
  | some nr =>
    simp only [hinside] at hstop
    refine ⟨fun hno => ?_, fun nr' hnr => ?_⟩
    · cases hno
    · cases hnr
      exact hstop

theorem secComp_permitted {cfg : TracerConfig} {arch : Arch} {task : Task} {ptrace : Ptrace arch}
    (h : Kernel.stopPermitted cfg task ptrace .secComp = true) :
    cfg.useSecComp = true ∧ task.request.isSome = true ∧
      (cfg.secCompVer = .SEC_COMP_V1 → task.inside = none) ∧
      ∀ registers, ptrace.regs = .ok registers →
        atEntry arch registers = true ∧ filterTraces arch (syscallRegs arch registers) = true := by
  simp only [Kernel.stopPermitted, Bool.and_eq_true] at h
  obtain ⟨⟨⟨⟨hmode, _⟩, _⟩, horder⟩, hregs⟩ := h
  refine ⟨hmode, ?_, fun hver => ?_, fun registers hok => ?_⟩
  · cases hver : cfg.secCompVer with
    | SEC_COMP_V1 =>
      simp only [hver, Bool.and_eq_true] at horder
      exact horder.1
    | SEC_COMP_V2 =>
      simp only [hver, beq_iff_eq] at horder
      rw [horder]
      split <;> rfl
  · simp only [hver, Bool.and_eq_true, Option.isNone_iff_eq_none] at horder
    exact horder.2
  · have hstop := Kernel.Reply.all_ok hregs hok
    simp only [Bool.and_eq_true] at hstop
    exact hstop.1

/-! ## Phases -/

/-- What the value of a running tracee may be, by the call it is in. -/
inductive Phase (cfg : TracerConfig) (arch : Arch) (v : Int) :
    Option Word → Bool → Request → Prop where
  | outside (picked : Bool) (hmode : cfg.useSecComp = false) (hv : v = SYSCALL_UNDEFINED) :
      Phase cfg arch v none picked .syscall
  | inside (nr : Word) (picked : Bool) (hmode : cfg.useSecComp = false)
      (hv : v = SYSCALL_UNDEFINED ↔ asInt nr = SYSCALL_UNDEFINED) :
      Phase cfg arch v (some nr) picked .syscall
  | running (picked : Bool) (hmode : cfg.useSecComp = true)
      (hv : cfg.secCompVer = .SEC_COMP_V1 → v = SYSCALL_UNDEFINED) :
      Phase cfg arch v none picked .cont
  | waiting (hmode : cfg.useSecComp = true) (hver : cfg.secCompVer = .SEC_COMP_V1)
      (hv : v = SYSCALL_UNDEFINED) : Phase cfg arch v none true .syscall
  | traced (nr : Word) (picked : Bool) (hmode : cfg.useSecComp = true)
      (hlisted : listed arch nr = true) (hv : v ≠ SYSCALL_UNDEFINED) :
      Phase cfg arch v (some nr) picked .syscall

/-- The phase a stopped tracee would be in, resumed so. -/
def Task.Ready (cfg : TracerConfig) (arch : Arch) (v : Int) (task : Task) (q : Request) : Prop :=
  Phase cfg arch v (if q = .cont then none else task.inside) (q == .syscall && task.picked) q

/-- What the value of a tracee may be between two calls. With the new order of seccomp stops it is
overwritten before it is read. -/
def Between (cfg : TracerConfig) (v : Int) : Prop :=
  cfg.useSecComp = false ∨ cfg.secCompVer = .SEC_COMP_V1 → v = SYSCALL_UNDEFINED

theorem Phase.between {cfg : TracerConfig} {arch : Arch} {v : Int} {picked : Bool} {q : Request}
    (h : Phase cfg arch v none picked q) : Between cfg v := by
  cases h with
  | outside _ _ hv => exact fun _ => hv
  | running _ hmode hv =>
    rintro (hno | hver)
    · rw [hmode] at hno
      cases hno
    · exact hv hver
  | waiting _ _ hv => exact fun _ => hv

/-- Outside of every call a tracee may be resumed as the tracer does it. -/
theorem Task.ready_outside {cfg : TracerConfig} {arch : Arch} {v : Int} {task : Task}
    (hinside : task.inside = none) (hv : Between cfg v) :
    task.Ready cfg arch v (Tracer.request cfg false) := by
  unfold Task.Ready Tracer.request
  rw [hinside]
  cases hmode : cfg.useSecComp with
  | false => exact .outside _ hmode (hv (Or.inl hmode))
  | true => exact .running _ hmode fun hver => hv (Or.inr hver)

/-- In a call whose exit stop comes next. -/
theorem Task.ready_inside {cfg : TracerConfig} {arch : Arch} {v : Int} {task : Task} {nr : Word}
    (hmode : cfg.useSecComp = false) (hinside : task.inside = some nr)
    (hv : v = SYSCALL_UNDEFINED ↔ asInt nr = SYSCALL_UNDEFINED) :
    task.Ready cfg arch v .syscall := by
  unfold Task.Ready
  rw [hinside]
  exact .inside nr _ hmode hv

theorem Task.ready_traced {cfg : TracerConfig} {arch : Arch} {task : Task} {nr : Word}
    (hmode : cfg.useSecComp = true) (hinside : task.inside = some nr)
    (hlisted : listed arch nr = true) :
    task.Ready cfg arch (asInt nr) (Tracer.request cfg (asInt nr != SYSCALL_UNDEFINED)) := by
  have hnonneg := listed_nonneg hlisted
  have hundefined : SYSCALL_UNDEFINED = -1 := rfl
  have hne : asInt nr ≠ SYSCALL_UNDEFINED := by omega
  have hq : Tracer.request cfg true = .syscall := by simp [Tracer.request]
  rw [bne_iff_ne.mpr hne, hq]
  unfold Task.Ready
  rw [hinside]
  exact .traced nr _ hmode hlisted hne

/-- In a call an event named. Its exit stop comes next, or is not reported. -/
theorem Phase.event {cfg : TracerConfig} {arch : Arch} {v : Int} {task : Task} {q : Request}
    {nr : Word} (h : Phase cfg arch v task.inside task.picked q) (hrequest : task.request = some q)
    (hevent : eventOf cfg arch task nr = true) :
    asInt nr ≠ SYSCALL_UNDEFINED ∧
      (cfg.useSecComp = false ∧ v ≠ SYSCALL_UNDEFINED ∨ cfg.useSecComp = true ∧ Between cfg v) := by
  simp only [eventOf, Bool.and_eq_true, beq_iff_eq, bne_iff_ne, Bool.or_eq_true,
    Bool.not_eq_true'] at hevent
  obtain ⟨⟨hinside, hnr⟩, hlisted⟩ := hevent
  refine ⟨hnr, ?_⟩
  generalize task.inside = inside at h hinside
  generalize task.picked = picked at h
  cases h with
  | outside _ _ _ =>
    rw [if_pos hrequest] at hinside
    cases hinside
  | inside nr' _ hmode hv =>
    rw [if_pos hrequest] at hinside
    cases hinside
    exact Or.inl ⟨hmode, fun hno => hnr (hv.mp hno)⟩
  | running _ hmode hv =>
    refine Or.inr ⟨hmode, ?_⟩
    rintro (hno | hver)
    · rw [hmode] at hno
      cases hno
    · exact hv hver
  | waiting _ _ _ =>
    rw [if_pos hrequest] at hinside
    cases hinside
  | traced nr' _ hmode hyes _ =>
    rw [if_pos hrequest] at hinside
    cases hinside
    rcases hlisted with hno | hno
    · rw [hmode] at hno
      cases hno
    · rw [hyes] at hno
      cases hno

theorem Task.ready_event {cfg : TracerConfig} {arch : Arch} {v : Int} {task : Task} {nr : Word}
    (hinside : task.inside = some nr) (hnr : asInt nr ≠ SYSCALL_UNDEFINED)
    (hv : cfg.useSecComp = false ∧ v ≠ SYSCALL_UNDEFINED ∨ cfg.useSecComp = true ∧ Between cfg v) :
    task.Ready cfg arch v (Tracer.request cfg false) := by
  rcases hv with ⟨hmode, hv⟩ | ⟨hmode, hv⟩
  · have hq : Tracer.request cfg false = .syscall := by simp [Tracer.request, hmode]
    rw [hq]
    exact Task.ready_inside hmode hinside (iff_of_false hv hnr)
  · have hq : Tracer.request cfg false = .cont := by simp [Tracer.request, hmode]
    rw [hq]
    exact .running _ hmode fun hver => hv (Or.inr hver)

/-- At a syscall stop the value tells whether the stop is the exit of a call. -/
theorem Phase.exit_iff {cfg : TracerConfig} {arch : Arch} {v : Int} {inside : Option Word}
    {picked : Bool} (h : Phase cfg arch v inside picked .syscall) :
    v ≠ SYSCALL_UNDEFINED ↔ ∃ nr, inside = some nr ∧ asInt nr ≠ SYSCALL_UNDEFINED := by
  cases h with
  | outside _ _ hv =>
    refine iff_of_false (fun hno => hno hv) ?_
    rintro ⟨nr, hno, _⟩
    cases hno
  | inside nr _ _ hv =>
    constructor
    · exact fun hne => ⟨nr, rfl, fun hnr => hne (hv.mpr hnr)⟩
    · rintro ⟨nr', hsame, hnr⟩ hno
      cases hsame
      exact hnr (hv.mp hno)
  | waiting _ _ hv =>
    refine iff_of_false (fun hno => hno hv) ?_
    rintro ⟨nr, hno, _⟩
    cases hno
  | traced nr _ _ hlisted hv =>
    have hnr := listed_nonneg hlisted
    have hundefined : SYSCALL_UNDEFINED = -1 := rfl
    refine iff_of_true hv ⟨nr, rfl, ?_⟩
    omega

/-- The number that is kept at a stop taken for an entry. -/
theorem Phase.entered {cfg : TracerConfig} {arch : Arch} {task : Task} {registers : UserRegs arch}
    (h : Phase cfg arch SYSCALL_UNDEFINED task.inside task.picked .syscall)
    (hentry : task.inside = none → atEntry arch registers = true)
    (hexit : ∀ nr, task.inside = some nr → atExit arch nr registers = true) :
    asInt (getSyscallNumber arch registers) =
      match task.inside with
      | none => asInt (syscallRegs arch registers).nr
      | some _ => SYSCALL_UNDEFINED := by
  cases hinside : task.inside with
  | none => rw [getSyscallNumber_entry (hentry hinside)]
  | some nr =>
    have hnr : asInt nr = SYSCALL_UNDEFINED := by
      by_contra hno
      exact h.exit_iff.mpr ⟨nr, hinside, hno⟩ rfl
    rw [getSyscallNumber_exit (hexit nr hinside) hnr, hnr]

theorem Task.ready_entered {cfg : TracerConfig} {arch : Arch} {task new : Task}
    {registers : UserRegs arch}
    (h : Phase cfg arch SYSCALL_UNDEFINED task.inside task.picked .syscall)
    (hentry : task.inside = none → atEntry arch registers = true ∧
      (task.picked = true → filterTraces arch (syscallRegs arch registers) = true))
    (hexit : ∀ nr, task.inside = some nr → atExit arch nr registers = true)
    (hnew : new.inside = if task.inside.isSome then none else some (syscallRegs arch registers).nr) :
    new.Ready cfg arch (asInt (getSyscallNumber arch registers))
      (Tracer.request cfg (asInt (getSyscallNumber arch registers) != SYSCALL_UNDEFINED)) := by
  rw [h.entered (fun hnone => (hentry hnone).1) hexit]
  generalize task.inside = inside at h hentry hnew
  generalize task.picked = picked at h hentry
  cases h with
  | outside _ hmode _ =>
    have hq : ∀ inCall, Tracer.request cfg inCall = .syscall := by simp [Tracer.request, hmode]
    rw [hq]
    exact Task.ready_inside hmode hnew Iff.rfl
  | inside nr _ _ _ =>
    rw [bne_self_eq_false]
    exact Task.ready_outside hnew fun _ => rfl
  | waiting hmode _ _ =>
    exact Task.ready_traced hmode hnew (listed_of_filterTraces ((hentry rfl).2 rfl))
  | traced _ _ _ _ hv => exact absurd rfl hv

/-- A tracee against its entry in the map. -/
structure Task.Paired (cfg : TracerConfig) (arch : Arch) (state : Option Int) (task : Task) :
    Prop where
  apart : task.announced = false → state = none
  idle : state = none → task.inside = none
  fresh : task.fresh = true → task.request = none ∧ task.inside = none ∧
    ∀ v, state = some v → v = SYSCALL_UNDEFINED
  phase : ∀ q v, task.dying = false → task.request = some q → state = some v →
    Phase cfg arch v task.inside task.picked q

namespace Task

variable {cfg : TracerConfig} {arch : Arch} {state : Option Int} {task : Task}

theorem resumed_inside_none {q : Request} (h : task.inside = none) :
    (task.resumed q).inside = none := by
  unfold resumed
  split
  · simp [h]
  · exact h

/-- A stopped tracee, and how it may have been resumed. -/
theorem Paired.stopped {resumed : Request → Prop} (hrequest : task.request = none)
    (hapart : task.announced = false → state = none) (hidle : state = none → task.inside = none)
    (hfresh : task.fresh = true → task.inside = none ∧
      ∀ v, state = some v → v = SYSCALL_UNDEFINED)
    (hready : task.fresh = false → task.dying = false → ∀ q v, resumed q → state = some v →
      task.Ready cfg arch v q) {task' : Task}
    (hcase : task' = task ∨ ∃ q, resumed q ∧ task' = task.resumed q) :
    task'.Paired cfg arch state := by
  have hpaired : task.Paired cfg arch state := by
    refine ⟨hapart, hidle, fun h => ⟨hrequest, hfresh h⟩, fun q v _ hq => ?_⟩
    rw [hrequest] at hq
    cases hq
  rcases hcase with rfl | ⟨q, hq, rfl⟩
  · exact hpaired
  · cases hyes : task.fresh with
    | true =>
      have hsame : task.resumed q = task := by simp [Task.resumed, hyes]
      rwa [hsame]
    | false =>
      refine ⟨?_, fun h => resumed_inside_none (hidle h), ?_, ?_⟩
      · rwa [resumed_announced]
      · rw [resumed_fresh, hyes]
        intro hno
        cases hno
      · intro q' v hdying hq' hv
        rw [resumed_dying] at hdying
        have hphase := hready hyes hdying q v hq hv
        unfold Task.resumed at hq' ⊢
        simp only [hrequest, hyes, Option.isNone_none, Bool.not_false, Bool.and_self, if_true,
          Option.some.injEq] at hq' ⊢
        rw [← hq']
        exact hphase

end Task

end Optrace
