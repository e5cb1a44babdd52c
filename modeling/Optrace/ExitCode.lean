import Optrace.Arrivals
import Optrace.Failures

/-!
# The exit code

What `RunTracer` returns, on any sequence of wait statuses and answers of `ptrace`.
-/

namespace Optrace

set_option autoImplicit false
set_option linter.unusedSectionVars false

open Except

/-- The code of a death of the tracee, if the notification is one. -/
def Heard.deathOf {arch : Arch} (i : Heard arch) (tid : Pid) : Option Int :=
  match i.wait with
  | .status pid status => if pid = tid then exitCodeOf status else none
  | _ => none

/-- The code of the first death of the tracee. -/
def firstDeath {arch : Arch} (tid : Pid) (inputs : List (Heard arch)) : Option Int :=
  inputs.findSome? fun i => i.deathOf tid

/-- `RunTracer` returns, but not with the -2 of a syscall number it does not believe. -/
def Early (e : Stop) : Prop := ∃ code, code ≠ -2 ∧ e = .returned code

theorem tolerates_early : Tolerates Early := by
  rintro a ⟨code, _, h⟩
  cases h

theorem not_early_abort (a : Abort) : ¬Early (.abort a) := by
  rintro ⟨code, _, h⟩
  cases h

theorem not_early_minusTwo : ¬Early (.returned (-2)) := by
  rintro ⟨code, hcode, h⟩
  cases h
  exact hcode rfl

theorem exitCodeOf_nonneg {status : BitVec 32} {code : Int} (h : exitCodeOf status = some code) :
    0 ≤ code := by
  unfold exitCodeOf at h
  split at h
  · cases h
    omega
  · split at h
    · cases h
      omega
    · cases h

/-- A stop is no death. -/
theorem exitCodeOf_stopped {status : BitVec 32} (h : wifstopped status = true) :
    exitCodeOf status = none := by
  have hlow : status &&& 0xff = 0x7f := beq_iff_eq.mp h
  have hsig : wtermsig status = 0x7f := by
    calc status &&& 0x7f = status &&& (0xff &&& 0x7f) := by rfl
      _ = (status &&& 0xff) &&& 0x7f := (BitVec.and_assoc ..).symm
      _ = 0x7f := by rw [hlow]; rfl
  simp [exitCodeOf, wifsignaled, wifexited, hsig]

theorem deathOf_stops {arch : Arch} {i : Heard arch} {tid : Pid} (h : i.Stops) :
    i.deathOf tid = none := by
  unfold Heard.deathOf
  split
  · rename_i pid status hwait
    rw [exitCodeOf_stopped (h pid status hwait)]
    split <;> rfl
  · rfl

namespace Tracer

variable {Q : Type} [MaxOutFilesQueue Q] {arch : Arch} {cfg : TracerConfig} {os : Os}
  {ptrace : Ptrace arch} {s s' : Tracer arch Q} {pid : Pid} {i : Heard arch}

/-! ## A turn that returns -/

theorem avoids_early {α : Type} (x : Except Abort α) : x.Avoids fun a => Early (.abort a) :=
  fun a _ => not_early_abort a

theorem proceed_early {syscallStop : Bool} (signal : Int) (hpid : pid ∈ s.syscallStateMap) :
    (s.proceed cfg os ptrace pid syscallStop signal).Avoids Early :=
  proceed_avoids tolerates_early signal hpid (fun _ => avoids_early _)
    fun _ _ _ _ _ => not_early_minusTwo

theorem stopped_early (status : BitVec 32) :
    (s.stopped cfg os ptrace pid status).Avoids Early := by
  unfold stopped
  simp only
  split
  · rename_i hpid
    split
    · refine evented_avoids tolerates_early fun msg hmsg => ?_
      split
      · rename_i hevent
        obtain ⟨event, hnumber⟩ := number_of_event hevent
        rw [← hnumber]
        exact cloned_avoids tolerates_early hmsg fun _ => avoids_early _
      · split
        · exact execed_avoids tolerates_early rfl (avoids_early _)
            fun h => absurd h (not_early_abort _)
        · split
          · unfold secComped
            split
            · exact resume_avoids tolerates_early _ _
            · exact proceed_early _ (Finmap.mem_insert.mpr (Or.inl rfl))
          · exact proceed_early _ hpid
    · exact proceed_early _ hpid
  · exact Avoids.ok _

theorem terminated_returned {exitCode code : Int} (hcode : code ≠ -2)
    (h : s.terminated cfg ptrace pid exitCode = .error (.returned code)) :
    code = exitCode ∧ pid = cfg.traceePid ∧ (cfg.followForks && cfg.waitDaemons) = false := by
  have havoids : (s.vanishThread ptrace pid true).Avoids Early :=
    vanishThread_avoids tolerates_early (fun h => absurd h (not_early_abort _))
      fun _ _ => avoids_early _
  unfold terminated at h
  cases hvanish : s.vanishThread ptrace pid true with
  | error e =>
    rw [hvanish] at h
    cases h
    exact absurd ⟨code, hcode, rfl⟩ (havoids _ hvanish)
  | ok s₁ =>
    rw [hvanish, bind_ok] at h
    split at h
    · rename_i hpid
      split at h
      · cases h
      · rename_i hdaemons
        cases h
        exact ⟨rfl, hpid, Bool.eq_false_iff.mpr hdaemons⟩
    · cases h

theorem dumped_early : (s.dumped i).Avoids Early := by
  unfold dumped
  split
  · split
    · exact call_avoids (avoids_early _)
    · exact Avoids.ok _
  · exact Avoids.ok _

/-- `RunTracer` returns when there are no children, or when the tracee is dead. -/
theorem hear_returned {code : Int} (hcode : code ≠ -2)
    (h : s.hear cfg i = .error (.returned code)) :
    (i.wait = .noChild ∧
        code = if s.traceeExitCode = EXIT_CODE_UNKNOWN then 128 + SIGKILL else s.traceeExitCode) ∨
      (i.deathOf cfg.traceePid = some code ∧ (cfg.followForks && cfg.waitDaemons) = false) := by
  cases hwait : i.wait with
  | interrupted =>
    rw [hear, hwait] at h
    cases h
  | noChild =>
    rw [hear, hwait] at h
    cases h
    exact Or.inl ⟨rfl, rfl⟩
  | failed =>
    rw [hear, hwait] at h
    cases h
  | status pid status =>
    cases hstopped : wifstopped status with
    | true =>
      rw [hear, hwait, turn_status _ hstopped] at h
      exact absurd ⟨code, hcode, rfl⟩ (stopped_early _ _ h)
    | false =>
      rw [hear_dead_eq hwait hstopped] at h
      cases hdump : s.dumped i with
      | error e =>
        rw [hdump] at h
        cases h
        exact absurd ⟨code, hcode, rfl⟩ (dumped_early _ hdump)
      | ok s₁ =>
        rw [hdump, bind_ok] at h
        cases hexit : exitCodeOf status with
        | none =>
          rw [hexit] at h
          cases h
        | some exitCode =>
          rw [hexit] at h
          obtain ⟨hsame, hpid, hdaemons⟩ := terminated_returned hcode h
          refine Or.inr ⟨?_, hdaemons⟩
          rw [Heard.deathOf, hwait]
          simp only [hpid, if_true, hexit, hsame]

/-! ## A turn that goes on -/

theorem terminated_exitCode {exitCode : Int}
    (h : s.terminated cfg ptrace pid exitCode = .ok s') :
    if pid = cfg.traceePid then
      (cfg.followForks && cfg.waitDaemons) = true ∧ s'.traceeExitCode =
        if s.traceeExitCode = EXIT_CODE_UNKNOWN then exitCode else s.traceeExitCode
    else s'.traceeExitCode = s.traceeExitCode := by
  obtain ⟨s₁, hvanish, h⟩ := bind_eq_ok_iff.mp h
  have hsame : s₁.traceeExitCode = s.traceeExitCode :=
    (Steady.vanishThread (fun _ => trivial) hvanish : Steady (fun _ => True) s s₁).exitCode
  rw [← hsame]
  split at h
  · rename_i hpid
    rw [if_pos hpid]
    split at h
    · rename_i hdaemons
      rw [pure_eq_ok_iff] at h
      subst h
      refine ⟨hdaemons, ?_⟩
      split <;> rfl
    · cases h
  · rename_i hpid
    rw [pure_eq_ok_iff] at h
    subst h
    exact if_neg hpid ▸ rfl

/-- The exit code is recorded at a death of the tracee, and only then. -/
theorem hear_exitCode (h : s.hear cfg i = .ok s') :
    match i.deathOf cfg.traceePid with
    | some code => (cfg.followForks && cfg.waitDaemons) = true ∧ s'.traceeExitCode =
        if s.traceeExitCode = EXIT_CODE_UNKNOWN then code else s.traceeExitCode
    | none => s'.traceeExitCode = s.traceeExitCode := by
  have hkept : i.Stops → s'.traceeExitCode = s.traceeExitCode →
      match i.deathOf cfg.traceePid with
      | some code => (cfg.followForks && cfg.waitDaemons) = true ∧ s'.traceeExitCode =
          if s.traceeExitCode = EXIT_CODE_UNKNOWN then code else s.traceeExitCode
      | none => s'.traceeExitCode = s.traceeExitCode := by
    intro hstops hsame
    rw [deathOf_stops hstops]
    exact hsame
  cases moved h with
  | steady hstops hsteady => exact hkept hstops hsteady.exitCode
  | suspended pid status hwait hstopped hpid hs' =>
    subst hs'
    exact hkept (i.stops_of_status hwait hstopped) rfl
  | arrived pid event msg c signal hannounces hpid hmsg htold hc hs' =>
    obtain ⟨status, hwait, hstopped, _⟩ := hannounces
    rw [resume_inv hs'] at hkept ⊢
    exact hkept (i.stops_of_status hwait hstopped) rfl
  | dead pid status _ hwait hstopped =>
    obtain ⟨code, s₁, hcode, hdump, hterminated⟩ := hear_dead hwait hstopped h
    have hexit := terminated_exitCode hterminated
    obtain ⟨c, calls, rfl⟩ := dumped_same hdump
    by_cases hpid : pid = cfg.traceePid
    · have hdeath : i.deathOf cfg.traceePid = some code := by
        simp [Heard.deathOf, hwait, hpid, hcode]
      rw [hdeath]
      rw [if_pos hpid] at hexit
      exact hexit
    · have hdeath : i.deathOf cfg.traceePid = none := by
        simp [Heard.deathOf, hwait, hpid]
      rw [hdeath]
      rw [if_neg hpid] at hexit
      exact hexit

/-! ## Runs -/

theorem deathOf_nonneg {tid : Pid} {code : Int} (h : i.deathOf tid = some code) : 0 ≤ code := by
  unfold Heard.deathOf at h
  split at h
  · split at h
    · exact exitCodeOf_nonneg h
    · cases h
  · cases h

/-- On the way the exit code is that of the first death, and only a run that waits for daemons
goes on after it. -/
theorem run_exitCode {inputs : List (Heard arch)} (h : Runs.run (hear cfg) s inputs = .ok s') :
    (s.traceeExitCode = EXIT_CODE_UNKNOWN →
      s'.traceeExitCode = (firstDeath cfg.traceePid inputs).getD EXIT_CODE_UNKNOWN) ∧
    (s.traceeExitCode ≠ EXIT_CODE_UNKNOWN → s'.traceeExitCode = s.traceeExitCode) ∧
    ((cfg.followForks && cfg.waitDaemons) = false → firstDeath cfg.traceePid inputs = none) := by
  induction inputs generalizing s with
  | nil =>
    cases h
    exact ⟨id, fun _ => rfl, fun _ => rfl⟩
  | cons i inputs ih =>
    obtain ⟨s₁, hs₁, h⟩ := Runs.run_cons_ok_iff.mp h
    obtain ⟨hunknown, hknown, hnever⟩ := ih h
    have hnow := hear_exitCode hs₁
    cases hdeath : i.deathOf cfg.traceePid with
    | none =>
      have hfirst : firstDeath cfg.traceePid (i :: inputs) = firstDeath cfg.traceePid inputs := by
        simp [firstDeath, hdeath]
      rw [hdeath] at hnow
      rw [hfirst, ← hnow]
      exact ⟨hunknown, hknown, hnever⟩
    | some code =>
      have hfirst : firstDeath cfg.traceePid (i :: inputs) = some code := by
        simp [firstDeath, hdeath]
      have hnonneg : 0 ≤ code := deathOf_nonneg hdeath
      rw [hdeath] at hnow
      obtain ⟨hdaemons, hnow⟩ := hnow
      rw [hfirst]
      refine ⟨fun hs => ?_, fun hs => ?_, fun hno => ?_⟩
      · rw [if_pos hs] at hnow
        rw [Option.getD_some, ← hnow]
        apply hknown
        rw [hnow, EXIT_CODE_UNKNOWN]
        omega
      · rw [if_neg hs] at hnow
        rw [← hnow]
        apply hknown
        rwa [hnow]
      · rw [hno] at hdaemons
        cases hdaemons

/-- `RunTracer` goes through the notifications and returns the code at the last of them. -/
structure Returns (cfg : TracerConfig) (c : Context Q) (inputs : List (Heard arch))
    (last : Heard arch) (code : Int) : Prop where
  normally : code ≠ -2
  runs : ∃ s, Runs.run (hear cfg) (Tracer.new cfg c) inputs = .ok s ∧
    s.hear cfg last = .error (.returned code)

theorem returns_firstDeath {c : Context Q} {inputs : List (Heard arch)} {last : Heard arch}
    {code : Int} (h : Returns cfg c inputs last code) :
    code = (firstDeath cfg.traceePid (inputs ++ [last])).getD (128 + SIGKILL) := by
  obtain ⟨s, hrun, hlast⟩ := h.runs
  obtain ⟨hcode, _, hnever⟩ := run_exitCode hrun
  have hexit := hcode rfl
  have hsplit : firstDeath cfg.traceePid (inputs ++ [last]) =
      (firstDeath cfg.traceePid inputs).or (last.deathOf cfg.traceePid) := by
    simp [firstDeath, List.findSome?_append]
  rw [hsplit]
  rcases hear_returned h.normally hlast with ⟨hwait, hvalue⟩ | ⟨hdeath, hdaemons⟩
  · have hnone : last.deathOf cfg.traceePid = none := by simp [Heard.deathOf, hwait]
    rw [hnone, Option.or_none, hvalue, hexit]
    cases hfirst : firstDeath cfg.traceePid inputs with
    | none => rfl
    | some first =>
      obtain ⟨i, _, hi⟩ := List.exists_of_findSome?_eq_some hfirst
      have hnonneg : 0 ≤ first := deathOf_nonneg hi
      apply if_neg
      rw [Option.getD_some, EXIT_CODE_UNKNOWN]
      omega
  · rw [hnever hdaemons, hdeath]
    rfl

/-- What a return of `RunTracer` tells of the tracee. -/
structure OfTracee (Q : Type) [MaxOutFilesQueue Q] (cfg : TracerConfig)
    (inputs : List (Heard arch)) (last : Heard arch) (code : Int) : Prop where
  value : code = (firstDeath cfg.traceePid (inputs ++ [last])).getD (128 + SIGKILL)
  daemons : (cfg.followForks && cfg.waitDaemons) = true → last.wait = .noChild
  otherwise : (cfg.followForks && cfg.waitDaemons) = false →
    firstDeath cfg.traceePid inputs = none ∧
      (last.wait = .noChild ∨ last.deathOf cfg.traceePid = some code)
  /-- Any other run with the same first death returns the same. -/
  alone : ∀ (cfg' : TracerConfig) (c' : Context Q) (inputs' : List (Heard arch))
    (last' : Heard arch) (code' : Int), Returns cfg' c' inputs' last' code' →
    firstDeath cfg'.traceePid (inputs' ++ [last']) = firstDeath cfg.traceePid (inputs ++ [last]) →
    code' = code

/-- Every return is the tracee's alone. -/
theorem returns_ofTracee {c : Context Q} {inputs : List (Heard arch)} {last : Heard arch}
    {code : Int} (h : Returns cfg c inputs last code) : OfTracee Q cfg inputs last code := by
  obtain ⟨s, hrun, hlast⟩ := h.runs
  have hreturned := hear_returned h.normally hlast
  refine ⟨returns_firstDeath h, fun hboth => ?_, fun hnot => ⟨(run_exitCode hrun).2.2 hnot, ?_⟩, ?_⟩
  · rcases hreturned with ⟨hwait, _⟩ | ⟨_, hno⟩
    · exact hwait
    · rw [hboth] at hno
      cases hno
  · rcases hreturned with ⟨hwait, _⟩ | ⟨hdeath, _⟩
    · exact Or.inl hwait
    · exact Or.inr hdeath
  · intro cfg' c' inputs' last' code' h' hsame
    rw [returns_firstDeath h', returns_firstDeath h, hsame]

end Tracer

/-- A notification to which the answers of `ptrace` do not matter. -/
def heardOf (wait : Wait) : Heard .x86_64 := ⟨plainOs 0, plainPtrace 2 0 (entryRegs 0), wait⟩

open FileStorage in
/-- The tracee 1 exits with 3. -/
theorem returns_ofTracee_exit :
    Tracer.OfTracee FileQueue plainConfig [heardOf .interrupted]
      (heardOf (.status 1 (Notice.exited 3).status)) 3 :=
  @Tracer.returns_ofTracee FileQueue _ .x86_64 plainConfig plainStart [heardOf .interrupted]
    (heardOf (.status 1 (Notice.exited 3).status)) 3
    ⟨by decide, _, rfl, rfl⟩

end Optrace
