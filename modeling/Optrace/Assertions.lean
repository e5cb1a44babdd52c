import Optrace.Announced
import Optrace.Failures

/-!
# No assertion fails

Which turns can fail an assertion, of the tracing loop or of the tracker, and what keeps the
whole system from taking one.
-/

namespace Optrace

set_option autoImplicit false
set_option linter.unusedSectionVars false

open Except SlotTable

/-- The program stops by a failed assertion. -/
def AssertionFailed (e : Stop) : Prop := ∃ a, e = .abort (.assertion a)

/-- A call on the tracker that stops the program so. -/
def Context.AssertionFailed (e : Abort) : Prop := ∃ a, e = .assertion a

theorem tolerates_assertions : Tolerates AssertionFailed := by
  rintro a ⟨x, hx⟩
  cases hx
  exact ⟨x, rfl⟩

/-! ## The calls on the tracker -/

namespace Context

variable {Q : Type} [MaxOutFilesQueue Q] {c : Context Q} {p : Nat} {pid : Pid} {os : Os}

theorem growTo_avoids (fds : SlotTable Nat) (fd : Word) : (growTo fds fd).Avoids AssertionFailed := by
  unfold growTo resizeFds
  split
  · split
    · exact Avoids.ok _
    · exact Avoids.error (by rintro ⟨a, ha⟩; cases ha)
  · exact Avoids.ok _

theorem putSlot_avoids (fds : SlotTable Nat) (fd : Word) (r : Nat) :
    (putSlot fds fd r).Avoids AssertionFailed := by
  unfold putSlot
  split
  · exact Avoids.ok _
  · exact Avoids.error (by rintro ⟨a, ha⟩; cases ha)

theorem readLink_avoids (os : Os) (filename : String) :
    (readLink os filename).Avoids AssertionFailed := by
  unfold readLink
  split
  · exact Avoids.ok _
  · exact Avoids.error (by rintro ⟨a, ha⟩; cases ha)

theorem opOnTracked_avoids (hp : c.procMap.lookup pid = some p) (fd : Word)
    (f : FileState → FileState) : (c.opOnTracked pid fd f).Avoids AssertionFailed := by
  rw [opOnTracked, getProcState_ok_iff.mpr hp, bind_ok]
  exact Avoids.ok _

theorem opOpenWriteFile_avoids (hp : c.procMap.lookup pid = some p) (fd flags : Word) :
    (c.opOpenWriteFile os pid fd flags).Avoids AssertionFailed := by
  rw [opOpenWriteFile, getProcState_ok_iff.mpr hp, bind_ok]
  refine (growTo_avoids _ _).bind fun fds _ => (readLink_avoids _ _).bind fun filename _ => ?_
  exact (putSlot_avoids _ _ _).bind fun fds' _ => Avoids.ok _

theorem opDup2_avoids (hp : c.procMap.lookup pid = some p) (oldfd newfd : Word) :
    (c.opDup2 pid oldfd newfd).Avoids AssertionFailed := by
  by_cases heq : oldfd = newfd
  · rw [opDup2, getProcState_ok_iff.mpr hp, bind_ok, if_pos heq]
    exact Avoids.ok _
  · rw [opDup2_eq hp heq, shareSlot]
    split
    · exact Avoids.ok _
    · exact (growTo_avoids _ _).bind fun fds _ =>
        (putSlot_avoids _ _ _).bind fun fds' _ => Avoids.ok _

theorem opDup3_avoids (hp : c.procMap.lookup pid = some p) (oldfd newfd flags : Word) :
    (c.opDup3 pid oldfd newfd flags).Avoids AssertionFailed := by
  unfold opDup3
  refine (opDup2_avoids hp oldfd newfd).bind fun done hdone => ?_
  obtain ⟨c₁, yes⟩ := done
  have hsteps : TableSteps .any p c c₁ := opDup2_steps hp hdone
  have hp₁ : c₁.procMap.lookup pid = some p := by
    rw [hsteps.sameRegistry.procMap]
    exact hp
  cases yes with
  | false => exact Avoids.ok _
  | true =>
    simp only [if_true, getProcState_ok_iff.mpr hp₁, bind_ok]
    exact Avoids.ok _

/-- With its pid in `ProcMap`, no call fails an assertion at its exit. -/
theorem syscallExit_avoids {arch : Arch} (hp : c.procMap.lookup pid = some p)
    (registers : UserRegs arch) : (c.syscallExit arch os pid registers).Avoids AssertionFailed := by
  unfold syscallExit
  split
  · exact Avoids.ok _
  · rename_i op _
    cases op with
    | opWriteChangeOffset fd offset => exact opOnTracked_avoids hp fd _
    | opWriteNoOffsetChange fd nbytes offset => exact opOnTracked_avoids hp fd _
    | opOpenWriteFile fd flags => exact opOpenWriteFile_avoids hp fd flags
    | opOpenFile fd flags =>
      simp only [perform, opOpenFile]
      split
      · exact opOpenWriteFile_avoids hp fd flags
      · exact Avoids.ok _
    | opClose fd =>
      rw [perform, opClose_eq hp]
      exact Avoids.ok _
    | opDup fd newfd => exact (opDup2_avoids hp fd newfd).bind fun _ _ => Avoids.ok _
    | opDup2 oldfd newfd => exact (opDup2_avoids hp oldfd newfd).bind fun _ _ => Avoids.ok _
    | opDup3 oldfd newfd flags =>
      exact (opDup3_avoids hp oldfd newfd flags).bind fun _ _ => Avoids.ok _
    | opSetFlag fd flags => exact opOnTracked_avoids hp fd _
    | opResize fd size => exact opOnTracked_avoids hp fd _
    | opSeek fd pos => exact opOnTracked_avoids hp fd _

theorem vanishProcess_avoids (hp : c.procMap.lookup pid = some p) :
    (c.vanishProcess pid).Avoids AssertionFailed := by
  obtain ⟨c₁, hrun, _⟩ := vanishProcess_ok hp
  rw [hrun]
  exact Avoids.ok _

theorem registerCoreDump_avoids (hp : c.procMap.lookup pid = some p) (termSig : Int) :
    (c.registerCoreDump os pid termSig).Avoids AssertionFailed := by
  rw [registerCoreDump, getProcState_ok_iff.mpr hp, bind_ok]
  split
  · exact Avoids.ok _
  · exact Avoids.ok _

theorem registerThread_avoids (hp : c.procMap.lookup pid = some p) (thread : Pid) :
    (c.registerThread pid thread).Avoids AssertionFailed := by
  simp only [registerThread, hp]
  split
  · exact Avoids.ok _
  · exact Avoids.ok _

theorem registerProcess_avoids {parent child : Pid} (hp : c.procMap.lookup parent = some p)
    (hchild : child ∉ c.procMap) : (c.registerProcess os parent child).Avoids AssertionFailed := by
  rw [registerProcess, if_neg hchild, getProcState_ok_iff.mpr hp, bind_ok]
  exact Avoids.ok _

theorem registerExec_avoids (hp : c.procMap.lookup pid = some p) (execpid : Pid) :
    (c.registerExec os pid execpid).Avoids AssertionFailed := by
  rw [registerExec, getProcState_ok_iff.mpr hp, bind_ok]
  have hvanish := @vanishProcess_avoids Q _ { c with
    heap := c.copyProc os p true pid (c.heap.procs p).procInfo.ppid } p pid hp
  exact hvanish.bind fun _ _ => Avoids.ok _

/-! ## What the calls leave in `ProcMap` -/

theorem mem_procMap (c : Context Q) (pid : Pid) :
    pid ∈ c.procMap ↔ ∃ p, c.procMap.lookup pid = some p := by
  rw [← Finmap.lookup_isSome, Option.isSome_iff_exists]

theorem vanishProcess_procMap {c' : Context Q} (h : c.vanishProcess pid = .ok c') :
    c'.procMap = c.procMap.erase pid := by
  obtain ⟨p, hp⟩ := vanishProcess_mapped h
  obtain ⟨c₁, hrun, hcases⟩ := vanishProcess_ok hp
  rw [h] at hrun
  cases hrun
  have hdrop : (c₁.dropPid pid p).procMap = c₁.procMap.erase pid :=
    (releaseProc_sameRegistry _ p).procMap
  rcases hcases with ⟨_, rfl⟩ | ⟨_, htorn⟩
  · exact hdrop
  · rw [hdrop, htorn.steps.sameRegistry.procMap]

theorem registration_procMap {arch : Arch} {c' : Context Q} {child : Pid} {isThread : Bool}
    (h : (Tracer.registration os pid child isThread : Call arch).apply c = .ok c') :
    ∃ q, c'.procMap = c.procMap.insert child q := by
  cases isThread with
  | true =>
    have h : c.registerThread pid child = .ok c' := h
    unfold registerThread at h
    split at h
    · cases h
    · rename_i p _
      refine ⟨p, ?_⟩
      simp only at h
      split at h
      · cases h
        rfl
      · cases h
        exact (releaseProc_sameRegistry _ _).procMap
  | false =>
    have h : c.registerProcess os pid child = .ok c' := h
    obtain ⟨p, _, _, rfl⟩ := registerProcess_ok h
    exact ⟨_, rfl⟩

theorem registerExec_procMap {c' : Context Q} {execpid : Pid}
    (h : c.registerExec os pid execpid = .ok c') :
    pid ∈ c.procMap ∧ ∃ q, c'.procMap = (c.procMap.erase pid).insert pid q := by
  obtain ⟨p, c₁, hp, hvanish, rfl⟩ := registerExec_ok h
  refine ⟨(c.mem_procMap pid).mpr ⟨p, hp⟩, c.heap.procCount, ?_⟩
  rw [vanishProcess_procMap hvanish]

/-- A call that returns changes the slots of its own process at most, whatever it opens. -/
theorem syscallExit_frame {arch : Arch} {c' : Context Q} {registers : UserRegs arch}
    (hp : c.procMap.lookup pid = some p) (h : c.syscallExit arch os pid registers = .ok c') :
    c.SameRegistry c' ∧ ∀ q ≠ p, ∀ i, slot (c'.heap.fds q) i = slot (c.heap.fds q) i := by
  have hopen : ∀ fd flags, c.opOpenWriteFile os pid fd flags = .ok c' →
      c.SameRegistry c' ∧ ∀ q ≠ p, ∀ i, slot (c'.heap.fds q) i = slot (c.heap.fds q) i := by
    intro fd flags hrun
    obtain ⟨filename, kills, _, rfl⟩ := opOpenWriteFile_ok hp hrun
    refine ⟨⟨rfl, rfl, rfl, rfl, fun q => by simp [fillSlot, newFile]⟩, fun q hq i => ?_⟩
    rw [fillSlot_slot, if_neg (fun h => hq h.1)]
    rfl
  unfold syscallExit at h
  split at h
  · cases h
    exact ⟨SameRegistry.refl c, fun _ _ _ => rfl⟩
  · rename_i op _
    cases hopens : op.opens with
    | some target =>
      cases op with
      | opOpenWriteFile fd flags => exact hopen fd flags h
      | opOpenFile fd flags =>
        simp only [perform, opOpenFile] at h
        split at h
        · exact hopen fd flags h
        · cases h
          exact ⟨SameRegistry.refl c, fun _ _ _ => rfl⟩
      | _ => cases hopens
    | none =>
      have hwithin : Within .any os c pid p op := by
        refine ⟨fun fd flags heq => ?_, fun _ _ _ _ _ => trivial, fun _ _ _ _ _ => trivial⟩
        rw [hopens] at heq
        cases heq
      have hsteps := perform_steps hp hwithin h
      exact ⟨hsteps.sameRegistry, fun q hq i => hsteps.others hq i⟩

end Context

/-! ## The turns -/

/-- Every tid with a syscall state has a process state. -/
def Tracer.Mapped {Q : Type} {arch : Arch} (s : Tracer arch Q) : Prop :=
  ∀ tid ∈ s.syscallStateMap, tid ∈ s.context.procMap

namespace Tracer

variable {Q : Type} [MaxOutFilesQueue Q] {arch : Arch} {cfg : TracerConfig} {os : Os}
  {ptrace : Ptrace arch} {s : Tracer arch Q} {pid : Pid} {notice : Notice}

theorem Mapped.lookup (hs : s.Mapped) (hpid : pid ∈ s.syscallStateMap) :
    ∃ p, s.context.procMap.lookup pid = some p := (s.context.mem_procMap pid).mp (hs pid hpid)

/-- A turn fails no assertion if the two maps agree on what the notice is about. -/
theorem guarded_assertions (hmapped : s.Mapped)
    (hdeath : notice.isDeath = true → pid ∈ s.syscallStateMap)
    (hchild : ∀ event nr msg, notice = .cloned event nr → ptrace.eventMsg = .ok msg →
      told ptrace event = true → asThread ptrace event = false → asInt msg ∉ s.context.procMap)
    (hformer : ∀ former nr, notice = .execed former nr → former ∈ s.syscallStateMap) :
    Guarded AssertionFailed cfg os ptrace pid s notice := by
  have havoids : ∀ {x : Except Abort (Context Q)},
      x.Avoids Context.AssertionFailed → x.Avoids fun a => AssertionFailed (.abort a) := by
    rintro x hx e he ⟨a, ha⟩
    cases ha
    exact hx _ he ⟨a, rfl⟩
  refine ⟨fun hdead _ => hdeath hdead, ?_, ?_, ?_, ?_, ?_, ?_, ?_, ?_⟩
  · rintro code _ ⟨a, ha⟩
    cases ha
  · intro hdead sig
    obtain ⟨p, hp⟩ := hmapped.lookup (hdeath hdead)
    exact havoids (Context.registerCoreDump_avoids hp sig)
  · intro hpid c hmap
    obtain ⟨p, hp⟩ := hmapped.lookup hpid
    rw [← hmap] at hp
    exact havoids (Context.vanishProcess_avoids hp)
  · intro hpid registers
    obtain ⟨p, hp⟩ := hmapped.lookup hpid
    exact havoids (Context.syscallExit_avoids hp registers)
  · intro hpid event nr msg hnotice hmsg htold
    obtain ⟨p, hp⟩ := hmapped.lookup hpid
    apply havoids
    cases hthread : asThread ptrace event with
    | true => exact Context.registerThread_avoids hp _
    | false =>
      exact Context.registerProcess_avoids hp (hchild event nr msg hnotice hmsg htold hthread)
  · intro hpid former
    obtain ⟨p, hp⟩ := hmapped.lookup hpid
    exact havoids (Context.registerExec_avoids hp former)
  · exact fun former nr hnotice _ => hformer former nr hnotice
  · rintro registers _ _ _ ⟨a, ha⟩
    cases ha

end Tracer

/-! ## The whole system -/

/-- The tracer was told of the tracee. -/
def Kernel.Announced (k : Kernel) (tid : Pid) : Prop :=
  ∃ task, k.tasks.lookup tid = some task ∧ task.announced = true

theorem Kernel.Announced.resumes {k k' : Kernel} {resumed : Pid → Request → Prop} {tid : Pid}
    (h : k.Announced tid) (hresumes : Kernel.Resumes resumed k k') : k'.Announced tid := by
  obtain ⟨task, htask, hann⟩ := h
  obtain ⟨task', htask', rfl | ⟨q, _, rfl⟩⟩ := hresumes.lookup_old htask
  · exact ⟨task', htask', hann⟩
  · exact ⟨_, htask', by rwa [Task.resumed_announced]⟩

theorem Kernel.Announced.setTask {k : Kernel} {pid tid : Pid} {task task' : Task}
    (h : k.Announced tid) (htask : k.tasks.lookup pid = some task)
    (hann : task'.announced = task.announced) : (k.setTask pid task').Announced tid := by
  obtain ⟨t, ht, hyes⟩ := h
  unfold Announced
  rw [Kernel.setTask_lookup]
  split
  · rename_i heq
    rw [heq, htask] at ht
    cases ht
    exact ⟨task', rfl, hann.trans hyes⟩
  · exact ⟨t, ht, hyes⟩

theorem Kernel.announce_spec {k : Kernel} {child : Pid} {new : Task}
    (hnew : k.tasks.lookup child = some new) : (k.announce child).Announced child ∧
      (∀ tid, k.Announced tid → (k.announce child).Announced tid) ∧
      (k.announce child).formers = k.formers.erase child := by
  have htasks : ∀ tid, (k.announce child).tasks.lookup tid =
      if tid = child then some { new with announced := true } else k.tasks.lookup tid := by
    intro tid
    simp only [announce, hnew, Kernel.setTask_lookup]
  have hchild : (k.announce child).Announced child := ⟨_, by rw [htasks, if_pos rfl], rfl⟩
  refine ⟨hchild, fun tid hyes => ?_, by simp only [announce, hnew]⟩
  by_cases htid : tid = child
  · rwa [htid]
  · obtain ⟨t, ht, hann⟩ := hyes
    exact ⟨t, by rw [htasks, if_neg htid, ht], hann⟩

namespace Traced

variable {Q : Type} [MaxOutFilesQueue Q] {arch : Arch} {cfg : TracerConfig} {s s' : Traced arch Q}
  {pid : Pid} {notice : Notice} {os : Os} {ptrace : Ptrace arch}

/-- A tracee dies only after its creator's event, and no process gets a tid that another thread
than the leader gave up in an exec. -/
def orderly (s : Traced arch Q) : Input arch → Bool
  | .born _ _ _ => true
  | .notice pid notice _ ptrace =>
    (s.kernel.tasks.lookup pid).all fun task =>
      match notice with
      | .exited _ => task.announced
      | .killed _ _ => task.announced
      | .cloned event _ => !told ptrace event || Tracer.asThread ptrace event ||
        task.newborn.all fun child => decide (child ∉ s.kernel.formers)
      | _ => true

/-- Where every entry of `ProcMap` comes from. -/
structure Accounted (s : Traced arch Q) : Prop where
  known : s.Known
  mapped : s.tracer.Mapped
  accounted : ∀ tid ∈ s.tracer.context.procMap, s.kernel.Announced tid ∨ tid ∈ s.kernel.formers

theorem orderly_death {task : Task} (h : s.orderly (.notice pid notice os ptrace) = true)
    (htask : s.kernel.tasks.lookup pid = some task) (hdeath : notice.isDeath = true) :
    task.announced = true := by
  simp only [orderly, htask, Option.all_some] at h
  cases notice with
  | exited code => exact h
  | killed sig core => exact h
  | _ => cases hdeath

theorem orderly_cloned {task : Task} {event : CloneEvent} {nr : Word} {child : Pid}
    (h : s.orderly (.notice pid (.cloned event nr) os ptrace) = true)
    (htask : s.kernel.tasks.lookup pid = some task) (hchild : task.newborn = some child)
    (htold : told ptrace event = true) (hprocess : Tracer.asThread ptrace event = false) :
    child ∉ s.kernel.formers := by
  simp only [orderly, htask, hchild, htold, hprocess, Option.all_some, Bool.not_true, Bool.false_or]
    at h
  exact of_decide_eq_true h

theorem Accounted.born {creator child : Pid} {isThread : Bool} (hs : s.Accounted)
    (hpermit : s.Permitted cfg (.born creator child isThread))
    (h : s.step cfg (.born creator child isThread) = .ok s') : s'.Accounted := by
  have hknown := known_born hs.known hpermit h
  cases h
  refine ⟨hknown, hs.mapped, fun tid htid => ?_⟩
  apply (hs.accounted tid htid).imp
  · simp only [Permitted, Kernel.permits, Bool.and_eq_true, Option.any_eq_true] at hpermit
    obtain ⟨⟨⟨task, htask, _⟩, hchild⟩, _⟩ := hpermit
    rintro ⟨t₀, ht₀, hyes⟩
    have hfree := Finmap.lookup_eq_none.mpr (of_decide_eq_true hchild)
    obtain ⟨t, ht, _, hann⟩ := Kernel.born_old htask hfree isThread ht₀
    exact ⟨t, ht, hann.trans hyes⟩
  · intro hformer
    unfold Kernel.born
    split
    · exact hformer
    · exact hformer

theorem Accounted.plain (hs : s.Accounted) (hknown : s'.Known) {task : Task}
    (htask : s.kernel.tasks.lookup pid = some task)
    (hturned : Tracer.Turned cfg os ptrace pid s.tracer s'.tracer notice)
    (hkernel : s'.kernel =
      s'.tracer.resumes.foldl Kernel.resume (s.kernel.noticed cfg pid ptrace notice))
    (hplain : Tracer.Plain notice) : s'.Accounted := by
  obtain ⟨c, states, calls, hafter, hkeys, hc⟩ := hturned.plain hplain
  obtain ⟨hnoticed, _, hann, _⟩ := noticed_plain cfg htask hplain
  have hmap : s'.tracer.context.procMap = s.tracer.context.procMap := by
    rw [hafter.context]
    rcases hc with rfl | ⟨hpid, registers, hexit⟩
    · rfl
    · obtain ⟨p, hp⟩ := hs.mapped.lookup hpid
      exact (Context.syscallExit_frame hp hexit).1.procMap
  have hresumes := hafter.resumes (s.kernel.noticed cfg pid ptrace notice)
  rw [← hkernel, hnoticed] at hresumes
  refine ⟨hknown, fun tid htid => ?_, fun tid htid => ?_⟩
  · rw [hafter.states] at htid
    rw [hmap]
    exact hs.mapped tid ((hkeys tid).mp htid)
  · rw [hmap] at htid
    rcases hs.accounted tid htid with hyes | hformer
    · exact Or.inl ((hyes.setTask htask hann).resumes hresumes)
    · apply Or.inr
      rw [hresumes.formers]
      exact hformer

theorem Accounted.death (hs : s.Accounted) (hknown : s'.Known) {task : Task}
    (htask : s.kernel.tasks.lookup pid = some task)
    (hturned : Tracer.Turned cfg os ptrace pid s.tracer s'.tracer notice)
    (hkernel : s'.kernel =
      s'.tracer.resumes.foldl Kernel.resume (s.kernel.noticed cfg pid ptrace notice))
    (hdeath : notice.isDeath = true) : s'.Accounted := by
  obtain ⟨c₁, c, dump, hafter, _, hvanish, hdump⟩ := hturned.of_dead hdeath
  have hmap : s'.tracer.context.procMap = s.tracer.context.procMap.erase pid := by
    rw [hafter.context, Context.vanishProcess_procMap hvanish]
    rcases hdump with ⟨rfl, _⟩ | ⟨sig, hcore, _⟩
    · rfl
    · rw [(Context.registerCoreDump_same hcore).2.2]
  have hresumes := hafter.resumes (s.kernel.noticed cfg pid ptrace notice)
  rw [← hkernel, noticed_death htask hdeath] at hresumes
  refine ⟨hknown, fun tid htid => ?_, fun tid htid => ?_⟩
  · rw [hafter.states, Finmap.mem_erase] at htid
    rw [hmap, Finmap.mem_erase]
    exact ⟨htid.1, hs.mapped tid htid.2⟩
  · rw [hmap, Finmap.mem_erase] at htid
    rcases hs.accounted tid htid.2 with ⟨t, ht, hyes⟩ | hformer
    · refine Or.inl (Kernel.Announced.resumes ⟨t, ?_, hyes⟩ hresumes)
      rw [PidMap.lookup_erase, if_neg htid.1, ht]
    · apply Or.inr
      rw [hresumes.formers]
      exact hformer

theorem Accounted.cloned (hs : s.Accounted) (hknown : s'.Known) {task : Task} {event : CloneEvent}
    {nr : Word} (htask : s.kernel.tasks.lookup pid = some task)
    (hallowed : Kernel.stopPermitted cfg task ptrace (.cloned event nr) = true)
    (hturned : Tracer.Turned cfg os ptrace pid s.tracer s'.tracer (.cloned event nr))
    (hkernel : s'.kernel = s'.tracer.resumes.foldl Kernel.resume
      (s.kernel.noticed cfg pid ptrace (.cloned event nr))) : s'.Accounted := by
  obtain ⟨hrequest, _, child, hchild, hmsg⟩ := Kernel.clone_permitted hallowed
  have hpid := Optrace.Known.known hs.known pid task htask (Or.inr hrequest)
  have hset : ∀ tid, s.kernel.Announced tid →
      (s.kernel.setTask pid (task.noticed cfg ptrace (.cloned event nr))).Announced tid :=
    fun tid hyes => hyes.setTask htask rfl
  rcases step_cloned htask hpid hchild hmsg hturned hkernel with
    ⟨_, hcontext, hstates, hresumes⟩ | ⟨_, hreg, hstates, hresumes⟩
  · refine ⟨hknown, fun tid htid => ?_, fun tid htid => ?_⟩
    · rw [hstates] at htid
      rw [hcontext]
      exact hs.mapped tid htid
    · rw [hcontext] at htid
      refine (hs.accounted tid htid).imp (fun hyes => (hset tid hyes).resumes hresumes) ?_
      rw [hresumes.formers]
      exact id
  · obtain ⟨q, hmap⟩ := Context.registration_procMap hreg
    have hnew : ∃ new, (s.kernel.setTask pid
        (task.noticed cfg ptrace (.cloned event nr))).tasks.lookup child = some new := by
      obtain ⟨new, hnew, _⟩ := Optrace.Known.newborn hs.known pid task child htask hchild
      rw [Kernel.setTask_lookup]
      split
      · exact ⟨_, rfl⟩
      · exact ⟨new, hnew⟩
    obtain ⟨new, hnew⟩ := hnew
    obtain ⟨hself, hothers, hformers⟩ := Kernel.announce_spec hnew
    refine ⟨hknown, fun tid htid => ?_, fun tid htid => ?_⟩
    · rw [hstates, Finmap.mem_insert] at htid
      rw [hmap, Finmap.mem_insert]
      exact htid.imp id (hs.mapped tid)
    · rw [hmap, Finmap.mem_insert] at htid
      by_cases heq : tid = child
      · rw [heq]
        exact Or.inl (hself.resumes hresumes)
      · rcases hs.accounted tid (htid.resolve_left heq) with hyes | hformer
        · exact Or.inl ((hothers tid (hset tid hyes)).resumes hresumes)
        · apply Or.inr
          rw [hresumes.formers, hformers]
          exact Finset.mem_erase.mpr ⟨heq, hformer⟩

theorem Accounted.execed (hs : s.Accounted) (hknown : s'.Known) {former : Pid} {nr : Word}
    (hallowed : s.kernel.execPermitted cfg pid former nr ptrace = true)
    (hturned : Tracer.Turned cfg os ptrace pid s.tracer s'.tracer (.execed former nr))
    (hkernel : s'.kernel = s'.tracer.resumes.foldl Kernel.resume
      (s.kernel.noticed cfg pid ptrace (.execed former nr))) : s'.Accounted := by
  obtain ⟨thread, hthread, hgroup, hrequest, _⟩ := Kernel.exec_permitted hallowed
  have hformer := Optrace.Known.known hs.known former thread hthread (Or.inr hrequest)
  have hpid := Optrace.Known.group_mem hs.known hthread hformer
  obtain ⟨leader, hleader, _⟩ := Optrace.Known.led hs.known former thread hthread
  rw [hgroup] at hleader hpid
  rw [noticed_execed hleader] at hkernel
  obtain ⟨new, hnew, hlookup⟩ := Kernel.execed_lookup pid hthread nr ptrace.eventMsg.isGone
  have hformers : (s.kernel.execed pid former nr ptrace.eventMsg.isGone).formers =
      if former = pid then s.kernel.formers else insert former s.kernel.formers := by
    simp only [Kernel.execed, hthread]
  -- the leader's entry stays, and that of the thread becomes a former one
  have hkept : ∀ tid ∈ s.tracer.context.procMap,
      (s.kernel.execed pid former nr ptrace.eventMsg.isGone).Announced tid ∨
        tid ∈ (s.kernel.execed pid former nr ptrace.eventMsg.isGone).formers := by
    intro tid htid
    rw [hformers]
    rcases hs.accounted tid htid with ⟨t, ht, hyes⟩ | hin
    · by_cases heq : tid = pid
      · rw [heq, hleader] at ht
        cases ht
        refine Or.inl ⟨new, by rw [hlookup, if_pos heq], ?_⟩
        rw [hnew.announced, hleader]
        exact hyes
      · by_cases hgone : tid = former
        · apply Or.inr
          rw [if_neg (fun h => heq (hgone.trans h)), hgone]
          exact Finset.mem_insert_self former _
        · exact Or.inl ⟨t, by rw [hlookup, if_neg heq, if_neg hgone, ht], hyes⟩
    · apply Or.inr
      split
      · exact hin
      · exact Finset.mem_insert_of_mem hin
  -- neither outcome of the turn changes the keys of `ProcMap`, or adds one to the other map
  have hturn : ∃ c states resumed calls, Tracer.After s'.tracer c states resumed calls ∧
      (∀ tid ∈ states, tid ∈ s.tracer.syscallStateMap) ∧
      ∀ tid, tid ∈ c.procMap ↔ tid ∈ s.tracer.context.procMap := by
    rcases hturned.of_execed hpid with ⟨_, hafter⟩ | ⟨_, c, hc, _, hafter⟩
    · exact ⟨_, _, _, _, hafter, fun _ h => h, fun _ => Iff.rfl⟩
    · refine ⟨_, _, _, _, hafter, fun tid htid => ?_, fun tid => ?_⟩
      · split at htid
        · exact htid
        · exact (Finmap.mem_erase.mp htid).2
      · obtain ⟨hin, q, hmap⟩ := Context.registerExec_procMap hc
        rw [hmap, Finmap.mem_insert, Finmap.mem_erase]
        by_cases htid : tid = pid
        · simp [htid, hin]
        · simp [htid]
  obtain ⟨c, states, resumed, calls, hafter, hsub, hkeys⟩ := hturn
  have hresumes := hafter.resumes (s.kernel.execed pid former nr ptrace.eventMsg.isGone)
  rw [← hkernel] at hresumes
  refine ⟨hknown, fun tid htid => ?_, fun tid htid => ?_⟩
  · rw [hafter.states] at htid
    rw [hafter.context, hkeys]
    exact hs.mapped tid (hsub tid htid)
  · rw [hafter.context, hkeys] at htid
    refine (hkept tid htid).imp (fun hyes => hyes.resumes hresumes) ?_
    rw [hresumes.formers]
    exact id

theorem Accounted.step {input : Input arch} (hs : s.Accounted) (hpermit : s.Permitted cfg input)
    (horderly : s.orderly input = true) (h : s.step cfg input = .ok s') : s'.Accounted := by
  cases input with
  | born creator child isThread => exact hs.born hpermit h
  | notice pid notice os ptrace =>
    have hknown := known_notice hs.known hpermit
      (fun hdeath task htask => orderly_death horderly htask hdeath) h
    obtain ⟨hturned, hkernel⟩ := step_notice hpermit h
    obtain ⟨task, htask, hallowed⟩ := Kernel.permits_iff.mp hpermit
    cases notice with
    | signalStop sig => exact hs.plain hknown htask hturned hkernel trivial
    | syscallStop => exact hs.plain hknown htask hturned hkernel trivial
    | exiting => exact hs.plain hknown htask hturned hkernel trivial
    | secComp => exact hs.plain hknown htask hturned hkernel trivial
    | exited code => exact hs.death hknown htask hturned hkernel rfl
    | killed sig core => exact hs.death hknown htask hturned hkernel rfl
    | cloned event nr =>
      simp only [Kernel.permitsTask, Bool.and_eq_true] at hallowed
      exact hs.cloned hknown htask hallowed.2 hturned hkernel
    | execed former nr => exact hs.execed hknown hallowed hturned hkernel

theorem Accounted.avoids {input : Input arch} (hs : s.Accounted) (hpermit : s.Permitted cfg input)
    (horderly : s.orderly input = true) : (s.step cfg input).Avoids AssertionFailed := by
  cases input with
  | born creator child isThread => exact Avoids.ok _
  | notice pid notice os ptrace =>
    obtain ⟨task, htask, hallowed⟩ := Kernel.permits_iff.mp hpermit
    refine Avoids.bind ?_ fun tracer _ => Avoids.ok _
    refine Tracer.turn_avoids tolerates_assertions (Kernel.permits_fits hpermit)
      (Tracer.guarded_assertions hs.mapped ?_ ?_ ?_)
    · intro hdeath
      exact Optrace.Known.known hs.known pid task htask
        (Or.inl (orderly_death horderly htask hdeath))
    · rintro event nr msg rfl hmsg htold hprocess
      simp only [Kernel.permitsTask, Bool.and_eq_true] at hallowed
      obtain ⟨_, _, child, hchild, hreads⟩ := Kernel.clone_permitted hallowed.2
      rw [(Kernel.readsAs_iff.mp (hreads msg hmsg)).1]
      intro hin
      obtain ⟨new, hnew, hno, _⟩ := Optrace.Known.newborn hs.known pid task child htask hchild
      rcases hs.accounted child hin with ⟨t, ht, hyes⟩ | hformer
      · rw [hnew] at ht
        cases ht
        rw [hno] at hyes
        cases hyes
      · exact orderly_cloned horderly htask hchild htold hprocess hformer
    · rintro former nr rfl
      obtain ⟨thread, hthread, _, hrequest, _⟩ := Kernel.exec_permitted hallowed
      exact Optrace.Known.known hs.known former thread hthread (Or.inr hrequest)

theorem accounted_start {opts : Options} {os₀ : Os} {c₀ : Context Q}
    (hstart : (Context.new opts : Context Q).registerTracee os₀ cfg.traceePid = .ok c₀) :
    (start cfg c₀ : Traced arch Q).Accounted := by
  have hmap : c₀.procMap = (Context.new opts : Context Q).procMap.insert cfg.traceePid
      (Context.new opts : Context Q).heap.procCount :=
    (Context.registerTracee_ok hstart).2.sameRegistry.procMap
  refine ⟨known_start cfg c₀, fun tid htid => ?_, fun tid htid => ?_⟩
  · have htid : tid ∈ Finmap.singleton cfg.traceePid SYSCALL_UNDEFINED := htid
    have hgoal : tid ∈ c₀.procMap := by
      rw [hmap, Finmap.mem_insert]
      exact Or.inl ((Finmap.mem_singleton _ _ _).mp htid)
    exact hgoal
  · have htid : tid ∈ c₀.procMap := htid
    rw [hmap, Finmap.mem_insert] at htid
    rcases htid with rfl | hno
    · exact Or.inl ⟨_, Finmap.lookup_singleton_eq, rfl⟩
    · exact absurd hno Finmap.notMem_empty

end Traced

/-! ## Runs on fixed inputs -/

def plainConfig : TracerConfig where
  traceePid := 1
  followForks := true
  waitDaemons := false
  useSecComp := false
  secCompVer := .SEC_COMP_V2

/-- The answers of `ptrace` when all goes well. -/
def plainPtrace (msg rdi : Word) (registers : UserRegs .x86_64) : Ptrace .x86_64 where
  eventMsg := .ok msg
  rdi := .ok rdi
  regs := .ok registers
  setRegs := .ok ()
  resume _ := .ok ()

/-- The registers at the entry of a call. -/
def entryRegs (nr : Word) : UserRegs .x86_64 := exitRegs .x86_64 ⟨nr, -38, 0, 0, 0, 0⟩

def entryOf (pid : Pid) (nr : Word) : Input .x86_64 :=
  .notice pid .syscallStop (plainOs 0) (plainPtrace 0 0 (entryRegs nr))

/-- A thread stops before its creator's event, and execs. -/
def threadExecs : List (Input .x86_64) :=
  [entryOf 1 56, .born 1 2 true,
    .notice 2 (.signalStop 19) (plainOs 0) (plainPtrace 0 0 (entryRegs 0)),
    .notice 1 (.cloned .clone 56) (plainOs 0) (plainPtrace 2 0x10000 (entryRegs 0)),
    entryOf 2 59,
    .notice 1 (.execed 2 59) (plainOs 0) (plainPtrace 2 0 (entryRegs 0)),
    .notice 1 (.exited 0) (plainOs 0) (plainPtrace 0 0 (entryRegs 0))]

end Optrace
