import Optrace.Isolation

/-!
# Sets of processes

The pids of a trace are cut into a set and the rest, with every thread on the side of its
process. What the tracker says about the set is settled by the calls about the set: the others
can be left out of the trace.
-/

namespace Optrace

set_option autoImplicit false
set_option linter.unusedSectionVars false

open SlotTable Except Context

variable {Q : Type} [MaxOutFilesQueue Q] {arch : Arch}

namespace Call

/-- The pid a call is about: the one whose entries it may change. -/
def subject : Call arch → Pid
  | .syscallExit _ pid _ => pid
  | .registerThread _ thread => thread
  | .registerProcess _ _ child => child
  | .registerExec _ pid _ => pid
  | .registerCoreDump _ pid _ => pid
  | .vanishProcess pid => pid

/-- The pid whose process state the subject gets to share. -/
def joins : Call arch → Pid
  | .registerThread pid _ => pid
  | call => call.subject

/-- The pid whose process state the subject's is made from. -/
def source : Call arch → Pid
  | .registerThread pid _ => pid
  | .registerProcess _ parent _ => parent
  | call => call.subject

/-- A thread is on the side of its process, and a process of the set has its parent there. -/
structure Respects (dom : Pid → Prop) (call : Call arch) : Prop where
  joins : dom call.subject ↔ dom call.joins
  source : dom call.subject → dom call.source

instance (dom : Pid → Prop) [DecidablePred dom] (call : Call arch) :
    Decidable (call.Respects dom) :=
  decidable_of_iff ((dom call.subject ↔ dom call.joins) ∧ (dom call.subject → dom call.source))
    ⟨fun h => ⟨h.1, h.2⟩, fun h => ⟨h.1, h.2⟩⟩

theorem mem_retire_iff {c : Context Q} {retired : Finset Pid} {call : Call arch} {tid : Pid}
    (hne : tid ≠ call.subject)
    (happart : ∀ p, c.procMap.lookup call.subject = some p → c.procMap.lookup tid ≠ some p) :
    tid ∈ call.retire c retired ↔ tid ∈ retired := by
  have hthreads : tid ∉ c.threadsOf call.subject := by
    unfold threadsOf
    rw [Finset.mem_filter, Finmap.mem_keys]
    rintro ⟨hmem, -, heq⟩
    obtain ⟨p, hp⟩ := Finmap.mem_iff.mp hmem
    exact happart p (heq ▸ hp) hp
  cases call with
  | syscallExit os pid registers => exact Iff.rfl
  | registerThread pid thread => exact (Finset.mem_erase.trans (and_iff_right hne))
  | registerProcess os parent child => exact (Finset.mem_erase.trans (and_iff_right hne))
  | registerExec os pid execpid => exact Finset.mem_union.trans (or_iff_left hthreads)
  | registerCoreDump os pid termSig => exact Iff.rfl
  | vanishProcess pid =>
    refine Finset.mem_erase.trans ((and_iff_right hne).trans ?_)
    split
    · exact Finset.mem_union.trans (or_iff_left hthreads)
    · exact Iff.rfl

end Call

namespace Tracked

variable {s t u s' t' : Tracked Q} {call : Call arch} {dom : Pid → Prop}

theorem step_ok_iff : s.step call = .ok s' ↔
    call.apply s.context = .ok s'.context ∧ s'.retired = call.retire s.context s.retired := by
  constructor
  · intro h
    obtain ⟨c, hcall, h⟩ := bind_eq_ok_iff.mp h
    rw [pure_eq_ok_iff] at h
    subst h
    exact ⟨hcall, rfl⟩
  · rintro ⟨hcall, hretired⟩
    rw [step, hcall, bind_ok, pure_eq_ok_iff, ← hretired]

/-- What an allowed call leaves alone. -/
theorem Inv.framed (hs : s.Inv) (hallowed : s.Allowed call) (h : s.step call = .ok s') :
    Framed call.joins call.subject s.context s'.context := by
  obtain ⟨hcall, -⟩ := step_ok_iff.mp h
  cases call with
  | syscallExit os pid registers => exact Owned.syscallExit_framed hs hallowed.2 hcall
  | registerThread pid thread => exact registerThread_framed hcall
  | registerProcess os parent child => exact Owned.registerProcess_framed hs hcall
  | registerExec os pid execpid =>
    have hexec : s.context.registerExec os pid execpid = .ok s'.context := hcall
    exact Owned.registerExec_framed hs hallowed hexec
  | registerCoreDump os pid termSig => exact (registerCoreDump_framed hcall).1
  | vanishProcess pid => exact Owned.vanishProcess_framed hs hcall

/-- Every process state is on the side of the pid it was made for. -/
def Owns (dom : Pid → Prop) (s : Tracked Q) : Prop :=
  ∀ pid p, s.context.procMap.lookup pid = some p →
    (dom (s.context.heap.procs p).procInfo.pid ↔ dom pid)

theorem Owns.step (hown : s.Owns dom) (hs : s.Inv) (hallowed : s.Allowed call)
    (hjoins : dom call.subject ↔ dom call.joins) (h : s.step call = .ok s') : s'.Owns dom := by
  have hframed := hs.framed hallowed h
  intro pid p hp
  by_cases heq : pid = call.subject
  · subst heq
    rcases hframed.names p hp with hold | hpid
    · rw [hframed.infos _ p hold, hown _ p hold, hjoins]
    · rw [hpid]
  · rw [hframed.lookup pid heq] at hp
    rw [hframed.infos pid p hp, hown pid p hp]

/-- Two trackers that agree on a set of pids. -/
structure Alike (dom : Pid → Prop) (s t : Tracked Q) : Prop where
  options : s.context.options = t.context.options
  leaders : ∀ pid, dom pid → (pid ∈ s.context.groupLeaders ↔ pid ∈ t.context.groupLeaders)
  retired : ∀ pid, dom pid → (pid ∈ s.retired ↔ pid ∈ t.retired)
  mapped : ∀ pid, dom pid →
    (s.context.procMap.lookup pid = none ↔ t.context.procMap.lookup pid = none)
  procs : ∀ pid p q, dom pid → s.context.procMap.lookup pid = some p →
    t.context.procMap.lookup pid = some q → SameProc s.context t.context p q
  groups : ∀ pid tid p q, dom pid → dom tid → s.context.procMap.lookup pid = some p →
    t.context.procMap.lookup pid = some q →
    (s.context.procMap.lookup tid = some p ↔ t.context.procMap.lookup tid = some q)

namespace Alike

theorem refl (dom : Pid → Prop) (s : Tracked Q) : Alike dom s s := by
  refine ⟨rfl, fun _ _ => Iff.rfl, fun _ _ => Iff.rfl, fun _ _ => Iff.rfl, ?_, ?_⟩
  · intro pid p q _ hp hq
    rw [hp] at hq
    cases hq
    exact .refl _ p
  · intro pid tid p q _ _ hp hq
    rw [hp] at hq
    cases hq
    exact Iff.rfl

theorem symm (h : Alike dom s t) : Alike dom t s :=
  ⟨h.options.symm, fun pid hpid => (h.leaders pid hpid).symm,
    fun pid hpid => (h.retired pid hpid).symm, fun pid hpid => (h.mapped pid hpid).symm,
    fun pid p q hpid hp hq => (h.procs pid q p hpid hq hp).symm,
    fun pid tid p q hpid htid hp hq => (h.groups pid tid q p hpid htid hq hp).symm⟩

/-- A pid of the set has a process state in both or in neither. -/
theorem lookup (h : Alike dom s t) {pid : Pid} (hpid : dom pid) :
    (s.context.procMap.lookup pid = none ∧ t.context.procMap.lookup pid = none) ∨
      ∃ p q, s.context.procMap.lookup pid = some p ∧ t.context.procMap.lookup pid = some q ∧
        SameProc s.context t.context p q := by
  have hmapped := h.mapped pid hpid
  cases hp : s.context.procMap.lookup pid with
  | none => exact Or.inl ⟨rfl, hmapped.mp hp⟩
  | some p =>
    cases hq : t.context.procMap.lookup pid with
    | none =>
      rw [hmapped.mpr hq] at hp
      cases hp
    | some q => exact Or.inr ⟨p, q, rfl, rfl, h.procs pid p q hpid hp hq⟩

theorem lookup_of (h : Alike dom s t) {pid : Pid} (hpid : dom pid) {p : Nat}
    (hp : s.context.procMap.lookup pid = some p) :
    ∃ q, t.context.procMap.lookup pid = some q ∧ SameProc s.context t.context p q := by
  rcases h.lookup hpid with ⟨hnone, -⟩ | ⟨p', q, hp', hq, hsame⟩
  · rw [hnone] at hp
    cases hp
  · rw [hp] at hp'
    cases hp'
    exact ⟨q, hq, hsame⟩

theorem trans (h : Alike dom s t) (h' : Alike dom t u) : Alike dom s u := by
  refine ⟨h.options.trans h'.options, fun pid hpid => (h.leaders pid hpid).trans (h'.leaders pid hpid),
    fun pid hpid => (h.retired pid hpid).trans (h'.retired pid hpid),
    fun pid hpid => (h.mapped pid hpid).trans (h'.mapped pid hpid), ?_, ?_⟩
  · intro pid p q hpid hp hq
    obtain ⟨r, hr, hsame⟩ := h.lookup_of hpid hp
    exact hsame.trans (h'.procs pid r q hpid hr hq)
  · intro pid tid p q hpid htid hp hq
    obtain ⟨r, hr, -⟩ := h.lookup_of hpid hp
    exact (h.groups pid tid p r hpid htid hp hr).trans (h'.groups pid tid r q hpid htid hr hq)

theorem mono {sub : Pid → Prop} (h : Alike dom s t) (hsub : ∀ pid, sub pid → dom pid) :
    Alike sub s t :=
  ⟨h.options, fun pid hpid => h.leaders pid (hsub pid hpid),
    fun pid hpid => h.retired pid (hsub pid hpid), fun pid hpid => h.mapped pid (hsub pid hpid),
    fun pid p q hpid => h.procs pid p q (hsub pid hpid),
    fun pid tid p q hpid htid => h.groups pid tid p q (hsub pid hpid) (hsub tid htid)⟩

/-- Pids on the two sides never share a process state. -/
theorem of_framed {subject joins : Pid} (hown : s.Owns dom) (hout : ¬ dom subject)
    (hframed : Framed joins subject s.context s'.context)
    (hretired : ∀ tid, dom tid → (tid ∈ s'.retired ↔ tid ∈ s.retired)) : Alike dom s s' := by
  have hne : ∀ tid, dom tid → tid ≠ subject := fun tid htid heq => hout (heq ▸ htid)
  refine ⟨hframed.options.symm, fun tid htid => (hframed.leaders tid (hne tid htid)).symm,
    fun tid htid => (hretired tid htid).symm, ?_, ?_, ?_⟩
  · intro tid htid
    rw [hframed.lookup tid (hne tid htid)]
  · intro tid p q htid hp hq
    rw [hframed.lookup tid (hne tid htid), hp] at hq
    cases hq
    refine hframed.procs tid p (hne tid htid) hp fun hsubject => hout ?_
    exact (hown subject p hsubject).mp ((hown tid p hp).mpr htid)
  · intro pid tid p q hpid htid hp hq
    rw [hframed.lookup pid (hne pid hpid), hp] at hq
    cases hq
    rw [hframed.lookup tid (hne tid htid)]

/-- The pids that are left behind are those that shared the process state in both. -/
theorem retire (h : Alike dom s t) (hsubject : dom call.subject) {tid : Pid} (htid : dom tid) :
    tid ∈ call.retire s.context s.retired ↔ tid ∈ call.retire t.context t.retired := by
  have hretired := h.retired tid htid
  have hthreads : tid ∈ s.context.threadsOf call.subject ↔
      tid ∈ t.context.threadsOf call.subject := by
    rcases h.lookup hsubject with ⟨hnone, hnone'⟩ | ⟨p, q, hp, hq, -⟩
    · unfold threadsOf
      simp only [Finset.mem_filter, Finmap.mem_keys, hnone, hnone', ← Finmap.lookup_isSome]
      constructor
      · rintro ⟨hmem, -, heq⟩
        simp [heq] at hmem
      · rintro ⟨hmem, -, heq⟩
        simp [heq] at hmem
    · rw [mem_threadsOf hp, mem_threadsOf hq, h.groups _ tid p q hsubject htid hp hq]
  cases call with
  | syscallExit os pid registers => exact hretired
  | registerThread pid thread => simp only [Call.retire, Finset.mem_erase, hretired]
  | registerProcess os parent child => simp only [Call.retire, Finset.mem_erase, hretired]
  | registerExec os pid execpid =>
    exact Finset.mem_union.trans ((or_congr hretired hthreads).trans Finset.mem_union.symm)
  | registerCoreDump os pid termSig => exact hretired
  | vanishProcess pid =>
    have hlead := h.leaders pid hsubject
    simp only [Call.retire, Finset.mem_erase]
    by_cases hin : pid ∈ s.context.groupLeaders
    · rw [if_pos hin, if_pos (hlead.mp hin), Finset.mem_union, Finset.mem_union, hretired]
      exact and_congr Iff.rfl (or_congr Iff.rfl hthreads)
    · rw [if_neg hin, if_neg fun hno => hin (hlead.mpr hno), hretired]

/-- The same call in both: all but the entries of its subject follow from what it leaves
alone. -/
theorem of_both {subject joins : Pid} (h : Alike dom s t) (hsubject : dom subject)
    (hs : Framed joins subject s.context s'.context) (ht : Framed joins subject t.context t'.context)
    (hretired : ∀ tid, dom tid → (tid ∈ s'.retired ↔ tid ∈ t'.retired))
    (hlead : subject ∈ s'.context.groupLeaders ↔ subject ∈ t'.context.groupLeaders)
    (hmapped : s'.context.procMap.lookup subject = none ↔
      t'.context.procMap.lookup subject = none)
    (hprocs : ∀ tid p q, dom tid → s'.context.procMap.lookup tid = some p →
      t'.context.procMap.lookup tid = some q →
      (tid = subject ∨ s.context.procMap.lookup subject = some p) →
      SameProc s'.context t'.context p q)
    (hgroups : ∀ tid p q, tid ≠ subject → dom tid → s'.context.procMap.lookup subject = some p →
      t'.context.procMap.lookup subject = some q →
      (s.context.procMap.lookup tid = some p ↔ t.context.procMap.lookup tid = some q)) :
    Alike dom s' t' := by
  have hmapped' : ∀ tid, dom tid →
      (s'.context.procMap.lookup tid = none ↔ t'.context.procMap.lookup tid = none) := by
    intro tid htid
    by_cases heq : tid = subject
    · rw [heq, hmapped]
    · rw [hs.lookup tid heq, ht.lookup tid heq, h.mapped tid htid]
  refine ⟨by rw [hs.options, ht.options, h.options], fun tid htid => ?_, hretired, hmapped', ?_, ?_⟩
  · by_cases heq : tid = subject
    · rw [heq, hlead]
    · rw [hs.leaders tid heq, ht.leaders tid heq, h.leaders tid htid]
  · intro tid p q htid hp hq
    by_cases hown : tid = subject ∨ s.context.procMap.lookup subject = some p
    · exact hprocs tid p q htid hp hq hown
    · obtain ⟨hne, happart⟩ := not_or.mp hown
      have hp₀ := (hs.lookup tid hne).symm.trans hp
      have hq₀ := (ht.lookup tid hne).symm.trans hq
      have happart' : t.context.procMap.lookup subject ≠ some q := fun hq' =>
        happart ((h.groups tid subject p q htid hsubject hp₀ hq₀).mpr hq')
      exact (hs.procs tid p hne hp₀ happart).symm.trans
        ((h.procs tid p q htid hp₀ hq₀).trans (ht.procs tid q hne hq₀ happart'))
  · intro pid tid p q hpid htid hp hq
    by_cases heq : pid = subject
    · subst heq
      by_cases htid' : tid = pid
      · rw [htid', hp, hq]
        simp
      · rw [hs.lookup tid htid', ht.lookup tid htid', hgroups tid p q htid' htid hp hq]
    · have hp₀ := (hs.lookup pid heq).symm.trans hp
      have hq₀ := (ht.lookup pid heq).symm.trans hq
      by_cases htid' : tid = subject
      · subst htid'
        constructor
        · intro hp'
          cases hq' : t'.context.procMap.lookup tid with
          | none =>
            rw [hmapped.mpr hq'] at hp'
            cases hp'
          | some q' => rw [← hq₀, (hgroups pid p q' heq hpid hp' hq').mp hp₀]
        · intro hq'
          cases hp' : s'.context.procMap.lookup tid with
          | none =>
            rw [hmapped.mp hp'] at hq'
            cases hq'
          | some p' => rw [← hp₀, (hgroups pid p' q heq hpid hp' hq').mpr hq₀]
      · rw [hs.lookup tid htid', ht.lookup tid htid',
          h.groups pid tid p q hpid htid hp₀ hq₀]

/-- A call goes through in the other tracker as well, saying the same. -/
def Answers (dom : Pid → Prop) (call : Call arch) (s t s' : Tracked Q) : Prop :=
  ∃ t', t.step call = .ok t' ∧ Alike dom s' t' ∧
    ∃ outs kills, Emits s.context s'.context outs kills ∧ Emits t.context t'.context outs kills

/-- What is left to show about a call once it goes through in both. -/
theorem answers (h : Alike dom s t) (subject : Pid) (hs : s.Inv) (ht : t.Inv)
    (hcall : call.subject = subject) (hsubject : dom subject) (hallowed : s.Allowed call)
    (hallowed' : t.Allowed call) (hstep : s.step call = .ok s') {d' : Context Q}
    (hcall' : call.apply t.context = .ok d')
    (hemits : ∃ outs kills, Emits s.context s'.context outs kills ∧ Emits t.context d' outs kills)
    (hlead : subject ∈ s'.context.groupLeaders ↔ subject ∈ d'.groupLeaders)
    (hmapped : s'.context.procMap.lookup subject = none ↔ d'.procMap.lookup subject = none)
    (hprocs : ∀ tid p q, dom tid → s'.context.procMap.lookup tid = some p →
      d'.procMap.lookup tid = some q →
      (tid = subject ∨ s.context.procMap.lookup subject = some p) → SameProc s'.context d' p q)
    (hgroups : ∀ tid p q, tid ≠ subject → dom tid → s'.context.procMap.lookup subject = some p →
      d'.procMap.lookup subject = some q →
      (s.context.procMap.lookup tid = some p ↔ t.context.procMap.lookup tid = some q)) :
    Answers dom call s t s' := by
  subst hcall
  obtain ⟨-, hretired⟩ := step_ok_iff.mp hstep
  have hstep' : t.step call = .ok ⟨d', call.retire t.context t.retired⟩ :=
    step_ok_iff.mpr ⟨hcall', rfl⟩
  refine ⟨_, hstep', ?_, hemits⟩
  refine h.of_both hsubject (hs.framed hallowed hstep) (ht.framed hallowed' hstep')
    (fun tid htid => ?_) hlead hmapped hprocs hgroups
  rw [hretired, h.retire hsubject htid]

theorem allowed (h : Alike dom s t) (hsubject : dom call.subject) (hsource : dom call.source)
    (hallowed : s.Allowed call) : t.Allowed call := by
  cases call with
  | syscallExit os pid registers =>
    refine ⟨fun hno => hallowed.1 ((h.retired pid hsubject).mpr hno), ?_⟩
    have hempty := hallowed.2
    unfold opensFree at hempty ⊢
    rcases h.lookup hsubject with ⟨hnone, hnone'⟩ | ⟨p, q, hp, hq, hsame⟩
    · simp only [Call.subject] at hnone'
      simp [hnone']
    · simp only [Call.subject] at hp hq
      rw [hp] at hempty
      rw [hq]
      split at hempty
      · rename_i heq
        cases heq
        rename_i hfd
        rw [hfd]
        exact Option.isNone_iff_eq_none.mpr
          ((hsame.none_iff _).mp (Option.isNone_iff_eq_none.mp hempty))
      · rename_i hno
        split
        · rename_i hfd heq
          cases heq
          exact absurd rfl (hno _ _ _ hfd)
        · rfl
  | registerThread pid thread =>
    exact ⟨fun hno => hallowed.1 ((h.retired pid hsource).mpr hno),
      fun hno => hallowed.2 ((h.leaders thread hsubject).mpr hno)⟩
  | registerProcess os parent child =>
    exact fun hno => hallowed ((h.retired parent hsource).mpr hno)
  | registerExec os pid execpid => exact (h.leaders pid hsubject).mp hallowed
  | registerCoreDump os pid termSig => trivial
  | vanishProcess pid => trivial

theorem syscallExit {os : Os} {pid : Pid} {registers : UserRegs arch} (h : Alike dom s t)
    (hs : s.Inv) (ht : t.Inv) (hsubject : dom pid)
    (hallowed : s.Allowed (.syscallExit os pid registers))
    (hstep : s.step (.syscallExit os pid registers) = .ok s') :
    Answers dom (.syscallExit os pid registers) s t s' := by
  have hallowed' : t.Allowed (.syscallExit os pid registers) :=
    h.allowed hsubject hsubject hallowed
  obtain ⟨hcall, -⟩ := step_ok_iff.mp hstep
  have hcall : s.context.syscallExit arch os pid registers = .ok s'.context := hcall
  rcases h.lookup hsubject with ⟨hnone, -⟩ | ⟨p, q, hp, hq, hsame⟩
  · have hcall' := syscallExit_unmapped_congr (d := t.context) hnone hcall
    have hunchanged := syscallExit_unmapped hnone hcall
    refine h.answers pid hs ht rfl hsubject hallowed hallowed' hstep hcall' ?_ ?_ ?_ ?_ ?_
    · exact ⟨[], [], hunchanged ▸ .refl _, .refl _⟩
    · rw [hunchanged, h.leaders _ hsubject]
    · rw [hunchanged, h.mapped _ hsubject]
    · rw [hunchanged]
      exact fun tid p q htid hp hq _ => h.procs tid p q htid hp hq
    · intro tid p q _ _ hp
      rw [hunchanged] at hp
      exact absurd (hnone.symm.trans hp) (by simp)
  · obtain ⟨d', hcall', hin⟩ := hsame.syscallExit hs.tidy ht.tidy h.options hp hq hcall
    have hsteps := (syscallExit_steps hp (within_any hallowed.2 hp) hcall).sameRegistry
    have hsteps' := (syscallExit_steps hq (within_any hallowed'.2 hq) hcall').sameRegistry
    refine h.answers pid hs ht rfl hsubject hallowed hallowed' hstep hcall' hin.emits ?_ ?_ ?_ ?_
    · rw [hsteps.groupLeaders, hsteps'.groupLeaders, h.leaders _ hsubject]
    · rw [hsteps.procMap, hsteps'.procMap, h.mapped _ hsubject]
    · intro tid p' q' htid hp' hq' hown
      rw [hsteps.procMap] at hp'
      rw [hsteps'.procMap] at hq'
      have hpp' : p' = p := by
        rcases hown with rfl | hown
        · exact Option.some.inj (hp'.symm.trans hp)
        · exact Option.some.inj (hown.symm.trans hp)
      subst hpp'
      have hqq' := (h.groups pid tid p' q hsubject htid hp hq).mp hp'
      rw [hq'] at hqq'
      cases hqq'
      exact hin.same
    · intro tid p' q' _ htid hp' hq'
      rw [hsteps.procMap] at hp'
      rw [hsteps'.procMap] at hq'
      exact h.groups pid tid p' q' hsubject htid hp' hq'

theorem registerThread {pid thread : Pid} (h : Alike dom s t) (hs : s.Inv) (ht : t.Inv)
    (hsubject : dom thread) (hsource : dom pid)
    (hallowed : s.Allowed (.registerThread pid thread : Call arch))
    (hstep : s.step (.registerThread pid thread : Call arch) = .ok s') :
    Answers dom (.registerThread pid thread : Call arch) s t s' := by
  have hallowed' : t.Allowed (.registerThread pid thread : Call arch) :=
    h.allowed hsubject hsource hallowed
  obtain ⟨hcall, -⟩ := step_ok_iff.mp hstep
  have hcall : s.context.registerThread pid thread = .ok s'.context := hcall
  obtain ⟨p, hp, -, hleaders, hmap, hemits, -, hsame⟩ := registerThread_frame hcall
  obtain ⟨q, hq, hsame₀⟩ := h.lookup_of hsource hp
  obtain ⟨d', hcall'⟩ : ∃ d', t.context.registerThread pid thread = .ok d' := by
    unfold Context.registerThread
    rw [hq]
    dsimp only
    split
    · exact ⟨_, rfl⟩
    · exact ⟨_, rfl⟩
  obtain ⟨q', hq', -, hleaders', hmap', hemits', -, hsame'⟩ := registerThread_frame hcall'
  rw [hq] at hq'
  cases hq'
  refine h.answers thread hs ht rfl hsubject hallowed hallowed' hstep hcall' ⟨[], [], hemits, hemits'⟩ ?_ ?_ ?_ ?_
  · rw [hleaders, hleaders', h.leaders _ hsubject]
  · simp only [hmap, hmap', PidMap.lookup_insert, if_true, reduceCtorEq]
  · intro tid x y htid hx hy _
    have hxy : SameProc s.context t.context x y := by
      rw [hmap, PidMap.lookup_insert] at hx
      rw [hmap', PidMap.lookup_insert] at hy
      split at hx
      · rename_i heq
        rw [if_pos heq] at hy
        cases hx
        cases hy
        exact hsame₀
      · rename_i hne
        rw [if_neg hne] at hy
        exact h.procs tid x y htid hx hy
    exact (hsame tid x hx).symm.trans (hxy.trans (hsame' tid y hy))
  · intro tid x y _ htid hx hy
    simp only [hmap, hmap', PidMap.lookup_insert, if_true] at hx hy
    cases hx
    cases hy
    exact h.groups pid tid _ _ hsource htid hp hq

theorem registerProcess {os : Os} {parent child : Pid} (h : Alike dom s t) (hs : s.Inv) (ht : t.Inv)
    (hsubject : dom child) (hsource : dom parent)
    (hallowed : s.Allowed (.registerProcess os parent child : Call arch))
    (hstep : s.step (.registerProcess os parent child : Call arch) = .ok s') :
    Answers dom (.registerProcess os parent child : Call arch) s t s' := by
  have hallowed' : t.Allowed (.registerProcess os parent child : Call arch) :=
    h.allowed hsubject hsource hallowed
  obtain ⟨hcall, -⟩ := step_ok_iff.mp hstep
  have hcall : s.context.registerProcess os parent child = .ok s'.context := hcall
  obtain ⟨p, hp, hfree, hs'⟩ := registerProcess_ok hcall
  obtain ⟨q, hq, hsame⟩ := h.lookup_of hsource hp
  have hfree' := (h.mapped child hsubject).mp hfree
  have hcall' : t.context.registerProcess os parent child = .ok { t.context with
      heap := t.context.copyProc os q false child parent
      groupLeaders := insert child t.context.groupLeaders
      procMap := t.context.procMap.insert child t.context.heap.procCount } := by
    unfold Context.registerProcess
    rw [if_neg (Finmap.lookup_eq_none.mp hfree'), getProcState_ok_iff.mpr hq]
    rfl
  have hcopy := hsame.copyProc h.options os false child parent
  have hfresh : ∀ tid, s.context.procMap.lookup tid ≠ some s.context.heap.procCount :=
    fun tid heq => Nat.lt_irrefl _ (hs.registered.alloc tid _ heq)
  have hfresh' : ∀ tid, t.context.procMap.lookup tid ≠ some t.context.heap.procCount :=
    fun tid heq => Nat.lt_irrefl _ (ht.registered.alloc tid _ heq)
  refine h.answers child hs ht rfl hsubject hallowed hallowed' hstep hcall'
    ⟨[], [], hs' ▸ .of_same rfl rfl, .of_same rfl rfl⟩ ?_ ?_ ?_ ?_
  · simp [hs']
  · simp only [hs', PidMap.lookup_insert, if_true, reduceCtorEq]
  · intro tid x y htid hx hy hown
    rcases hown with heq | hown
    · simp only [hs', heq, PidMap.lookup_insert, if_true] at hx hy
      cases hx
      cases hy
      rw [hs']
      have hleft : SameProc { s.context with heap := s.context.copyProc os p false child parent }
        { s.context with
          heap := s.context.copyProc os p false child parent
          groupLeaders := insert child s.context.groupLeaders
          procMap := s.context.procMap.insert child s.context.heap.procCount }
        s.context.heap.procCount s.context.heap.procCount := .of_eq rfl rfl fun _ _ _ => rfl
      exact hleft.symm.trans (hcopy.trans (.of_eq rfl rfl fun _ _ _ => rfl))
    · rw [hfree] at hown
      cases hown
  · intro tid x y _ _ hx hy
    simp only [hs', PidMap.lookup_insert, if_true] at hx hy
    cases hx
    cases hy
    exact iff_of_false (hfresh tid) (hfresh' tid)

theorem registerExec {os : Os} {pid execpid : Pid} (h : Alike dom s t) (hs : s.Inv) (ht : t.Inv)
    (hsubject : dom pid) (hallowed : s.Allowed (.registerExec os pid execpid : Call arch))
    (hstep : s.step (.registerExec os pid execpid : Call arch) = .ok s') :
    Answers dom (.registerExec os pid execpid : Call arch) s t s' := by
  have hallowed' : t.Allowed (.registerExec os pid execpid : Call arch) :=
    h.allowed hsubject hsubject hallowed
  obtain ⟨hcall, -⟩ := step_ok_iff.mp hstep
  have hcall : s.context.registerExec os pid execpid = .ok s'.context := hcall
  obtain ⟨p, c₁, hp, hvanish, hv, hs'⟩ := Owned.registerExec_ok hs hallowed hcall
  obtain ⟨q, hq, hsame⟩ := h.lookup_of hsubject hp
  have hcount := Nat.lt_succ_of_lt (hs.registered.alloc pid p hp)
  have hcount' := Nat.lt_succ_of_lt (ht.registered.alloc pid q hq)
  have hppid : (s.context.heap.procs p).procInfo.ppid = (t.context.heap.procs q).procInfo.ppid := by
    rw [hsame.procInfo]
  -- the copies are the same, and so are the former process states, copied or not
  have hnew : SameProc (s.context.execCopy os pid p) (t.context.execCopy os pid q)
      s.context.heap.procCount t.context.heap.procCount := by
    unfold execCopy
    rw [hppid]
    exact hsame.copyProc h.options os true pid _
  have hold : SameProc (s.context.execCopy os pid p) (t.context.execCopy os pid q) p q :=
    (SameProc.of_copyProc hs.tidy (hs.registered.alloc pid p hp) os p true pid _).symm.trans
      (hsame.trans (.of_copyProc ht.tidy (ht.registered.alloc pid q hq) os q true pid _))
  obtain ⟨d₁, hvanish', hemits, hshared⟩ := hold.vanishProcess (hs.tidy.execCopy os pid p)
    (ht.tidy.execCopy os pid q) hp hq hcount hcount' (h.leaders pid hsubject) hvanish
  have hcall' : t.context.registerExec os pid execpid = .ok { d₁ with
      groupLeaders := insert pid d₁.groupLeaders
      procMap := d₁.procMap.insert pid t.context.heap.procCount } := by
    unfold Context.registerExec
    rw [getProcState_ok_iff.mpr hq, bind_ok]
    have hvanish' : { t.context with
      heap := t.context.copyProc os q true pid (t.context.heap.procs q).procInfo.ppid }.vanishProcess
        pid = .ok d₁ := hvanish'
    simp only [hvanish', bind_ok]
    rfl
  obtain ⟨q', d₂, hq', hvanish₂, hv', hd'⟩ := Owned.registerExec_ok ht hallowed' hcall'
  have hqq := Option.some.inj (hq'.symm.trans hq)
  subst hqq
  rw [hvanish'] at hvanish₂
  cases hvanish₂
  have hfresh : ∀ tid, s.context.procMap.lookup tid ≠ some s.context.heap.procCount :=
    fun tid heq => Nat.lt_irrefl _ (hs.registered.alloc tid _ heq)
  have hfresh' : ∀ tid, t.context.procMap.lookup tid ≠ some t.context.heap.procCount :=
    fun tid heq => Nat.lt_irrefl _ (ht.registered.alloc tid _ heq)
  have hmap : ∀ tid, s'.context.procMap.lookup tid =
      if tid = pid then some s.context.heap.procCount else s.context.procMap.lookup tid := by
    intro tid
    rw [hs', PidMap.lookup_insert]
    split
    · rfl
    · rename_i hne
      rw [hv.procMap, PidMap.lookup_erase, if_neg hne]
      rfl
  have hmap' : ∀ tid, (d₁.procMap.insert pid t.context.heap.procCount).lookup tid =
      if tid = pid then some t.context.heap.procCount else t.context.procMap.lookup tid := by
    intro tid
    rw [PidMap.lookup_insert]
    split
    · rfl
    · rename_i hne
      rw [hv'.procMap, PidMap.lookup_erase, if_neg hne]
      rfl
  refine h.answers pid hs ht rfl hsubject hallowed hallowed' hstep hcall' ?_ ?_ ?_ ?_ ?_
  · obtain ⟨outs, kills, hleft, hright⟩ := hemits
    exact ⟨outs, kills, hs' ▸ ⟨hleft.outputs, hleft.kills⟩, ⟨hright.outputs, hright.kills⟩⟩
  · simp [hs']
  · simp only [hmap, hmap', if_true, reduceCtorEq]
  · intro tid x y htid hx hy hown
    have hleft : ∀ x, SameProc c₁ s'.context x x := fun x => hs' ▸ .of_eq rfl rfl fun _ _ _ => rfl
    rw [hmap] at hx
    rw [hmap'] at hy
    by_cases heq : tid = pid
    · rw [if_pos heq] at hx hy
      cases hx
      cases hy
      have hgone : SameProc (s.context.execCopy os pid p) c₁ s.context.heap.procCount
          s.context.heap.procCount := .of_vanishProcess (hs.tidy.execCopy os pid p) hp hcount
        (fun hno => hfresh pid (hno ▸ hp)) hvanish
      have hgone' : SameProc (t.context.execCopy os pid q') d₁ t.context.heap.procCount
          t.context.heap.procCount := .of_vanishProcess (ht.tidy.execCopy os pid q') hq hcount'
        (fun hno => hfresh' pid (hno ▸ hq)) hvanish'
      exact (hleft _).symm.trans (hgone.symm.trans (hnew.trans (hgone'.trans
        (.of_eq rfl rfl fun _ _ _ => rfl))))
    · rw [if_neg heq] at hx hy
      have hxp := Option.some.inj ((hown.resolve_left heq).symm.trans hp)
      subst hxp
      have hqy := (h.groups pid tid x q' hsubject htid hp hq).mp hx
      rw [hy] at hqy
      cases hqy
      exact (hleft _).symm.trans ((hshared tid heq hx hy).trans (.of_eq rfl rfl fun _ _ _ => rfl))
  · intro tid x y _ _ hx hy
    rw [hmap, if_pos rfl] at hx
    rw [hmap', if_pos rfl] at hy
    cases hx
    cases hy
    exact iff_of_false (hfresh tid) (hfresh' tid)

theorem registerCoreDump {os : Os} {pid : Pid} {termSig : Int} (h : Alike dom s t) (hs : s.Inv)
    (ht : t.Inv) (hsubject : dom pid)
    (hstep : s.step (.registerCoreDump os pid termSig : Call arch) = .ok s') :
    Answers dom (.registerCoreDump os pid termSig : Call arch) s t s' := by
  obtain ⟨hcall, -⟩ := step_ok_iff.mp hstep
  have hcall : s.context.registerCoreDump os pid termSig = .ok s'.context := hcall
  obtain ⟨-, hheap, hleaders, hmap⟩ := registerCoreDump_framed hcall
  obtain ⟨p, hp, hrun⟩ := bind_eq_ok_iff.mp hcall
  rw [getProcState_ok_iff] at hp
  obtain ⟨q, hq, hsame⟩ := h.lookup_of hsubject hp
  obtain ⟨d', hcall', hemits⟩ : ∃ d', t.context.registerCoreDump os pid termSig = .ok d' ∧
      ∃ outs kills, Emits s.context s'.context outs kills ∧ Emits t.context d' outs kills := by
    unfold Context.registerCoreDump
    rw [getProcState_ok_iff.mpr hq, bind_ok, ← h.options, ← hsame.procInfo]
    split at hrun
    · rw [pure_eq_ok_iff] at hrun
      rw [← hrun, if_pos ‹_›]
      refine ⟨_, rfl, ?_⟩
      unfold searchAndRegisterCoreDumpFile
      simp only
      split
      · exact ⟨[], [], .refl _, .refl _⟩
      · exact ⟨_, [], ⟨List.map_append, (List.append_nil _).symm⟩,
          ⟨List.map_append, (List.append_nil _).symm⟩⟩
    · rw [pure_eq_ok_iff] at hrun
      rw [← hrun, if_neg ‹_›]
      exact ⟨_, rfl, [], [], .refl _, .refl _⟩
  obtain ⟨-, hheap', hleaders', hmap'⟩ := registerCoreDump_framed hcall'
  refine h.answers pid hs ht rfl hsubject trivial trivial hstep hcall' hemits ?_ ?_ ?_ ?_
  · rw [hleaders, hleaders', h.leaders pid hsubject]
  · rw [hmap, hmap', h.mapped pid hsubject]
  · intro tid x y htid hx hy _
    rw [hmap] at hx
    rw [hmap'] at hy
    have hleft : SameProc s.context s'.context x x := by
      refine .of_eq ?_ ?_ fun _ _ _ => ?_
      all_goals rw [hheap]
    have hright : SameProc t.context d' y y := by
      refine .of_eq ?_ ?_ fun _ _ _ => ?_
      all_goals rw [hheap']
    exact hleft.symm.trans ((h.procs tid x y htid hx hy).trans hright)
  · intro tid x y _ htid hx hy
    rw [hmap] at hx
    rw [hmap'] at hy
    exact h.groups pid tid x y hsubject htid hx hy

theorem vanishProcess {pid : Pid} (h : Alike dom s t) (hs : s.Inv) (ht : t.Inv)
    (hsubject : dom pid) (hstep : s.step (.vanishProcess pid : Call arch) = .ok s') :
    Answers dom (.vanishProcess pid : Call arch) s t s' := by
  obtain ⟨hcall, -⟩ := step_ok_iff.mp hstep
  have hcall : s.context.vanishProcess pid = .ok s'.context := hcall
  obtain ⟨p, hp⟩ := vanishProcess_mapped hcall
  obtain ⟨q, hq, hsame⟩ := h.lookup_of hsubject hp
  obtain ⟨d', hcall', hemits, hshared⟩ := hsame.vanishProcess hs.tidy ht.tidy hp hq
    (hs.registered.alloc pid p hp) (ht.registered.alloc pid q hq) (h.leaders pid hsubject) hcall
  obtain ⟨c₁, hrun, hv, -⟩ := @Owned.vanish Q _ arch _ _ hs _ _ hp
  rw [hcall] at hrun
  cases hrun
  obtain ⟨d₁, hrun', hv', -⟩ := @Owned.vanish Q _ arch _ _ ht _ _ hq
  rw [hcall'] at hrun'
  cases hrun'
  have hgone : s'.context.procMap.lookup pid = none := by
    rw [hv.procMap, PidMap.lookup_erase, if_pos rfl]
  have hgone' : d'.procMap.lookup pid = none := by
    rw [hv'.procMap, PidMap.lookup_erase, if_pos rfl]
  refine h.answers pid hs ht rfl hsubject trivial trivial hstep hcall' hemits ?_ ?_ ?_ ?_
  · simp [hv.groupLeaders, hv'.groupLeaders]
  · exact iff_of_true hgone hgone'
  · intro tid x y htid hx hy hown
    have hne : tid ≠ pid := fun heq => absurd (hgone.symm.trans (heq ▸ hx)) (by simp)
    rw [hv.procMap, PidMap.lookup_erase, if_neg hne] at hx
    rw [hv'.procMap, PidMap.lookup_erase, if_neg hne] at hy
    have hxp := Option.some.inj ((hown.resolve_left hne).symm.trans hp)
    subst hxp
    have hqy := (h.groups pid tid x q hsubject htid hp hq).mp hx
    rw [hy] at hqy
    cases hqy
    exact hshared tid hne hx hy
  · intro tid x y _ _ hx
    exact absurd (hgone.symm.trans hx) (by simp)

/-- A call about the set does the same to trackers that are alike on it. -/
theorem step (h : Alike dom s t) (hs : s.Inv) (ht : t.Inv) (hsubject : dom call.subject)
    (hsource : dom call.source) (hallowed : s.Allowed call) (hstep : s.step call = .ok s') :
    Answers dom call s t s' := by
  cases call with
  | syscallExit os pid registers => exact h.syscallExit hs ht hsubject hallowed hstep
  | registerThread pid thread => exact h.registerThread hs ht hsubject hsource hallowed hstep
  | registerProcess os parent child => exact h.registerProcess hs ht hsubject hsource hallowed hstep
  | registerExec os pid execpid => exact h.registerExec hs ht hsubject hallowed hstep
  | registerCoreDump os pid termSig => exact h.registerCoreDump hs ht hsubject hstep
  | vanishProcess pid => exact h.vanishProcess hs ht hsubject hstep

end Alike

/-! ## Leaving calls out -/

section

variable [DecidablePred dom]

/-- What was reported about the processes of the set. -/
def outputsOf (dom : Pid → Prop) [DecidablePred dom] (s : Tracked Q) : List OutputFile :=
  s.context.outputs.filter fun o => dom o.procInfo.pid

/-- The signals that were sent to them. -/
def killsOf (dom : Pid → Prop) [DecidablePred dom] (s : Tracked Q) : List (Pid × Int) :=
  s.context.kills.filter fun kill => dom kill.1

/-- What a call about the rest says does not count. -/
theorem Owns.foreign_step (hown : s.Owns dom) (hs : s.Inv) (hallowed : s.Allowed call)
    (hout : ¬ dom call.subject) (h : s.step call = .ok s') :
    Alike dom s s' ∧ outputsOf dom s' = outputsOf dom s ∧ killsOf dom s' = killsOf dom s := by
  have hframed := hs.framed hallowed h
  obtain ⟨-, hretired⟩ := step_ok_iff.mp h
  refine ⟨.of_framed hown hout hframed fun tid htid => ?_, ?_⟩
  · rw [hretired]
    refine Call.mem_retire_iff (fun heq => hout (heq ▸ htid)) fun p hp hno => hout ?_
    exact (hown _ p hp).mp ((hown tid p hno).mpr htid)
  · obtain ⟨outs, kills, hemits, houts, hkills⟩ := hframed.emits
    unfold outputsOf killsOf
    rw [hemits.outputs, hemits.kills, List.filter_append, List.filter_append]
    have hnoOuts : outs.filter (fun o => dom o.procInfo.pid) = [] := by
      refine List.filter_eq_nil_iff.mpr fun o ho => ?_
      obtain ⟨p, hp, hinfo⟩ := houts o ho
      rw [hinfo, decide_eq_true_iff, hown _ p hp]
      exact hout
    have hnoKills : kills.filter (fun kill => dom kill.1) = [] := by
      refine List.filter_eq_nil_iff.mpr fun kill hkill => ?_
      rw [hkills kill hkill, decide_eq_true_iff]
      exact hout
    rw [hnoOuts, hnoKills, List.append_nil, List.append_nil]
    exact ⟨rfl, rfl⟩

/-- The calls about the set. -/
def callsOf (dom : Pid → Prop) [DecidablePred dom] (calls : List (Call arch)) : List (Call arch) :=
  calls.filter fun call => dom call.subject

theorem Alike.run {calls : List (Call arch)} (h : Alike dom s t) (hs : s.Inv) (ht : t.Inv)
    (hown : s.Owns dom) (houtputs : outputsOf dom s = outputsOf dom t)
    (hkills : killsOf dom s = killsOf dom t) (hallowed : Runs.Along Tracked.step Allowed s calls)
    (hrespects : ∀ call ∈ calls, call.Respects dom)
    (hrun : Runs.run Tracked.step s calls = .ok s') :
    ∃ t', Runs.run Tracked.step t (callsOf dom calls) = .ok t' ∧
      Runs.Along Tracked.step Allowed t (callsOf dom calls) ∧ Alike dom s' t' ∧
      outputsOf dom s' = outputsOf dom t' ∧ killsOf dom s' = killsOf dom t' := by
  induction calls generalizing s t with
  | nil =>
    cases hrun
    exact ⟨t, rfl, trivial, h, houtputs, hkills⟩
  | cons call calls ih =>
    obtain ⟨s₁, hs₁, hrun⟩ := Runs.run_cons_ok_iff.mp hrun
    have hcall := hrespects call List.mem_cons_self
    have hrest : ∀ call ∈ calls, call.Respects dom := fun call hmem =>
      hrespects call (List.mem_cons_of_mem _ hmem)
    have hinv₁ := inv_step s call s₁ hs hallowed.1 hs₁
    have hown₁ := hown.step hs hallowed.1 hcall.joins hs₁
    by_cases hin : dom call.subject
    · -- the other tracker makes the call as well, and says the same
      obtain ⟨t₁, ht₁, halike₁, outs, kills, hemits, hemits'⟩ :=
        h.step hs ht hin (hcall.source hin) hallowed.1 hs₁
      have hallowed' := h.allowed hin (hcall.source hin) hallowed.1
      obtain ⟨t', hrun', halong', hfinal⟩ := ih halike₁ hinv₁ (inv_step t call t₁ ht hallowed' ht₁)
        hown₁ (by
          unfold outputsOf at houtputs ⊢
          rw [hemits.outputs, hemits'.outputs, List.filter_append, List.filter_append, houtputs])
        (by
          unfold killsOf at hkills ⊢
          rw [hemits.kills, hemits'.kills, List.filter_append, List.filter_append, hkills])
        (hallowed.2 s₁ hs₁) hrest hrun
      have hcalls : callsOf dom (call :: calls) = call :: callsOf dom calls :=
        List.filter_cons_of_pos (decide_eq_true hin)
      rw [hcalls]
      refine ⟨t', Runs.run_cons_ok_iff.mpr ⟨t₁, ht₁, hrun'⟩, ⟨hallowed', fun t₂ ht₂ => ?_⟩, hfinal⟩
      rw [ht₁] at ht₂
      cases ht₂
      exact halong'
    · -- the other tracker stays where it is
      obtain ⟨halike₁, houtputs₁, hkills₁⟩ := hown.foreign_step hs hallowed.1 hin hs₁
      have hcalls : callsOf dom (call :: calls) = callsOf dom calls :=
        List.filter_cons_of_neg (by simpa using hin)
      rw [hcalls]
      exact ih (halike₁.symm.trans h) hinv₁ ht hown₁ (houtputs₁.trans houtputs)
        (hkills₁.trans hkills) (hallowed.2 s₁ hs₁) hrest hrun

end

theorem Owns.start {opts : Options} {os : Os} {tracee : Pid} {c₀ : Context Q}
    (hstart : (Context.new opts : Context Q).registerTracee os tracee = .ok c₀) :
    (⟨c₀, ∅⟩ : Tracked Q).Owns dom := by
  obtain ⟨-, hsteps⟩ := registerTracee_ok hstart
  have hsame := hsteps.sameRegistry
  intro pid p hp
  rw [hsame.procMap, PidMap.lookup_insert] at hp
  split at hp
  · rename_i heq
    cases hp
    rw [hsame.procInfo, heq]
    simp [Heap.newProc, newProcState]
  · cases hp

theorem Inv.start {opts : Options} {os : Os} {tracee : Pid} {c₀ : Context Q}
    (hstart : (Context.new opts : Context Q).registerTracee os tracee = .ok c₀) :
    (⟨c₀, ∅⟩ : Tracked Q).Inv := by
  have hc₀ := (Owned.new opts).registerTracee hstart
  rwa [Finset.erase_empty] at hc₀

/-- What the tracker says and knows about a set of processes is settled by the calls about
them: the calls about all others can be left out of any trace. -/
theorem other_calls_change_nothing [DecidablePred dom] {opts : Options} {os : Os} {tracee : Pid}
    {c₀ : Context Q} {calls : List (Call arch)}
    (hstart : (Context.new opts : Context Q).registerTracee os tracee = .ok c₀)
    (hallowed : Runs.Along Tracked.step Allowed ⟨c₀, ∅⟩ calls)
    (hrespects : ∀ call ∈ calls, call.Respects dom)
    (hrun : Runs.run Tracked.step ⟨c₀, ∅⟩ calls = .ok s) :
    ∃ t, Runs.run Tracked.step ⟨c₀, ∅⟩ (callsOf dom calls) = .ok t ∧
      Runs.Along Tracked.step Allowed ⟨c₀, ∅⟩ (callsOf dom calls) ∧ Alike dom s t ∧
      outputsOf dom s = outputsOf dom t ∧ killsOf dom s = killsOf dom t := by
  exact (Alike.refl dom _).run (Inv.start hstart) (Inv.start hstart) (Owns.start hstart) rfl rfl
    hallowed hrespects hrun

open FileStorage in
/-- The child that closes its copy might as well not have been forked. -/
theorem other_calls_change_nothing_fork :
    ∃ (c₀ : Context FileQueue) (s t : Tracked FileQueue),
      (Context.new plainOptions).registerTracee (plainOs 0) 1 = .ok c₀ ∧
      Runs.run Tracked.step ⟨c₀, ∅⟩ openForkClose = .ok s ∧
      Runs.run Tracked.step ⟨c₀, ∅⟩ (callsOf (· = 1) openForkClose) = .ok t ∧
      Alike (· = 1) s t ∧ s.context.outputs.length = 1 ∧ outputsOf (· = 1) s = [] ∧
      t.context.outputs = [] := by
  have hrespects : ∀ call ∈ openForkClose, call.Respects (· = 1) := by decide
  refine ⟨_, _, _, rfl, rfl, rfl, ?_, rfl, rfl, rfl⟩
  obtain ⟨t, hrun, -, halike, -⟩ := @other_calls_change_nothing FileQueue _ .x86_64 _ (· = 1) _
    plainOptions (plainOs 0) 1 _ openForkClose rfl (by decide) hrespects rfl
  cases hrun
  exact halike

end Tracked

end Optrace
