import Optrace.Assertions

/-!
# The registration maps

`ProcMap`, `GroupLeaders` and the map of syscall states, against the thread groups of the kernel:
as long as every new tracee is registered as what it is and only group leaders exec, the three
have an entry for each tracee the tracer was told of and no other.
-/

namespace Optrace

set_option autoImplicit false
set_option linter.unusedSectionVars false

open Except SlotTable

/-! ## Thread groups -/

namespace Kernel

variable {k k' : Kernel} {tid pid child group : Pid} {task task' : Task}

/-- The tracer was told of the tracee, which is in this group. -/
def Member (k : Kernel) (tid group : Pid) : Prop :=
  ∃ task, k.tasks.lookup tid = some task ∧ task.announced = true ∧ task.group = group

theorem Member.unique {group' : Pid} (h : k.Member tid group) (h' : k.Member tid group') :
    group = group' := by
  obtain ⟨t, ht, _, hg⟩ := h
  obtain ⟨t', ht', _, hg'⟩ := h'
  rw [ht] at ht'
  cases ht'
  exact hg.symm.trans hg'

theorem Resumes.member {resumed : Pid → Request → Prop} (h : Resumes resumed k k') :
    k'.Member tid group ↔ k.Member tid group := by
  constructor
  · rintro ⟨t, ht, hann, hg⟩
    obtain ⟨t₀, ht₀, rfl | ⟨q, _, rfl⟩⟩ := h.lookup ht
    · exact ⟨t, ht₀, hann, hg⟩
    · rw [Task.resumed_announced] at hann
      rw [Task.resumed_group] at hg
      exact ⟨t₀, ht₀, hann, hg⟩
  · rintro ⟨t₀, ht₀, hann, hg⟩
    obtain ⟨t, ht, rfl | ⟨q, _, rfl⟩⟩ := h.lookup_old ht₀
    · exact ⟨t, ht, hann, hg⟩
    · exact ⟨_, ht, by rwa [Task.resumed_announced], by rwa [Task.resumed_group]⟩

theorem setTask_member (htask : k.tasks.lookup pid = some task)
    (hann : task'.announced = task.announced) (hgroup : task'.group = task.group) :
    (k.setTask pid task').Member tid group ↔ k.Member tid group := by
  unfold Member
  rw [setTask_lookup]
  by_cases htid : tid = pid
  · rw [if_pos htid, htid, htask]
    constructor
    · rintro ⟨t, ht, hyes, hg⟩
      cases ht
      exact ⟨task, rfl, hann ▸ hyes, hgroup ▸ hg⟩
    · rintro ⟨t, ht, hyes, hg⟩
      cases ht
      exact ⟨task', rfl, hann.trans hyes, hgroup.trans hg⟩
  · rw [if_neg htid]

theorem erase_member :
    ({ k with tasks := k.tasks.erase pid } : Kernel).Member tid group ↔
      tid ≠ pid ∧ k.Member tid group := by
  unfold Member
  simp only [PidMap.lookup_erase]
  by_cases htid : tid = pid
  · simp [htid]
  · simp [htid]

theorem announce_member {new : Task} (hnew : k.tasks.lookup child = some new) :
    (k.announce child).Member tid group ↔
      (tid = child ∧ group = new.group) ∨ (tid ≠ child ∧ k.Member tid group) := by
  unfold Member
  simp only [announce, hnew, setTask_lookup]
  by_cases htid : tid = child
  · rw [if_pos htid]
    constructor
    · rintro ⟨t, ht, _, hg⟩
      cases ht
      exact Or.inl ⟨htid, hg.symm⟩
    · rintro (⟨_, rfl⟩ | ⟨hne, _⟩)
      · exact ⟨_, rfl, rfl, rfl⟩
      · exact absurd htid hne
  · rw [if_neg htid]
    simp [htid]

theorem born_member {isThread : Bool} (htask : k.tasks.lookup pid = some task)
    (hchild : k.tasks.lookup child = none) :
    (k.born pid child isThread).Member tid group ↔ k.Member tid group := by
  have hset := @setTask_member k tid pid group task { task with newborn := some child } htask rfl rfl
  rw [← hset]
  unfold Member
  rw [born_lookup htask, setTask_lookup]
  by_cases htid : tid = child
  · have hne : child ≠ pid := by
      rintro rfl
      rw [htask] at hchild
      cases hchild
    rw [if_pos htid, htid, if_neg hne, hchild]
    constructor
    · rintro ⟨t, ht, hno, _⟩
      cases ht
      cases hno
    · rintro ⟨t, ht, _⟩
      cases ht
  · rw [if_neg htid]

/-- A group leader's own exec changes no group. -/
theorem execed_member (htask : k.tasks.lookup pid = some task) (nr : Word) (gone : Bool) :
    (k.execed pid pid nr gone).Member tid group ↔ k.Member tid group := by
  obtain ⟨new, hnew, hlookup⟩ := execed_lookup pid htask nr gone
  have hann : new.announced = task.announced := by
    rw [hnew.announced, htask]
    rfl
  have hset := @setTask_member k tid pid group task new htask hann hnew.group
  rw [← hset]
  unfold Member
  rw [hlookup, setTask_lookup]
  by_cases htid : tid = pid
  · rw [if_pos htid, if_pos htid]
  · rw [if_neg htid, if_neg htid, if_neg htid]

end Kernel

namespace Traced

variable {Q : Type} [MaxOutFilesQueue Q] {arch : Arch} {cfg : TracerConfig} {s s' : Traced arch Q}
  {pid : Pid} {notice : Notice} {os : Os} {ptrace : Ptrace arch}

/-- Every new tracee is registered as the thread or the process it is, and only a group leader
execs. -/
def asItIs (s : Traced arch Q) : Input arch → Bool
  | .born _ _ _ => true
  | .notice pid notice _ ptrace =>
    match notice with
    | .cloned event _ => !told ptrace event || (s.kernel.tasks.lookup pid).all fun task =>
      task.newborn.all fun child => (s.kernel.tasks.lookup child).all fun new =>
        Tracer.asThread ptrace event == (new.group != child)
    | .execed former _ => former == pid
    | _ => true

/-- The maps have the tracees the tracer was told of, with one process state for each group. -/
structure InGroups (s : Traced arch Q) : Prop where
  accounted : s.Accounted
  formers : s.kernel.formers = ∅
  leaders : ∀ l, l ∈ s.tracer.context.groupLeaders ↔ s.kernel.Member l l
  shared : ∀ tid group, s.kernel.Member tid group →
    s.tracer.context.procMap.lookup tid = s.tracer.context.procMap.lookup group
  registered : s.tracer.context.Registered ∅

namespace InGroups

theorem procMap_member (hs : s.InGroups) {tid : Pid} (htid : tid ∈ s.tracer.context.procMap) :
    ∃ group, s.kernel.Member tid group := by
  rcases hs.accounted.accounted tid htid with ⟨t, ht, hann⟩ | hformer
  · exact ⟨t.group, t, ht, hann, rfl⟩
  · rw [hs.formers] at hformer
    exact absurd hformer (Finset.notMem_empty tid)

theorem member_state (hs : s.InGroups) {tid group : Pid} (h : s.kernel.Member tid group) :
    tid ∈ s.tracer.syscallStateMap := by
  obtain ⟨t, ht, hann, _⟩ := h
  exact Optrace.Known.known hs.accounted.known tid t ht (Or.inl hann)

theorem state_member (hs : s.InGroups) {tid : Pid} (htid : tid ∈ s.tracer.syscallStateMap) :
    ∃ group, s.kernel.Member tid group := hs.procMap_member (hs.accounted.mapped tid htid)

/-- The leader of a known tracee's group is known. -/
theorem leader_member (hs : s.InGroups) {tid group : Pid} (h : s.kernel.Member tid group) :
    s.kernel.Member group group := by
  obtain ⟨t, ht, hann, rfl⟩ := h
  obtain ⟨l, hl, hleads, hin⟩ := Optrace.Known.led hs.accounted.known tid t ht
  by_cases heq : t.group = tid
  · rw [heq]
    exact ⟨t, ht, hann, heq⟩
  · obtain ⟨g, t', ht', hann', _⟩ := hs.state_member (hin heq)
    rw [hl] at ht'
    cases ht'
    exact ⟨l, hl, hann', hleads⟩

/-- Whoever shares a group leader's process state is in its group. -/
theorem group_of_shared (hs : s.InGroups) {tid : Pid} {p : Nat}
    (hlead : pid ∈ s.tracer.context.groupLeaders)
    (hp : s.tracer.context.procMap.lookup pid = some p)
    (htid : s.tracer.context.procMap.lookup tid = some p) : s.kernel.Member tid pid := by
  obtain ⟨group, hmember⟩ := hs.procMap_member (Finmap.mem_of_lookup_eq_some htid)
  have hgroup := (hs.leaders group).mpr (hs.leader_member hmember)
  have heq : group = pid := by
    apply hs.registered.distinct group hgroup pid hlead
    rw [← hs.shared tid group hmember, htid, hp]
  rwa [heq] at hmember

/-- The maps after a step that registers, drops or replaces nothing. -/
theorem keep (hs : s.InGroups) (haccounted : s'.Accounted)
    (hformers : s'.kernel.formers = s.kernel.formers)
    (hmember : ∀ tid group, s'.kernel.Member tid group ↔ s.kernel.Member tid group)
    (hleaders : s'.tracer.context.groupLeaders = s.tracer.context.groupLeaders)
    (hmap : s'.tracer.context.procMap = s.tracer.context.procMap)
    (hregistered : s'.tracer.context.Registered ∅) : s'.InGroups := by
  refine ⟨haccounted, hformers.trans hs.formers, fun l => ?_, fun tid group h => ?_, hregistered⟩
  · rw [hleaders, hmember]
    exact hs.leaders l
  · rw [hmap]
    exact hs.shared tid group ((hmember tid group).mp h)

theorem plain (hs : s.InGroups) (haccounted : s'.Accounted) {task : Task}
    (htask : s.kernel.tasks.lookup pid = some task)
    (hturned : Tracer.Turned cfg os ptrace pid s.tracer s'.tracer notice)
    (hkernel : s'.kernel =
      s'.tracer.resumes.foldl Kernel.resume (s.kernel.noticed cfg pid ptrace notice))
    (hplain : Tracer.Plain notice) : s'.InGroups := by
  obtain ⟨c, states, calls, hafter, _, hc⟩ := hturned.plain hplain
  obtain ⟨hnoticed, hgroup, hann, _⟩ := noticed_plain cfg htask hplain
  have hresumes := hafter.resumes (s.kernel.noticed cfg pid ptrace notice)
  rw [← hkernel, hnoticed] at hresumes
  have hcontext : c.groupLeaders = s.tracer.context.groupLeaders ∧
      c.procMap = s.tracer.context.procMap ∧ c.Registered ∅ := by
    rcases hc with rfl | ⟨hpid, registers, hexit⟩
    · exact ⟨rfl, rfl, hs.registered⟩
    · obtain ⟨p, hp⟩ := hs.accounted.mapped.lookup hpid
      obtain ⟨hsame, hothers⟩ := Context.syscallExit_frame hp hexit
      exact ⟨hsame.groupLeaders, hsame.procMap,
        hs.registered.frame hp (Finset.notMem_empty pid) hsame hothers⟩
  rw [← hafter.context] at hcontext
  refine hs.keep haccounted hresumes.formers (fun tid group => ?_) hcontext.1 hcontext.2.1 hcontext.2.2
  rw [hresumes.member, Kernel.setTask_member htask hann hgroup]

theorem born {creator child : Pid} {isThread : Bool} (hs : s.InGroups) (haccounted : s'.Accounted)
    (hpermit : s.Permitted cfg (.born creator child isThread))
    (h : s.step cfg (.born creator child isThread) = .ok s') : s'.InGroups := by
  cases h
  simp only [Permitted, Kernel.permits, Bool.and_eq_true, Option.any_eq_true] at hpermit
  obtain ⟨⟨⟨task, htask, _⟩, hchild⟩, _⟩ := hpermit
  have hchild := Finmap.lookup_eq_none.mpr (of_decide_eq_true hchild)
  refine hs.keep haccounted ?_ (fun tid group => Kernel.born_member htask hchild) rfl rfl hs.registered
  simp only [Kernel.born, htask]
  rfl

/-- A group leader dies last, so nobody is left with its process state. -/
theorem death (hs : s.InGroups) (haccounted : s'.Accounted) {task : Task}
    (hpermit : s.Permitted cfg (.notice pid notice os ptrace))
    (htask : s.kernel.tasks.lookup pid = some task)
    (hturned : Tracer.Turned cfg os ptrace pid s.tracer s'.tracer notice)
    (hkernel : s'.kernel =
      s'.tracer.resumes.foldl Kernel.resume (s.kernel.noticed cfg pid ptrace notice))
    (hdeath : notice.isDeath = true) : s'.InGroups := by
  have halone := alone_of_death hs.accounted.known htask (death_permitted hpermit htask hdeath)
  obtain ⟨c₁, c, dump, hafter, hpid, hvanish, hdump⟩ := hturned.of_dead hdeath
  have hresumes := hafter.resumes (s.kernel.noticed cfg pid ptrace notice)
  rw [← hkernel, noticed_death htask hdeath] at hresumes
  have hdumped : c₁.heap = s.tracer.context.heap ∧
      c₁.groupLeaders = s.tracer.context.groupLeaders ∧
      c₁.procMap = s.tracer.context.procMap := by
    rcases hdump with ⟨rfl, _⟩ | ⟨sig, hcore, _⟩
    · exact ⟨rfl, rfl, rfl⟩
    · exact Context.registerCoreDump_same hcore
  obtain ⟨hheap, hleaders, hmap⟩ := hdumped
  have hregistered : c₁.Registered ∅ := by
    obtain ⟨halloc, hmapped, hdistinct, hled, howned, hactive⟩ := hs.registered
    refine ⟨?_, ?_, ?_, ?_, ?_, ?_⟩
    all_goals simpa only [hheap, hleaders, hmap]
  obtain ⟨p, hp⟩ := hs.accounted.mapped.lookup hpid
  rw [← hmap] at hp
  obtain ⟨c', hrun, hv⟩ := Context.vanishProcess_vanished hp (hregistered.alloc pid p hp)
    fun hlead => hregistered.kept hlead p
  rw [hvanish] at hrun
  cases hrun
  have hmember : ∀ tid group, s'.kernel.Member tid group ↔
      tid ≠ pid ∧ s.kernel.Member tid group := by
    intro tid group
    rw [hresumes.member, Kernel.erase_member]
  refine ⟨haccounted, hresumes.formers.trans hs.formers, fun l => ?_, fun tid group h => ?_, ?_⟩
  · rw [hafter.context, hv.groupLeaders, hleaders, Finset.mem_erase, hmember]
    exact and_congr_right fun _ => hs.leaders l
  · obtain ⟨hne, hold⟩ := (hmember tid group).mp h
    have hgroup : group ≠ pid := by
      rintro rfl
      obtain ⟨t, ht, _, hg⟩ := hold
      exact hne (halone tid t ht hg)
    rw [hafter.context, hv.procMap, hmap, PidMap.lookup_erase, PidMap.lookup_erase, if_neg hne,
      if_neg hgroup]
    exact hs.shared tid group hold
  · rw [hafter.context]
    refine hregistered.reassigned (hv.reassigned hp) (fun tid hne _ => ?_)
      (fun _ _ => Finset.notMem_empty _)
    refine ⟨Finset.notMem_empty tid, fun hlead heq => ?_⟩
    rw [hleaders] at hlead
    rw [hp, hmap] at heq
    rw [hmap] at hp
    obtain ⟨t, ht, _, hg⟩ := hs.group_of_shared hlead hp heq
    exact hne (halone tid t ht hg)

/-- Nobody is in a group that a tracee without an entry leads. -/
theorem apart (hs : s.InGroups) {child : Pid} (hfresh : child ∉ s.tracer.context.procMap)
    {tid group : Pid} (h : s.kernel.Member tid group) : tid ≠ child ∧ group ≠ child := by
  refine ⟨?_, ?_⟩
  · rintro rfl
    exact hfresh (hs.accounted.mapped tid (hs.member_state h))
  · rintro rfl
    exact hfresh (hs.accounted.mapped group (hs.member_state (hs.leader_member h)))

theorem addProcess (hs : s.InGroups) (haccounted : s'.Accounted) {child : Pid}
    (hformers : s'.kernel.formers = ∅) (hfresh : child ∉ s.tracer.context.procMap)
    (hmember : ∀ tid group, s'.kernel.Member tid group ↔
      (tid = child ∧ group = child) ∨ (tid ≠ child ∧ s.kernel.Member tid group))
    (h : s.tracer.context.registerProcess os pid child = .ok s'.tracer.context) : s'.InGroups := by
  have hlookup := Finmap.lookup_eq_none.mpr hfresh
  obtain ⟨p, _, _, hc⟩ := Context.registerProcess_ok h
  refine ⟨haccounted, hformers, fun l => ?_, fun tid group h => ?_, ?_⟩
  · rw [hc, hmember, Finset.mem_insert]
    constructor
    · rintro (rfl | hl)
      · exact Or.inl ⟨rfl, rfl⟩
      · have hold := (hs.leaders l).mp hl
        exact Or.inr ⟨(hs.apart hfresh hold).1, hold⟩
    · rintro (⟨rfl, _⟩ | ⟨_, hold⟩)
      · exact Or.inl rfl
      · exact Or.inr ((hs.leaders l).mpr hold)
  · rw [hc]
    rcases (hmember tid group).mp h with ⟨rfl, rfl⟩ | ⟨_, hold⟩
    · rfl
    · obtain ⟨htid, hg⟩ := hs.apart hfresh hold
      simp only [PidMap.lookup_insert, if_neg htid, if_neg hg]
      exact hs.shared tid group hold
  · rw [hc]
    have hreg := @Context.Registered.newLeader Q _ s.tracer.context _ ∅ hs.registered child
      hlookup (congrArg Context.procMap hc) (congrArg Context.groupLeaders hc) ?_ ?_
    · rw [Finset.erase_empty] at hreg
      rwa [hc] at hreg
    · intro q hq
      rw [hc]
      exact Context.copyProc_fds_ne os _ p false child pid hq
    · rw [hc]
      rfl

theorem addThread (hs : s.InGroups) (haccounted : s'.Accounted) {child group : Pid}
    (hformers : s'.kernel.formers = ∅) (hfresh : child ∉ s.tracer.context.procMap)
    (hcreator : s.kernel.Member pid group)
    (hmember : ∀ tid g, s'.kernel.Member tid g ↔
      (tid = child ∧ g = group) ∨ (tid ≠ child ∧ s.kernel.Member tid g))
    (h : s.tracer.context.registerThread pid child = .ok s'.tracer.context) : s'.InGroups := by
  have hlookup := Finmap.lookup_eq_none.mpr hfresh
  have hgroup : group ≠ child := (hs.apart hfresh hcreator).2
  have hleads : child ∉ s.tracer.context.groupLeaders :=
    fun hl => (hs.apart hfresh ((hs.leaders child).mp hl)).1 rfl
  obtain ⟨p, hp, hc | ⟨old, hold, _⟩⟩ := Context.registerThread_ok
    (fun old hold => by rw [hlookup] at hold; cases hold) h
  · refine ⟨haccounted, hformers, fun l => ?_, fun tid g h => ?_, ?_⟩
    · rw [hc, hmember]
      refine (hs.leaders l).trans ⟨fun hold => Or.inr ⟨(hs.apart hfresh hold).1, hold⟩, ?_⟩
      rintro (⟨rfl, hl⟩ | ⟨_, hold⟩)
      · exact absurd hl.symm hgroup
      · exact hold
    · rw [hc]
      rcases (hmember tid g).mp h with ⟨rfl, rfl⟩ | ⟨_, hold⟩
      · have hsame := hs.shared pid g hcreator
        simp only [PidMap.lookup_insert, if_pos, if_neg hgroup]
        rw [← hsame, hp]
      · obtain ⟨htid, hg⟩ := hs.apart hfresh hold
        simp only [PidMap.lookup_insert, if_neg htid, if_neg hg]
        exact hs.shared tid g hold
    · rw [hc]
      have hreg := hs.registered.insertThread hp (Finset.notMem_empty pid) hleads
      rwa [Finset.erase_empty] at hreg
  · rw [hlookup] at hold
    cases hold

theorem cloned (hs : s.InGroups) (haccounted : s'.Accounted) {task : Task} {event : CloneEvent}
    {nr : Word} (hasItIs : s.asItIs (.notice pid (.cloned event nr) os ptrace) = true)
    (htask : s.kernel.tasks.lookup pid = some task)
    (hallowed : Kernel.stopPermitted cfg task ptrace (.cloned event nr) = true)
    (hturned : Tracer.Turned cfg os ptrace pid s.tracer s'.tracer (.cloned event nr))
    (hkernel : s'.kernel = s'.tracer.resumes.foldl Kernel.resume
      (s.kernel.noticed cfg pid ptrace (.cloned event nr))) : s'.InGroups := by
  obtain ⟨hrequest, _, child, hchild, hmsg⟩ := Kernel.clone_permitted hallowed
  have hpid := Optrace.Known.known hs.accounted.known pid task htask (Or.inr hrequest)
  have hset : ∀ tid group,
      (s.kernel.setTask pid (task.noticed cfg ptrace (.cloned event nr))).Member tid group ↔
        s.kernel.Member tid group := fun tid group => Kernel.setTask_member htask rfl rfl
  rcases step_cloned htask hpid hchild hmsg hturned hkernel with
    ⟨_, hcontext, _, hresumes⟩ | ⟨htold, hreg, _, hresumes⟩
  · refine hs.keep haccounted hresumes.formers (fun tid group => ?_)
      (by rw [hcontext]) (by rw [hcontext]) (by rw [hcontext]; exact hs.registered)
    rw [hresumes.member, hset]
  · obtain ⟨new, hnew, hno, hcase⟩ :=
      Optrace.Known.newborn hs.accounted.known pid task child htask hchild
    -- the child is registered as what it is, and had no entry
    have hthread : Tracer.asThread ptrace event = (new.group != child) := by
      simpa [asItIs, htold, htask, hchild, hnew] using hasItIs
    have hfresh : child ∉ s.tracer.context.procMap := by
      intro hin
      obtain ⟨group, t, ht, hyes, _⟩ := hs.procMap_member hin
      rw [hnew] at ht
      cases ht
      rw [hno] at hyes
      cases hyes
    have hne : child ≠ pid := by
      rintro rfl
      exact hfresh (hs.accounted.mapped child hpid)
    have hnew' : (s.kernel.setTask pid (task.noticed cfg ptrace (.cloned event nr))).tasks.lookup
        child = some new := by
      rw [Kernel.setTask_lookup, if_neg hne, hnew]
    have hmember : ∀ tid group, s'.kernel.Member tid group ↔
        (tid = child ∧ group = new.group) ∨ (tid ≠ child ∧ s.kernel.Member tid group) := by
      intro tid group
      rw [hresumes.member, Kernel.announce_member hnew', hset]
    have hformers : s'.kernel.formers = ∅ := by
      rw [hresumes.formers, (Kernel.announce_spec hnew').2.2]
      exact (congrArg (Finset.erase · child) hs.formers).trans (Finset.erase_empty child)
    by_cases hgroup : new.group = child
    · rw [hthread, bne_eq_false_iff_eq.mpr hgroup] at hreg
      rw [hgroup] at hmember
      exact hs.addProcess haccounted hformers hfresh hmember hreg
    · rw [hthread, bne_iff_ne.mpr hgroup] at hreg
      obtain ⟨_, t, ht, hann, _⟩ := hs.state_member hpid
      rw [htask] at ht
      cases ht
      have hcreator : s.kernel.Member pid new.group :=
        ⟨task, htask, hann, (hcase.resolve_left hgroup).symm⟩
      exact hs.addThread haccounted hformers hfresh hcreator hmember hreg

theorem execed (hs : s.InGroups) (haccounted : s'.Accounted) {former : Pid} {nr : Word}
    (hasItIs : s.asItIs (.notice pid (.execed former nr) os ptrace) = true)
    (hallowed : s.kernel.execPermitted cfg pid former nr ptrace = true)
    (hturned : Tracer.Turned cfg os ptrace pid s.tracer s'.tracer (.execed former nr))
    (hkernel : s'.kernel = s'.tracer.resumes.foldl Kernel.resume
      (s.kernel.noticed cfg pid ptrace (.execed former nr))) : s'.InGroups := by
  obtain rfl : former = pid := beq_iff_eq.mp hasItIs
  obtain ⟨thread, hthread, hgroup, hrequest, _, _, _, _, honly⟩ := Kernel.exec_permitted hallowed
  have hpid := Optrace.Known.known hs.accounted.known former thread hthread (Or.inr hrequest)
  rw [noticed_execed hthread] at hkernel
  have hmember : ∀ {resumed : Pid → Request → Prop},
      Kernel.Resumes resumed (s.kernel.execed former former nr ptrace.eventMsg.isGone) s'.kernel →
      ∀ tid group, s'.kernel.Member tid group ↔ s.kernel.Member tid group := by
    intro resumed hresumes tid group
    rw [hresumes.member, Kernel.execed_member hthread]
  have hkept : (s.kernel.execed former former nr ptrace.eventMsg.isGone).formers =
      s.kernel.formers := by
    simp only [Kernel.execed, hthread, if_true]
  rcases hturned.of_execed hpid with ⟨_, hafter⟩ | ⟨_, c, hc, _, hafter⟩
  · have hresumes := hafter.resumes (s.kernel.execed former former nr ptrace.eventMsg.isGone)
    rw [← hkernel] at hresumes
    exact hs.keep haccounted (hresumes.formers.trans hkept) (hmember hresumes)
      (by rw [hafter.context]) (by rw [hafter.context]) (by rw [hafter.context]; exact hs.registered)
  · have hresumes := hafter.resumes (s.kernel.execed former former nr ptrace.eventMsg.isGone)
    rw [← hkernel] at hresumes
    have hleader : s.kernel.Member former former := by
      obtain ⟨g, t, ht, hann, _⟩ := hs.state_member hpid
      rw [hthread] at ht
      cases ht
      exact ⟨thread, hthread, hann, hgroup⟩
    have hlead := (hs.leaders former).mpr hleader
    have hreassigned := hs.registered.registerExec_reassigned hlead hc
    -- the other threads are dead by now
    have halone : ∀ tid, s.kernel.Member tid former → tid = former := by
      rintro tid ⟨t, ht, _, hg⟩
      have hmem := Kernel.onlyInGroup_spec honly ht hg
      simpa using hmem
    refine ⟨haccounted, (hresumes.formers.trans hkept).trans hs.formers, fun l => ?_,
      fun tid group h => ?_, ?_⟩
    · rw [hafter.context, hreassigned.leaders, hmember hresumes, ← hs.leaders l]
      by_cases hl : l = former
      · simp [hl, hlead]
      · simp [hl]
    · rw [hmember hresumes] at h
      rw [hafter.context, hreassigned.lookup, hreassigned.lookup]
      by_cases hg : group = former
      · rw [hg] at h
        rw [halone tid h, hg]
      · have htid : tid ≠ former := by
          rintro rfl
          exact hg (h.unique hleader)
        rw [if_neg htid, if_neg hg]
        exact hs.shared tid group h
    · rw [hafter.context]
      obtain ⟨p, hp⟩ := hs.accounted.mapped.lookup hpid
      refine hs.registered.reassigned hreassigned (fun tid hne _ => ?_)
        (fun _ _ => Finset.notMem_empty _)
      refine ⟨Finset.notMem_empty tid, fun _ heq => ?_⟩
      rw [hp] at heq
      exact hne (halone tid (hs.group_of_shared hlead hp heq))

theorem step {input : Input arch} (hs : s.InGroups) (hpermit : s.Permitted cfg input)
    (hasItIs : s.asItIs input = true) (h : s.step cfg input = .ok s') : s'.InGroups := by
  cases input with
  | born creator child isThread => exact hs.born (hs.accounted.born hpermit h) hpermit h
  | notice pid notice os ptrace =>
    obtain ⟨hturned, hkernel⟩ := step_notice hpermit h
    obtain ⟨task, htask, hallowed⟩ := Kernel.permits_iff.mp hpermit
    -- whoever dies was told of, or the turn would have failed
    have horderly : s.orderly (.notice pid notice os ptrace) = true := by
      have hdead : notice.isDeath = true → task.announced = true := by
        intro hdeath
        obtain ⟨_, _, _, _, hpid, _⟩ := hturned.of_dead hdeath
        obtain ⟨g, t, ht, hann, _⟩ := hs.state_member hpid
        rw [htask] at ht
        cases ht
        exact hann
      simp only [orderly, htask, Option.all_some]
      cases notice with
      | exited code => exact hdead rfl
      | killed sig core => exact hdead rfl
      | cloned event nr =>
        simp only [hs.formers, Finset.notMem_empty, not_false_eq_true, decide_true]
        cases task.newborn with
        | none => simp
        | some child => simp
      | _ => rfl
    have haccounted := hs.accounted.step hpermit horderly h
    cases notice with
    | signalStop sig => exact hs.plain haccounted htask hturned hkernel trivial
    | syscallStop => exact hs.plain haccounted htask hturned hkernel trivial
    | exiting => exact hs.plain haccounted htask hturned hkernel trivial
    | secComp => exact hs.plain haccounted htask hturned hkernel trivial
    | exited code => exact hs.death haccounted hpermit htask hturned hkernel rfl
    | killed sig core => exact hs.death haccounted hpermit htask hturned hkernel rfl
    | cloned event nr =>
      simp only [Kernel.permitsTask, Bool.and_eq_true] at hallowed
      exact hs.cloned haccounted hasItIs htask hallowed.2 hturned hkernel
    | execed former nr => exact hs.execed haccounted hasItIs hallowed hturned hkernel

end InGroups

theorem inGroups_start {opts : Options} {os₀ : Os} {c₀ : Context Q}
    (hstart : (Context.new opts : Context Q).registerTracee os₀ cfg.traceePid = .ok c₀) :
    (start cfg c₀ : Traced arch Q).InGroups := by
  have hsame := (Context.registerTracee_ok hstart).2.sameRegistry
  have howned := (Context.Owned.new opts).registerTracee hstart
  rw [Finset.erase_empty] at howned
  have hmember : ∀ tid group, (Kernel.start cfg).Member tid group ↔
      tid = cfg.traceePid ∧ group = cfg.traceePid := by
    intro tid group
    constructor
    · rintro ⟨t, ht, _, rfl⟩
      have hin := Finmap.mem_of_lookup_eq_some ht
      simp only [Kernel.start, Finmap.mem_singleton] at hin
      subst hin
      simp only [Kernel.start, Finmap.lookup_singleton_eq, Option.some.injEq] at ht
      subst ht
      exact ⟨rfl, rfl⟩
    · rintro ⟨rfl, rfl⟩
      exact ⟨_, Finmap.lookup_singleton_eq, rfl, rfl⟩
  refine ⟨accounted_start hstart, rfl, fun l => ?_, fun tid group h => ?_, howned.registered⟩
  · have hleaders : c₀.groupLeaders = insert cfg.traceePid ∅ := hsame.groupLeaders
    have hgoal : l ∈ c₀.groupLeaders ↔ (Kernel.start cfg).Member l l := by
      rw [hleaders, hmember, Finset.mem_insert]
      simp
    exact hgoal
  · obtain ⟨rfl, rfl⟩ := (hmember tid group).mp h
    rfl

/-- The maps are in step. -/
structure InStep (s : Traced arch Q) : Prop where
  keys : ∀ tid, tid ∈ s.tracer.context.procMap ↔ tid ∈ s.tracer.syscallStateMap
  leaders : ∀ l ∈ s.tracer.context.groupLeaders, l ∈ s.tracer.context.procMap
  owned : ∀ tid p fd r, s.tracer.context.procMap.lookup tid = some p →
    slot (s.tracer.context.heap.fds p) fd = some r →
    ∃! l, l ∈ s.tracer.context.groupLeaders ∧ s.tracer.context.procMap.lookup l = some p
  live : ∀ tid ∈ s.tracer.context.procMap, tid ∈ s.kernel.tasks

/-- In a run that registers each tracee as what it is, with no exec but by group leaders, the
maps are in step in every state. -/
theorem maps_in_step {opts : Options} {os₀ : Os} {c₀ : Context Q}
    {inputs : List (Input arch)}
    (hstart : (Context.new opts : Context Q).registerTracee os₀ cfg.traceePid = .ok c₀)
    (hpermitted : Runs.Along (step cfg) (Permitted cfg) (start cfg c₀ : Traced arch Q) inputs)
    (hasItIs : Runs.Along (step cfg) (fun s input => s.asItIs input = true)
      (start cfg c₀ : Traced arch Q) inputs)
    (hrun : Runs.run (step cfg) (start cfg c₀ : Traced arch Q) inputs = .ok s) : s.InStep := by
  have hs : s.InGroups := Runs.run_invariant
    (fun s input s' hs hcond h => InGroups.step hs hcond.1 hcond.2 h)
    (inGroups_start hstart) (hpermitted.and hasItIs) hrun
  refine ⟨fun tid => ⟨fun htid => ?_, hs.accounted.mapped tid⟩, fun l hl => ?_, ?_, fun tid htid => ?_⟩
  · obtain ⟨group, hmember⟩ := hs.procMap_member htid
    exact hs.member_state hmember
  · exact hs.accounted.mapped l (hs.member_state ((hs.leaders l).mp hl))
  · intro tid p fd r _ hslot
    obtain ⟨l, hl, hp⟩ := hs.registered.owned p fd r hslot
    refine ⟨l, ⟨hl, hp⟩, ?_⟩
    rintro l' ⟨hl', hp'⟩
    exact hs.registered.distinct l' hl' l hl (hp'.trans hp.symm)
  · obtain ⟨_, t, ht, _⟩ := hs.procMap_member htid
    exact Finmap.mem_of_lookup_eq_some ht

end Traced

/-! ## Runs on fixed inputs -/

/-- A process starts a thread and a child, and execs when the thread is gone. -/
def leaderExecs : List (Input .x86_64) :=
  [entryOf 1 56, .born 1 2 true,
    .notice 2 (.signalStop 19) (plainOs 0) (plainPtrace 0 0 (entryRegs 0)),
    .notice 1 (.cloned .clone 56) (plainOs 0) (plainPtrace 2 0x10000 (entryRegs 0)),
    entryOf 2 57, .born 2 3 false,
    .notice 2 (.cloned .fork 57) (plainOs 0) (plainPtrace 3 0 (entryRegs 0)),
    .notice 2 (.exited 0) (plainOs 0) (plainPtrace 0 0 (entryRegs 0)),
    .notice 1 .syscallStop (plainOs 0) (plainPtrace 0 0 (exitRegs .x86_64 ⟨56, 2, 0, 0, 0, 0⟩)),
    entryOf 1 59,
    .notice 1 (.execed 1 59) (plainOs 0) (plainPtrace 1 0 (entryRegs 0))]

open FileStorage in
theorem maps_in_step_leaderExecs :
    ∃ (c₀ : Context FileQueue) (s : Traced .x86_64 FileQueue),
      (Context.new plainOptions).registerTracee (plainOs 0) 1 = .ok c₀ ∧
      Runs.run (Traced.step plainConfig) (Traced.start plainConfig c₀) leaderExecs = .ok s ∧
      3 ∈ s.tracer.context.procMap ∧ s.InStep := by
  refine ⟨_, _, rfl, rfl, by decide, ?_⟩
  refine @Traced.maps_in_step FileQueue _ .x86_64 plainConfig _ plainOptions (plainOs 0) _
    leaderExecs rfl ?_ ?_ rfl
  · decide
  · decide

open FileStorage in
/-- An exec by another thread than the leader leaves its tid in `ProcMap` alone. -/
theorem threadExecs_out_of_step :
    ∃ (c₀ : Context FileQueue) (s : Traced .x86_64 FileQueue),
      (Context.new plainOptions).registerTracee (plainOs 0) 1 = .ok c₀ ∧
      Runs.Along (Traced.step plainConfig) (Traced.Permitted plainConfig)
        (Traced.start plainConfig c₀) (threadExecs.take 6) ∧
      Runs.run (Traced.step plainConfig) (Traced.start plainConfig c₀) (threadExecs.take 6) = .ok s ∧
      2 ∈ s.tracer.context.procMap ∧ 2 ∉ s.tracer.syscallStateMap ∧ 2 ∉ s.kernel.tasks := by
  refine ⟨_, _, rfl, ?_, rfl, ?_⟩
  · decide
  · decide

end Optrace
