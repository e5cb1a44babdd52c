import Optrace.Signals

/-!
# Nobody is left stopped

A turn ends with a restart of the tracee it is about. Between two turns the tracees that are stopped
wait for their creators' events, and while a tracee is left somebody has yet to report.
-/

namespace Optrace

set_option autoImplicit false
set_option linter.unusedSectionVars false

open Except

/-! ## The last restart of a turn -/

namespace Tracer

variable {Q : Type} [MaxOutFilesQueue Q] {arch : Arch} {cfg : TracerConfig} {os : Os}
  {ptrace : Ptrace arch} {s s' : Tracer arch Q} {pid : Pid}

/-- The tracee was restarted, or it refused. -/
def Restarted (ptrace : Ptrace arch) (pid : Pid) (s' : Tracer arch Q) : Prop :=
  (∃ r ∈ s'.resumes, r.pid = pid) ∨ ptrace.resume pid = .gone

namespace Restarted

theorem resume {q : Request} {signal : Int} (h : s.resume ptrace pid q signal = .ok s') :
    Restarted ptrace pid s' := by
  have hresumes := resume_inv h
  cases hresume : ptrace.resume pid with
  | failed => simp [Tracer.resume, hresume, ptraceSafeCall, bind, Except.bind] at h
  | gone => exact Or.inr hresume
  | ok u =>
    refine Or.inl ⟨⟨pid, q, signal⟩, ?_, rfl⟩
    simp [hresumes, resumption, hresume]

theorem restart {syscallStop : Bool} {signal : Int}
    (h : s.restart cfg ptrace pid syscallStop signal = .ok s') : Restarted ptrace pid s' := by
  unfold Tracer.restart at h
  split at h
  · split at h
    · exact resume h
    · exact resume h
  · exact resume h

theorem proceed {syscallStop : Bool} {signal : Int}
    (h : s.proceed cfg os ptrace pid syscallStop signal = .ok s') : Restarted ptrace pid s' := by
  unfold Tracer.proceed at h
  split at h
  · obtain ⟨reply, _, h⟩ := bind_eq_ok_iff.mp h
    cases reply with
    | none => exact resume h
    | some registers =>
      obtain ⟨s₁, _, hrestart⟩ := bind_eq_ok_iff.mp h
      exact restart hrestart
  · exact restart h

theorem cloned {event : CloneEvent} {msg : Word} {signal : Int}
    (h : s.cloned cfg os ptrace pid event.number msg signal = .ok s') :
    Restarted ptrace pid s' := by
  rw [cloned_eq] at h
  obtain ⟨flags, _, h⟩ := bind_eq_ok_iff.mp h
  split at h
  · exact resume h
  · obtain ⟨s₁, _, h⟩ := bind_eq_ok_iff.mp h
    exact proceed h

theorem execed {msg : Word} {signal : Int}
    (h : s.execed cfg os ptrace pid msg signal = .ok s') : Restarted ptrace pid s' := by
  rw [execed_eq] at h
  obtain ⟨s₁, _, h⟩ := bind_eq_ok_iff.mp h
  obtain ⟨s₂, _, h⟩ := bind_eq_ok_iff.mp h
  exact proceed h

theorem secComped {signal : Int} (h : s.secComped cfg os ptrace pid signal = .ok s') :
    Restarted ptrace pid s' := by
  unfold Tracer.secComped at h
  split at h
  · exact resume h
  · exact proceed h

theorem evented {event : BitVec 32} {syscallStop : Bool} {signal : Int}
    (h : s.evented cfg os ptrace pid event syscallStop signal = .ok s') :
    Restarted ptrace pid s' := by
  obtain ⟨msg, _, h⟩ := bind_eq_ok_iff.mp h
  split at h
  · exact resume h
  split at h
  · rename_i hclone
    obtain ⟨e, rfl⟩ := number_of_event hclone
    exact cloned h
  split at h
  · exact execed h
  split at h
  · exact secComped h
  · exact proceed h

/-- A stop that is not left alone ends with a restart. -/
theorem stopped {status : BitVec 32} (hpid : pid ∈ s.syscallStateMap)
    (h : s.stopped cfg os ptrace pid status = .ok s') : Restarted ptrace pid s' := by
  unfold Tracer.stopped at h
  simp only [if_pos hpid] at h
  split at h
  · exact evented h
  · exact proceed h

end Restarted

theorem turn_restarted {status : BitVec 32} (hstopped : wifstopped status = true)
    (hpid : pid ∈ s.syscallStateMap) (h : s.turn cfg os ptrace (.status pid status) = .ok s') :
    Restarted ptrace pid s' := by
  rw [turn_status _ hstopped] at h
  exact Restarted.stopped (s := s.begin) hpid h

/-! ## Those who wait -/

theorem Restarted.of_sublist {s₁ : Tracer arch Q} (h : Restarted ptrace pid s₁)
    (hsub : ∀ r ∈ s₁.resumes, r ∈ s'.resumes) : Restarted ptrace pid s' := by
  rcases h with ⟨r, hr, hpid⟩ | hgone
  · exact Or.inl ⟨r, hsub r hr, hpid⟩
  · exact Or.inr hgone

/-- The new tracee is restarted if it waited, and the others go on waiting. -/
theorem registerChild_suspended {child : Pid} {isThread : Bool}
    (h : s.registerChild cfg os ptrace pid child isThread = .ok s') {tid : Pid}
    (htid : tid ∈ s.suspendedThreads) : tid ∈ s'.suspendedThreads ∨ Restarted ptrace tid s' := by
  rw [registerChild_bind] at h
  obtain ⟨s₁, hcall, h⟩ := bind_eq_ok_iff.mp h
  obtain ⟨c, _, rfl⟩ := call_ok hcall
  split at h
  · obtain ⟨s₂, hresume, h⟩ := bind_eq_ok_iff.mp h
    rw [pure_eq_ok_iff] at h
    subst h
    by_cases heq : tid = child
    · subst heq
      exact Or.inr ((Restarted.resume hresume).of_sublist fun _ hr => hr)
    · left
      rw [resume_inv hresume]
      exact Finmap.mem_erase.mpr ⟨heq, htid⟩
  · cases h
    exact Or.inl htid

theorem cloned_suspended {event : CloneEvent} {msg : Word} {signal : Int}
    (h : s.cloned cfg os ptrace pid event.number msg signal = .ok s') {tid : Pid}
    (htid : tid ∈ s.suspendedThreads) : tid ∈ s'.suspendedThreads ∨ Restarted ptrace tid s' := by
  rw [cloned_eq] at h
  obtain ⟨flags, _, h⟩ := bind_eq_ok_iff.mp h
  split at h
  · rw [resume_inv h]
    exact Or.inl htid
  · obtain ⟨s₁, hregister, h⟩ := bind_eq_ok_iff.mp h
    rw [proceed_false_eq] at h
    rw [resume_inv h]
    rcases registerChild_suspended hregister htid with hin | hrestarted
    · exact Or.inl hin
    · exact Or.inr (hrestarted.of_sublist fun r hr => List.mem_append.mpr (Or.inl hr))

/-- A suspended tracee goes on waiting or is restarted. -/
theorem hear_suspended {i : Heard arch} (h : s.hear cfg i = .ok s') {tid : Pid}
    (htid : tid ∈ s.suspendedThreads) :
    tid ∈ s'.suspendedThreads ∨ Restarted i.ptrace tid s' := by
  cases moved h with
  | steady _ hsteady =>
    rw [hsteady.suspended]
    exact Or.inl htid
  | dead _ _ code _ _ s₁ s₂ hdump hsteady hs' =>
    subst hs'
    obtain ⟨c, calls, rfl⟩ := dumped_same hdump
    left
    show tid ∈ s₂.suspendedThreads
    rw [hsteady.suspended]
    exact htid
  | suspended _ _ _ _ _ hs' =>
    subst hs'
    exact Or.inl (Finmap.mem_insert.mpr (Or.inr htid))
  | arrived pid event _ _ _ hannounces hpid _ _ _ _ =>
    obtain ⟨status, hwait, hstopped, hshift⟩ := hannounces
    have hpid' : pid ∈ s.begin.syscallStateMap := hpid
    obtain ⟨_, hne, hnumber⟩ := event.number_spec
    rw [hear, hwait, turn_status _ hstopped] at h
    simp only [stopped, if_pos hpid', hshift, if_pos hne] at h
    rcases evented_inv h with ⟨_, hresume⟩ | ⟨msg, _, _, hcloned⟩
    · rw [resume_inv hresume]
      exact Or.inl htid
    · rw [if_pos hnumber] at hcloned
      exact cloned_suspended (s := s.begin) hcloned htid

end Tracer

/-! ## Who has yet to report -/

namespace Kernel

/-- A restart leaves a tracee running, unless its first stop is still to come. -/
theorem foldl_resume_lookup {rs : List Resume} {k : Kernel} {tid : Pid} {task : Task}
    (htask : k.tasks.lookup tid = some task) : ∃ t, (rs.foldl resume k).tasks.lookup tid = some t ∧
      t.fresh = task.fresh ∧ (task.request.isSome = true → t.request.isSome = true) ∧
      (task.fresh = false → (∃ r ∈ rs, r.pid = tid) → t.request.isSome = true) := by
  induction rs generalizing k task with
  | nil => exact ⟨task, htask, rfl, id, fun _ ⟨_, hno, _⟩ => by cases hno⟩
  | cons r rs ih =>
    have hfirst : ∃ t, (k.resume r).tasks.lookup tid = some t ∧ t.fresh = task.fresh ∧
        (task.request.isSome = true → t.request.isSome = true) ∧
        (task.fresh = false → r.pid = tid → t.request.isSome = true) := by
      unfold resume
      cases hlookup : k.tasks.lookup r.pid with
      | none =>
        refine ⟨task, htask, rfl, id, fun _ heq => ?_⟩
        rw [heq, htask] at hlookup
        cases hlookup
      | some task' =>
        simp only [setTask_lookup]
        split
        · rename_i heq
          rw [← heq, htask] at hlookup
          cases hlookup
          refine ⟨_, rfl, Task.resumed_fresh task r.request, fun hyes => ?_, fun hfresh _ => ?_⟩
          · have hrunning : task.request.isNone = false := by
              rw [← Option.not_isSome, hyes]
              rfl
            simp [Task.resumed, hrunning, hyes]
          · cases hrequest : task.request with
            | none => simp [Task.resumed, hrequest, hfresh]
            | some q => simp [Task.resumed, hrequest]
        · rename_i hne
          exact ⟨task, htask, rfl, id, fun _ heq => absurd heq.symm hne⟩
    obtain ⟨t₁, ht₁, hfresh₁, hruns₁, hrestarts₁⟩ := hfirst
    obtain ⟨t, ht, hfresh, hruns, hrestarts⟩ := ih ht₁
    refine ⟨t, ht, hfresh.trans hfresh₁, fun h => hruns (hruns₁ h), fun hno hex => ?_⟩
    obtain ⟨r', hr', hpid⟩ := hex
    rcases List.mem_cons.mp hr' with rfl | hr'
    · exact hruns (hrestarts₁ hno hpid)
    · exact hrestarts (hfresh₁.trans hno) ⟨r', hr', hpid⟩

/-- No restart makes a task. -/
theorem lookup_of_foldl_resume {rs : List Resume} {k : Kernel} {tid : Pid} {t : Task}
    (h : (rs.foldl resume k).tasks.lookup tid = some t) : ∃ t₁, k.tasks.lookup tid = some t₁ := by
  obtain ⟨t₁, ht₁, _⟩ := (@foldl_resumes (fun _ _ => True) rs (fun _ _ => trivial) k).lookup h
  exact ⟨t₁, ht₁⟩

/-- The task was there, and only its creator's event may have been told since. -/
def Same (k : Kernel) (tid : Pid) (t : Task) : Prop :=
  ∃ t₀, k.tasks.lookup tid = some t₀ ∧ t.request = t₀.request ∧ t.fresh = t₀.fresh ∧
    t.newborn = t₀.newborn ∧ (t.announced = false → t₀.announced = false)

theorem same_of_lookup {k : Kernel} {tid : Pid} {t : Task} (h : k.tasks.lookup tid = some t) :
    k.Same tid t := ⟨t, h, rfl, rfl, rfl, id⟩

theorem announce_lookup (k : Kernel) (child tid : Pid) :
    (k.announce child).tasks.lookup tid = (k.tasks.lookup tid).map fun task =>
      if tid = child then { task with announced := true } else task := by
  unfold announce
  cases hchild : k.tasks.lookup child with
  | none =>
    cases htask : k.tasks.lookup tid with
    | none => rfl
    | some task =>
      have hne : tid ≠ child := by
        rintro rfl
        rw [htask] at hchild
        cases hchild
      simp only [Option.map_some, if_neg hne]
  | some new =>
    simp only [setTask_lookup]
    split
    · rename_i heq
      rw [heq, hchild, Option.map_some]
    · simp

theorem same_announce {k k' : Kernel} {child tid : Pid} {t : Task}
    (hother : ∀ t, k'.tasks.lookup tid = some t → k.Same tid t)
    (h : (k'.announce child).tasks.lookup tid = some t) : k.Same tid t := by
  rw [announce_lookup, Option.map_eq_some_iff] at h
  obtain ⟨t₁, ht₁, rfl⟩ := h
  obtain ⟨t₀, ht₀, hrequest, hfresh, hnewborn, hann⟩ := hother t₁ ht₁
  split
  · exact ⟨t₀, ht₀, hrequest, hfresh, hnewborn, fun hno => by cases hno⟩
  · exact ⟨t₀, ht₀, hrequest, hfresh, hnewborn, hann⟩

theorem same_setTask {k : Kernel} {pid tid : Pid} {task t : Task} (hne : tid ≠ pid)
    (h : (k.setTask pid task).tasks.lookup tid = some t) : k.Same tid t := by
  rw [setTask_lookup, if_neg hne] at h
  exact same_of_lookup h

/-- A notice changes the task it is about, and tells of another one at most. -/
theorem noticed_other {cfg : TracerConfig} {arch : Arch} {k : Kernel} {pid tid : Pid}
    {ptrace : Ptrace arch} {notice : Notice} {t : Task} (hne : tid ≠ pid)
    (h : (k.noticed cfg pid ptrace notice).tasks.lookup tid = some t) : k.Same tid t := by
  unfold noticed at h
  cases hpid : k.tasks.lookup pid with
  | none =>
    rw [hpid] at h
    exact same_of_lookup h
  | some task =>
    rw [hpid] at h
    have herased : ∀ former : Pid, (k.tasks.erase former).lookup tid = some t → k.Same tid t := by
      intro former h
      rw [PidMap.lookup_erase] at h
      split at h
      · cases h
      · exact same_of_lookup h
    cases notice with
    | exited code => exact herased pid h
    | killed sig core => exact herased pid h
    | execed former nr =>
      simp only [execed] at h
      split at h
      · exact same_of_lookup h
      · simp only [PidMap.lookup_insert, if_neg hne] at h
        exact herased former h
    | cloned event nr =>
      simp only at h
      split at h
      · split at h
        · exact same_announce (fun t => same_setTask hne) h
        · exact same_setTask hne h
      · exact same_setTask hne h
    | _ => exact same_setTask hne h

/-- The creators other than the thread that exec'ed keep their new tracees. -/
theorem noticed_creator {cfg : TracerConfig} {arch : Arch} {k : Kernel} {pid tid : Pid}
    {ptrace : Ptrace arch} {notice : Notice} {t : Task} (ht : k.tasks.lookup tid = some t)
    (hne : tid ≠ pid) (hformer : ∀ former nr, notice = .execed former nr → tid ≠ former) :
    ∃ t₁, (k.noticed cfg pid ptrace notice).tasks.lookup tid = some t₁ ∧
      t₁.newborn = t.newborn := by
  have hset : ∀ task, (k.setTask pid task).tasks.lookup tid = some t := by
    intro task
    rw [setTask_lookup, if_neg hne, ht]
  unfold noticed
  cases hpid : k.tasks.lookup pid with
  | none => exact ⟨t, ht, rfl⟩
  | some task =>
    cases notice with
    | exited code => exact ⟨t, by simp only [PidMap.lookup_erase, if_neg hne, ht], rfl⟩
    | killed sig core => exact ⟨t, by simp only [PidMap.lookup_erase, if_neg hne, ht], rfl⟩
    | execed former nr =>
      simp only [execed]
      split
      · exact ⟨t, ht, rfl⟩
      · simp only [PidMap.lookup_insert, if_neg hne, PidMap.lookup_erase,
          if_neg (hformer former nr rfl)]
        exact ⟨t, ht, rfl⟩
    | cloned event nr =>
      simp only
      split
      · split
        · rw [announce_lookup, hset]
          exact ⟨_, rfl, by split <;> rfl⟩
        · exact ⟨t, hset _, rfl⟩
      · exact ⟨t, hset _, rfl⟩
    | _ => exact ⟨t, hset _, rfl⟩

end Kernel

/-- The tracee runs, its first stop is still to come, or it was killed. -/
def Task.ToReport (refused : Finset Pid) (tid : Pid) (task : Task) : Prop :=
  task.request.isSome = true ∨ task.fresh = true ∨ tid ∈ refused

/-- The whole system, with the tracees that refused a restart: those have been killed, and their
deaths will be reported. -/
structure Supervised (arch : Arch) (Q : Type) where
  traced : Traced arch Q
  refused : Finset Pid

namespace Supervised

variable {Q : Type} [MaxOutFilesQueue Q] {arch : Arch}

def start (cfg : TracerConfig) (c : Context Q) : Supervised arch Q := ⟨.start cfg c, ∅⟩

/-- Those of the tracees that refuse a restart in a turn. -/
def refusing (k : Kernel) (ptrace : Ptrace arch) : Finset Pid :=
  k.tasks.keys.filter fun tid => (ptrace.resume tid).isGone

def step (cfg : TracerConfig) (s : Supervised arch Q) : Input arch → Except Stop (Supervised arch Q)
  | .born creator child isThread => do
    return ⟨← s.traced.step cfg (.born creator child isThread), s.refused.erase child⟩
  | .notice pid notice os ptrace => do
    let traced ← s.traced.step cfg (.notice pid notice os ptrace)
    let refused := s.refused ∪ refusing s.traced.kernel ptrace
    return ⟨traced, if notice.isDeath then refused.erase pid else refused⟩

def Permitted (cfg : TracerConfig) (s : Supervised arch Q) (input : Input arch) : Prop :=
  s.traced.Permitted cfg input

instance (cfg : TracerConfig) (s : Supervised arch Q) (input : Input arch) :
    Decidable (s.Permitted cfg input) :=
  inferInstanceAs (Decidable (s.traced.Permitted cfg input))

variable {cfg : TracerConfig} {s s' : Supervised arch Q} {pid : Pid} {notice : Notice} {os : Os}
  {ptrace : Ptrace arch}

/-- Every tracee has yet to report, or waits in `suspendedThreads`. -/
structure Inv (s : Supervised arch Q) : Prop where
  disjoint : s.traced.tracer.Disjoint
  placed : ∀ tid task, s.traced.kernel.tasks.lookup tid = some task →
    task.ToReport s.refused tid ∨ tid ∈ s.traced.tracer.suspendedThreads

theorem inv_start (cfg : TracerConfig) (c : Context Q) : (start cfg c : Supervised arch Q).Inv := by
  refine ⟨fun tid htid => absurd htid Finmap.notMem_empty, fun tid task htask => ?_⟩
  have hmem := Finmap.mem_of_lookup_eq_some htask
  simp only [start, Traced.start, Kernel.start, Finmap.mem_singleton] at hmem
  subst hmem
  simp only [start, Traced.start, Kernel.start, Finmap.lookup_singleton_eq,
    Option.some.injEq] at htask
  subst htask
  exact Or.inl (Or.inl rfl)

theorem inv_born {creator child : Pid} {isThread : Bool} (hs : s.Inv)
    (hpermit : s.Permitted cfg (.born creator child isThread))
    (h : s.step cfg (.born creator child isThread) = .ok s') : s'.Inv := by
  obtain ⟨traced, htraced, h⟩ := bind_eq_ok_iff.mp h
  cases htraced
  cases h
  simp only [Permitted, Traced.Permitted, Kernel.permits, Bool.and_eq_true,
    Option.any_eq_true] at hpermit
  obtain ⟨⟨⟨task, htask, ⟨hrequest, _⟩, _⟩, _⟩, _⟩ := hpermit
  refine ⟨hs.disjoint, fun tid t ht => ?_⟩
  by_cases hchild : tid = child
  · have ht : (s.traced.kernel.born creator child isThread).tasks.lookup tid = some t := ht
    rw [Kernel.born_lookup htask, if_pos hchild] at ht
    cases ht
    exact Or.inl (Or.inr (Or.inl rfl))
  · have hkept : ∀ task : Task, task.ToReport s.refused tid →
        task.ToReport (s.refused.erase child) tid := by
      intro task h
      exact h.imp_right fun h => h.imp_right fun h => Finset.mem_erase.mpr ⟨hchild, h⟩
    rcases Kernel.born_cases htask ht with ⟨heq, _⟩ | ⟨rfl, rfl⟩ | ⟨_, hold⟩
    · exact absurd heq hchild
    · exact Or.inl (Or.inl hrequest)
    · exact (hs.placed tid t hold).imp_left (hkept t)

/-- A tracee that was restarted or refused has yet to report. -/
theorem toReport_restarted {tracer : Tracer arch Q} {k : Kernel} {refused : Finset Pid} {tid : Pid}
    {t : Task} (hrestarted : Tracer.Restarted ptrace tid tracer)
    (hrefused : ptrace.resume tid = .gone → tid ∈ refused)
    (ht : (tracer.resumes.foldl Kernel.resume k).tasks.lookup tid = some t) :
    t.ToReport refused tid := by
  obtain ⟨t₁, ht₁⟩ := Kernel.lookup_of_foldl_resume ht
  obtain ⟨t', ht', hfresh, _, hrestarts⟩ := @Kernel.foldl_resume_lookup tracer.resumes _ _ _ ht₁
  rw [ht] at ht'
  cases ht'
  cases hyes : t.fresh with
  | true => exact Or.inr (Or.inl hyes)
  | false =>
    rcases hrestarted with hexists | hgone
    · exact Or.inl (hrestarts (hfresh.symm.trans hyes) hexists)
    · exact Or.inr (Or.inr (hrefused hgone))

theorem mem_refusing {k : Kernel} {tid : Pid} {task : Task} (htask : k.tasks.lookup tid = some task)
    (hgone : ptrace.resume tid = .gone) : tid ∈ refusing k ptrace := by
  refine Finset.mem_filter.mpr ⟨Finmap.mem_keys.mpr (Finmap.mem_of_lookup_eq_some htask), ?_⟩
  rw [hgone]
  rfl

/-- The tracee the notice is about: if it is alive, it was restarted or is suspended. -/
theorem placed_noticed {tracer : Tracer arch Q} {k : Kernel} {task t : Task}
    (hpermit : s.Permitted cfg (.notice pid notice os ptrace)) (hdeath : notice.isDeath = false)
    (htask : s.traced.kernel.tasks.lookup pid = some task)
    (hturn : s.traced.tracer.turn cfg os ptrace (.status pid notice.status) = .ok tracer)
    (ht : (tracer.resumes.foldl Kernel.resume k).tasks.lookup pid = some t) :
    t.ToReport (s.refused ∪ refusing s.traced.kernel ptrace) pid ∨
      pid ∈ tracer.suspendedThreads := by
  have hstopped := Tracer.stop_status hdeath (Kernel.permits_fits hpermit)
  by_cases hknown : pid ∈ s.traced.tracer.syscallStateMap
  · exact Or.inl (toReport_restarted (Tracer.turn_restarted hstopped hknown hturn)
      (fun hgone => Finset.mem_union_right _ (mem_refusing htask hgone)) ht)
  · have hunknown : pid ∉ s.traced.tracer.begin.syscallStateMap := hknown
    rw [Tracer.turn_status _ hstopped, Tracer.stopped, if_neg hunknown] at hturn
    cases hturn
    exact Or.inr (Finmap.mem_insert.mpr (Or.inl rfl))

/-- Any other one still has to report, or waited and goes on waiting or was restarted. -/
theorem placed_other {tracer : Tracer arch Q} {tid : Pid} {t : Task} (hs : s.Inv) (hne : tid ≠ pid)
    (hturn : s.traced.tracer.turn cfg os ptrace (.status pid notice.status) = .ok tracer)
    (ht : (tracer.resumes.foldl Kernel.resume
      (s.traced.kernel.noticed cfg pid ptrace notice)).tasks.lookup tid = some t) :
    t.ToReport (s.refused ∪ refusing s.traced.kernel ptrace) tid ∨
      tid ∈ tracer.suspendedThreads := by
  let i : Heard arch := ⟨os, ptrace, .status pid notice.status⟩
  have hhear : s.traced.tracer.hear cfg i = .ok tracer := hturn
  obtain ⟨t₁, ht₁⟩ := Kernel.lookup_of_foldl_resume ht
  obtain ⟨t', ht', hfresh', hruns, _⟩ := @Kernel.foldl_resume_lookup tracer.resumes _ _ _ ht₁
  rw [ht] at ht'
  cases ht'
  obtain ⟨t₀, ht₀, hrequest, hfresh, _, _⟩ := Kernel.noticed_other hne ht₁
  rcases hs.placed tid t₀ ht₀ with hreport | hwaits
  · left
    rcases hreport with hrunning | hfirst | hrefused
    · exact Or.inl (hruns (hrequest ▸ hrunning))
    · exact Or.inr (Or.inl (hfresh'.trans (hfresh.trans hfirst)))
    · exact Or.inr (Or.inr (Finset.mem_union_left _ hrefused))
  · rcases Tracer.hear_suspended hhear hwaits with hwaits | hrestarted
    · exact Or.inr hwaits
    · exact Or.inl (toReport_restarted hrestarted
        (fun hgone => Finset.mem_union_right _ (mem_refusing ht₀ hgone)) ht)

theorem inv_notice (hs : s.Inv) (hpermit : s.Permitted cfg (.notice pid notice os ptrace))
    (h : s.step cfg (.notice pid notice os ptrace) = .ok s') : s'.Inv := by
  obtain ⟨traced, htraced, h⟩ := bind_eq_ok_iff.mp h
  cases h
  obtain ⟨tracer, hturn, htraced⟩ := bind_eq_ok_iff.mp htraced
  cases htraced
  let i : Heard arch := ⟨os, ptrace, .status pid notice.status⟩
  have hhear : s.traced.tracer.hear cfg i = .ok tracer := hturn
  obtain ⟨task, htask, _⟩ := Kernel.permits_iff.mp hpermit
  refine ⟨hs.disjoint.hear hhear, fun tid t ht => ?_⟩
  by_cases heq : tid = pid
  · subst heq
    cases hdeath : notice.isDeath with
    | true =>
      obtain ⟨t₁, ht₁⟩ := Kernel.lookup_of_foldl_resume ht
      rw [Traced.noticed_death htask hdeath] at ht₁
      exact absurd ht₁ (by simp [Finmap.lookup_erase])
    | false => exact placed_noticed hpermit hdeath htask hturn ht
  · refine (placed_other hs heq hturn ht).imp_left fun hreport => ?_
    refine hreport.imp_right fun h => h.imp_right fun hin => ?_
    split
    · exact Finset.mem_erase.mpr ⟨heq, hin⟩
    · exact hin

end Supervised

/-! ## Who waits for whom -/

/-- The tracer knows every creator with a new tracee to announce, and each tracee not announced yet
has one. -/
structure Expected (states : PidMap Int) (k : Kernel) : Prop where
  creators : ∀ tid task child, k.tasks.lookup tid = some task → task.newborn = some child →
    tid ∈ states
  awaited : ∀ tid task, k.tasks.lookup tid = some task → task.announced = false →
    ∃ creator t, k.tasks.lookup creator = some t ∧ t.newborn = some tid

theorem Expected.resumes {states : PidMap Int} {k k' : Kernel} {resumed : Pid → Request → Prop}
    (h : Expected states k) (hresumes : Kernel.Resumes resumed k k') : Expected states k' := by
  constructor
  · intro tid t child ht hchild
    obtain ⟨t₀, ht₀, rfl | ⟨q, _, rfl⟩⟩ := hresumes.lookup ht
    · exact h.creators tid t child ht₀ hchild
    · rw [Task.resumed_newborn] at hchild
      exact h.creators tid t₀ child ht₀ hchild
  · intro tid t ht hann
    have hbefore : ∃ t₀, k.tasks.lookup tid = some t₀ ∧ t₀.announced = false := by
      obtain ⟨t₀, ht₀, rfl | ⟨q, _, rfl⟩⟩ := hresumes.lookup ht
      · exact ⟨t, ht₀, hann⟩
      · exact ⟨t₀, ht₀, (Task.resumed_announced t₀ q).symm.trans hann⟩
    obtain ⟨t₀, ht₀, hann₀⟩ := hbefore
    obtain ⟨creator, c₀, hc₀, hchild⟩ := h.awaited tid t₀ ht₀ hann₀
    obtain ⟨c, hc, rfl | ⟨q, _, rfl⟩⟩ := hresumes.lookup_old hc₀
    · exact ⟨creator, c, hc, hchild⟩
    · exact ⟨creator, _, hc, (Task.resumed_newborn c₀ q).trans hchild⟩

namespace Traced

variable {Q : Type} [MaxOutFilesQueue Q] {arch : Arch} {cfg : TracerConfig} {s s' : Traced arch Q}
  {pid : Pid} {notice : Notice} {os : Os} {ptrace : Ptrace arch}

def Expected (s : Traced arch Q) : Prop := Optrace.Expected s.tracer.syscallStateMap s.kernel

/-- The event of a new tracee is not lost, and nobody goes with a new tracee unreported. -/
def attended (s : Traced arch Q) : Input arch → Bool
  | .born _ _ _ => true
  | .notice pid notice _ ptrace =>
    match notice with
    | .cloned event _ => told ptrace event
    | .exited _ => (s.kernel.tasks.lookup pid).all fun task => task.newborn.isNone
    | .killed _ _ => (s.kernel.tasks.lookup pid).all fun task => task.newborn.isNone
    | .execed _ _ => (s.kernel.tasks.lookup pid).all fun task => task.newborn.isNone
    | _ => true

theorem expected_start (cfg : TracerConfig) (c : Context Q) :
    (start cfg c : Traced arch Q).Expected := by
  have hlookup : ∀ tid task, (Kernel.start cfg).tasks.lookup tid = some task →
      task.newborn = none ∧ task.announced = true := by
    intro tid task htask
    have hmem := Finmap.mem_of_lookup_eq_some htask
    simp only [Kernel.start, Finmap.mem_singleton] at hmem
    subst hmem
    simp only [Kernel.start, Finmap.lookup_singleton_eq, Option.some.injEq] at htask
    subst htask
    exact ⟨rfl, rfl⟩
  constructor
  · intro tid task child htask hchild
    rw [(hlookup tid task htask).1] at hchild
    cases hchild
  · intro tid task htask hann
    rw [(hlookup tid task htask).2] at hann
    cases hann

theorem expected_born {creator child : Pid} {isThread : Bool} (hs : s.Expected)
    (hunheard : s.Unheard) (hpermit : s.Permitted cfg (.born creator child isThread))
    (h : s.step cfg (.born creator child isThread) = .ok s') : s'.Expected := by
  cases h
  simp only [Permitted, Kernel.permits, Bool.and_eq_true, Option.any_eq_true,
    Option.isNone_iff_eq_none] at hpermit
  obtain ⟨⟨⟨task, htask, ⟨hrequest, _⟩, hnone⟩, hchild⟩, _⟩ := hpermit
  have hfresh : s.kernel.tasks.lookup child = none :=
    Finmap.lookup_eq_none.mpr (of_decide_eq_true hchild)
  have hcreator := Optrace.Unheard.mem_of_running hunheard htask hrequest
  have hne : creator ≠ child := by
    rintro rfl
    rw [htask] at hfresh
    cases hfresh
  have hlookup := fun tid => @Kernel.born_lookup s.kernel creator child task htask isThread tid
  constructor
  · intro tid t c ht hc
    rcases Kernel.born_cases htask ht with ⟨_, _, _, hno, _⟩ | ⟨rfl, _⟩ | ⟨_, hold⟩
    · rw [hno] at hc
      cases hc
    · exact hcreator
    · exact hs.creators tid t c hold hc
  · intro tid t ht hann
    -- the creator awaits the new tracee, and had none before
    have hkept : ∀ t₀, s.kernel.tasks.lookup tid = some t₀ → t₀.announced = false →
        ∃ c t, (s.kernel.born creator child isThread).tasks.lookup c = some t ∧
          t.newborn = some tid := by
      intro t₀ ht₀ hann₀
      obtain ⟨c, t, hc, hborn⟩ := hs.awaited tid t₀ ht₀ hann₀
      refine ⟨c, t, ?_, hborn⟩
      rw [hlookup, if_neg, if_neg, hc]
      · rintro rfl
        rw [htask] at hc
        cases hc
        rw [hnone] at hborn
        cases hborn
      · rintro rfl
        rw [hfresh] at hc
        cases hc
    rcases Kernel.born_cases htask ht with ⟨rfl, _⟩ | ⟨rfl, rfl⟩ | ⟨_, hold⟩
    · exact ⟨creator, _, by rw [hlookup, if_neg hne, if_pos rfl], rfl⟩
    · exact hkept task htask hann
    · exact hkept t hold hann

/-- What a notice has to leave of the tasks and the map. -/
theorem expected_noticed {k₁ : Kernel} {states : PidMap Int} (hs : s.Expected)
    (hcreators : ∀ tid t, k₁.tasks.lookup tid = some t → t.newborn.isSome = true →
      (∃ t₀, s.kernel.tasks.lookup tid = some t₀ ∧ t.newborn = t₀.newborn) ∧
        (tid ∈ s.tracer.syscallStateMap → tid ∈ states))
    (hawaited : ∀ tid t, k₁.tasks.lookup tid = some t → t.announced = false →
      ∃ t₀, s.kernel.tasks.lookup tid = some t₀ ∧ t₀.announced = false)
    (hkept : ∀ creator t tid t', s.kernel.tasks.lookup creator = some t → t.newborn = some tid →
      k₁.tasks.lookup tid = some t' → t'.announced = false →
        ∃ t₁, k₁.tasks.lookup creator = some t₁ ∧ t₁.newborn = t.newborn) :
    Optrace.Expected states k₁ := by
  constructor
  · intro tid t child ht hchild
    obtain ⟨⟨t₀, ht₀, hsame⟩, hin⟩ := hcreators tid t ht (by rw [hchild]; rfl)
    exact hin (hs.creators tid t₀ child ht₀ (hsame.symm.trans hchild))
  · intro tid t ht hann
    obtain ⟨t₀, ht₀, hann₀⟩ := hawaited tid t ht hann
    obtain ⟨creator, c, hc, hchild⟩ := hs.awaited tid t₀ ht₀ hann₀
    obtain ⟨c₁, hc₁, hsame⟩ := hkept creator c tid t hc hchild ht hann
    exact ⟨creator, c₁, hc₁, hsame.trans hchild⟩

theorem expected_plain (hs : s.Expected) {task : Task}
    (htask : s.kernel.tasks.lookup pid = some task)
    (hturned : Tracer.Turned cfg os ptrace pid s.tracer s'.tracer notice)
    (hkernel : s'.kernel =
      s'.tracer.resumes.foldl Kernel.resume (s.kernel.noticed cfg pid ptrace notice))
    (hplain : Tracer.Plain notice) : s'.Expected := by
  obtain ⟨c, states, calls, hafter, hkeys, _⟩ := hturned.plain hplain
  obtain ⟨hnoticed, _, hann, _, hnewborn⟩ := noticed_plain cfg htask hplain
  unfold Expected
  rw [hafter.states, hkernel, hnoticed]
  refine Optrace.Expected.resumes (expected_noticed hs ?_ ?_ ?_) (hafter.resumes _)
  · intro tid t ht _
    refine ⟨?_, (hkeys tid).mpr⟩
    rw [Kernel.setTask_lookup] at ht
    split at ht
    · rename_i heq
      cases ht
      exact ⟨task, heq ▸ htask, hnewborn⟩
    · exact ⟨t, ht, rfl⟩
  · intro tid t ht hno
    rw [Kernel.setTask_lookup] at ht
    split at ht
    · rename_i heq
      cases ht
      exact ⟨task, heq ▸ htask, hann.symm.trans hno⟩
    · exact ⟨t, ht, hno⟩
  · intro creator t tid t' ht _ _ _
    rw [Kernel.setTask_lookup]
    split
    · rename_i heq
      rw [heq, htask] at ht
      cases ht
      exact ⟨_, rfl, hnewborn⟩
    · exact ⟨t, ht, rfl⟩

theorem expected_death (hs : s.Expected) {task : Task}
    (htask : s.kernel.tasks.lookup pid = some task) (hnewborn : task.newborn = none)
    (hturned : Tracer.Turned cfg os ptrace pid s.tracer s'.tracer notice)
    (hkernel : s'.kernel =
      s'.tracer.resumes.foldl Kernel.resume (s.kernel.noticed cfg pid ptrace notice))
    (hdeath : notice.isDeath = true) : s'.Expected := by
  obtain ⟨c₁, c, dump, hafter, _⟩ := hturned.of_dead hdeath
  unfold Expected
  rw [hafter.states, hkernel, noticed_death htask hdeath]
  have hold : ∀ tid t, (s.kernel.tasks.erase pid).lookup tid = some t →
      tid ≠ pid ∧ s.kernel.tasks.lookup tid = some t := by
    intro tid t ht
    rw [PidMap.lookup_erase] at ht
    split at ht
    · cases ht
    · rename_i hne
      exact ⟨hne, ht⟩
  refine Optrace.Expected.resumes (expected_noticed hs ?_ ?_ ?_) (hafter.resumes _)
  · intro tid t ht _
    obtain ⟨hne, ht⟩ := hold tid t ht
    exact ⟨⟨t, ht, rfl⟩, fun hin => Finmap.mem_erase.mpr ⟨hne, hin⟩⟩
  · intro tid t ht hno
    exact ⟨t, (hold tid t ht).2, hno⟩
  · intro creator t tid t' ht hchild _ _
    have hne : creator ≠ pid := by
      rintro rfl
      rw [htask] at ht
      cases ht
      rw [hnewborn] at hchild
      cases hchild
    exact ⟨t, by simp only [PidMap.lookup_erase, if_neg hne, ht], rfl⟩

theorem expected_cloned (hs : s.Expected) {task : Task} {event : CloneEvent} {nr : Word}
    (htask : s.kernel.tasks.lookup pid = some task)
    (hallowed : Kernel.stopPermitted cfg task ptrace (.cloned event nr) = true)
    (htold : told ptrace event = true)
    (hturned : Tracer.Turned cfg os ptrace pid s.tracer s'.tracer (.cloned event nr))
    (hkernel : s'.kernel = s'.tracer.resumes.foldl Kernel.resume
      (s.kernel.noticed cfg pid ptrace (.cloned event nr))) : s'.Expected := by
  obtain ⟨_, _, child, hchild, hmsg⟩ := Kernel.clone_permitted hallowed
  have hpid := hs.creators pid task child htask hchild
  have hnoticed : s.kernel.noticed cfg pid ptrace (.cloned event nr) =
      (s.kernel.setTask pid (task.noticed cfg ptrace (.cloned event nr))).announce child := by
    rw [noticed_cloned htask hchild, if_pos htold]
  have hcreator : ∀ t, ((s.kernel.setTask pid (task.noticed cfg ptrace
      (.cloned event nr))).announce child).tasks.lookup pid = some t →
        t.newborn = none ∧ (t.announced = false → task.announced = false) := by
    intro t ht
    rw [Kernel.announce_lookup, Kernel.setTask_lookup, if_pos rfl, Option.map_some,
      Option.some.injEq] at ht
    subst ht
    split
    · exact ⟨rfl, fun hno => by cases hno⟩
    · exact ⟨rfl, id⟩
  unfold Expected
  rcases step_cloned htask hpid hchild hmsg hturned hkernel with ⟨hno, _⟩ |
    ⟨_, _, hstates, hresumes⟩
  · rw [htold] at hno
    cases hno
  · rw [hstates]
    refine Optrace.Expected.resumes (expected_noticed hs ?_ ?_ ?_) hresumes
    · intro tid t ht hsome
      refine ⟨?_, fun hin => Finmap.mem_insert.mpr (Or.inr hin)⟩
      by_cases heq : tid = pid
      · subst heq
        rw [(hcreator t ht).1] at hsome
        cases hsome
      · rw [← hnoticed] at ht
        obtain ⟨t₀, ht₀, _, _, hsame, _⟩ := Kernel.noticed_other heq ht
        exact ⟨t₀, ht₀, hsame⟩
    · intro tid t ht hann
      by_cases heq : tid = pid
      · subst heq
        exact ⟨task, htask, (hcreator t ht).2 hann⟩
      · rw [← hnoticed] at ht
        obtain ⟨t₀, ht₀, _, _, _, hback⟩ := Kernel.noticed_other heq ht
        exact ⟨t₀, ht₀, hback hann⟩
    · intro creator t tid t' ht hborn ht' hann
      by_cases heq : creator = pid
      · -- the new tracee of the creator is the one the event told of
        subst heq
        rw [htask] at ht
        cases ht
        rw [hchild] at hborn
        cases hborn
        rw [Kernel.announce_lookup, Option.map_eq_some_iff] at ht'
        obtain ⟨t₁, _, rfl⟩ := ht'
        rw [if_pos rfl] at hann
        cases hann
      · rw [← hnoticed]
        exact Kernel.noticed_creator ht heq fun _ _ hno => by cases hno

theorem expected_execed (hs : s.Expected) {leader : Task} {former : Pid} {nr : Word}
    (hleader : s.kernel.tasks.lookup pid = some leader) (hnewborn : leader.newborn = none)
    (hallowed : s.kernel.execPermitted cfg pid former nr ptrace = true)
    (hturned : Tracer.Turned cfg os ptrace pid s.tracer s'.tracer (.execed former nr))
    (hkernel : s'.kernel = s'.tracer.resumes.foldl Kernel.resume
      (s.kernel.noticed cfg pid ptrace (.execed former nr))) : s'.Expected := by
  obtain ⟨thread, hthread, _, _, _, hnone, _⟩ := Kernel.exec_permitted hallowed
  obtain ⟨new, hnew, hlookup⟩ := Kernel.execed_lookup pid hthread nr ptrace.eventMsg.isGone
  have hexec : ∀ states : PidMap Int,
      (∀ tid, tid ≠ former → tid ∈ s.tracer.syscallStateMap → tid ∈ states) →
      Optrace.Expected states (s.kernel.execed pid former nr ptrace.eventMsg.isGone) := by
    intro states hin
    refine expected_noticed hs ?_ ?_ ?_
    · intro tid t ht hsome
      rw [hlookup] at ht
      split at ht
      · cases ht
        rw [hnew.newborn, hnone] at hsome
        cases hsome
      · split at ht
        · cases ht
        · rename_i hformer
          exact ⟨⟨t, ht, rfl⟩, hin tid hformer⟩
    · intro tid t ht hann
      rw [hlookup] at ht
      split at ht
      · rename_i heq
        cases ht
        rw [hnew.announced, hleader] at hann
        exact ⟨leader, heq ▸ hleader, hann⟩
      · split at ht
        · cases ht
        · exact ⟨t, ht, hann⟩
    · intro creator t tid t' ht hborn _ _
      have hpid : creator ≠ pid := by
        rintro rfl
        rw [hleader] at ht
        cases ht
        rw [hnewborn] at hborn
        cases hborn
      have hformer : creator ≠ former := by
        rintro rfl
        rw [hthread] at ht
        cases ht
        rw [hnone] at hborn
        cases hborn
      exact ⟨t, by rw [hlookup, if_neg hpid, if_neg hformer, ht], rfl⟩
  unfold Expected
  rw [hkernel, noticed_execed hleader]
  by_cases hpid : pid ∈ s.tracer.syscallStateMap
  · rcases hturned.of_execed hpid with ⟨_, hafter⟩ | ⟨_, c, _, _, hafter⟩
    · rw [hafter.states]
      exact (hexec _ fun _ _ hin => hin).resumes (hafter.resumes _)
    · rw [hafter.states]
      refine (hexec _ fun tid hne hin => ?_).resumes (hafter.resumes _)
      split
      · exact hin
      · exact Finmap.mem_erase.mpr ⟨hne, hin⟩
  · cases hturned with
    | unknown _ _ _ hafter =>
      rw [hafter.states]
      exact (hexec _ fun _ _ hin => hin).resumes (hafter.resumes _)
    | dead _ hdeath => cases hdeath
    | execLost _ _ hin => exact absurd hin hpid
    | execed _ _ _ hin => exact absurd hin hpid
    | stopped _ hin => exact absurd hin hpid

/-- Steps by which no new tracee is lost keep it that everybody unannounced is awaited. -/
theorem expected_step {input : Input arch} (hs : s.Expected) (hunheard : s.Unheard)
    (hpermit : s.Permitted cfg input) (hattended : s.attended input = true)
    (h : s.step cfg input = .ok s') : s'.Expected := by
  cases input with
  | born creator child isThread => exact expected_born hs hunheard hpermit h
  | notice pid notice os ptrace =>
    obtain ⟨hturned, hkernel⟩ := step_notice hpermit h
    obtain ⟨task, htask, hallowed⟩ := Kernel.permits_iff.mp hpermit
    have hnone : (s.kernel.tasks.lookup pid).all (fun task => task.newborn.isNone) = true →
        task.newborn = none := by
      intro hall
      rw [htask] at hall
      exact Option.isNone_iff_eq_none.mp hall
    cases notice with
    | signalStop sig => exact expected_plain hs htask hturned hkernel trivial
    | syscallStop => exact expected_plain hs htask hturned hkernel trivial
    | exiting => exact expected_plain hs htask hturned hkernel trivial
    | secComp => exact expected_plain hs htask hturned hkernel trivial
    | exited code => exact expected_death hs htask (hnone hattended) hturned hkernel rfl
    | killed sig core => exact expected_death hs htask (hnone hattended) hturned hkernel rfl
    | cloned event nr =>
      simp only [Kernel.permitsTask, Bool.and_eq_true] at hallowed
      exact expected_cloned hs htask hallowed.2 hattended hturned hkernel
    | execed former nr =>
      exact expected_execed hs htask (hnone hattended) hallowed hturned hkernel

end Traced

namespace Supervised

variable {Q : Type} [MaxOutFilesQueue Q] {arch : Arch} {cfg : TracerConfig} {s s' : Supervised arch Q}

theorem traced_of_step {input : Input arch} (h : s.step cfg input = .ok s') :
    s.traced.step cfg input = .ok s'.traced := by
  cases input with
  | born creator child isThread =>
    obtain ⟨traced, htraced, h⟩ := bind_eq_ok_iff.mp h
    cases h
    exact htraced
  | notice pid notice os ptrace =>
    obtain ⟨traced, htraced, h⟩ := bind_eq_ok_iff.mp h
    cases h
    exact htraced

theorem inv_step {input : Input arch} (hs : s.Inv) (hpermit : s.Permitted cfg input)
    (h : s.step cfg input = .ok s') : s'.Inv := by
  cases input with
  | born creator child isThread => exact inv_born hs hpermit h
  | notice pid notice os ptrace => exact inv_notice hs hpermit h

def attended (s : Supervised arch Q) (input : Input arch) : Bool := s.traced.attended input

/-- While a tracee is left `wait3` has something to wait for: whatever the order of the notices, a
tracee that is stopped between two turns waits in `suspendedThreads` for its creator's event, and its
creator runs or was killed. No event of a new tracee may be lost. -/
theorem never_hangs {c : Context Q} {inputs : List (Input arch)}
    (hpermitted : Runs.Along (step cfg) (Permitted cfg) (start cfg c) inputs)
    (hattended : Runs.Along (step cfg) (fun s input => s.attended input = true) (start cfg c) inputs)
    (hrun : Runs.run (step cfg) (start cfg c) inputs = .ok s) {tid : Pid} {task : Task}
    (htask : s.traced.kernel.tasks.lookup tid = some task) :
    task.ToReport s.refused tid ∨
      tid ∈ s.traced.tracer.suspendedThreads ∧ tid ∉ s.traced.tracer.syscallStateMap ∧
        ∃ creator t, s.traced.kernel.tasks.lookup creator = some t ∧ t.newborn = some tid ∧
          t.ToReport s.refused creator := by
  have hinv : s.Inv ∧ s.traced.Unheard ∧ s.traced.Expected := by
    refine @Runs.run_invariant _ _ _ (step cfg)
      (fun s input => s.Permitted cfg input ∧ s.attended input = true)
      (fun s => s.Inv ∧ s.traced.Unheard ∧ s.traced.Expected) (fun s input s' hs hcond h => ?_) _ _ _
      ⟨inv_start cfg c, Traced.unheard_start cfg c, Traced.expected_start cfg c⟩
      (hpermitted.and hattended) hrun
    have htraced := traced_of_step h
    exact ⟨inv_step hs.1 hcond.1 h, Traced.unheard_step hs.2.1 hcond.1 htraced,
      Traced.expected_step hs.2.2 hs.2.1 hcond.1 hcond.2 htraced⟩
  obtain ⟨hs, hunheard, hexpected⟩ := hinv
  rcases hs.placed tid task htask with hreport | hwaits
  · exact Or.inl hreport
  · have hunknown := hs.disjoint tid hwaits
    obtain ⟨creator, t, ht, hborn⟩ := hexpected.awaited tid task htask
      (hunheard tid task htask hunknown).1
    refine Or.inr ⟨hwaits, hunknown, creator, t, ht, hborn, ?_⟩
    rcases hs.placed creator t ht with hreport | hsuspended
    · exact hreport
    · exact absurd (hexpected.creators creator t tid ht hborn) (hs.disjoint creator hsuspended)

open FileStorage in
/-- A new process stops before its creator's event. -/
theorem never_hangs_fork :
    ∃ (c₀ : Context FileQueue) (s : Supervised .x86_64 FileQueue) (task : Task),
      (Context.new plainOptions).registerTracee (plainOs 0) 1 = .ok c₀ ∧
      Runs.run (step plainConfig) (start plainConfig c₀) (Signalled.signalsAfterFork.take 3) = .ok s ∧
      s.traced.kernel.tasks.lookup 2 = some task ∧ task.request = none ∧
      (task.ToReport s.refused 2 ∨
        2 ∈ s.traced.tracer.suspendedThreads ∧ 2 ∉ s.traced.tracer.syscallStateMap ∧
          ∃ creator t, s.traced.kernel.tasks.lookup creator = some t ∧ t.newborn = some 2 ∧
            t.ToReport s.refused creator) := by
  refine ⟨_, _, _, rfl, rfl, rfl, rfl, ?_⟩
  refine @never_hangs FileQueue _ .x86_64 plainConfig _ _ (Signalled.signalsAfterFork.take 3) ?_ ?_ rfl 2 _ rfl
  · decide
  · decide

end Supervised

end Optrace
