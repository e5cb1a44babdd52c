import Optrace.Turns

/-!
# Announced tracees

What every step of the whole system keeps: the tracer knows each tracee it was told of and each
it resumed, groups have their leaders, and a new tracee is announced by one creator only.
-/

namespace Optrace

set_option autoImplicit false
set_option linter.unusedSectionVars false

open Except

/-! ## Resumptions -/

namespace Task

variable (task : Task) (request : Request)

@[simp] theorem resumed_group : (task.resumed request).group = task.group := by
  unfold resumed
  split <;> rfl

@[simp] theorem resumed_newborn : (task.resumed request).newborn = task.newborn := by
  unfold resumed
  split <;> rfl

@[simp] theorem resumed_fresh : (task.resumed request).fresh = task.fresh := by
  unfold resumed
  split <;> rfl

@[simp] theorem resumed_dying : (task.resumed request).dying = task.dying := by
  unfold resumed
  split <;> rfl

@[simp] theorem resumed_announced : (task.resumed request).announced = task.announced := by
  unfold resumed
  split <;> rfl

/-- Only the first resumption counts. -/
theorem resumed_resumed (request' : Request) :
    (task.resumed request).resumed request' = task.resumed request := by
  by_cases h : (task.request.isNone && !task.fresh) = true
  · simp [resumed, h]
  · simp [resumed, h]

end Task

namespace Kernel

variable {k k' : Kernel} {cfg : TracerConfig} {pid child : Pid} {task : Task}

theorem setTask_lookup (k : Kernel) (pid tid : Pid) (task : Task) :
    (k.setTask pid task).tasks.lookup tid = if tid = pid then some task else k.tasks.lookup tid :=
  PidMap.lookup_insert k.tasks pid tid task

theorem born_lookup (htask : k.tasks.lookup pid = some task) (isThread : Bool) (tid : Pid) :
    (k.born pid child isThread).tasks.lookup tid =
      if tid = child then some
        { group := if isThread then task.group else child
          inside := none
          picked := false
          request := none
          newborn := none
          fresh := true
          dying := false
          announced := false }
      else if tid = pid then some { task with newborn := some child }
      else k.tasks.lookup tid := by
  simp only [born, htask, setTask_lookup]

/-- An old task keeps its place, whether it is the creator or not. -/
theorem born_old (htask : k.tasks.lookup pid = some task) (hchild : k.tasks.lookup child = none)
    (isThread : Bool) {tid : Pid} {t₀ : Task} (ht₀ : k.tasks.lookup tid = some t₀) :
    ∃ t, (k.born pid child isThread).tasks.lookup tid = some t ∧ t.group = t₀.group ∧
      t.announced = t₀.announced := by
  have htid : tid ≠ child := by
    rintro rfl
    rw [ht₀] at hchild
    cases hchild
  rw [born_lookup htask, if_neg htid]
  split
  · rename_i heq
    rw [heq, htask] at ht₀
    cases ht₀
    exact ⟨_, rfl, rfl, rfl⟩
  · exact ⟨t₀, ht₀, rfl, rfl⟩

/-- A task is the new one, which has nothing to announce, the creator, or an old one. -/
theorem born_cases (htask : k.tasks.lookup pid = some task) {isThread : Bool} {tid : Pid} {t : Task}
    (ht : (k.born pid child isThread).tasks.lookup tid = some t) :
    (tid = child ∧ t.group = (if isThread then task.group else child) ∧ t.request = none ∧
        t.newborn = none ∧ t.announced = false) ∨
      (tid = pid ∧ t = { task with newborn := some child }) ∨
      tid ≠ pid ∧ k.tasks.lookup tid = some t := by
  rw [born_lookup htask] at ht
  split at ht
  · rename_i heq
    cases ht
    exact Or.inl ⟨heq, rfl, rfl, rfl, rfl⟩
  · split at ht
    · rename_i heq
      cases ht
      exact Or.inr (Or.inl ⟨heq, rfl⟩)
    · rename_i hother
      exact Or.inr (Or.inr ⟨hother, ht⟩)

/-- Some of the tracees were resumed so. -/
structure Resumes (resumed : Pid → Request → Prop) (k k' : Kernel) : Prop where
  tasks : ∀ tid, k'.tasks.lookup tid = k.tasks.lookup tid ∨ ∃ task q,
    k.tasks.lookup tid = some task ∧ resumed tid q ∧ k'.tasks.lookup tid = some (task.resumed q)
  formers : k'.formers = k.formers

theorem resume_resumes {resumed : Pid → Request → Prop} {r : Resume} (hr : resumed r.pid r.request)
    (h : Resumes resumed k k') : Resumes resumed k (k'.resume r) := by
  unfold resume
  cases hlookup : k'.tasks.lookup r.pid with
  | none => exact h
  | some task =>
    refine ⟨fun tid => ?_, h.formers⟩
    rw [setTask_lookup]
    by_cases htid : tid = r.pid
    · rw [if_pos htid, htid]
      rcases h.tasks r.pid with hold | ⟨task₀, q, hold, hq, hnew⟩
      · exact Or.inr ⟨task, r.request, hold ▸ hlookup, hr, rfl⟩
      · rw [hlookup] at hnew
        cases hnew
        exact Or.inr ⟨task₀, q, hold, hq, by rw [Task.resumed_resumed]⟩
    · rw [if_neg htid]
      exact h.tasks tid

theorem foldl_resumes {resumed : Pid → Request → Prop} {rs : List Resume}
    (hrs : ∀ r ∈ rs, resumed r.pid r.request) (k : Kernel) :
    Resumes resumed k (rs.foldl resume k) := by
  have hfold : ∀ k', Resumes resumed k k' → Resumes resumed k (rs.foldl resume k') := by
    induction rs with
    | nil => exact fun k' h => h
    | cons r rs ih =>
      intro k' h
      exact ih (fun r' hr' => hrs r' (List.mem_cons_of_mem r hr')) _
        (resume_resumes (hrs r List.mem_cons_self) h)
  exact hfold k ⟨fun _ => Or.inl rfl, rfl⟩

/-- Resuming changes nothing but the call a tracee is in and how it runs. -/
theorem Resumes.lookup {resumed : Pid → Request → Prop} (h : Resumes resumed k k') {tid : Pid}
    {task : Task} (hlookup : k'.tasks.lookup tid = some task) :
    ∃ task₀, k.tasks.lookup tid = some task₀ ∧
      (task = task₀ ∨ ∃ q, resumed tid q ∧ task = task₀.resumed q) := by
  rcases h.tasks tid with hsame | ⟨task₀, q, hold, hq, hnew⟩
  · exact ⟨task, hsame ▸ hlookup, Or.inl rfl⟩
  · rw [hlookup] at hnew
    cases hnew
    exact ⟨task₀, hold, Or.inr ⟨q, hq, rfl⟩⟩

theorem Resumes.lookup_old {resumed : Pid → Request → Prop} (h : Resumes resumed k k') {tid : Pid}
    {task₀ : Task} (hlookup : k.tasks.lookup tid = some task₀) :
    ∃ task, k'.tasks.lookup tid = some task ∧
      (task = task₀ ∨ ∃ q, resumed tid q ∧ task = task₀.resumed q) := by
  rcases h.tasks tid with hsame | ⟨task₁, q, hold, hq, hnew⟩
  · exact ⟨task₀, hsame.trans hlookup, Or.inl rfl⟩
  · rw [hlookup] at hold
    cases hold
    exact ⟨_, hnew, Or.inr ⟨q, hq, rfl⟩⟩

/-- The task of a thread that exec'ed. -/
structure Execed (k : Kernel) (pid : Pid) (thread new : Task) (nr : Word) (gone : Bool) : Prop where
  group : new.group = thread.group
  request : new.request = none
  newborn : new.newborn = thread.newborn
  inside : new.inside = some nr
  fresh : new.fresh = thread.fresh
  dying : new.dying = gone
  announced : new.announced = (k.tasks.lookup pid).any Task.announced

theorem execed_lookup (pid : Pid) {former : Pid} {thread : Task}
    (hthread : k.tasks.lookup former = some thread) (nr : Word) (gone : Bool) :
    ∃ new, Execed k pid thread new nr gone ∧ ∀ tid,
      (k.execed pid former nr gone).tasks.lookup tid =
        if tid = pid then some new else if tid = former then none else k.tasks.lookup tid := by
  refine ⟨{ thread with
    inside := some nr
    request := none
    dying := gone
    announced := (k.tasks.lookup pid).any Task.announced },
    ⟨rfl, rfl, rfl, rfl, rfl, rfl, rfl⟩, fun tid => ?_⟩
  simp only [execed, hthread, PidMap.lookup_insert, PidMap.lookup_erase]

/-! ## What a permitted notice says -/

variable {arch : Arch} {notice : Notice} {os : Os} {ptrace : Ptrace arch}

theorem Reply.all_ok {α : Type} {p : α → Bool} {reply : Reply α} (h : reply.all p = true) {a : α}
    (ha : reply = .ok a) : p a = true := by
  rw [ha] at h
  exact h

/-- What is permitted to the tracee, by the notice. -/
def permitsTask (cfg : TracerConfig) (k : Kernel) (pid : Pid) (task : Task) (ptrace : Ptrace arch) :
    Notice → Bool
  | .exited _ => k.deathPermitted pid task
  | .killed sig _ => k.deathPermitted pid task && sig != 0 && sig != 0x7f
  | .exiting => ptrace.eventMsg.all fun msg => decide (0 ≤ msg.toInt)
  | .execed former nr => k.execPermitted cfg pid former nr ptrace
  | stop => !task.dying && stopPermitted cfg task ptrace stop

theorem permits_iff : k.permits cfg (.notice pid notice os ptrace) = true ↔
    ∃ task, k.tasks.lookup pid = some task ∧ k.permitsTask cfg pid task ptrace notice = true := by
  unfold permits
  rw [Option.any_eq_true]
  cases notice <;> rfl

theorem readsAs_iff {tid : Pid} {msg : Word} :
    readsAs tid msg = true ↔ asInt msg = tid ∧ msg.toInt = tid ∧ 0 ≤ tid := by
  unfold readsAs
  rw [Bool.and_eq_true, Bool.and_eq_true, beq_iff_eq, decide_eq_true_iff, decide_eq_true_iff,
    and_assoc]

/-- The thread that exec'ed, and what is known of it. -/
theorem exec_permitted {former : Pid} {nr : Word}
    (h : k.execPermitted cfg pid former nr ptrace = true) :
    ∃ thread, k.tasks.lookup former = some thread ∧ thread.group = pid ∧
      thread.request.isSome = true ∧ thread.dying = false ∧ thread.newborn = none ∧
      eventOf cfg arch thread nr = true ∧
      (∀ msg, ptrace.eventMsg = .ok msg → readsAs former msg = true) ∧
      k.onlyInGroup pid [pid, former] = true := by
  obtain ⟨thread, hthread, h⟩ := (Option.any_eq_true _ _).mp h
  simp only [Bool.and_eq_true, beq_iff_eq, Bool.not_eq_true', Option.isNone_iff_eq_none] at h
  obtain ⟨⟨⟨⟨⟨⟨hgroup, hrequest⟩, hdying⟩, hnewborn⟩, hevent⟩, hmsg⟩, honly⟩ := h
  exact ⟨thread, hthread, hgroup, hrequest, hdying, hnewborn, hevent,
    fun msg => Reply.all_ok hmsg, honly⟩

/-- A clone event, and the new tracee it announces. -/
theorem clone_permitted {event : CloneEvent} {nr : Word}
    (h : stopPermitted cfg task ptrace (.cloned event nr) = true) :
    task.request.isSome = true ∧ eventOf cfg arch task nr = true ∧ ∃ child,
      task.newborn = some child ∧
      ∀ msg, ptrace.eventMsg = .ok msg → readsAs child msg = true := by
  simp only [stopPermitted, Bool.and_eq_true, Option.any_eq_true] at h
  obtain ⟨⟨hrequest, hevent⟩, child, hchild, hmsg⟩ := h
  exact ⟨hrequest, hevent, child, hchild, fun msg => Reply.all_ok hmsg⟩

theorem onlyInGroup_spec {group : Pid} {pids : List Pid} (h : k.onlyInGroup group pids = true)
    {tid : Pid} (htask : k.tasks.lookup tid = some task) (hgroup : task.group = group) :
    tid ∈ pids := by
  have hkeys := of_decide_eq_true h tid (Finmap.mem_keys.mpr (Finmap.mem_of_lookup_eq_some htask))
  rcases hkeys with hmem | hother
  · exact hmem
  · rw [htask] at hother
    simp [hgroup] at hother

theorem permits_fits (h : k.permits cfg (.notice pid notice os ptrace) = true) :
    Tracer.Fits ptrace notice := by
  obtain ⟨task, _, h⟩ := permits_iff.mp h
  cases notice with
  | exited code => trivial
  | syscallStop => trivial
  | killed sig core =>
    simp only [permitsTask, Bool.and_eq_true, bne_iff_ne] at h
    exact ⟨h.1.2, h.2⟩
  | signalStop sig =>
    simp only [permitsTask, stopPermitted, Bool.and_eq_true, bne_iff_ne] at h
    exact h.2.2
  | cloned event nr =>
    simp only [permitsTask, Bool.and_eq_true] at h
    obtain ⟨_, _, child, _, hmsg⟩ := clone_permitted h.2
    intro msg heq
    obtain ⟨_, hint, hchild⟩ := readsAs_iff.mp (hmsg msg heq)
    rwa [hint]
  | execed former nr =>
    obtain ⟨_, _, _, _, _, _, _, hmsg, _⟩ := exec_permitted h
    exact fun msg heq => readsAs_iff.mp (hmsg msg heq)
  | exiting =>
    intro msg heq
    exact of_decide_eq_true (Reply.all_ok h heq)
  | secComp =>
    simp only [permitsTask, stopPermitted, Bool.and_eq_true] at h
    intro msg heq
    exact of_decide_eq_true (Reply.all_ok h.2.1.1.2 heq)

end Kernel

theorem Tracer.After.resumes {Q : Type} [MaxOutFilesQueue Q] {arch : Arch} {s' : Tracer arch Q}
    {c : Context Q} {states : PidMap Int} {resumed : Pid → Request → Prop} {calls : List (Call arch)}
    (h : After s' c states resumed calls) (k : Kernel) :
    Kernel.Resumes resumed k (s'.resumes.foldl Kernel.resume k) :=
  Kernel.foldl_resumes h.resumed k

/-! ## Steps of the whole system -/

namespace Traced

variable {Q : Type} [MaxOutFilesQueue Q] {arch : Arch} {cfg : TracerConfig} {s s' : Traced arch Q}
  {pid : Pid} {notice : Notice} {os : Os} {ptrace : Ptrace arch}

theorem step_notice (hpermit : s.Permitted cfg (.notice pid notice os ptrace))
    (h : s.step cfg (.notice pid notice os ptrace) = .ok s') :
    Tracer.Turned cfg os ptrace pid s.tracer s'.tracer notice ∧
      s'.kernel = s'.tracer.resumes.foldl Kernel.resume (s.kernel.noticed cfg pid ptrace notice) := by
  obtain ⟨tracer, hturn, h⟩ := bind_eq_ok_iff.mp h
  rw [pure_eq_ok_iff] at h
  subst h
  exact ⟨Tracer.turned (Kernel.permits_fits hpermit) hturn, rfl⟩

end Traced

/-! ## The invariant -/

/-- What the tracer's map says of the kernel's tracees. -/
structure Known (states : PidMap Int) (k : Kernel) : Prop where
  known : ∀ tid task, k.tasks.lookup tid = some task →
    (task.announced = true ∨ task.request.isSome = true) → tid ∈ states
  led : ∀ tid task, k.tasks.lookup tid = some task → ∃ leader,
    k.tasks.lookup task.group = some leader ∧ leader.group = task.group ∧
      (task.group ≠ tid → task.group ∈ states)
  newborn : ∀ tid task child, k.tasks.lookup tid = some task → task.newborn = some child →
    ∃ new, k.tasks.lookup child = some new ∧ new.announced = false ∧
      (new.group = child ∨ new.group = task.group)
  creator : ∀ tid₁ task₁ tid₂ task₂ child, k.tasks.lookup tid₁ = some task₁ →
    k.tasks.lookup tid₂ = some task₂ → task₁.newborn = some child →
    task₂.newborn = some child → tid₁ = tid₂

namespace Known

variable {states states' : PidMap Int} {k k' : Kernel} {pid child : Pid} {task task' : Task}

theorem group_mem (h : Known states k) (htask : k.tasks.lookup pid = some task)
    (hpid : pid ∈ states) : task.group ∈ states := by
  obtain ⟨_, _, _, hgroup⟩ := h.led pid task htask
  by_cases heq : task.group = pid
  · rwa [heq]
  · exact hgroup heq

theorem mono (h : Known states k) (hsub : ∀ tid ∈ states, tid ∈ states') : Known states' k := by
  refine ⟨fun tid t ht hcase => hsub tid (h.known tid t ht hcase), fun tid t ht => ?_, h.newborn,
    h.creator⟩
  obtain ⟨leader, hleader, hgroup, hmem⟩ := h.led tid t ht
  exact ⟨leader, hleader, hgroup, fun hne => hsub _ (hmem hne)⟩

theorem of_tasks (h : Known states k)
    (hback : ∀ tid t, k'.tasks.lookup tid = some t → ∃ t₀, k.tasks.lookup tid = some t₀ ∧
      t.group = t₀.group ∧ t.announced = t₀.announced ∧
      (t.request.isSome = true → t₀.request.isSome = true ∨ tid ∈ states) ∧
      (t.newborn = t₀.newborn ∨ t.newborn = none))
    (hforth : ∀ tid t₀, k.tasks.lookup tid = some t₀ → ∃ t, k'.tasks.lookup tid = some t ∧
      t.group = t₀.group ∧ t.announced = t₀.announced) : Known states k' := by
  have hborn : ∀ tid t c, k'.tasks.lookup tid = some t → t.newborn = some c →
      ∃ t₀, k.tasks.lookup tid = some t₀ ∧ t₀.newborn = some c ∧ t.group = t₀.group := by
    intro tid t c ht hc
    obtain ⟨t₀, ht₀, hgroup, _, _, hsame | hnone⟩ := hback tid t ht
    · exact ⟨t₀, ht₀, hsame ▸ hc, hgroup⟩
    · rw [hnone] at hc
      cases hc
  refine ⟨?_, ?_, ?_, ?_⟩
  · intro tid t ht hcase
    obtain ⟨t₀, ht₀, _, hann, hrequest, _⟩ := hback tid t ht
    rcases hcase with hyes | hyes
    · exact h.known tid t₀ ht₀ (Or.inl (hann ▸ hyes))
    · rcases hrequest hyes with hold | hin
      · exact h.known tid t₀ ht₀ (Or.inr hold)
      · exact hin
  · intro tid t ht
    obtain ⟨t₀, ht₀, hgroup, _, _, _⟩ := hback tid t ht
    obtain ⟨l₀, hl₀, hleads, hin⟩ := h.led tid t₀ ht₀
    obtain ⟨l, hl, hgroup', _⟩ := hforth _ l₀ hl₀
    rw [hgroup]
    exact ⟨l, hl, hgroup'.trans hleads, hin⟩
  · intro tid t c ht hc
    obtain ⟨t₀, ht₀, hc₀, hgroup⟩ := hborn tid t c ht hc
    obtain ⟨n₀, hn₀, hann, hcase⟩ := h.newborn tid t₀ c ht₀ hc₀
    obtain ⟨n, hn, hgroup', hann'⟩ := hforth c n₀ hn₀
    rw [hgroup]
    exact ⟨n, hn, hann'.trans hann, by rwa [hgroup']⟩
  · intro tid₁ t₁ tid₂ t₂ c ht₁ ht₂ hc₁ hc₂
    obtain ⟨u₁, hu₁, hn₁, _⟩ := hborn tid₁ t₁ c ht₁ hc₁
    obtain ⟨u₂, hu₂, hn₂, _⟩ := hborn tid₂ t₂ c ht₂ hc₂
    exact h.creator tid₁ u₁ tid₂ u₂ c hu₁ hu₂ hn₁ hn₂

/-- A tracee that was resumed is in the map, or has no task any more. -/
theorem resumes (h : Known states k) {resumed : Pid → Request → Prop}
    (hresumes : Kernel.Resumes resumed k k')
    (hmem : ∀ tid q, resumed tid q → tid ∈ states ∨ k.tasks.lookup tid = none) :
    Known states k' := by
  refine h.of_tasks (fun tid t ht => ?_) (fun tid t₀ ht₀ => ?_)
  · obtain ⟨t₀, ht₀, rfl | ⟨q, hq, rfl⟩⟩ := hresumes.lookup ht
    · exact ⟨t, ht₀, rfl, rfl, Or.inl, Or.inl rfl⟩
    · refine ⟨t₀, ht₀, by simp, by simp, fun _ => Or.inr ?_, Or.inl (by simp)⟩
      rcases hmem tid q hq with hin | hnone
      · exact hin
      · rw [ht₀] at hnone
        cases hnone
  · obtain ⟨t, ht, rfl | ⟨q, _, rfl⟩⟩ := hresumes.lookup_old ht₀
    · exact ⟨t, ht, rfl, rfl⟩
    · exact ⟨_, ht, by simp, by simp⟩

theorem setTask (h : Known states k) (htask : k.tasks.lookup pid = some task)
    (hgroup : task'.group = task.group) (hann : task'.announced = task.announced)
    (hrequest : task'.request = none)
    (hnewborn : task'.newborn = task.newborn ∨ task'.newborn = none) :
    Known states (k.setTask pid task') := by
  refine h.of_tasks (fun tid t ht => ?_) (fun tid t₀ ht₀ => ?_)
  · rw [Kernel.setTask_lookup] at ht
    split at ht
    · rename_i heq
      cases ht
      refine ⟨task, heq ▸ htask, hgroup, hann, fun hsome => ?_, hnewborn⟩
      rw [hrequest] at hsome
      cases hsome
    · exact ⟨t, ht, rfl, rfl, Or.inl, Or.inl rfl⟩
  · rw [Kernel.setTask_lookup]
    split
    · rename_i heq
      rw [heq, htask] at ht₀
      cases ht₀
      exact ⟨task', rfl, hgroup, hann⟩
    · exact ⟨t₀, ht₀, rfl, rfl⟩

/-- Whoever has a new tracee to announce is the creator of this one, or had it before. -/
theorem announces_born (h : Known states k) {isThread : Bool}
    (htask : k.tasks.lookup pid = some task) (hchild : k.tasks.lookup child = none) {tid c : Pid}
    {t : Task} (ht : (k.born pid child isThread).tasks.lookup tid = some t)
    (hc : t.newborn = some c) :
    (tid = pid ∧ c = child ∧ t.group = task.group) ∨
      (tid ≠ pid ∧ c ≠ child ∧ k.tasks.lookup tid = some t) := by
  rcases Kernel.born_cases htask ht with ⟨_, _, _, hnone, _⟩ | ⟨heq, rfl⟩ | ⟨hother, hold⟩
  · rw [hnone] at hc
    cases hc
  · cases hc
    exact Or.inl ⟨heq, rfl, rfl⟩
  · refine Or.inr ⟨hother, ?_, hold⟩
    rintro rfl
    obtain ⟨_, hlive, _⟩ := h.newborn tid t c hold hc
    rw [hchild] at hlive
    cases hlive

theorem led_born (h : Known states k) {isThread : Bool} (htask : k.tasks.lookup pid = some task)
    (hrequest : task.request.isSome = true) (hchild : k.tasks.lookup child = none) {tid : Pid}
    {t : Task} (ht : (k.born pid child isThread).tasks.lookup tid = some t) :
    ∃ l, (k.born pid child isThread).tasks.lookup t.group = some l ∧ l.group = t.group ∧
      (t.group ≠ tid → t.group ∈ states) := by
  have hleader : task.group ∈ states :=
    h.group_mem htask (h.known pid task htask (Or.inr hrequest))
  have hgroup : ∃ l, (k.born pid child isThread).tasks.lookup task.group = some l ∧
      l.group = task.group := by
    obtain ⟨l₀, hl₀, hleads, _⟩ := h.led pid task htask
    obtain ⟨l, hl, hg, _⟩ := Kernel.born_old htask hchild isThread hl₀
    exact ⟨l, hl, hg.trans hleads⟩
  obtain ⟨l, hl, hg⟩ := hgroup
  rcases Kernel.born_cases htask ht with ⟨rfl, hin, _⟩ | ⟨rfl, rfl⟩ | ⟨_, hold⟩
  · cases isThread with
    | true =>
      rw [if_pos rfl] at hin
      rw [hin]
      exact ⟨l, hl, hg, fun _ => hleader⟩
    | false =>
      rw [if_neg Bool.false_ne_true] at hin
      rw [hin]
      exact ⟨t, ht, hin, fun hno => absurd rfl hno⟩
  · exact ⟨l, hl, hg, fun _ => hleader⟩
  · obtain ⟨l₀, hl₀, hleads, hin⟩ := h.led tid t hold
    obtain ⟨l, hl, hg, _⟩ := Kernel.born_old htask hchild isThread hl₀
    exact ⟨l, hl, hg.trans hleads, hin⟩

theorem born (h : Known states k) {isThread : Bool}
    (htask : k.tasks.lookup pid = some task) (hrequest : task.request.isSome = true)
    (hchild : k.tasks.lookup child = none) :
    Known states (k.born pid child isThread) := by
  refine ⟨?_, fun tid t ht => h.led_born htask hrequest hchild ht, ?_, ?_⟩
  · intro tid t ht hcase
    rcases Kernel.born_cases htask ht with ⟨_, _, hnone, _, hno⟩ | ⟨rfl, _⟩ | ⟨_, hold⟩
    · rw [hnone, hno] at hcase
      rcases hcase with hcase | hcase
      · cases hcase
      · cases hcase
    · exact h.known tid task htask (Or.inr hrequest)
    · exact h.known tid t hold hcase
  · intro tid t c ht hc
    rcases h.announces_born htask hchild ht hc with ⟨_, rfl, hg⟩ | ⟨_, _, hold⟩
    · have hself := @Kernel.born_lookup k pid c task htask isThread c
      rw [if_pos rfl] at hself
      refine ⟨_, hself, rfl, ?_⟩
      cases isThread with
      | true => exact Or.inr hg.symm
      | false => exact Or.inl rfl
    · obtain ⟨n₀, hn₀, ha, hcase⟩ := h.newborn tid t c hold hc
      obtain ⟨n, hn, hg, ha'⟩ := Kernel.born_old htask hchild isThread hn₀
      exact ⟨n, hn, ha'.trans ha, by rwa [hg]⟩
  · intro tid₁ t₁ tid₂ t₂ c ht₁ ht₂ hc₁ hc₂
    rcases h.announces_born htask hchild ht₁ hc₁ with ⟨rfl, rfl, _⟩ | ⟨_, hne₁, hold₁⟩
    · rcases h.announces_born htask hchild ht₂ hc₂ with ⟨rfl, _, _⟩ | ⟨_, hne₂, _⟩
      · rfl
      · exact absurd rfl hne₂
    · rcases h.announces_born htask hchild ht₂ hc₂ with ⟨_, rfl, _⟩ | ⟨_, _, hold₂⟩
      · exact absurd rfl hne₁
      · exact h.creator tid₁ t₁ tid₂ t₂ c hold₁ hold₂ hc₁ hc₂

/-- A new tracee that nobody else has to announce becomes known. -/
theorem announce (h : Known states k) (hchild : child ∈ states)
    (hnobody : ∀ tid task, k.tasks.lookup tid = some task → task.newborn ≠ some child) :
    Known states (k.announce child) := by
  unfold Kernel.announce
  cases hlookup : k.tasks.lookup child with
  | none => exact h
  | some new =>
    have hback : ∀ tid t, (k.setTask child { new with announced := true }).tasks.lookup tid = some t →
        ∃ t₀, k.tasks.lookup tid = some t₀ ∧ t.group = t₀.group ∧ t.newborn = t₀.newborn ∧
          t.request = t₀.request ∧ (tid = child ∨ t = t₀) := by
      intro tid t ht
      rw [Kernel.setTask_lookup] at ht
      split at ht
      · rename_i heq
        cases ht
        exact ⟨new, heq ▸ hlookup, rfl, rfl, rfl, Or.inl heq⟩
      · exact ⟨t, ht, rfl, rfl, rfl, Or.inr rfl⟩
    have hforth : ∀ tid t₀, k.tasks.lookup tid = some t₀ →
        ∃ t, (k.setTask child { new with announced := true }).tasks.lookup tid = some t ∧
          t.group = t₀.group ∧ (tid ≠ child → t.announced = t₀.announced) := by
      intro tid t₀ ht₀
      rw [Kernel.setTask_lookup]
      split
      · rename_i heq
        rw [heq, hlookup] at ht₀
        cases ht₀
        exact ⟨_, rfl, rfl, fun hne => absurd heq hne⟩
      · exact ⟨t₀, ht₀, rfl, fun _ => rfl⟩
    refine ⟨?_, ?_, ?_, ?_⟩
    · intro tid t ht hcase
      obtain ⟨t₀, ht₀, _, _, _, rfl | rfl⟩ := hback tid t ht
      · exact hchild
      · exact h.known tid t ht₀ hcase
    · intro tid t ht
      obtain ⟨t₀, ht₀, hg, _, _, _⟩ := hback tid t ht
      obtain ⟨l₀, hl₀, hleads, hin⟩ := h.led tid t₀ ht₀
      obtain ⟨l, hl, hg', _⟩ := hforth _ l₀ hl₀
      rw [hg]
      exact ⟨l, hl, hg'.trans hleads, hin⟩
    · intro tid t c ht hc
      obtain ⟨t₀, ht₀, hg, hn, _, _⟩ := hback tid t ht
      rw [hn] at hc
      have hne : c ≠ child := by
        rintro rfl
        exact hnobody tid t₀ ht₀ hc
      obtain ⟨n₀, hn₀, ha, hcase⟩ := h.newborn tid t₀ c ht₀ hc
      obtain ⟨n, hn', hg', ha'⟩ := hforth c n₀ hn₀
      rw [hg]
      exact ⟨n, hn', (ha' hne).trans ha, by rwa [hg']⟩
    · intro tid₁ t₁ tid₂ t₂ c ht₁ ht₂ hc₁ hc₂
      obtain ⟨u₁, hu₁, _, hn₁, _, _⟩ := hback tid₁ t₁ ht₁
      obtain ⟨u₂, hu₂, _, hn₂, _, _⟩ := hback tid₂ t₂ ht₂
      exact h.creator tid₁ u₁ tid₂ u₂ c hu₁ hu₂ (hn₁ ▸ hc₁) (hn₂ ▸ hc₂)

/-- A tracee that nobody has to announce and nobody's leader is gone. -/
theorem erase (h : Known states k)
    (hnobody : ∀ tid task, k.tasks.lookup tid = some task → task.newborn ≠ some pid)
    (halone : ∀ tid task, k.tasks.lookup tid = some task → task.group = pid → tid = pid) :
    Known (states.erase pid) { k with tasks := k.tasks.erase pid } := by
  have hback : ∀ tid t, Finmap.lookup tid (k.tasks.erase pid) = some t →
      tid ≠ pid ∧ k.tasks.lookup tid = some t := by
    intro tid t ht
    rw [PidMap.lookup_erase] at ht
    split at ht
    · cases ht
    · rename_i hne
      exact ⟨hne, ht⟩
  have hforth : ∀ tid t, tid ≠ pid → k.tasks.lookup tid = some t →
      Finmap.lookup tid (k.tasks.erase pid) = some t := by
    intro tid t hne ht
    rw [PidMap.lookup_erase, if_neg hne, ht]
  refine ⟨?_, ?_, ?_, ?_⟩
  · intro tid t ht hcase
    obtain ⟨hne, ht₀⟩ := hback tid t ht
    exact Finmap.mem_erase.mpr ⟨hne, h.known tid t ht₀ hcase⟩
  · intro tid t ht
    obtain ⟨hne, ht₀⟩ := hback tid t ht
    have hgroup : t.group ≠ pid := fun heq => hne (halone tid t ht₀ heq)
    obtain ⟨l, hl, hleads, hin⟩ := h.led tid t ht₀
    exact ⟨l, hforth _ l hgroup hl, hleads, fun hother => Finmap.mem_erase.mpr ⟨hgroup, hin hother⟩⟩
  · intro tid t c ht hc
    obtain ⟨_, ht₀⟩ := hback tid t ht
    have hne : c ≠ pid := by
      rintro rfl
      exact hnobody tid t ht₀ hc
    obtain ⟨n, hn, hcase⟩ := h.newborn tid t c ht₀ hc
    exact ⟨n, hforth c n hne hn, hcase⟩
  · intro tid₁ t₁ tid₂ t₂ c ht₁ ht₂
    exact h.creator tid₁ t₁ tid₂ t₂ c (hback tid₁ t₁ ht₁).2 (hback tid₂ t₂ ht₂).2

/-- What was announced is nobody's to announce. -/
theorem announced_once (h : Known states k) (htask : k.tasks.lookup pid = some task)
    (hann : task.announced = true) (tid : Pid) (t : Task) (ht : k.tasks.lookup tid = some t) :
    t.newborn ≠ some pid := by
  intro hc
  obtain ⟨n, hn, hno, _⟩ := h.newborn tid t pid ht hc
  rw [htask] at hn
  cases hn
  rw [hann] at hno
  cases hno

theorem congr (h : Known states k) (hlookup : ∀ tid, k'.tasks.lookup tid = k.tasks.lookup tid) :
    Known states k' := by
  have htasks : k'.tasks = k.tasks := Finmap.ext_lookup hlookup
  obtain ⟨hknown, hled, hnewborn, hcreator⟩ := h
  exact ⟨by rwa [htasks], by rwa [htasks], by rwa [htasks], by rwa [htasks]⟩

/-- The thread that exec'ed takes its leader's place. -/
theorem execed (h : Known states k) {former : Pid} {thread : Task} (nr : Word) (gone : Bool)
    (hthread : k.tasks.lookup former = some thread) (hgroup : thread.group = pid)
    (hnewborn : thread.newborn = none) (honly : k.onlyInGroup pid [pid, former] = true) :
    Known (if former = pid then states else states.erase former) (k.execed pid former nr gone) := by
  obtain ⟨leader, hleader, hleads, _⟩ := h.led former thread hthread
  rw [hgroup] at hleader hleads
  obtain ⟨new, hnew, hexec⟩ := Kernel.execed_lookup pid hthread nr gone
  have hset : Known states (k.setTask pid new) := by
    refine h.setTask hleader ?_ ?_ hnew.request (Or.inr (hnew.newborn.trans hnewborn))
    · rw [hnew.group, hgroup, hleads]
    · rw [hnew.announced, hleader]
      rfl
  by_cases heq : former = pid
  · rw [if_pos heq]
    refine hset.congr fun tid => ?_
    rw [hexec, Kernel.setTask_lookup]
    by_cases htid : tid = pid
    · rw [if_pos htid, if_pos htid]
    · rw [if_neg htid, if_neg htid, if_neg (fun h => htid (h.trans heq))]
  · rw [if_neg heq]
    -- a creator of the thread is in its group, so it is the leader, which is replaced
    have hnobody : ∀ tid t, (k.setTask pid new).tasks.lookup tid = some t →
        t.newborn ≠ some former := by
      intro tid t ht hc
      rw [Kernel.setTask_lookup] at ht
      split at ht
      · cases ht
        rw [hnew.newborn, hnewborn] at hc
        cases hc
      · rename_i htid
        obtain ⟨n, hn, _, hcase⟩ := h.newborn tid t former ht hc
        rw [hthread] at hn
        cases hn
        rw [hgroup] at hcase
        rcases hcase with hself | hcreator
        · exact heq hself.symm
        · have hmem := Kernel.onlyInGroup_spec honly ht hcreator.symm
          rw [List.mem_cons, List.mem_singleton] at hmem
          rcases hmem with hmem | rfl
          · exact htid hmem
          · rw [hthread] at ht
            cases ht
            rw [hnewborn] at hc
            cases hc
    have halone : ∀ tid t, (k.setTask pid new).tasks.lookup tid = some t →
        t.group = former → tid = former := by
      intro tid t ht hformer
      obtain ⟨l, hl, hlg, _⟩ := hset.led tid t ht
      rw [hformer, Kernel.setTask_lookup, if_neg heq, hthread] at hl
      cases hl
      rw [hgroup, hformer] at hlg
      exact absurd hlg.symm heq
    refine (hset.erase hnobody halone).congr fun tid => ?_
    rw [hexec, PidMap.lookup_erase, Kernel.setTask_lookup]
    by_cases htid : tid = pid
    · rw [if_pos htid, if_pos htid, if_neg (fun h => heq (h.symm.trans htid))]
    · rw [if_neg htid, if_neg htid]

end Known

/-! ## What a step keeps -/

theorem noticed_plain (cfg : TracerConfig) {k : Kernel} {pid : Pid} {task : Task} {arch : Arch}
    {ptrace : Ptrace arch} {notice : Notice} (htask : k.tasks.lookup pid = some task)
    (hplain : Tracer.Plain notice) :
    k.noticed cfg pid ptrace notice = k.setTask pid (task.noticed cfg ptrace notice) ∧
      (task.noticed cfg ptrace notice).group = task.group ∧
      (task.noticed cfg ptrace notice).announced = task.announced ∧
      (task.noticed cfg ptrace notice).request = none ∧
      (task.noticed cfg ptrace notice).newborn = task.newborn := by
  unfold Kernel.noticed
  rw [htask]
  cases notice with
  | exited code => exact hplain.elim
  | killed sig core => exact hplain.elim
  | cloned event nr => exact hplain.elim
  | execed former nr => exact hplain.elim
  | _ => exact ⟨rfl, rfl, rfl, rfl, rfl⟩

namespace Traced

variable {Q : Type} [MaxOutFilesQueue Q] {arch : Arch} {cfg : TracerConfig} {s s' : Traced arch Q}
  {pid : Pid} {notice : Notice} {os : Os} {ptrace : Ptrace arch}

/-- The invariant of the two maps together. -/
def Known (s : Traced arch Q) : Prop := Optrace.Known s.tracer.syscallStateMap s.kernel

theorem known_start (cfg : TracerConfig) (c : Context Q) : (start cfg c : Traced arch Q).Known := by
  have hlookup : ∀ tid task, (Kernel.start cfg).tasks.lookup tid = some task →
      tid = cfg.traceePid ∧ task.group = cfg.traceePid ∧ task.newborn = none := by
    intro tid task htask
    have hmem := Finmap.mem_of_lookup_eq_some htask
    simp only [Kernel.start, Finmap.mem_singleton] at hmem
    subst hmem
    simp only [Kernel.start, Finmap.lookup_singleton_eq, Option.some.injEq] at htask
    subst htask
    exact ⟨rfl, rfl, rfl⟩
  refine ⟨?_, ?_, ?_, ?_⟩
  · intro tid task htask _
    rw [(hlookup tid task htask).1]
    exact (Finmap.mem_singleton _ _ _).mpr rfl
  · intro tid task htask
    obtain ⟨rfl, hgroup, _⟩ := hlookup tid task htask
    rw [hgroup]
    exact ⟨task, htask, hgroup, fun hne => absurd rfl hne⟩
  · intro tid task child htask hchild
    rw [(hlookup tid task htask).2.2] at hchild
    cases hchild
  · intro tid₁ task₁ tid₂ task₂ child h₁ h₂ _ _
    rw [(hlookup tid₁ task₁ h₁).1, (hlookup tid₂ task₂ h₂).1]

theorem known_born {creator child : Pid} {isThread : Bool} (hs : s.Known)
    (hpermit : s.Permitted cfg (.born creator child isThread))
    (h : s.step cfg (.born creator child isThread) = .ok s') : s'.Known := by
  cases h
  simp only [Permitted, Kernel.permits, Bool.and_eq_true, Option.any_eq_true] at hpermit
  obtain ⟨⟨⟨task, htask, ⟨hrequest, _⟩, _⟩, hchild⟩, _⟩ := hpermit
  exact Optrace.Known.born hs htask hrequest
    (Finmap.lookup_eq_none.mpr (of_decide_eq_true hchild))

theorem known_plain (hs : s.Known) {task : Task} (htask : s.kernel.tasks.lookup pid = some task)
    (hturned : Tracer.Turned cfg os ptrace pid s.tracer s'.tracer notice)
    (hkernel : s'.kernel =
      s'.tracer.resumes.foldl Kernel.resume (s.kernel.noticed cfg pid ptrace notice))
    (hplain : Tracer.Plain notice) : s'.Known := by
  obtain ⟨c, states, calls, hafter, hkeys, _⟩ := hturned.plain hplain
  obtain ⟨hnoticed, hgroup, hann, hrequest, hnewborn⟩ := noticed_plain cfg htask hplain
  have hset : Optrace.Known states (s.kernel.noticed cfg pid ptrace notice) := by
    rw [hnoticed]
    exact (Optrace.Known.setTask hs htask hgroup hann hrequest (Or.inl hnewborn)).mono
      fun tid => (hkeys tid).mpr
  unfold Known
  rw [hafter.states, hkernel]
  apply hset.resumes (hafter.resumes _)
  rintro tid _ ⟨rfl, hpid⟩
  exact Or.inl ((hkeys tid).mpr hpid)

theorem noticed_death {k : Kernel} {task : Task} (htask : k.tasks.lookup pid = some task)
    (hdeath : notice.isDeath = true) :
    k.noticed cfg pid ptrace notice = { k with tasks := k.tasks.erase pid } := by
  unfold Kernel.noticed
  rw [htask]
  cases notice with
  | exited code => rfl
  | killed sig core => rfl
  | _ => cases hdeath

theorem noticed_cloned {k : Kernel} {task : Task} {event : CloneEvent} {nr : Word} {child : Pid}
    (htask : k.tasks.lookup pid = some task) (hchild : task.newborn = some child) :
    k.noticed cfg pid ptrace (.cloned event nr) =
      if told ptrace event = true then
        (k.setTask pid (task.noticed cfg ptrace (.cloned event nr))).announce child
      else k.setTask pid (task.noticed cfg ptrace (.cloned event nr)) := by
  unfold Kernel.noticed
  simp only [htask, hchild]

theorem noticed_execed {k : Kernel} {task : Task} {former : Pid} {nr : Word}
    (htask : k.tasks.lookup pid = some task) :
    k.noticed cfg pid ptrace (.execed former nr) =
      k.execed pid former nr ptrace.eventMsg.isGone := by
  unfold Kernel.noticed
  rw [htask]

theorem death_permitted {k : Kernel} {task : Task}
    (hpermit : k.permits cfg (.notice pid notice os ptrace) = true)
    (htask : k.tasks.lookup pid = some task) (hdeath : notice.isDeath = true) :
    k.deathPermitted pid task = true := by
  obtain ⟨task', htask', h⟩ := Kernel.permits_iff.mp hpermit
  rw [htask] at htask'
  cases htask'
  cases notice with
  | exited code => exact h
  | killed sig core =>
    simp only [Kernel.permitsTask, Bool.and_eq_true] at h
    exact h.1.1
  | _ => cases hdeath

/-- Whoever is in the group of a tracee that may die is that tracee. -/
theorem alone_of_death {k : Kernel} {states : PidMap Int} {task : Task}
    (hk : Optrace.Known states k) (htask : k.tasks.lookup pid = some task)
    (hdeath : k.deathPermitted pid task = true) (tid : Pid) (t : Task)
    (ht : k.tasks.lookup tid = some t) (hgroup : t.group = pid) : tid = pid := by
  obtain ⟨leader, hleader, hleads, _⟩ := hk.led tid t ht
  rw [hgroup, htask] at hleader
  cases hleader
  simp only [Kernel.deathPermitted, hleads.trans hgroup, bne_self_eq_false, Bool.false_or] at hdeath
  exact List.mem_singleton.mp (Kernel.onlyInGroup_spec hdeath ht hgroup)

theorem known_death (hs : s.Known) {task : Task}
    (hpermit : s.Permitted cfg (.notice pid notice os ptrace))
    (htask : s.kernel.tasks.lookup pid = some task) (hann : task.announced = true)
    (hturned : Tracer.Turned cfg os ptrace pid s.tracer s'.tracer notice)
    (hkernel : s'.kernel =
      s'.tracer.resumes.foldl Kernel.resume (s.kernel.noticed cfg pid ptrace notice))
    (hdeath : notice.isDeath = true) : s'.Known := by
  have halone := alone_of_death hs htask (death_permitted hpermit htask hdeath)
  have herase := Optrace.Known.erase hs (Optrace.Known.announced_once hs htask hann) halone
  obtain ⟨c₁, c, dump, hafter, _⟩ := hturned.of_dead hdeath
  unfold Known
  rw [hafter.states, hkernel, noticed_death htask hdeath]
  apply herase.resumes (hafter.resumes _)
  rintro tid _ rfl
  exact Or.inr (Finmap.lookup_erase tid _)

/-- The event of a call that made a tracee: the tracer is told of it or not. -/
theorem step_cloned {task : Task} {event : CloneEvent} {nr : Word} {child : Pid}
    (htask : s.kernel.tasks.lookup pid = some task) (hpid : pid ∈ s.tracer.syscallStateMap)
    (hchild : task.newborn = some child)
    (hmsg : ∀ msg, ptrace.eventMsg = .ok msg → readsAs child msg = true)
    (hturned : Tracer.Turned cfg os ptrace pid s.tracer s'.tracer (.cloned event nr))
    (hkernel : s'.kernel = s'.tracer.resumes.foldl Kernel.resume
      (s.kernel.noticed cfg pid ptrace (.cloned event nr))) :
    (told ptrace event = false ∧ s'.tracer.context = s.tracer.context ∧
      s'.tracer.syscallStateMap = s.tracer.syscallStateMap ∧
      Kernel.Resumes (fun tid q => tid = pid ∧ q = .syscall)
        (s.kernel.setTask pid (task.noticed cfg ptrace (.cloned event nr))) s'.kernel) ∨
    (told ptrace event = true ∧
      (Tracer.registration os pid child (Tracer.asThread ptrace event) : Call arch).apply
        s.tracer.context = .ok s'.tracer.context ∧
      s'.tracer.syscallStateMap = s.tracer.syscallStateMap.insert child SYSCALL_UNDEFINED ∧
      Kernel.Resumes (fun tid q => (tid = child ∨ tid = pid) ∧ q = Tracer.request cfg false)
        ((s.kernel.setTask pid (task.noticed cfg ptrace (.cloned event nr))).announce child)
        s'.kernel) := by
  rw [noticed_cloned htask hchild] at hkernel
  rcases hturned.of_cloned hpid with ⟨htold, _, hafter⟩ | ⟨htold, msg, c, heq, hreg, hafter⟩
  · rw [htold, if_neg Bool.false_ne_true] at hkernel
    rw [hkernel]
    exact Or.inl ⟨htold, hafter.context, hafter.states, hafter.resumes _⟩
  · rw [htold, if_pos rfl] at hkernel
    rw [(Kernel.readsAs_iff.mp (hmsg msg heq)).1] at hreg hafter
    rw [hkernel, hafter.context]
    exact Or.inr ⟨htold, hreg, hafter.states, hafter.resumes _⟩

theorem known_cloned (hs : s.Known) {task : Task} {event : CloneEvent} {nr : Word}
    (htask : s.kernel.tasks.lookup pid = some task)
    (hallowed : Kernel.stopPermitted cfg task ptrace (.cloned event nr) = true)
    (hturned : Tracer.Turned cfg os ptrace pid s.tracer s'.tracer (.cloned event nr))
    (hkernel : s'.kernel = s'.tracer.resumes.foldl Kernel.resume
      (s.kernel.noticed cfg pid ptrace (.cloned event nr))) : s'.Known := by
  obtain ⟨hrequest, _, child, hchild, hmsg⟩ := Kernel.clone_permitted hallowed
  have hpid := Optrace.Known.known hs pid task htask (Or.inr hrequest)
  have hset : Optrace.Known s.tracer.syscallStateMap
      (s.kernel.setTask pid (task.noticed cfg ptrace (.cloned event nr))) :=
    Optrace.Known.setTask hs htask rfl rfl rfl (Or.inr rfl)
  unfold Known
  rcases step_cloned htask hpid hchild hmsg hturned hkernel with
    ⟨_, _, hstates, hresumes⟩ | ⟨_, _, hstates, hresumes⟩
  · rw [hstates]
    apply hset.resumes hresumes
    rintro tid _ ⟨rfl, _⟩
    exact Or.inl hpid
  · rw [hstates]
    have hsub : ∀ tid ∈ s.tracer.syscallStateMap,
        tid ∈ s.tracer.syscallStateMap.insert child SYSCALL_UNDEFINED :=
      fun tid hin => Finmap.mem_insert.mpr (Or.inr hin)
    refine ((hset.mono hsub).announce (Finmap.mem_insert.mpr (Or.inl rfl)) ?_).resumes hresumes ?_
    · -- its creator has reported the event, and nobody else made it
      intro tid t ht hc
      rw [Kernel.setTask_lookup] at ht
      split at ht
      · cases ht
        cases hc
      · rename_i hne
        exact hne (Optrace.Known.creator hs tid t pid task child ht htask hc hchild)
    · rintro tid _ ⟨rfl | rfl, _⟩
      · exact Or.inl (Finmap.mem_insert.mpr (Or.inl rfl))
      · exact Or.inl (hsub _ hpid)

theorem known_execed (hs : s.Known) {former : Pid} {nr : Word}
    (hallowed : s.kernel.execPermitted cfg pid former nr ptrace = true)
    (hturned : Tracer.Turned cfg os ptrace pid s.tracer s'.tracer (.execed former nr))
    (hkernel : s'.kernel = s'.tracer.resumes.foldl Kernel.resume
      (s.kernel.noticed cfg pid ptrace (.execed former nr))) : s'.Known := by
  obtain ⟨thread, hthread, hgroup, hrequest, _, hnewborn, _, _, honly⟩ :=
    Kernel.exec_permitted hallowed
  have hformer := Optrace.Known.known hs former thread hthread (Or.inr hrequest)
  have hpid := Optrace.Known.group_mem hs hthread hformer
  rw [hgroup] at hpid
  have hexec := Optrace.Known.execed hs nr ptrace.eventMsg.isGone hthread hgroup hnewborn honly
  obtain ⟨leader, hleader, _⟩ := Optrace.Known.led hs former thread hthread
  rw [hgroup] at hleader
  unfold Known
  rw [hkernel, noticed_execed hleader]
  rcases hturned.of_execed hpid with ⟨_, hafter⟩ | ⟨_, c, _, _, hafter⟩
  · rw [hafter.states]
    have hkept : ∀ tid ∈ (if former = pid then s.tracer.syscallStateMap
        else s.tracer.syscallStateMap.erase former), tid ∈ s.tracer.syscallStateMap := by
      intro tid hin
      split at hin
      · exact hin
      · exact (Finmap.mem_erase.mp hin).2
    apply (hexec.mono hkept).resumes (hafter.resumes _)
    rintro tid _ ⟨rfl, _⟩
    exact Or.inl hpid
  · rw [hafter.states]
    apply hexec.resumes (hafter.resumes _)
    rintro tid q (⟨rfl, hne⟩ | ⟨rfl, _⟩)
    · obtain ⟨new, _, hlookup⟩ :=
        Kernel.execed_lookup pid hthread nr ptrace.eventMsg.isGone
      exact Or.inr (by rw [hlookup, if_neg hne, if_pos rfl])
    · apply Or.inl
      split
      · exact hpid
      · rename_i hne
        exact Finmap.mem_erase.mpr ⟨fun heq => hne heq.symm, hpid⟩

/-- A notice keeps the invariant, if no tracee dies before the tracer was told of it. -/
theorem known_notice (hs : s.Known) (hpermit : s.Permitted cfg (.notice pid notice os ptrace))
    (hdeath : notice.isDeath = true → ∀ task, s.kernel.tasks.lookup pid = some task →
      task.announced = true)
    (h : s.step cfg (.notice pid notice os ptrace) = .ok s') : s'.Known := by
  obtain ⟨hturned, hkernel⟩ := step_notice hpermit h
  obtain ⟨task, htask, hallowed⟩ := Kernel.permits_iff.mp hpermit
  cases notice with
  | signalStop sig => exact known_plain hs htask hturned hkernel trivial
  | syscallStop => exact known_plain hs htask hturned hkernel trivial
  | exiting => exact known_plain hs htask hturned hkernel trivial
  | secComp => exact known_plain hs htask hturned hkernel trivial
  | exited code => exact known_death hs hpermit htask (hdeath rfl task htask) hturned hkernel rfl
  | killed sig core => exact known_death hs hpermit htask (hdeath rfl task htask) hturned hkernel rfl
  | cloned event nr =>
    simp only [Kernel.permitsTask, Bool.and_eq_true] at hallowed
    exact known_cloned hs htask hallowed.2 hturned hkernel
  | execed former nr => exact known_execed hs hallowed hturned hkernel

end Traced

end Optrace
