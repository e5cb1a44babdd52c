import Optrace.Domains
import Optrace.Lib.Independence

/-!
# The order of the calls

The kernel decides in which order the calls of different processes reach the tracker, and the
hash table of `ProcMap` in which order `PostProcess` takes the processes. Neither shows.
-/

namespace Optrace

set_option autoImplicit false
set_option linter.unusedSectionVars false

open SlotTable Except Context

variable {Q : Type} [MaxOutFilesQueue Q] {arch : Arch} {ι : Type} [DecidableEq ι]
  {group : Pid → ι}

/-- Lists that agree on every class are permutations of each other. -/
theorem perm_of_filters {α κ : Type} [DecidableEq κ] (key : α → κ) {xs ys : List α}
    (h : ∀ k, xs.filter (fun x => key x = k) = ys.filter fun x => key x = k) : xs.Perm ys := by
  classical
  refine List.perm_iff_count.mpr fun x => ?_
  have hx : ∀ zs : List α, (zs.filter fun z => key z = key x).count x = zs.count x :=
    fun zs => List.count_filter (by simp)
  rw [← hx xs, ← hx ys, h (key x)]

namespace Call

/-- The calls are about different groups of processes, and neither makes a process out of
the other's. -/
def Independent (group : Pid → ι) (a b : Call arch) : Prop :=
  group a.subject ≠ group b.subject ∧ group a.subject ≠ group b.source ∧
    group a.source ≠ group b.subject

instance (a b : Call arch) : Decidable (a.Independent group b) :=
  inferInstanceAs (Decidable (_ ∧ _ ∧ _))

end Call

namespace Tracked

variable {s t u s' t' : Tracked Q} {call a b : Call arch} {dom : Pid → Prop}

/-- Every process state is in the group of the pid it was made for. -/
def Grouped (group : Pid → ι) (s : Tracked Q) : Prop :=
  ∀ pid p, s.context.procMap.lookup pid = some p →
    group (s.context.heap.procs p).procInfo.pid = group pid

theorem Grouped.owns (h : s.Grouped group) (P : ι → Prop) : s.Owns fun pid => P (group pid) :=
  fun pid p hp => iff_of_eq (congrArg P (h pid p hp))

theorem Grouped.step (h : s.Grouped group) (hs : s.Inv) (hallowed : s.Allowed call)
    (hjoins : group call.subject = group call.joins) (hstep : s.step call = .ok s') :
    s'.Grouped group := by
  intro pid p hp
  have hown : s'.Owns fun tid => group tid = group pid :=
    (h.owns (· = group pid)).step hs hallowed (by rw [hjoins]) hstep
  exact (hown pid p hp).mpr rfl

theorem Alike.union {P R : ι → Prop} (hs : s.Grouped group) (ht : t.Grouped group)
    (h : Alike (fun pid => P (group pid)) s t) (h' : Alike (fun pid => R (group pid)) s t) :
    Alike (fun pid => P (group pid) ∨ R (group pid)) s t := by
  refine ⟨h.options, fun pid hpid => hpid.elim (h.leaders pid) (h'.leaders pid),
    fun pid hpid => hpid.elim (h.retired pid) (h'.retired pid),
    fun pid hpid => hpid.elim (h.mapped pid) (h'.mapped pid),
    fun pid p q hpid => hpid.elim (h.procs pid p q) (h'.procs pid p q), ?_⟩
  intro pid tid p q hpid htid hp hq
  by_cases heq : group tid = group pid
  · rcases hpid with hpid | hpid
    · exact h.groups pid tid p q hpid (heq.symm ▸ hpid) hp hq
    · exact h'.groups pid tid p q hpid (heq.symm ▸ hpid) hp hq
  · refine iff_of_false (fun hno => heq ?_) fun hno => heq ?_
    · rw [← hs tid p hno, hs pid p hp]
    · rw [← ht tid q hno, ht pid q hq]

/-- Two trackers that agree on all processes and said the same about each group. -/
structure Agree (group : Pid → ι) (s t : Tracked Q) : Prop where
  alike : Alike (fun _ => True) s t
  outputs : ∀ k, outputsOf (fun pid => group pid = k) s = outputsOf (fun pid => group pid = k) t
  kills : ∀ k, killsOf (fun pid => group pid = k) s = killsOf (fun pid => group pid = k) t

namespace Agree

theorem refl (s : Tracked Q) : Agree group s s := ⟨.refl _ s, fun _ => rfl, fun _ => rfl⟩

theorem trans (h : Agree group s t) (h' : Agree group t u) : Agree group s u :=
  ⟨h.alike.trans h'.alike, fun k => (h.outputs k).trans (h'.outputs k),
    fun k => (h.kills k).trans (h'.kills k)⟩

theorem step (h : Agree group s t) (hs : s.Inv) (ht : t.Inv) (hallowed : s.Allowed call)
    (hstep : s.step call = .ok s') :
    t.Allowed call ∧ ∃ t', t.step call = .ok t' ∧ Agree group s' t' := by
  obtain ⟨t', hstep', halike, outs, kills, hemits, hemits'⟩ :=
    h.alike.step hs ht trivial trivial hallowed hstep
  refine ⟨h.alike.allowed trivial trivial hallowed, t', hstep', halike, fun k => ?_, fun k => ?_⟩
  · have hold := h.outputs k
    unfold outputsOf at hold ⊢
    rw [hemits.outputs, hemits'.outputs, List.filter_append, List.filter_append, hold]
  · have hold := h.kills k
    unfold killsOf at hold ⊢
    rw [hemits.kills, hemits'.kills, List.filter_append, List.filter_append, hold]

theorem outputs_perm (h : Agree group s t) : s.context.outputs.Perm t.context.outputs :=
  perm_of_filters (fun o : OutputFile => group o.procInfo.pid) h.outputs

end Agree

/-- The condition of a step: what the kernel guarantees, and threads in the group of their
process. -/
def Fits (group : Pid → ι) (s : Tracked Q) (call : Call arch) : Prop :=
  s.Allowed call ∧ group call.subject = group call.joins

instance (s : Tracked Q) (call : Call arch) : Decidable (s.Fits group call) :=
  inferInstanceAs (Decidable (s.Allowed call ∧ group call.subject = group call.joins))

/-- What a call says is about the group of its subject. -/
theorem Grouped.emits (h : s.Grouped group) (hs : s.Inv) (hallowed : s.Allowed call)
    (hstep : s.step call = .ok s') : ∃ outs kills, Emits s.context s'.context outs kills ∧
      (∀ o ∈ outs, group o.procInfo.pid = group call.subject) ∧
      ∀ kill ∈ kills, group kill.1 = group call.subject := by
  obtain ⟨outs, kills, hemits, houts, hkills⟩ := (hs.framed hallowed hstep).emits
  refine ⟨outs, kills, hemits, fun o ho => ?_, fun kill hkill => by rw [hkills kill hkill]⟩
  obtain ⟨p, hp, hinfo⟩ := houts o ho
  rw [hinfo, h _ p hp]

/-- A call about one group leaves the trackers alike on any other. -/
theorem Grouped.foreign_step (h : s.Grouped group) (hs : s.Inv) (hallowed : s.Allowed call)
    (P : ι → Prop) (hout : ¬ P (group call.subject)) (hstep : s.step call = .ok s') :
    Alike (fun pid => P (group pid)) s s' := by
  classical
  exact ((h.owns P).foreign_step hs hallowed hout hstep).1

/-- Reports of two groups may be made in either order. -/
theorem filter_append_comm {α : Type} {key : α → ι} {xs ys : List α} {k l : ι} (hne : k ≠ l)
    (hxs : ∀ x ∈ xs, key x = k) (hys : ∀ y ∈ ys, key y = l) (m : ι) :
    (xs ++ ys).filter (fun z => key z = m) = (ys ++ xs).filter fun z => key z = m := by
  rw [List.filter_append, List.filter_append]
  by_cases hm : k = m
  · have hnil : ys.filter (fun z => key z = m) = [] :=
      List.filter_eq_nil_iff.mpr fun y hy => by
        rw [decide_eq_true_iff, hys y hy, ← hm]
        exact hne.symm
    rw [hnil, List.append_nil, List.nil_append]
  · have hnil : xs.filter (fun z => key z = m) = [] :=
      List.filter_eq_nil_iff.mpr fun x hx => by
        rw [decide_eq_true_iff, hxs x hx]
        exact hm
    rw [hnil, List.append_nil, List.nil_append]

/-- Two independent calls, in both orders. -/
theorem Grouped.diamond {s₁ s₂ : Tracked Q} (h : s.Grouped group) (hs : s.Inv)
    (hindep : a.Independent group b) (ha : s.Fits group a) (hs₁ : s.step a = .ok s₁)
    (hb : s₁.Fits group b) (hs₂ : s₁.step b = .ok s₂) :
    s.Fits group b ∧ ∃ t₁, s.step b = .ok t₁ ∧ t₁.Fits group a ∧ ∃ t₂, t₁.step a = .ok t₂ ∧
      Agree group s₂ t₂ := by
  obtain ⟨hne, hsource, hsource'⟩ := hindep
  have hinv₁ := inv_step s a s₁ hs ha.1 hs₁
  have hgrouped₁ := h.step hs ha.1 ha.2 hs₁
  -- `b` does not see that `a` was made
  let B : ι → Prop := fun k => k = group b.subject ∨ k = group b.source
  have hseenB : Alike (fun pid => B (group pid)) s₁ s :=
    (h.foreign_step hs ha.1 B (not_or.mpr ⟨hne, hsource⟩) hs₁).symm
  have hallowed : s.Allowed b := hseenB.allowed (Or.inl rfl) (Or.inr rfl) hb.1
  obtain ⟨t₁, ht₁, halikeB, outsB, killsB, hemitsB, hemitsB'⟩ :=
    hseenB.step hinv₁ hs (Or.inl rfl) (Or.inr rfl) hb.1 hs₂
  have hinvt := inv_step s b t₁ hs hallowed ht₁
  have hgroupedt := h.step hs hallowed hb.2 ht₁
  -- `a` does not see that `b` was
  let A : ι → Prop := fun k => k = group a.subject ∨ k = group a.source
  have hseenA : Alike (fun pid => A (group pid)) s t₁ :=
    h.foreign_step hs hallowed A (not_or.mpr ⟨hne.symm, hsource'.symm⟩) ht₁
  have hallowed' : t₁.Allowed a := hseenA.allowed (Or.inl rfl) (Or.inr rfl) ha.1
  obtain ⟨t₂, ht₂, halikeA, outsA, killsA, hemitsA, hemitsA'⟩ :=
    hseenA.step hs hinvt (Or.inl rfl) (Or.inr rfl) ha.1 hs₁
  have hgrouped₂ := hgrouped₁.step hinv₁ hb.1 hb.2 hs₂
  have hgroupedt₂ := hgroupedt.step hinvt hallowed' ha.2 ht₂
  refine ⟨⟨hallowed, hb.2⟩, t₁, ht₁, ⟨hallowed', ha.2⟩, t₂, ht₂, ?_, ?_, ?_⟩
  · -- the groups of `a` and `b`, and all others
    have hA : Alike (fun pid => group pid = group a.subject) s₂ t₂ := by
      have hlast := hgrouped₁.foreign_step hinv₁ hb.1 (· = group a.subject) hne.symm hs₂
      exact hlast.symm.trans (halikeA.mono fun _ => Or.inl)
    have hB : Alike (fun pid => group pid = group b.subject) s₂ t₂ := by
      have hlast := hgroupedt.foreign_step hinvt hallowed' (· = group b.subject) hne ht₂
      exact (halikeB.mono fun _ => Or.inl).trans hlast
    let C : ι → Prop := fun k => k ≠ group a.subject ∧ k ≠ group b.subject
    have hC : Alike (fun pid => C (group pid)) s₂ t₂ := by
      have h₁ := h.foreign_step hs ha.1 C (fun hno => hno.1 rfl) hs₁
      have h₂ := hgrouped₁.foreign_step hinv₁ hb.1 C (fun hno => hno.2 rfl) hs₂
      have h₃ := h.foreign_step hs hallowed C (fun hno => hno.2 rfl) ht₁
      have h₄ := hgroupedt.foreign_step hinvt hallowed' C (fun hno => hno.1 rfl) ht₂
      exact (h₁.trans h₂).symm.trans (h₃.trans h₄)
    have hAB : Alike (fun pid => group pid = group a.subject ∨ group pid = group b.subject) s₂ t₂ :=
      hA.union (P := (· = group a.subject)) (R := (· = group b.subject)) hgrouped₂ hgroupedt₂ hB
    have hABC := Alike.union (P := fun k => k = group a.subject ∨ k = group b.subject) (R := C)
      hgrouped₂ hgroupedt₂ hAB hC
    refine hABC.mono fun pid _ => ?_
    by_cases hpa : group pid = group a.subject
    · exact Or.inl (Or.inl hpa)
    · by_cases hpb : group pid = group b.subject
      · exact Or.inl (Or.inr hpb)
      · exact Or.inr ⟨hpa, hpb⟩
  all_goals
    obtain ⟨outs, kills, hemits, houts, hkills⟩ := h.emits hs ha.1 hs₁
    obtain ⟨rfl, rfl⟩ := hemits.unique hemitsA
    obtain ⟨outs', kills', hemits', houts', hkills'⟩ := h.emits hs hallowed ht₁
    obtain ⟨rfl, rfl⟩ := hemits'.unique hemitsB'
    intro k
  · unfold outputsOf
    rw [hemitsB.outputs, hemitsA.outputs, hemitsA'.outputs, hemitsB'.outputs, List.append_assoc,
      List.append_assoc, List.filter_append, filter_append_comm hne houts houts' k,
      ← List.filter_append]
  · unfold killsOf
    rw [hemitsB.kills, hemitsA.kills, hemitsA'.kills, hemitsB'.kills, List.append_assoc,
      List.append_assoc, List.filter_append, filter_append_comm hne hkills hkills' k,
      ← List.filter_append]

/-- The calls of a trace, and which of them are independent. -/
def independence (Q : Type) [MaxOutFilesQueue Q] (arch : Arch) (group : Pid → ι) :
    Runs.Independence (step : Tracked Q → Call arch → Except Abort (Tracked Q)) where
  inv s := s.Inv ∧ s.Grouped group
  cond s call := s.Fits group call
  alike := Agree group
  independent a b := a.Independent group b
  refl := .refl
  trans := .trans
  inv_step hs hcond hstep :=
    ⟨Tracked.inv_step _ _ _ hs.1 hcond.1 hstep, hs.2.step hs.1 hcond.1 hcond.2 hstep⟩
  congr hs ht halike hcond hstep :=
    let ⟨hallowed, hrun⟩ := halike.step hs.1 ht.1 hcond.1 hstep
    ⟨⟨hallowed, hcond.2⟩, hrun⟩
  diamond hs hindep ha hs₁ hb hs₂ := hs.2.diamond hs.1 hindep ha hs₁ hb hs₂

end Tracked

/-! ## The end of a trace -/

namespace Context

variable {c d c' d' : Context Q} {p : Nat} {pid : Pid} {rep : Report}

/-- A report about a file state that a process holds, in the name of that process. -/
def Due (c : Context Q) (rep : Report) : Prop :=
  ∃ p fd r, slot (c.heap.fds p) fd = some r ∧
    rep = ⟨some r, OutputFile.ofState (c.heap.files r) (c.heap.procs p).procInfo⟩

theorem Due.of_old (h : c'.Due rep) (hfiles : c'.heap.files = c.heap.files)
    (hinfo : ∀ q, (c'.heap.procs q).procInfo = (c.heap.procs q).procInfo)
    (hslots : ∀ q fd r, slot (c'.heap.fds q) fd = some r → slot (c.heap.fds q) fd = some r) :
    c.Due rep := by
  obtain ⟨p, fd, r, hslot, rfl⟩ := h
  exact ⟨p, fd, r, hslots p fd r hslot, by rw [hfiles, hinfo]⟩

theorem tearDownFrom_due (fd n : Nat) (h : tearDownFrom p fd n c = .ok c') :
    ∃ news, c'.reports = c.reports ++ news ∧ ∀ rep ∈ news, c.Due rep := by
  induction n generalizing fd c with
  | zero =>
    cases h
    exact ⟨[], by simp, by simp⟩
  | succ n ih =>
    simp only [tearDownFrom] at h
    cases hslot : slot (c.heap.fds p) fd with
    | none =>
      rw [hslot] at h
      exact ih (fd + 1) h
    | some r =>
      simp only [hslot, tearDownFd_eq hslot, bind_ok] at h
      obtain ⟨news, hreports, hdue⟩ := ih (fd + 1) h
      refine ⟨_, by rw [hreports, clearSlot_reports, List.append_assoc], fun rep hrep => ?_⟩
      rcases List.mem_append.mp hrep with hrep | hrep
      · split at hrep
        · rw [List.mem_singleton.mp hrep]
          exact ⟨p, fd, r, hslot, rfl⟩
        · cases hrep
      · refine (hdue rep hrep).of_old rfl (c.clearSlot_sameRegistry p fd r).procInfo ?_
        intro q i s hs
        rw [clearSlot_slot hslot] at hs
        split at hs
        · cases hs
        · exact hs

theorem vanishProcess_due (hp : c.procMap.lookup pid = some p) (h : c.vanishProcess pid = .ok c') :
    ∃ news, c'.reports = c.reports ++ news ∧ ∀ rep ∈ news, c.Due rep := by
  obtain ⟨c₁, hrun, -, rfl⟩ := vanishProcess_eq hp h
  have hdrop : (c₁.dropPid pid p).reports = c₁.reports := (releaseProc_reports _ p).1
  rw [hdrop]
  split at hrun
  · exact tearDownFrom_due _ _ hrun
  · cases hrun
    exact ⟨[], by simp, by simp⟩

end Context

namespace Tracked

variable {s t s' t' : Tracked Q}

/-- The calls of `PostProcess`. -/
def vanishes (arch : Arch) (pids : List Pid) : List (Call arch) := pids.map .vanishProcess

/-- What a run of `VanishProcess` reports was due at its start. -/
theorem Inv.vanished_due (hs : s.Inv) {pids : List Pid}
    (hrun : Runs.run step s (vanishes arch pids) = .ok s') :
    s'.Inv ∧ s'.context.options = s.context.options ∧
      s'.context.heap.files = s.context.heap.files ∧
      s'.context.heap.fileCount = s.context.heap.fileCount ∧
      ∃ news, s'.context.reports = s.context.reports ++ news ∧ ∀ rep ∈ news, s.context.Due rep := by
  induction pids generalizing s with
  | nil =>
    cases hrun
    exact ⟨hs, rfl, rfl, rfl, [], by simp, by simp⟩
  | cons pid pids ih =>
    obtain ⟨s₁, hs₁, hrun⟩ := Runs.run_cons_ok_iff.mp hrun
    have hcall : s.context.vanishProcess pid = .ok s₁.context := (step_ok_iff.mp hs₁).1
    obtain ⟨p, hp⟩ := vanishProcess_mapped hcall
    obtain ⟨c₁, hvanish, hv, -⟩ := @Owned.vanish Q _ arch _ _ hs _ _ hp
    rw [hcall] at hvanish
    cases hvanish
    have hinv₁ : s₁.Inv := inv_step s (.vanishProcess pid : Call arch) s₁ hs trivial hs₁
    obtain ⟨hinv, hoptions, hfiles, hcount, news, hreports, hdue⟩ := ih hinv₁ hrun
    obtain ⟨first, hfirst, hdue₁⟩ := vanishProcess_due hp hcall
    refine ⟨hinv, hoptions.trans hv.options, hfiles.trans hv.files, hcount.trans hv.fileCount,
      first ++ news, by rw [hreports, hfirst, List.append_assoc], fun rep hrep => ?_⟩
    rcases List.mem_append.mp hrep with hrep | hrep
    · exact hdue₁ rep hrep
    · exact (hdue rep hrep).of_old hv.files hv.procInfo fun q fd r hslot => hv.slot_old hslot

/-- Once no process is left, each file state that was due has been reported, whatever the
order. -/
theorem Inv.vanished_perm (hs : s.Inv) {pids pids' : List Pid}
    (hrun : Runs.run step s (vanishes arch pids) = .ok s')
    (hrun' : Runs.run step s (vanishes arch pids') = .ok t')
    (hdone : s'.context.procMap = ∅) (hdone' : t'.context.procMap = ∅) :
    s'.context.reports.Perm t'.context.reports := by
  -- the reports about one file state are settled: it is due once, in one name
  have hsettled : ∀ {u : Tracked Q} {news : List Report}, u.Inv → u.context.procMap = ∅ →
      u.context.heap.fileCount = s.context.heap.fileCount →
      u.context.reports = s.context.reports ++ news → (∀ rep ∈ news, s.context.Due rep) →
      ∀ p fd r, slot (s.context.heap.fds p) fd = some r →
        news.filter (fun rep => rep.file = some r) =
          [⟨some r, OutputFile.ofState (s.context.heap.files r)
            (s.context.heap.procs p).procInfo⟩] := by
    intro u news hu hdone hcount hreports hdue p fd r hslot
    have hr := hs.tidy.bound p fd r hslot
    have hbefore := hs.tidy.reported r hr
    have hafter := hu.tidy.reported r (hcount.symm ▸ hr)
    have huse : s.context.heap.useCount r ≠ 0 :=
      Nat.pos_iff_ne_zero.mp ((s.context.heap.useCount_pos_iff r).mpr
        ⟨p, hs.tidy.alloc p fd r hslot, fd, hslot⟩)
    rw [if_neg huse] at hbefore
    rw [if_pos (hu.useCount_zero hdone r)] at hafter
    unfold timesReported at hbefore hafter
    rw [hreports, List.countP_append, hbefore, Nat.zero_add, List.countP_eq_length_filter,
      List.length_eq_one_iff] at hafter
    obtain ⟨rep, hrep⟩ := hafter
    have hsame : (fun rep : Report => decide (rep.file = some r)) = fun rep => rep.file == some r :=
      funext fun rep => (Bool.beq_eq_decide_eq _ _).symm
    have hmem : rep ∈ news.filter fun rep => rep.file == some r := by
      rw [hrep]
      exact List.mem_singleton_self rep
    obtain ⟨hin, hfile⟩ := List.mem_filter.mp hmem
    obtain ⟨q, i, r', hslot', rfl⟩ := hdue rep hin
    have hrr : r' = r := Option.some.inj (beq_iff_eq.mp hfile)
    subst hrr
    rw [hsame, hrep, hs.tidy.single q p i fd r' hslot' hslot]
  obtain ⟨hinv, -, -, hcount, news, hreports, hdue⟩ := hs.vanished_due hrun
  obtain ⟨hinv', -, -, hcount', news', hreports', hdue'⟩ := hs.vanished_due hrun'
  rw [hreports, hreports']
  refine List.Perm.append_left _ (perm_of_filters Report.file fun k => ?_)
  by_cases hheld : ∃ p fd r, slot (s.context.heap.fds p) fd = some r ∧ k = some r
  · obtain ⟨p, fd, r, hslot, rfl⟩ := hheld
    rw [hsettled hinv hdone hcount hreports hdue p fd r hslot,
      hsettled hinv' hdone' hcount' hreports' hdue' p fd r hslot]
  · have hnil : ∀ news : List Report, (∀ rep ∈ news, s.context.Due rep) →
        news.filter (fun rep => rep.file = k) = [] := by
      intro news hdue
      refine List.filter_eq_nil_iff.mpr fun rep hrep heq => hheld ?_
      obtain ⟨p, fd, r, hslot, rfl⟩ := hdue rep hrep
      exact ⟨p, fd, r, hslot, (decide_eq_true_iff.mp heq).symm⟩
    rw [hnil news hdue, hnil news' hdue']

/-- The loop of `PostProcess` is a run of calls. -/
theorem vanishAll_run {order : HashOrder} {n : Nat} {c' : Context Q}
    (h : s.context.vanishAll order n = some (.ok c')) :
    ∃ pids retired, Runs.run step s (vanishes arch pids) = .ok ⟨c', retired⟩ := by
  induction n generalizing s with
  | zero =>
    unfold vanishAll at h
    split at h
    · cases h
      exact ⟨[], s.retired, rfl⟩
    · cases h
  | succ n ih =>
    unfold vanishAll at h
    split at h
    · cases h
      exact ⟨[], s.retired, rfl⟩
    · cases hvanish : s.context.vanishProcess (order.first n s.context.procMap) with
      | error e =>
        rw [hvanish] at h
        cases h
      | ok c₁ =>
        rw [hvanish] at h
        let first : Call arch := .vanishProcess (order.first n s.context.procMap)
        have hstep : s.step first = .ok ⟨c₁, first.retire s.context s.retired⟩ :=
          step_ok_iff.mpr ⟨hvanish, rfl⟩
        obtain ⟨pids, retired, hrun⟩ := ih (s := ⟨c₁, first.retire s.context s.retired⟩) h
        exact ⟨_ :: pids, retired, Runs.run_cons_ok_iff.mpr ⟨_, hstep, hrun⟩⟩

theorem Grouped.start {opts : Options} {os : Os} {tracee : Pid} {c₀ : Context Q}
    (hstart : (Context.new opts : Context Q).registerTracee os tracee = .ok c₀) :
    Grouped group (⟨c₀, ∅⟩ : Tracked Q) := fun pid p hp =>
  have hown : (⟨c₀, ∅⟩ : Tracked Q).Owns fun tid => group tid = group pid := Owns.start hstart
  (hown pid p hp).mpr rfl

/-- Independent calls may reach the tracker in either order: in the end it knows the same about
every process, and has said the same about each group, in the same order. -/
theorem swapped_schedule {opts : Options} {os : Os} {tracee : Pid} {c₀ : Context Q}
    {calls calls' : List (Call arch)}
    (hstart : (Context.new opts : Context Q).registerTracee os tracee = .ok c₀)
    (hfits : Runs.Along step (Fits group) ⟨c₀, ∅⟩ calls)
    (hswaps : Runs.Swaps (Call.Independent group) calls calls')
    (hrun : Runs.run step ⟨c₀, ∅⟩ calls = .ok s) :
    Runs.Along step (Fits group) ⟨c₀, ∅⟩ calls' ∧
      ∃ t, Runs.run step ⟨c₀, ∅⟩ calls' = .ok t ∧ Agree group s t := by
  exact (independence Q arch group).run_swaps ⟨Inv.start hstart, Grouped.start hstart⟩ hswaps hfits
    hrun

theorem Agree.vanishes (h : Agree group s t) (hs : s.Inv) (ht : t.Inv) {pids : List Pid}
    (hrun : Runs.run Tracked.step s (vanishes arch pids) = .ok s') :
    ∃ t', Runs.run Tracked.step t (vanishes arch pids) = .ok t' ∧ Agree group s' t' := by
  induction pids generalizing s t with
  | nil =>
    cases hrun
    exact ⟨t, rfl, h⟩
  | cons pid pids ih =>
    obtain ⟨s₁, hs₁, hrun⟩ := Runs.run_cons_ok_iff.mp hrun
    have hallowed : ∀ u : Tracked Q, u.Allowed (.vanishProcess pid : Call arch) := fun _ => trivial
    obtain ⟨-, t₁, ht₁, h₁⟩ := h.step hs ht (hallowed s) hs₁
    obtain ⟨t', hrun', h'⟩ := ih h₁ (inv_step _ _ _ hs (hallowed s) hs₁)
      (inv_step _ _ _ ht (hallowed t) ht₁) hrun
    exact ⟨t', Runs.run_cons_ok_iff.mpr ⟨t₁, ht₁, hrun'⟩, h'⟩

/-- The tracee opens a file and forks, the child closes its copy and the tracee writes. -/
def closeBeforeWrite : List (Call .x86_64) :=
  [exitOf 0 1 2 3 0 1 0 0, .registerProcess (plainOs 0) 1 2, exitOf 0 2 3 0 3 0 0 0,
    exitOf 0 1 1 10 3 0 10 0]

/-- The same with the write first. -/
def writeBeforeClose : List (Call .x86_64) :=
  [exitOf 0 1 2 3 0 1 0 0, .registerProcess (plainOs 0) 1 2, exitOf 0 1 1 10 3 0 10 0,
    exitOf 0 2 3 0 3 0 0 0]

theorem closeBeforeWrite_swaps :
    Runs.Swaps (Call.Independent id) closeBeforeWrite writeBeforeClose :=
  .single (.mk [exitOf 0 1 2 3 0 1 0 0, .registerProcess (plainOs 0) 1 2] [] _ _ (by decide))

open FileStorage in
theorem closeBeforeWrite_fits :
    Runs.Along step (Fits id) (⟨plainStart, ∅⟩ : Tracked FileQueue) closeBeforeWrite := by decide

open FileStorage in
theorem swapped_schedule_fork :
    ∃ s t : Tracked FileQueue,
      (Context.new plainOptions).registerTracee (plainOs 0) 1 = .ok plainStart ∧
      Runs.run step ⟨plainStart, ∅⟩ closeBeforeWrite = .ok s ∧
      Runs.run step ⟨plainStart, ∅⟩ writeBeforeClose = .ok t ∧ Agree id s t ∧
      s.context.outputs.length = 1 := by
  refine ⟨_, _, rfl, rfl, rfl, ?_, rfl⟩
  obtain ⟨-, t, hrun, hagree⟩ := @swapped_schedule FileQueue _ .x86_64 Pid _ id _ plainOptions
    (plainOs 0) 1 _ _ _ rfl closeBeforeWrite_fits closeBeforeWrite_swaps rfl
  cases hrun
  exact hagree

open FileStorage in
/-- The end of `PostProcess`, from trackers that agree and with the processes taken in any
order. -/
theorem Agree.vanishAll (h : Agree group s t) (hs : s.Inv) (ht : t.Inv) (order order' : HashOrder) :
    ∃ n c n' c', s.context.vanishAll order n = some (.ok c) ∧
      t.context.vanishAll order' n' = some (.ok c') ∧ c.procMap = ∅ ∧ c'.procMap = ∅ ∧
      c.outputs.Perm c'.outputs ∧ c.fileStorage.getOutputSize = c'.fileStorage.getOutputSize ∧
      c.fileStorage.getLargestFiles.map (Option.map byteCount) =
        c'.fileStorage.getLargestFiles.map (Option.map byteCount) := by
  obtain ⟨c, retired, hloop, howned, hdone, -, hoptions⟩ := Owned.vanishAll hs order _ le_rfl
  obtain ⟨c', retired', hloop', howned', hdone', -, hoptions'⟩ := Owned.vanishAll ht order' _ le_rfl
  obtain ⟨pids, gone, hrun⟩ := @vanishAll_run Q _ .x86_64 _ _ _ _ hloop
  obtain ⟨pids', gone', hrun'⟩ := @vanishAll_run Q _ .x86_64 _ _ _ _ hloop'
  -- the second tracker could take the processes in the first one's order
  obtain ⟨t₁, hrun₁, h₁⟩ := h.vanishes hs ht hrun
  have hdone₁ : t₁.context.procMap = ∅ := by
    refine Finmap.ext_lookup fun pid => ?_
    rw [Finmap.lookup_empty, ← h₁.alike.mapped pid trivial, hdone, Finmap.lookup_empty]
  have hperm : c.outputs.Perm c'.outputs :=
    h₁.outputs_perm.trans ((ht.vanished_perm hrun₁ hrun' hdone₁ hdone').map Report.output)
  have hoptions₀ : c.options = c'.options := by rw [hoptions, hoptions', h.alike.options]
  have hstored := howned.tidy.stored
  have hstored' := howned'.tidy.stored
  rw [hoptions₀] at hstored
  have hlisted := listed_perm (Q := Q) c'.options.filesInReport c'.options.storeEmptyFiles hperm
  refine ⟨_, c, _, c', hloop, hloop', hdone, hdone', hperm, ?_, ?_⟩
  · rw [hstored, hstored']
    exact hlisted.1
  · rw [hstored, hstored']
    exact hlisted.2

open FileStorage in
/-- The report does not depend on the order in which the calls of different processes arrived,
nor on the order of the hash table: the same files, the same total, and the same sizes. -/
theorem report_of_any_schedule {opts : Options} {os : Os} {tracee : Pid} {c₀ : Context Q}
    {calls calls' : List (Call arch)} (order order' : HashOrder)
    (hstart : (Context.new opts : Context Q).registerTracee os tracee = .ok c₀)
    (hfits : Runs.Along step (Fits group) ⟨c₀, ∅⟩ calls)
    (hswaps : Runs.Swaps (Call.Independent group) calls calls')
    (hrun : Runs.run step ⟨c₀, ∅⟩ calls = .ok s) :
    ∃ t n c n' c', Runs.run step ⟨c₀, ∅⟩ calls' = .ok t ∧
      s.context.vanishAll order n = some (.ok c) ∧
      t.context.vanishAll order' n' = some (.ok c') ∧ c.procMap = ∅ ∧ c'.procMap = ∅ ∧
      c.outputs.Perm c'.outputs ∧ c.fileStorage.getOutputSize = c'.fileStorage.getOutputSize ∧
      c.fileStorage.getLargestFiles.map (Option.map byteCount) =
        c'.fileStorage.getLargestFiles.map (Option.map byteCount) := by
  have hgrouped : Grouped group (⟨c₀, ∅⟩ : Tracked Q) := Grouped.start hstart
  have hinv : Inv (⟨c₀, ∅⟩ : Tracked Q) := Inv.start hstart
  obtain ⟨hfits', t, hrun', hagree⟩ :=
    (independence Q arch group).run_swaps ⟨hinv, hgrouped⟩ hswaps hfits hrun
  have hs := (independence Q arch group).inv_run ⟨hinv, hgrouped⟩ hfits hrun
  have ht := (independence Q arch group).inv_run ⟨hinv, hgrouped⟩ hfits' hrun'
  obtain ⟨n, c, n', c', hrest⟩ := hagree.vanishAll hs.1 ht.1 order order'
  exact ⟨t, n, c, n', c', hrun', hrest⟩

open FileStorage in
theorem report_of_any_schedule_fork :
    ∃ (s t : Tracked FileQueue) (n : Nat) (c : Context FileQueue) (n' : Nat)
      (c' : Context FileQueue),
      Runs.run step ⟨plainStart, ∅⟩ closeBeforeWrite = .ok s ∧
      Runs.run step ⟨plainStart, ∅⟩ writeBeforeClose = .ok t ∧
      s.context.vanishAll .smallest n = some (.ok c) ∧
      t.context.vanishAll .smallest n' = some (.ok c') ∧
      c.outputs.Perm c'.outputs ∧ c.fileStorage.getOutputSize = c'.fileStorage.getOutputSize := by
  obtain ⟨t, n, c, n', c', hrun, hloop, hloop', -, -, hperm, hsize, -⟩ :=
    @report_of_any_schedule FileQueue _ .x86_64 Pid _ id _ plainOptions (plainOs 0) 1 _ _ _
      .smallest .smallest rfl closeBeforeWrite_fits closeBeforeWrite_swaps rfl
  exact ⟨_, t, n, c, n', c', rfl, hrun, hloop, hloop', hperm, hsize⟩

end Tracked

end Optrace
