import Optrace.OneDescriptor

/-!
# Shared file states

A duplicate shares the file state of its source. The copy loops of a fork and of an exec copy slot by
slot, so that what two slots shared is two file states in the copy.
-/

namespace Optrace

set_option autoImplicit false
set_option linter.unusedSectionVars false

open SlotTable Except Context

variable {Q : Type} [MaxOutFilesQueue Q] {arch : Arch}

namespace Context

/-- The descriptor is tracked, and not dropped by the copy. -/
def Kept (cloexecFree : Bool) (c : Context Q) (p fd r : Nat) : Prop :=
  slot (c.heap.fds p) fd = some r ∧ Heap.keeps cloexecFree (c.heap.files r) = true

/-- The new table is the old one with other names for the file states: descriptors share one as they
did, a write or a seek is seen by the same ones, and each open file still has one to report. -/
structure AliasesKept (cloexecFree : Bool) (c c' : Context Q) (p p' : Nat) : Prop where
  shared : ∀ fd fd' r r', c.Kept cloexecFree p fd r → c.Kept cloexecFree p fd' r' →
    (slot (c'.heap.fds p') fd = slot (c'.heap.fds p') fd' ↔ r = r')
  seen : ∀ (fd fd' : Word) r, c.Kept cloexecFree p fd.toNat r → c.Kept cloexecFree p fd'.toNat r →
    ∀ f, (c'.onTracked p' fd f).fileAt p' fd' = (c'.fileAt p' fd').map f
  once : ∃ g, Set.BijOn g {r | ∃ fd, c.Kept cloexecFree p fd r}
      {s | ∃ fd, slot (c'.heap.fds p') fd = some s} ∧
    ∀ fd r, c.Kept cloexecFree p fd r → slot (c'.heap.fds p') fd = some (g r)

/-- No two descriptors that are copied share a file state. -/
def NoDuplicates (cloexecFree : Bool) (c : Context Q) (p : Nat) : Prop :=
  ∀ fd fd' r, c.Kept cloexecFree p fd r → c.Kept cloexecFree p fd' r → fd = fd'

section

variable {os : Os} {cloexecFree : Bool} {c c' : Context Q} {p p' next : Nat}
  {newfds : SlotTable Nat} {states : List FileState}

theorem copied_slot_eq (hcopied : c.heap.Copied os cloexecFree (c.heap.fds p) next newfds states)
    {fd fd' s : Nat} (hfd : slot newfds fd = some s) (hfd' : slot newfds fd' = some s) :
    fd = fd' := by
  obtain ⟨hle, hlt⟩ := hcopied.bound c.heap hfd
  have hone := hcopied.once (s - next) (by omega)
  rw [show next + (s - next) = s by omega] at hone
  exact slot_eq_of_refs_one hone hfd hfd'

theorem aliasesKept_iff (hcopied : c.heap.Copied os cloexecFree (c.heap.fds p) next newfds states)
    (hnew : ∀ fd, slot (c'.heap.fds p') fd = slot newfds fd) :
    AliasesKept cloexecFree c c' p p' ↔ NoDuplicates cloexecFree c p := by
  have hkept : ∀ fd r, c.Kept cloexecFree p fd r → ∃ s, slot (c'.heap.fds p') fd = some s := by
    intro fd r hr
    rw [hnew]
    exact hcopied.kept fd r hr.1 hr.2
  have hinj : ∀ {fd fd' s}, slot (c'.heap.fds p') fd = some s →
      slot (c'.heap.fds p') fd' = some s → fd = fd' := by
    intro fd fd' s hfd hfd'
    rw [hnew] at hfd hfd'
    exact copied_slot_eq hcopied hfd hfd'
  constructor
  · intro h fd fd' r hfd hfd'
    obtain ⟨s, hs⟩ := hkept fd r hfd
    have hsame := (h.shared fd fd' r r hfd hfd').mpr rfl
    exact hinj hs (hsame ▸ hs)
  · intro hsingle
    refine ⟨?_, ?_, ?_⟩
    · intro fd fd' r r' hr hr'
      constructor
      · intro hsame
        obtain ⟨s, hs⟩ := hkept fd r hr
        obtain rfl := hinj hs (hsame ▸ hs)
        exact Option.some.inj (hr.1.symm.trans hr'.1)
      · rintro rfl
        rw [hsingle fd fd' r hr hr']
    · intro fd fd' r hr hr' f
      have hfd : fd = fd' := BitVec.eq_of_toNat_eq (hsingle _ _ r hr hr')
      subst hfd
      obtain ⟨s, hs⟩ := hkept fd.toNat r hr
      have hupdate : c'.onTracked p' fd f = c'.updateFile s f := by
        simp only [onTracked, hs]
        rfl
      rw [hupdate, fileAt_updateFile f hs, fileAt, hs]
      rfl
    · have hname : ∀ r, ∃ s, ∀ fd, c.Kept cloexecFree p fd r → slot (c'.heap.fds p') fd = some s := by
        intro r
        by_cases hr : ∃ fd, c.Kept cloexecFree p fd r
        · obtain ⟨fd, hr⟩ := hr
          obtain ⟨s, hs⟩ := hkept fd r hr
          refine ⟨s, fun fd' hr' => ?_⟩
          rwa [hsingle fd' fd r hr' hr]
        · exact ⟨0, fun fd hfd => absurd ⟨fd, hfd⟩ hr⟩
      choose g hg using hname
      refine ⟨g, ⟨?_, ?_, ?_⟩, fun fd r hr => hg r fd hr⟩
      · rintro r ⟨fd, hr⟩
        exact ⟨fd, hg r fd hr⟩
      · rintro r ⟨fd, hr⟩ r' ⟨fd', hr'⟩ hsame
        have hfd' := hg r' fd' hr'
        rw [← hsame] at hfd'
        obtain rfl := hinj (hg r fd hr) hfd'
        exact Option.some.inj (hr.1.symm.trans hr'.1)
      · rintro s ⟨fd, hs⟩
        have hs' := hs
        rw [hnew] at hs'
        obtain ⟨r, hslot, hkeep, -⟩ := hcopied.source fd s hs'
        refine ⟨r, ⟨fd, hslot, hkeep⟩, ?_⟩
        exact Option.some.inj ((hg r fd ⟨hslot, hkeep⟩).symm.trans hs)

end

end Context

namespace Tracked

/-- In every state of a trace, a fork keeps the parent's aliases if and only if it has none, and an
exec those of the descriptors it does not close. -/
theorem aliases_kept_iff {opts : Options} {os₀ : Os} {tracee : Pid} {c₀ : Context Q}
    {calls : List (Call arch)} {s : Tracked Q}
    (hstart : (Context.new opts : Context Q).registerTracee os₀ tracee = .ok c₀)
    (hallowed : Runs.Along step Allowed ⟨c₀, ∅⟩ calls)
    (hrun : Runs.run step ⟨c₀, ∅⟩ calls = .ok s) (os : Os) (pid other : Pid) (s' : Tracked Q) :
    (s.step (.registerProcess os pid other : Call arch) = .ok s' →
      ∃ p p', s.context.procMap.lookup pid = some p ∧ s'.context.procMap.lookup other = some p' ∧
        (AliasesKept false s.context s'.context p p' ↔ NoDuplicates false s.context p)) ∧
    (s.Allowed (.registerExec os pid other : Call arch) →
      s.step (.registerExec os pid other : Call arch) = .ok s' →
      ∃ p p', s.context.procMap.lookup pid = some p ∧ s'.context.procMap.lookup pid = some p' ∧
        (AliasesKept true s.context s'.context p p' ↔ NoDuplicates true s.context p)) := by
  have hinv := inv_run hstart hallowed hrun
  constructor
  · intro h
    obtain ⟨c', hcall, h⟩ := bind_eq_ok_iff.mp h
    rw [pure_eq_ok_iff] at h
    subst h
    obtain ⟨p, hp, _, rfl⟩ := registerProcess_ok hcall
    have hcopied := s.context.heap.copyTable_copied os false (s.context.heap.fds p)
    refine ⟨p, s.context.heap.procCount, hp, Finmap.lookup_insert _,
      aliasesKept_iff hcopied fun fd => ?_⟩
    simp only [copyProc_fds_self]
  · intro hexec h
    obtain ⟨c', hcall, h⟩ := bind_eq_ok_iff.mp h
    rw [pure_eq_ok_iff] at h
    subst h
    have hregister : s.context.registerExec os pid other = .ok c' := hcall
    obtain ⟨p, c₁, hp, hv, rfl⟩ := hinv.registered.registerExec_vanished hexec hregister
    have halloc := hinv.registered.alloc pid p hp
    have hcopied := s.context.heap.copyTable_copied os true (s.context.heap.fds p)
    refine ⟨p, s.context.heap.procCount, hp, Finmap.lookup_insert _,
      aliasesKept_iff hcopied fun fd => ?_⟩
    simp only [hv.slots, copyProc_fds_self]
    exact if_neg fun heq => Nat.ne_of_gt halloc heq.1

end Tracked

/-! ## A fork and an exec on fixed inputs -/

/-- Descriptor 3 is opened and duplicated to 4, as the shell does for `>log 2>&1`. -/
def openAndDup : List (Call .x86_64) := [exitOf 0 1 2 3 0 1 0 0, exitOf 0 1 32 4 3 0 0 0]

open FileStorage in
theorem aliases_kept_openAndDup :
    ∃ (c₀ : Context FileQueue) (s s' : Tracked FileQueue),
      (Context.new plainOptions).registerTracee (plainOs 0) 1 = .ok c₀ ∧
      Runs.run Tracked.step ⟨c₀, ∅⟩ openAndDup = .ok s ∧
      s.step (.registerExec (plainOs 0) 1 1 : Call .x86_64) = .ok s' ∧
      ∃ p p', s.context.procMap.lookup 1 = some p ∧ s'.context.procMap.lookup 1 = some p' ∧
        (AliasesKept true s.context s'.context p p' ↔ NoDuplicates true s.context p) := by
  refine ⟨_, _, _, rfl, rfl, rfl, ?_⟩
  exact (@Tracked.aliases_kept_iff FileQueue _ .x86_64 plainOptions (plainOs 0) 1 _ openAndDup _ rfl
    (by decide) rfl (plainOs 0) 1 1 _).2 (by decide) rfl

/-- The two descriptors share a file state, and neither a child's nor the one after an exec do. -/
theorem openAndDup_split :
    ∃ (c₀ : Context FileStorage.FileQueue) (s forked exec : Tracked FileStorage.FileQueue),
      (Context.new plainOptions).registerTracee (plainOs 0) 1 = .ok c₀ ∧
      Runs.Along Tracked.step Tracked.Allowed ⟨c₀, ∅⟩ openAndDup ∧
      Runs.run Tracked.step ⟨c₀, ∅⟩ openAndDup = .ok s ∧
      slot (s.context.heap.fds 0) 3 = some 0 ∧ slot (s.context.heap.fds 0) 4 = some 0 ∧
      s.step (.registerProcess (plainOs 0) 1 2 : Call .x86_64) = .ok forked ∧
      forked.context.procMap.lookup 2 = some 1 ∧
      slot (forked.context.heap.fds 1) 3 = some 1 ∧ slot (forked.context.heap.fds 1) 4 = some 2 ∧
      s.step (.registerExec (plainOs 0) 1 1 : Call .x86_64) = .ok exec ∧
      exec.context.procMap.lookup 1 = some 1 ∧
      slot (exec.context.heap.fds 1) 3 = some 1 ∧ slot (exec.context.heap.fds 1) 4 = some 2 := by
  refine ⟨_, _, _, _, rfl, by decide, rfl, ?_, ?_, rfl, rfl, ?_, ?_, rfl, rfl, ?_, ?_⟩
  all_goals decide

end Optrace
