import Optrace.Alike

/-!
# Processes do not see each other

Two traces are compared on a set of pids. A call about a pid of the set does the same in
trackers that are alike on it, and a call about another pid leaves them alike.
-/

namespace Optrace

set_option autoImplicit false
set_option linter.unusedSectionVars false

open SlotTable Except Context

variable {Q : Type} [MaxOutFilesQueue Q] {arch : Arch}

namespace Context

variable {c d c' d' : Context Q} {p q x : Nat} {pid : Pid} {k : StepKind}

/-! ## What a call leaves alone -/

theorem TableStep.fds_ne (h : TableStep k p c c') (hx : x ≠ p) : c'.heap.fds x = c.heap.fds x := by
  cases h with
  | update fd r f _ _ => rfl
  | signal kills => rfl
  | _ => exact (Heap.setFds_fds _ _ _ _).trans (if_neg hx)

theorem TableSteps.fds_ne (h : TableSteps k p c c') (hx : x ≠ p) :
    c'.heap.fds x = c.heap.fds x := by
  induction h with
  | refl => rfl
  | tail _ hstep ih => rw [hstep.fds_ne hx, ih]

theorem SameProc.of_steps (hc : c.Tidy) (hp : p < c.heap.procCount) (hx : x ≠ p)
    (h : TableSteps k p c c') : SameProc c c' x x :=
  .of_eq (h.sameRegistry.procInfo x) (h.fds_ne hx) (TableSteps.other hc hp hx h)

theorem releaseProc_fds (hx : c.procMap.lookup pid = some x) :
    (c.releaseProc p).heap.fds x = c.heap.fds x := by
  rcases releaseProc_cases c p with hrel | ⟨hrel, hnone⟩
  · rw [hrel]
  · rw [hrel]
    have hne : x ≠ p := by
      rintro rfl
      exact hnone pid hx
    exact (Heap.setFds_fds _ _ _ _).trans (if_neg hne)

theorem releaseProc_fds_ne (hx : x ≠ p) : (c.releaseProc p).heap.fds x = c.heap.fds x := by
  rcases releaseProc_cases c p with hrel | ⟨hrel, -⟩
  · rw [hrel]
  · rw [hrel]
    exact (Heap.setFds_fds _ _ _ _).trans (if_neg hx)

theorem releaseProc_emits (c : Context Q) (p : Nat) : Emits c (c.releaseProc p) [] [] := by
  refine .of_same (releaseProc_reports c p).1 ?_
  rcases releaseProc_cases c p with hrel | ⟨hrel, -⟩ <;> rw [hrel]

theorem SameProc.of_releaseProc (hx : c.procMap.lookup pid = some x) :
    SameProc c (c.releaseProc p) x x :=
  .of_eq ((releaseProc_sameRegistry c p).procInfo x) (releaseProc_fds hx)
    fun _ _ _ => by rw [(releaseProc_reports c p).2.2.1]

/-- Steps on a table report in the name of its process. -/
theorem TableSteps.emits (h : TableSteps k p c c') :
    ∃ outs, c'.outputs = c.outputs ++ outs ∧ ∀ o ∈ outs, o.procInfo = (c.heap.procs p).procInfo := by
  induction h with
  | refl => exact ⟨[], by simp, by simp⟩
  | @tail c₁ c₂ hsteps hstep ih =>
    obtain ⟨outs, houts, hinfo⟩ := ih
    cases hstep with
    | clear fd r hslot =>
      refine ⟨_, by rw [(clearSlot_emits c₁ p fd r).outputs, houts, List.append_assoc], ?_⟩
      intro o ho
      rcases List.mem_append.mp ho with ho | ho
      · exact hinfo o ho
      · split at ho
        · rw [List.mem_singleton.mp ho]
          exact (TableSteps.sameRegistry hsteps).procInfo p
        · cases ho
    | _ => exact ⟨outs, houts, hinfo⟩

/-- The signals sent in a call go to the caller. -/
theorem perform_kills (hp : c.procMap.lookup pid = some p) {os : Os} {op : Op}
    (h : c.perform os pid op = .ok c') :
    ∃ kills, c'.kills = c.kills ++ kills ∧ ∀ kill ∈ kills, kill.1 = pid := by
  have hnone : ∀ {e : Context Q}, e.kills = c.kills →
      ∃ kills, e.kills = c.kills ++ kills ∧ ∀ kill ∈ kills, kill.1 = pid :=
    fun he => ⟨[], by simp [he], by simp⟩
  have htracked : ∀ {fd : Word} {f : FileState → FileState}, c.opOnTracked pid fd f = .ok c' →
      ∃ kills, c'.kills = c.kills ++ kills ∧ ∀ kill ∈ kills, kill.1 = pid := by
    intro fd f hrun
    rcases opOnTracked_ok hp hrun with ⟨_, rfl⟩ | ⟨r, _, rfl⟩
    · exact hnone rfl
    · exact hnone rfl
  have hopen : ∀ {fd flags : Word}, c.opOpenWriteFile os pid fd flags = .ok c' →
      ∃ kills, c'.kills = c.kills ++ kills ∧ ∀ kill ∈ kills, kill.1 = pid := by
    intro fd flags hrun
    obtain ⟨filename, -, rfl⟩ := opOpenWriteFile_signals hp hrun
    refine ⟨_, rfl, fun kill hkill => ?_⟩
    unfold interruption at hkill
    split at hkill
    · rw [List.mem_singleton.mp hkill]
    · cases hkill
  have hclosed : ∀ fd, (c.closedAt p fd).kills = c.kills := by
    intro fd
    unfold closedAt
    split
    · exact (clearSlot_emits c p fd _).kills.trans (List.append_nil _)
    · rfl
  have hdup : ∀ {oldfd newfd : Word} {c₁ : Context Q} {done : Bool},
      c.opDup2 pid oldfd newfd = .ok (c₁, done) → c₁.kills = c.kills := by
    intro oldfd newfd c₁ done hrun
    rcases opDup2_ok hp hrun with ⟨_, rfl, _⟩ | ⟨_, _, rfl, _⟩ | ⟨_, r, _, rfl, _⟩
    · rfl
    · exact hclosed _
    · exact hclosed _
  cases op with
  | opWriteChangeOffset fd offset => exact htracked h
  | opWriteNoOffsetChange fd nbytes offset => exact htracked h
  | opOpenWriteFile fd flags => exact hopen h
  | opOpenFile fd flags =>
    simp only [perform, opOpenFile] at h
    split at h
    · exact hopen h
    · cases h
      exact hnone rfl
  | opClose fd =>
    rw [perform, opClose_eq hp] at h
    cases h
    exact hnone (hclosed fd.toNat)
  | opDup fd newfd =>
    obtain ⟨⟨c₁, done⟩, hrun, h⟩ := bind_eq_ok_iff.mp h
    cases h
    exact hnone (hdup hrun)
  | opDup2 oldfd newfd =>
    obtain ⟨⟨c₁, done⟩, hrun, h⟩ := bind_eq_ok_iff.mp h
    cases h
    exact hnone (hdup hrun)
  | opDup3 oldfd newfd flags =>
    obtain ⟨⟨c₁, done⟩, hrun, h⟩ := bind_eq_ok_iff.mp h
    cases h
    rcases opDup3_ok hp hrun with hdup₂ | ⟨c₂, r, hdup₂, _, rfl⟩
    · exact hnone (hdup hdup₂)
    · have hkills : c₂.kills = c.kills := hdup hdup₂
      exact hnone hkills
  | opSetFlag fd flags => exact htracked h
  | opResize fd size => exact htracked h
  | opSeek fd pos => exact htracked h

/-- Without an entry in `ProcMap` a call fails or does nothing, whatever the tracker. -/
theorem syscallExit_unmapped_congr (hp : c.procMap.lookup pid = none) {os : Os}
    {registers : UserRegs arch} (h : c.syscallExit arch os pid registers = .ok c') :
    d.syscallExit arch os pid registers = .ok d := by
  have hproc : c.getProcState pid = .error (.assertion .getProcState) := by
    rw [getProcState, hp]
  have hfail : ∀ {β : Type} (f : Nat → Except Abort β) (b : β),
      c.getProcState pid >>= f ≠ .ok b := by
    intro β f b
    rw [hproc]
    rintro ⟨⟩
  unfold syscallExit at h ⊢
  split at h
  · rfl
  · rename_i op _
    cases op with
    | opOpenFile fd flags =>
      simp only [perform, opOpenFile] at h ⊢
      by_cases hwrite : opensForWriting flags = true
      · rw [if_pos hwrite] at h
        exact absurd h (hfail _ _)
      · rw [if_neg hwrite]
    | opDup fd newfd =>
      obtain ⟨_, hdup, _⟩ := bind_eq_ok_iff.mp h
      exact absurd hdup (hfail _ _)
    | opDup2 oldfd newfd =>
      obtain ⟨_, hdup, _⟩ := bind_eq_ok_iff.mp h
      exact absurd hdup (hfail _ _)
    | opDup3 oldfd newfd flags =>
      obtain ⟨_, hdup, _⟩ := bind_eq_ok_iff.mp h
      obtain ⟨_, hdup, _⟩ := bind_eq_ok_iff.mp hdup
      exact absurd hdup (hfail _ _)
    | _ => exact absurd h (hfail _ _)

/-- The steps of `VanishProcess`. -/
theorem vanishProcess_eq (hp : c.procMap.lookup pid = some p)
    (h : c.vanishProcess pid = .ok c') :
    ∃ c₁, (if pid ∈ c.groupLeaders then tearDownFrom p 0 (c.heap.fds p).length c else .ok c) =
        .ok c₁ ∧ TableSteps .frozen p c c₁ ∧ c' = c₁.dropPid pid p := by
  by_cases hlead : pid ∈ c.groupLeaders
  · obtain ⟨c₁, hrun, hsteps, -⟩ := @tearDownFrom_ok Q _ p 0 (c.heap.fds p).length c
    have hsame := hsteps.sameRegistry
    refine ⟨c₁, by rw [if_pos hlead, hrun], hsteps, ?_⟩
    simp only [vanishProcess, if_pos hlead, vanishLeader, getProcState_ok_iff.mpr hp, bind_ok, hrun] at h
    have hp₁ : c₁.procMap.lookup pid = some p := hsame.procMap ▸ hp
    have h' := Except.ok.inj (h.symm.trans (show _ = Except.ok (c₁.dropPid pid p) by
      simp only [pure, Except.pure, bind_ok, hp₁]
      rfl))
    exact h'
  · obtain ⟨c₁, hrun, hcases⟩ := vanishProcess_ok hp
    rw [h] at hrun
    cases hrun
    rcases hcases with ⟨-, rfl⟩ | ⟨hyes, -⟩
    · exact ⟨c₁, by rw [if_neg hlead], .refl, rfl⟩
    · exact absurd hyes hlead

theorem dropPid_emits (c : Context Q) (pid : Pid) (p : Nat) :
    Emits c (c.dropPid pid p) [] [] := by
  have herase : Emits c { c with
      groupLeaders := c.groupLeaders.erase pid
      procMap := c.procMap.erase pid } [] [] := .of_same rfl rfl
  exact herase.trans (releaseProc_emits _ p)

/-- Another process, or one that another pid still names. -/
theorem SameProc.of_dropPid (hx : x ≠ p ∨ ∃ tid ≠ pid, c.procMap.lookup tid = some x) :
    SameProc c (c.dropPid pid p) x x := by
  refine .of_eq ((releaseProc_sameRegistry _ p).procInfo x) ?_
    fun _ _ _ => by rw [dropPid, (releaseProc_reports _ p).2.2.1]
  rcases hx with hne | ⟨tid, hne, htid⟩
  · exact releaseProc_fds_ne hne
  · have hkept : (c.procMap.erase pid).lookup tid = some x := by
      rw [PidMap.lookup_erase, if_neg hne]
      exact htid
    exact releaseProc_fds hkept

/-- `VanishProcess` is about one process. -/
theorem SameProc.of_vanishProcess (hc : c.Tidy) (hp : c.procMap.lookup pid = some p)
    (halloc : p < c.heap.procCount) (hx : x ≠ p) (h : c.vanishProcess pid = .ok c') :
    SameProc c c' x x := by
  obtain ⟨c₁, -, hsteps, rfl⟩ := vanishProcess_eq hp h
  exact (SameProc.of_steps hc halloc hx hsteps).trans (.of_dropPid (Or.inl hx))

/-- What is reported on the way belongs to the process. -/
theorem tearDownFrom_emits (fd n : Nat) (h : tearDownFrom p fd n c = .ok c') :
    ∃ outs, Emits c c' outs [] ∧ ∀ o ∈ outs, o.procInfo = (c.heap.procs p).procInfo := by
  induction n generalizing fd c with
  | zero =>
    cases h
    exact ⟨[], .refl _, by simp⟩
  | succ n ih =>
    simp only [tearDownFrom] at h
    cases hslot : slot (c.heap.fds p) fd with
    | none =>
      rw [hslot] at h
      exact ih (fd + 1) h
    | some r =>
      simp only [hslot, tearDownFd_eq hslot, bind_ok] at h
      obtain ⟨outs, hemits, hinfo⟩ := ih (fd + 1) h
      refine ⟨_, (clearSlot_emits c p fd r).trans hemits, fun o ho => ?_⟩
      rcases List.mem_append.mp ho with ho | ho
      · split at ho
        · rw [List.mem_singleton.mp ho]
          rfl
        · cases ho
      · exact (hinfo o ho).trans ((c.clearSlot_sameRegistry p fd r).procInfo p)

theorem vanishProcess_emits (hp : c.procMap.lookup pid = some p)
    (h : c.vanishProcess pid = .ok c') :
    ∃ outs, Emits c c' outs [] ∧ ∀ o ∈ outs, o.procInfo = (c.heap.procs p).procInfo := by
  obtain ⟨c₁, hrun, -, rfl⟩ := vanishProcess_eq hp h
  split at hrun
  · obtain ⟨outs, hemits, hinfo⟩ := tearDownFrom_emits _ _ hrun
    have hboth := hemits.trans (dropPid_emits c₁ pid p)
    rw [List.append_nil, List.append_nil] at hboth
    exact ⟨outs, hboth, hinfo⟩
  · cases hrun
    exact ⟨[], dropPid_emits c pid p, by simp⟩

/-- A process that vanishes does so in both trackers, and leaves its threads the same. -/
theorem SameProc.vanishProcess (h : SameProc c d p q) (hc : c.Tidy) (hd : d.Tidy)
    (hp : c.procMap.lookup pid = some p) (hq : d.procMap.lookup pid = some q)
    (hpc : p < c.heap.procCount) (hqd : q < d.heap.procCount)
    (hlead : pid ∈ c.groupLeaders ↔ pid ∈ d.groupLeaders) (hrun : c.vanishProcess pid = .ok c') :
    ∃ d', d.vanishProcess pid = .ok d' ∧
      (∃ outs kills, Emits c c' outs kills ∧ Emits d d' outs kills) ∧
      ∀ tid ≠ pid, c.procMap.lookup tid = some p → d.procMap.lookup tid = some q →
        SameProc c' d' p q := by
  obtain ⟨d', hrun', -⟩ := @vanishProcess_ok Q _ d q pid hq
  obtain ⟨c₁, htear, hsteps, rfl⟩ := vanishProcess_eq hp hrun
  obtain ⟨d₁, htear', hsteps', hd'⟩ := vanishProcess_eq hq hrun'
  have hstep : InStep p q c d c₁ d₁ := by
    by_cases hyes : pid ∈ c.groupLeaders
    · rw [if_pos hyes] at htear
      rw [if_pos (hlead.mp hyes), ← h.length] at htear'
      obtain ⟨d₂, hd₂, hstep⟩ := h.tearDownFrom hc hd hpc hqd 0 _ htear
      rw [htear'] at hd₂
      cases hd₂
      exact hstep
    · rw [if_neg hyes] at htear
      rw [if_neg (fun hno => hyes (hlead.mpr hno))] at htear'
      cases htear
      cases htear'
      exact .refl h
  obtain ⟨outs, kills, hemits, hemits'⟩ := hstep.emits
  refine ⟨_, hrun', ⟨_, _, hemits.trans (dropPid_emits c₁ pid p), ?_⟩, ?_⟩
  · exact hd' ▸ hemits'.trans (dropPid_emits d₁ pid q)
  · intro tid hne htid htid'
    have hc₁ : c₁.procMap.lookup tid = some p := by
      rw [(TableSteps.sameRegistry hsteps).procMap]
      exact htid
    have hd₁ : d₁.procMap.lookup tid = some q := by
      rw [(TableSteps.sameRegistry hsteps').procMap]
      exact htid'
    have hafter : SameProc d₁ (d₁.dropPid pid q) q q := .of_dropPid (Or.inr ⟨tid, hne, hd₁⟩)
    have hbefore : SameProc c₁ (c₁.dropPid pid p) p p := .of_dropPid (Or.inr ⟨tid, hne, hc₁⟩)
    exact hbefore.symm.trans (hstep.same.trans (hd' ▸ hafter))

/-- What registering a thread does to the process states that are in use after it: nothing. -/
theorem registerThread_frame {thread : Pid} (h : c.registerThread pid thread = .ok c') :
    ∃ p, c.procMap.lookup pid = some p ∧ c'.options = c.options ∧
      c'.groupLeaders = c.groupLeaders ∧ c'.procMap = c.procMap.insert thread p ∧
      Emits c c' [] [] ∧ (∀ x, (c'.heap.procs x).procInfo = (c.heap.procs x).procInfo) ∧
      ∀ tid x, c'.procMap.lookup tid = some x → SameProc c c' x x := by
  unfold registerThread at h
  cases hp : c.procMap.lookup pid with
  | none =>
    rw [hp] at h
    cases h
  | some p =>
    simp only [hp] at h
    refine ⟨p, rfl, ?_⟩
    split at h
    · cases h
      exact ⟨rfl, rfl, rfl, .of_same rfl rfl, fun _ => rfl,
        fun tid x _ => .of_eq rfl rfl fun _ _ _ => rfl⟩
    · cases h
      have hsame := releaseProc_sameRegistry { c with procMap := c.procMap.insert thread p }
      have hinsert : Emits c { c with procMap := c.procMap.insert thread p } [] [] :=
        .of_same rfl rfl
      refine ⟨(hsame _).options, (hsame _).groupLeaders, (hsame _).procMap,
        hinsert.trans (releaseProc_emits _ _), (hsame _).procInfo, fun tid x hx => ?_⟩
      · rw [(hsame _).procMap] at hx
        have hfirst : SameProc c { c with procMap := c.procMap.insert thread p } x x :=
          .of_eq rfl rfl fun _ _ _ => rfl
        exact hfirst.trans (.of_releaseProc hx)

/-- The tracker in the middle of `RegisterExec`, with the new process state not yet in use. -/
def execCopy (os : Os) (c : Context Q) (pid : Pid) (p : Nat) : Context Q :=
  { c with heap := c.copyProc os p true pid (c.heap.procs p).procInfo.ppid }

theorem Tidy.execCopy (hc : c.Tidy) (os : Os) (pid : Pid) (p : Nat) : (c.execCopy os pid p).Tidy :=
  hc.newProc (c.heap.copyTable_copied os true (c.heap.fds p)) _

/-- A call about one pid: what it leaves alone, whose process state the pid ends up with, if not
with one of its own, and in whose name the call reports. -/
structure Framed (joins pid : Pid) (c c' : Context Q) : Prop where
  options : c'.options = c.options
  leaders : ∀ tid ≠ pid, tid ∈ c'.groupLeaders ↔ tid ∈ c.groupLeaders
  lookup : ∀ tid ≠ pid, c'.procMap.lookup tid = c.procMap.lookup tid
  procs : ∀ tid x, tid ≠ pid → c.procMap.lookup tid = some x → c.procMap.lookup pid ≠ some x →
    SameProc c c' x x
  infos : ∀ tid x, c.procMap.lookup tid = some x →
    (c'.heap.procs x).procInfo = (c.heap.procs x).procInfo
  names : ∀ x, c'.procMap.lookup pid = some x →
    c.procMap.lookup joins = some x ∨ (c'.heap.procs x).procInfo.pid = pid
  emits : ∃ outs kills, Emits c c' outs kills ∧
    (∀ o ∈ outs, ∃ p, c.procMap.lookup pid = some p ∧ o.procInfo = (c.heap.procs p).procInfo) ∧
    ∀ kill ∈ kills, kill.1 = pid

variable {retired : Finset Pid}

theorem Owned.syscallExit_framed (hc : c.Owned retired) {os : Os} {registers : UserRegs arch}
    (hempty : opensFree c pid registers = true)
    (h : c.syscallExit arch os pid registers = .ok c') : Framed pid pid c c' := by
  cases hp : c.procMap.lookup pid with
  | none =>
    rw [syscallExit_unmapped hp h]
    exact ⟨rfl, fun _ _ => Iff.rfl, fun _ _ => rfl, fun _ x _ _ _ => .refl c x, fun _ _ _ => rfl,
      fun _ => Or.inl, [], [], .refl c, by simp, by simp⟩
  | some p =>
    have hsteps := syscallExit_steps hp (within_any hempty hp) h
    have hsame := hsteps.sameRegistry
    refine ⟨hsame.options, fun _ _ => by rw [hsame.groupLeaders], fun _ _ => by rw [hsame.procMap],
      fun tid x _ _ hne => ?_, fun _ x _ => hsame.procInfo x, fun x hx => ?_, ?_⟩
    · exact .of_steps hc.tidy (hc.registered.alloc pid p hp) (fun heq => hne (by rw [hp, heq])) hsteps
    · exact Or.inl (hsame.procMap ▸ hx)
    · obtain ⟨outs, houts, hinfo⟩ := hsteps.emits
      have hkills : ∃ kills, c'.kills = c.kills ++ kills ∧ ∀ kill ∈ kills, kill.1 = pid := by
        unfold Context.syscallExit at h
        split at h
        · cases h
          exact ⟨[], by simp, by simp⟩
        · exact perform_kills hp h
      obtain ⟨kills, hkills, hown⟩ := hkills
      exact ⟨outs, kills, ⟨houts, hkills⟩, fun o ho => ⟨p, hp, hinfo o ho⟩, hown⟩

theorem registerThread_framed {thread : Pid} (h : c.registerThread pid thread = .ok c') :
    Framed pid thread c c' := by
  obtain ⟨p, hp, hoptions, hleaders, hmap, hemits, hinfos, hsame⟩ := registerThread_frame h
  have hlookup : ∀ tid ≠ thread, c'.procMap.lookup tid = c.procMap.lookup tid := by
    intro tid hne
    rw [hmap, PidMap.lookup_insert, if_neg hne]
  refine ⟨hoptions, fun _ _ => by rw [hleaders], hlookup,
    fun tid x hne hx _ => hsame tid x ((hlookup tid hne).trans hx), fun _ x _ => hinfos x,
    fun x hx => Or.inl ?_, [], [], hemits, by simp, by simp⟩
  rw [hmap, PidMap.lookup_insert, if_pos rfl] at hx
  rw [hp, hx]

theorem Owned.registerProcess_framed (hc : c.Owned retired) {os : Os} {parent child : Pid}
    (h : c.registerProcess os parent child = .ok c') : Framed child child c c' := by
  obtain ⟨p, -, -, rfl⟩ := registerProcess_ok h
  have hcopied : ∀ tid x, c.procMap.lookup tid = some x →
      SameProc c { c with heap := c.copyProc os p false child parent } x x :=
    fun tid x hx => .of_copyProc hc.tidy (hc.registered.alloc tid x hx) os p false child parent
  refine ⟨rfl, fun tid hne => ?_, fun tid hne => ?_, fun tid x _ hx _ => ?_,
    fun tid x hx => (hcopied tid x hx).procInfo.symm, fun x hx => Or.inr ?_,
    [], [], .of_same rfl rfl, by simp, by simp⟩
  · simp [hne]
  · rw [PidMap.lookup_insert, if_neg hne]
  · exact (hcopied tid x hx).trans (.of_eq rfl rfl fun _ _ _ => rfl)
  · rw [PidMap.lookup_insert, if_pos rfl] at hx
    cases hx
    simp [copyProc_eq, Heap.newProc, newProcState]

theorem Owned.vanishProcess_framed (hc : c.Owned retired) (h : c.vanishProcess pid = .ok c') :
    Framed pid pid c c' := by
  obtain ⟨p, hp⟩ := vanishProcess_mapped h
  have halloc := hc.registered.alloc pid p hp
  obtain ⟨c₁, hrun, hv⟩ := vanishProcess_vanished hp halloc fun hno => hc.registered.kept hno p
  rw [h] at hrun
  cases hrun
  obtain ⟨outs, hemits, hinfo⟩ := vanishProcess_emits hp h
  refine ⟨hv.options, fun tid hne => ?_, fun tid hne => ?_, fun tid x _ _ hne => ?_,
    fun _ x _ => hv.procInfo x, fun x hx => ?_, outs, [], hemits, fun o ho => ⟨p, hp, hinfo o ho⟩,
    by simp⟩
  · rw [hv.groupLeaders, Finset.mem_erase, and_iff_right hne]
  · rw [hv.procMap, PidMap.lookup_erase, if_neg hne]
  · exact .of_vanishProcess hc.tidy hp halloc (fun heq => hne (by rw [hp, heq])) h
  · rw [hv.procMap, PidMap.lookup_erase, if_pos rfl] at hx
    cases hx

/-- `RegisterExec`: copy, vanish, and put the copy in. -/
theorem Owned.registerExec_ok (hc : c.Owned retired) {os : Os} {execpid : Pid}
    (hlead : pid ∈ c.groupLeaders) (h : c.registerExec os pid execpid = .ok c') :
    ∃ p c₁, (c.execCopy os pid p).procMap.lookup pid = some p ∧
      (c.execCopy os pid p).vanishProcess pid = .ok c₁ ∧
      Vanished pid p (c.execCopy os pid p) c₁ ∧
      c' = { c₁ with
        groupLeaders := insert pid c₁.groupLeaders
        procMap := c₁.procMap.insert pid c.heap.procCount } := by
  obtain ⟨p, c₁, hp, hvanish, hc'⟩ := Context.registerExec_ok h
  have hcopy : (c.execCopy os pid p).vanishProcess pid = .ok c₁ := hvanish
  have hcount : p < (c.execCopy os pid p).heap.procCount :=
    Nat.lt_succ_of_lt (hc.registered.alloc pid p hp)
  obtain ⟨c₂, hrun, hv⟩ := vanishProcess_vanished (c := c.execCopy os pid p) hp hcount
    fun hno => absurd hlead hno
  rw [hcopy] at hrun
  cases hrun
  exact ⟨p, c₁, hp, hcopy, hv, hc'⟩

theorem Owned.registerExec_framed (hc : c.Owned retired) {os : Os} {execpid : Pid}
    (hlead : pid ∈ c.groupLeaders) (h : c.registerExec os pid execpid = .ok c') :
    Framed pid pid c c' := by
  obtain ⟨p, c₁, hp, hvanish, hv, rfl⟩ := hc.registerExec_ok hlead h
  have halloc := hc.registered.alloc pid p hp
  have hcount : p < (c.execCopy os pid p).heap.procCount := Nat.lt_succ_of_lt halloc
  have hcopied : ∀ tid x, c.procMap.lookup tid = some x → SameProc c (c.execCopy os pid p) x x :=
    fun tid x hx => .of_copyProc hc.tidy (hc.registered.alloc tid x hx) os p true pid _
  have hfirst : Emits c (c.execCopy os pid p) [] [] := .of_same rfl rfl
  obtain ⟨outs, hemits, hown⟩ := vanishProcess_emits hp hvanish
  have hboth := hfirst.trans hemits
  refine ⟨hv.options, fun tid hne => ?_, fun tid hne => ?_, fun tid x _ hx hne => ?_,
    fun tid x hx => ?_, fun x hx => Or.inr ?_, outs, [], ⟨hboth.outputs, hboth.kills⟩,
    fun o ho => ⟨p, hp, (hown o ho).trans (hcopied pid p hp).procInfo.symm⟩, by simp⟩
  · simp only [hv.groupLeaders, Finset.mem_insert, Finset.mem_erase, ne_eq, hne, not_false_eq_true,
      true_and, false_or]
    rfl
  · simp only [hv.procMap, PidMap.lookup_insert, PidMap.lookup_erase, if_neg hne]
    rfl
  · have hxp : x ≠ p := fun heq => hne (heq ▸ hp)
    have hgone : SameProc (c.execCopy os pid p) c₁ x x :=
      .of_vanishProcess (hc.tidy.execCopy os pid p) hp hcount hxp hvanish
    exact ((hcopied tid x hx).trans hgone).trans (.of_eq rfl rfl fun _ _ _ => rfl)
  · exact (hv.procInfo x).trans (hcopied tid x hx).procInfo.symm
  · rw [PidMap.lookup_insert, if_pos rfl] at hx
    cases hx
    rw [hv.procInfo]
    simp [execCopy, copyProc_eq, Heap.newProc, newProcState]

theorem registerCoreDump_framed {os : Os} {termSig : Int}
    (h : c.registerCoreDump os pid termSig = .ok c') :
    Framed pid pid c c' ∧ c'.heap = c.heap ∧ c'.groupLeaders = c.groupLeaders ∧
      c'.procMap = c.procMap := by
  obtain ⟨p, hp, h⟩ := bind_eq_ok_iff.mp h
  rw [getProcState_ok_iff] at hp
  have hnone : Framed pid pid c c := ⟨rfl, fun _ _ => Iff.rfl, fun _ _ => rfl,
    fun _ x _ _ _ => .refl c x, fun _ _ _ => rfl, fun _ => Or.inl, [], [], .refl c, by simp,
    by simp⟩
  split at h
  · rw [pure_eq_ok_iff] at h
    subst h
    unfold searchAndRegisterCoreDumpFile
    simp only
    split
    · exact ⟨hnone, rfl, rfl, rfl⟩
    · refine ⟨⟨rfl, fun _ _ => Iff.rfl, fun _ _ => rfl, fun _ x _ _ _ => ?_, fun _ _ _ => rfl,
        fun _ => Or.inl, ?_⟩, rfl, rfl, rfl⟩
      · exact .of_eq rfl rfl fun _ _ _ => rfl
      · refine ⟨_, [], ⟨List.map_append, by simp⟩, fun o ho => ⟨p, hp, ?_⟩, by simp⟩
        rw [List.mem_singleton.mp ho]
  · rw [pure_eq_ok_iff] at h
    subst h
    exact ⟨hnone, rfl, rfl, rfl⟩

end Context

end Optrace
