import Optrace.Trace

/-!
# Process states that cannot be told apart

The numbers of objects are addresses: no operation depends on them. Two process states, of
two trackers, are the same if their descriptors hold the same states and share them alike, and
every operation that goes through on one goes through on the other, with the same reports
and the same signals.
-/

namespace Optrace

set_option autoImplicit false
set_option linter.unusedSectionVars false

open SlotTable Except

theorem Option.map_eq_map_iff {α β γ : Type} {x : Option α} {y : Option β} {f : α → γ} {g : β → γ} :
    x.map f = y.map g ↔ (x = none ∧ y = none) ∨ ∃ a b, x = some a ∧ y = some b ∧ f a = g b := by
  cases x <;> cases y <;> simp

namespace Context

variable {Q : Type} [MaxOutFilesQueue Q] {c d e c₁ d₁ c' d' : Context Q} {p q n : Nat}

/-- The same process, the same descriptors, the same states in them, and the same sharing. -/
structure SameProc (c d : Context Q) (p q : Nat) : Prop where
  procInfo : (c.heap.procs p).procInfo = (d.heap.procs q).procInfo
  length : (c.heap.fds p).length = (d.heap.fds q).length
  states : ∀ fd, (slot (c.heap.fds p) fd).map c.heap.files = (slot (d.heap.fds q) fd).map d.heap.files
  shares : ∀ i r s, slot (c.heap.fds p) i = some r → slot (d.heap.fds q) i = some s → ∀ j,
    slot (c.heap.fds p) j = some r ↔ slot (d.heap.fds q) j = some s

/-- The outputs handed to the storage. -/
def outputs (c : Context Q) : List OutputFile := c.reports.map Report.output

/-- What a step adds to the reports and to the signals. -/
structure Emits (c c' : Context Q) (outs : List OutputFile) (kills : List (Pid × Int)) : Prop where
  outputs : c'.outputs = c.outputs ++ outs
  kills : c'.kills = c.kills ++ kills

/-- Two steps that say the same and lead to the same process states. -/
structure InStep (p q : Nat) (c d c' d' : Context Q) : Prop where
  same : SameProc c' d' p q
  emits : ∃ outs kills, Emits c c' outs kills ∧ Emits d d' outs kills

theorem Emits.refl (c : Context Q) : Emits c c [] [] := ⟨by simp, by simp⟩

theorem Emits.trans {outs outs' : List OutputFile} {kills kills' : List (Pid × Int)}
    (h : Emits c d outs kills) (h' : Emits d e outs' kills') :
    Emits c e (outs ++ outs') (kills ++ kills') :=
  ⟨by rw [h'.outputs, h.outputs, List.append_assoc], by rw [h'.kills, h.kills, List.append_assoc]⟩

theorem Emits.of_same (hreports : c'.reports = c.reports) (hkills : c'.kills = c.kills) :
    Emits c c' [] [] :=
  ⟨by simp [Context.outputs, hreports], by simp [hkills]⟩

theorem Emits.unique {outs outs' : List OutputFile} {kills kills' : List (Pid × Int)}
    (h : Emits c c' outs kills) (h' : Emits c c' outs' kills') : outs = outs' ∧ kills = kills' :=
  ⟨List.append_cancel_left (h.outputs.symm.trans h'.outputs),
    List.append_cancel_left (h.kills.symm.trans h'.kills)⟩

namespace SameProc

theorem refl (c : Context Q) (p : Nat) : SameProc c c p p := by
  refine ⟨rfl, rfl, fun _ => rfl, fun i r s hr hs j => ?_⟩
  rw [hr] at hs
  cases hs
  exact Iff.rfl

theorem symm (h : SameProc c d p q) : SameProc d c q p :=
  ⟨h.procInfo.symm, h.length.symm, fun fd => (h.states fd).symm,
    fun i r s hr hs j => (h.shares i s r hs hr j).symm⟩

theorem slots (h : SameProc c d p q) (fd : Nat) :
    (slot (c.heap.fds p) fd = none ∧ slot (d.heap.fds q) fd = none) ∨
      ∃ r s, slot (c.heap.fds p) fd = some r ∧ slot (d.heap.fds q) fd = some s ∧
        c.heap.files r = d.heap.files s :=
  Option.map_eq_map_iff.mp (h.states fd)

theorem none_iff (h : SameProc c d p q) (fd : Nat) :
    slot (c.heap.fds p) fd = none ↔ slot (d.heap.fds q) fd = none := by
  rcases h.slots fd with ⟨hc, hd⟩ | ⟨r, s, hc, hd, -⟩ <;> simp [hc, hd]

theorem trans (h : SameProc c d p q) (h' : SameProc d e q n) : SameProc c e p n := by
  refine ⟨h.procInfo.trans h'.procInfo, h.length.trans h'.length,
    fun fd => (h.states fd).trans (h'.states fd), fun i r t hr ht j => ?_⟩
  rcases h.slots i with ⟨hnone, -⟩ | ⟨r', s, hr', hs, -⟩
  · rw [hnone] at hr
    cases hr
  · rw [hr] at hr'
    cases hr'
    exact (h.shares i r s hr hs j).trans (h'.shares i s t hs ht j)

/-- Nothing about the process state has changed. -/
theorem of_eq (hinfo : (c'.heap.procs p).procInfo = (c.heap.procs p).procInfo)
    (hfds : c'.heap.fds p = c.heap.fds p)
    (hfiles : ∀ fd r, slot (c.heap.fds p) fd = some r → c'.heap.files r = c.heap.files r) :
    SameProc c c' p p := by
  refine ⟨hinfo.symm, by rw [hfds], fun fd => ?_, fun i r s hr hs j => ?_⟩
  · rw [hfds]
    cases hslot : slot (c.heap.fds p) fd with
    | none => rfl
    | some r => simp [hfiles fd r hslot]
  · rw [hfds] at hs ⊢
    rw [hr] at hs
    cases hs
    exact Iff.rfl

/-! ## The steps on a table -/

theorem updateFile (h : SameProc c d p q) {fd r s : Nat} (hr : slot (c.heap.fds p) fd = some r)
    (hs : slot (d.heap.fds q) fd = some s) (f : FileState → FileState) :
    SameProc (c.updateFile r f) (d.updateFile s f) p q := by
  refine ⟨h.procInfo, h.length, fun i => ?_, h.shares⟩
  refine Option.map_eq_map_iff.mpr ?_
  rcases h.slots i with hnone | ⟨r', s', hr', hs', hfile⟩
  · exact Or.inl hnone
  · refine Or.inr ⟨r', s', hr', hs', ?_⟩
    have hshare := h.shares fd r s hr hs i
    rw [hr', hs'] at hshare
    by_cases heq : r' = r
    · have heq' : s' = s := Option.some.inj (hshare.mp (by rw [heq]))
      subst heq heq'
      simp only [Context.updateFile, Heap.updateFile_files_self, hfile]
    · have hne' : s' ≠ s := fun heq' => heq (Option.some.inj (hshare.mpr (by rw [heq'])))
      simp only [Context.updateFile, Heap.updateFile_files_ne _ heq, Heap.updateFile_files_ne _ hne',
        hfile]

theorem clearSlot (h : SameProc c d p q) {fd r s : Nat} (hr : slot (c.heap.fds p) fd = some r)
    (hs : slot (d.heap.fds q) fd = some s) :
    SameProc (c.clearSlot p fd r) (d.clearSlot q fd s) p q := by
  refine ⟨?_, ?_, fun i => ?_, fun i r' s' hr' hs' j => ?_⟩
  · rw [clearSlot_heap, clearSlot_heap, Heap.setFds_procInfo, Heap.setFds_procInfo, h.procInfo]
  · simp [h.length]
  · rw [clearSlot_slot hr, clearSlot_slot hs]
    by_cases hi : i = fd
    · simp [hi]
    · simpa [hi] using h.states i
  · rw [clearSlot_slot hr] at hr' ⊢
    rw [clearSlot_slot hs] at hs' ⊢
    by_cases hi : i = fd
    · simp [hi] at hr'
    · have hr'' : slot (c.heap.fds p) i = some r' := by simpa [hi] using hr'
      have hs'' : slot (d.heap.fds q) i = some s' := by simpa [hi] using hs'
      by_cases hj : j = fd
      · simp [hj]
      · simpa [hj] using h.shares i r' s' hr'' hs'' j

theorem length_grown (h : SameProc c d p q) (fd : Nat) :
    (grown (c.heap.fds p) fd).length = (grown (d.heap.fds q) fd).length := by
  unfold grown
  rw [h.length]
  split
  · simp
  · exact h.length

/-- A slot is filled, with a state that is in the table already or in no slot of it. -/
theorem fillSlot (h : SameProc c d p q) {fd r s : Nat} (hfile : c.heap.files r = d.heap.files s)
    (hshare : ∀ j, j ≠ fd → (slot (c.heap.fds p) j = some r ↔ slot (d.heap.fds q) j = some s)) :
    SameProc (c.fillSlot p fd r) (d.fillSlot q fd s) p q := by
  refine ⟨?_, ?_, fun i => ?_, fun i r' s' hr' hs' j => ?_⟩
  · rw [(c.fillSlot_sameRegistry p fd r).procInfo, (d.fillSlot_sameRegistry q fd s).procInfo,
      h.procInfo]
  · simp [Context.fillSlot, h.length_grown]
  · rw [fillSlot_slot, fillSlot_slot]
    by_cases hi : i = fd
    · simp [hi, hfile]
    · simpa [hi] using h.states i
  · rw [fillSlot_slot] at hr' hs' ⊢
    rw [fillSlot_slot]
    by_cases hi : i = fd
    · obtain rfl : r = r' := by simpa [hi] using hr'
      obtain rfl : s = s' := by simpa [hi] using hs'
      by_cases hj : j = fd
      · simp [hj]
      · simpa [hj] using hshare j hj
    · have hr'' : slot (c.heap.fds p) i = some r' := by simpa [hi] using hr'
      have hs'' : slot (d.heap.fds q) i = some s' := by simpa [hi] using hs'
      by_cases hj : j = fd
      · simp only [hj, and_self, if_true, Option.some.injEq]
        -- whether the slot at `i` holds the state put in is known from `hshare`
        have hiff := hshare i hi
        rw [hr'', hs'', Option.some.injEq, Option.some.injEq] at hiff
        exact eq_comm.trans (hiff.trans eq_comm)
      · simpa [hj] using h.shares i r' s' hr'' hs'' j

end SameProc

/-! ## The operations -/

/-- The last slot of a state is the only one in its table. -/
theorem Tidy.useCount_eq_one_iff (hc : c.Tidy) {fd r : Nat}
    (hslot : slot (c.heap.fds p) fd = some r) :
    c.heap.useCount r = 1 ↔ ∀ i, slot (c.heap.fds p) i = some r → i = fd := by
  have halloc := hc.alloc p fd r hslot
  have hcount := clearSlot_useCount halloc hslot r
  rw [if_pos rfl] at hcount
  have hpos := (c.clearSlot p fd r).heap.useCount_pos_iff r
  simp only [clearSlot_slot hslot] at hpos
  constructor
  · intro hone i hi
    by_contra hne
    have := hpos.mpr ⟨p, halloc, i, by rw [if_neg (fun h => hne h.2)]; exact hi⟩
    omega
  · intro hall
    by_contra hne
    obtain ⟨q, -, i, hi⟩ := hpos.mp (by omega)
    split at hi
    · cases hi
    · rename_i hcond
      obtain rfl := hc.single q p i fd r hi hslot
      exact hcond ⟨rfl, hall i hi⟩

/-- What clearing a slot reports. -/
theorem clearSlot_emits (c : Context Q) (p fd r : Nat) :
    Emits c (c.clearSlot p fd r) (if c.heap.useCount r = 1 then
      [OutputFile.ofState (c.heap.files r) (c.heap.procs p).procInfo] else []) [] := by
  refine ⟨?_, ?_⟩
  · unfold outputs
    rw [clearSlot_reports, List.map_append]
    split <;> rfl
  · unfold clearSlot
    split <;> simp [report]

/-- The signal a matching open is answered with. -/
def interruption (c : Context Q) (os : Os) (pid : Pid) (filename : String) : List (Pid × Int) :=
  if c.options.interruptionSignal ≠ 0 ∧ os.fnmatch c.options.interruptionTarget filename = true then
    [(pid, c.options.interruptionSignal)]
  else []

theorem opOpenWriteFile_signals {os : Os} {pid : Pid} {fd flags : Word}
    (hp : c.procMap.lookup pid = some p) (h : c.opOpenWriteFile os pid fd flags = .ok c') :
    ∃ filename, os.readlink (fdPath pid fd.toNat) = some filename ∧
      c' = (({ c with kills := c.kills ++ c.interruption os pid filename }).newFile
        (FileState.ofOpen os filename flags)).fillSlot p fd.toNat c.heap.fileCount := by
  obtain ⟨filename, kills, hlink, hc'⟩ := opOpenWriteFile_ok hp h
  refine ⟨filename, hlink, ?_⟩
  have hread : readLink os (fdPath pid fd.toNat) = .ok filename := by
    unfold readLink
    rw [hlink]
  rw [opOpenWriteFile, getProcState_ok_iff.mpr hp, bind_ok] at h
  obtain ⟨fds, hgrow, h⟩ := bind_eq_ok_iff.mp h
  rw [hread, bind_ok] at h
  obtain ⟨fds', hput, h⟩ := bind_eq_ok_iff.mp h
  rw [pure_eq_ok_iff] at h
  have hsignals : (if c.options.interruptionSignal ≠ 0 then
      c.processInterruptionTarget os pid filename else c) =
      { c with kills := c.kills ++ c.interruption os pid filename } := by
    unfold interruption processInterruptionTarget
    by_cases hsig : c.options.interruptionSignal = 0
    · simp [hsig]
    · by_cases hmatch : os.fnmatch c.options.interruptionTarget filename = true
      · simp [hsig, hmatch]
      · simp [hsig, hmatch]
  have hkills : c'.kills = c.kills ++ c.interruption os pid filename := by
    rw [← h, hsignals]
  rw [← hkills, hc']
  rfl

theorem growTo_congr {t u t' : SlotTable Nat} {fd : Word} (hlen : t.length = u.length)
    (h : growTo t fd = .ok t') : ∃ u', growTo u fd = .ok u' ∧ t'.length = u'.length := by
  unfold growTo resizeFds at h ⊢
  rw [← hlen]
  split at h
  · split at h
    · cases h
      rename_i hle hroom
      exact ⟨u.resize (fd + 1).toNat, by rw [if_pos hle, if_pos hroom], by simp⟩
    · cases h
  · cases h
    rename_i hle
    exact ⟨u, by rw [if_neg hle], hlen⟩

theorem putSlot_congr {t u t' : SlotTable Nat} {fd : Word} {r : Nat} (hlen : t.length = u.length)
    (h : putSlot t fd r = .ok t') (s : Nat) : ∃ u', putSlot u fd s = .ok u' := by
  unfold putSlot at h ⊢
  split at h
  · rename_i hlt
    exact ⟨u.set fd.toNat (some s), by rw [if_pos (hlen ▸ hlt)]⟩
  · cases h

theorem InStep.refl (h : SameProc c d p q) : InStep p q c d c d :=
  ⟨h, [], [], .refl c, .refl d⟩

theorem InStep.trans (h : InStep p q c d c₁ d₁) (h' : InStep p q c₁ d₁ c' d') :
    InStep p q c d c' d' := by
  obtain ⟨outs, kills, hc, hd⟩ := h.emits
  obtain ⟨outs', kills', hc', hd'⟩ := h'.emits
  exact ⟨h'.same, outs ++ outs', kills ++ kills', hc.trans hc', hd.trans hd'⟩

namespace SameProc

theorem clearSlot_inStep (h : SameProc c d p q) (hc : c.Tidy) (hd : d.Tidy) {fd r s : Nat}
    (hr : slot (c.heap.fds p) fd = some r) (hs : slot (d.heap.fds q) fd = some s) :
    InStep p q c d (c.clearSlot p fd r) (d.clearSlot q fd s) := by
  have hlast : c.heap.useCount r = 1 ↔ d.heap.useCount s = 1 := by
    rw [hc.useCount_eq_one_iff hr, hd.useCount_eq_one_iff hs]
    exact forall_congr' fun i => imp_congr (h.shares fd r s hr hs i) Iff.rfl
  have hfile : c.heap.files r = d.heap.files s := by
    have hstates := h.states fd
    rw [hr, hs] at hstates
    exact Option.some.inj hstates
  refine ⟨h.clearSlot hr hs, _, _, clearSlot_emits c p fd r, ?_⟩
  have hemits := clearSlot_emits d q fd s
  simp only [← hlast, ← hfile, ← h.procInfo] at hemits
  exact hemits

theorem closedAt (h : SameProc c d p q) (hc : c.Tidy) (hd : d.Tidy) (fd : Nat) :
    InStep p q c d (c.closedAt p fd) (d.closedAt q fd) := by
  unfold Context.closedAt
  rcases h.slots fd with ⟨hr, hs⟩ | ⟨r, s, hr, hs, -⟩
  · rw [hr, hs]
    exact .refl h
  · rw [hr, hs]
    exact h.clearSlot_inStep hc hd hr hs

variable {pid : Pid}

theorem opOnTracked (h : SameProc c d p q) (hp : c.procMap.lookup pid = some p)
    (hq : d.procMap.lookup pid = some q) {fd : Word} {f : FileState → FileState}
    (hrun : c.opOnTracked pid fd f = .ok c') :
    ∃ d', d.opOnTracked pid fd f = .ok d' ∧ InStep p q c d c' d' := by
  rcases opOnTracked_ok hp hrun with ⟨hr, rfl⟩ | ⟨r, hr, rfl⟩
  · refine ⟨d, ?_, .refl h⟩
    rw [Context.opOnTracked, getProcState_ok_iff.mpr hq, bind_ok, onTracked,
      (h.none_iff fd.toNat).mp hr]
    rfl
  · rcases h.slots fd.toNat with ⟨hnone, -⟩ | ⟨r', s, hr', hs, -⟩
    · rw [hr] at hnone
      cases hnone
    · refine ⟨d.updateFile s f, ?_, h.updateFile hr hs f, [], [], .of_same rfl rfl,
        .of_same rfl rfl⟩
      rw [Context.opOnTracked, getProcState_ok_iff.mpr hq, bind_ok, onTracked, hs]
      rfl

theorem opOpenWriteFile (h : SameProc c d p q) (hc : c.Tidy) (hd : d.Tidy)
    (hoptions : c.options = d.options) (hp : c.procMap.lookup pid = some p)
    (hq : d.procMap.lookup pid = some q) {os : Os} {fd flags : Word}
    (hrun : c.opOpenWriteFile os pid fd flags = .ok c') :
    ∃ d', d.opOpenWriteFile os pid fd flags = .ok d' ∧ InStep p q c d c' d' := by
  have hruns : ∃ d', d.opOpenWriteFile os pid fd flags = .ok d' := by
    rw [Context.opOpenWriteFile, getProcState_ok_iff.mpr hp, bind_ok] at hrun
    obtain ⟨fds, hgrow, hrun⟩ := bind_eq_ok_iff.mp hrun
    obtain ⟨filename, hlink, hrun⟩ := bind_eq_ok_iff.mp hrun
    obtain ⟨fds', hput, -⟩ := bind_eq_ok_iff.mp hrun
    obtain ⟨gds, hgrow', hlen⟩ := growTo_congr h.length hgrow
    obtain ⟨gds', hput'⟩ := putSlot_congr hlen hput d.heap.fileCount
    have hcount : (if d.options.interruptionSignal ≠ 0 then
        d.processInterruptionTarget os pid filename else d).heap.fileCount = d.heap.fileCount := by
      unfold processInterruptionTarget
      split
      · split <;> rfl
      · rfl
    rw [Context.opOpenWriteFile, getProcState_ok_iff.mpr hq, bind_ok, hgrow', bind_ok, hlink,
      bind_ok]
    simp only [hcount, hput', bind_ok]
    exact ⟨_, rfl⟩
  obtain ⟨d', hrun'⟩ := hruns
  refine ⟨d', hrun', ?_⟩
  obtain ⟨filename, hlink, rfl⟩ := opOpenWriteFile_signals hp hrun
  obtain ⟨filename', hlink', rfl⟩ := opOpenWriteFile_signals hq hrun'
  obtain rfl : filename = filename' := Option.some.inj (hlink.symm.trans hlink')
  have hkills : d.interruption os pid filename = c.interruption os pid filename := by
    unfold interruption
    rw [hoptions]
  rw [hkills]
  -- the new state is in no slot yet
  have hnew : SameProc
      (({ c with kills := c.kills ++ c.interruption os pid filename }).newFile
        (FileState.ofOpen os filename flags))
      (({ d with kills := d.kills ++ c.interruption os pid filename }).newFile
        (FileState.ofOpen os filename flags)) p q := by
    refine ⟨h.procInfo, h.length, fun i => ?_, h.shares⟩
    refine Option.map_eq_map_iff.mpr ?_
    rcases h.slots i with hnone | ⟨r, s, hr, hs, hfile⟩
    · exact Or.inl hnone
    · refine Or.inr ⟨r, s, hr, hs, ?_⟩
      simp only [newFile]
      rw [Heap.newFiles_files_old _ _ (hc.bound p i r hr),
        Heap.newFiles_files_old _ _ (hd.bound q i s hs), hfile]
  refine ⟨hnew.fillSlot ?_ ?_, [], _, ⟨by simp [outputs, Context.fillSlot, newFile], rfl⟩,
    ⟨by simp [outputs, Context.fillSlot, newFile], rfl⟩⟩
  · simp only [newFile]
    rw [← Nat.add_zero c.heap.fileCount, ← Nat.add_zero d.heap.fileCount,
      Heap.newFiles_files_new _ _ rfl, Heap.newFiles_files_new _ _ rfl]
  · intro j _
    refine iff_of_false (fun hj => ?_) (fun hj => ?_)
    · exact absurd (hc.bound p j _ hj) (Nat.lt_irrefl _)
    · exact absurd (hd.bound q j _ hj) (Nat.lt_irrefl _)

theorem opClose (h : SameProc c d p q) (hc : c.Tidy) (hd : d.Tidy)
    (hp : c.procMap.lookup pid = some p) (hq : d.procMap.lookup pid = some q) {fd : Word}
    (hrun : c.opClose pid fd = .ok c') :
    ∃ d', d.opClose pid fd = .ok d' ∧ InStep p q c d c' d' := by
  rw [opClose_eq hp] at hrun
  cases hrun
  exact ⟨d.closedAt q fd.toNat, opClose_eq hq fd, h.closedAt hc hd fd.toNat⟩

theorem opDup2 (h : SameProc c d p q) (hc : c.Tidy) (hd : d.Tidy)
    (hp : c.procMap.lookup pid = some p) (hq : d.procMap.lookup pid = some q)
    {oldfd newfd : Word} {done : Bool} (hrun : c.opDup2 pid oldfd newfd = .ok (c', done)) :
    ∃ d', d.opDup2 pid oldfd newfd = .ok (d', done) ∧ InStep p q c d c' d' := by
  by_cases heq : oldfd = newfd
  · rw [Context.opDup2, getProcState_ok_iff.mpr hp, bind_ok, if_pos heq, pure_eq_ok_iff] at hrun
    cases hrun
    refine ⟨d, ?_, .refl h⟩
    rw [Context.opDup2, getProcState_ok_iff.mpr hq, bind_ok, if_pos heq]
    rfl
  have hclosed := h.closedAt hc hd newfd.toNat
  have hsame := hclosed.same
  rw [opDup2_eq hp heq, shareSlot] at hrun
  rw [opDup2_eq hq heq, shareSlot]
  rcases hsame.slots oldfd.toNat with ⟨hr, hs⟩ | ⟨r, s, hr, hs, hfile⟩
  · rw [hr] at hrun
    rw [hs]
    cases hrun
    exact ⟨d.closedAt q newfd.toNat, rfl, hclosed⟩
  · simp only [hr] at hrun
    simp only [hs]
    obtain ⟨fds, hgrow, hrun⟩ := bind_eq_ok_iff.mp hrun
    obtain ⟨fds', hput, hrun⟩ := bind_eq_ok_iff.mp hrun
    rw [pure_eq_ok_iff] at hrun
    cases hrun
    obtain ⟨gds, hgrow', hlen⟩ := growTo_congr hsame.length hgrow
    obtain ⟨gds', hput'⟩ := putSlot_congr hlen hput s
    simp only [hgrow', bind_ok, hput']
    refine ⟨_, rfl, ?_⟩
    rw [grow_put_ok hgrow hput, grow_put_ok hgrow' hput']
    have hfill : SameProc ((c.closedAt p newfd.toNat).fillSlot p newfd.toNat r)
        ((d.closedAt q newfd.toNat).fillSlot q newfd.toNat s) p q :=
      hsame.fillSlot hfile fun j _ => hsame.shares oldfd.toNat r s hr hs j
    exact hclosed.trans ⟨hfill, [], [], .of_same rfl rfl, .of_same rfl rfl⟩

theorem opDup3 (h : SameProc c d p q) (hc : c.Tidy) (hd : d.Tidy)
    (hp : c.procMap.lookup pid = some p) (hq : d.procMap.lookup pid = some q)
    {oldfd newfd flags : Word} {done : Bool}
    (hrun : c.opDup3 pid oldfd newfd flags = .ok (c', done)) :
    ∃ d', d.opDup3 pid oldfd newfd flags = .ok (d', done) ∧ InStep p q c d c' d' := by
  obtain ⟨⟨c₁, done₁⟩, hdup, hrun⟩ := bind_eq_ok_iff.mp hrun
  obtain ⟨d₁, hdup', hstep⟩ := h.opDup2 hc hd hp hq hdup
  have hrun' : d.opDup3 pid oldfd newfd flags = (if done₁ = true then do
      let p ← d₁.getProcState pid
      pure (d₁.onTracked p newfd (FileState.setCloexecFlag (hasFlag flags O_CLOEXEC)), true)
    else pure (d₁, false)) := by
    rw [Context.opDup3, opDup, hdup', bind_ok]
  rw [hrun']
  cases done₁ with
  | false =>
    cases hrun
    exact ⟨d₁, rfl, hstep⟩
  | true =>
    have hsame₁ : c.SameRegistry c₁ := (opDup2_steps (k := .any) hp hdup).sameRegistry
    have hsame₁' : d.SameRegistry d₁ := (opDup2_steps (k := .any) hq hdup').sameRegistry
    have hp₁ : c₁.procMap.lookup pid = some p := hsame₁.procMap ▸ hp
    have hq₁ : d₁.procMap.lookup pid = some q := hsame₁'.procMap ▸ hq
    simp only [if_true, getProcState_ok_iff.mpr hp₁, getProcState_ok_iff.mpr hq₁, bind_ok] at hrun ⊢
    rw [pure_eq_ok_iff] at hrun
    cases hrun
    have htracked : c₁.opOnTracked pid newfd (FileState.setCloexecFlag (hasFlag flags O_CLOEXEC)) =
        .ok (c₁.onTracked p newfd (FileState.setCloexecFlag (hasFlag flags O_CLOEXEC))) := by
      rw [Context.opOnTracked, getProcState_ok_iff.mpr hp₁]
      rfl
    obtain ⟨d', hd', hlast⟩ := hstep.same.opOnTracked hp₁ hq₁ htracked
    rw [Context.opOnTracked, getProcState_ok_iff.mpr hq₁, bind_ok, pure_eq_ok_iff] at hd'
    exact ⟨d', by rw [← hd']; rfl, hstep.trans hlast⟩

theorem perform (h : SameProc c d p q) (hc : c.Tidy) (hd : d.Tidy)
    (hoptions : c.options = d.options) (hp : c.procMap.lookup pid = some p)
    (hq : d.procMap.lookup pid = some q) {os : Os} {op : Op}
    (hrun : c.perform os pid op = .ok c') :
    ∃ d', d.perform os pid op = .ok d' ∧ InStep p q c d c' d' := by
  cases op with
  | opWriteChangeOffset fd offset => exact h.opOnTracked hp hq hrun
  | opWriteNoOffsetChange fd nbytes offset => exact h.opOnTracked hp hq hrun
  | opOpenWriteFile fd flags => exact h.opOpenWriteFile hc hd hoptions hp hq hrun
  | opOpenFile fd flags =>
    simp only [Context.perform, opOpenFile] at hrun ⊢
    by_cases hwrite : opensForWriting flags = true
    · rw [if_pos hwrite] at hrun ⊢
      exact h.opOpenWriteFile hc hd hoptions hp hq hrun
    · rw [if_neg hwrite] at hrun ⊢
      cases hrun
      exact ⟨d, rfl, .refl h⟩
  | opClose fd => exact h.opClose hc hd hp hq hrun
  | opDup fd newfd =>
    obtain ⟨⟨c₁, done⟩, hdup, hrun⟩ := bind_eq_ok_iff.mp hrun
    cases hrun
    obtain ⟨d₁, hdup', hstep⟩ := h.opDup2 hc hd hp hq hdup
    exact ⟨d₁, bind_eq_ok_iff.mpr ⟨_, hdup', rfl⟩, hstep⟩
  | opDup2 oldfd newfd =>
    obtain ⟨⟨c₁, done⟩, hdup, hrun⟩ := bind_eq_ok_iff.mp hrun
    cases hrun
    obtain ⟨d₁, hdup', hstep⟩ := h.opDup2 hc hd hp hq hdup
    exact ⟨d₁, bind_eq_ok_iff.mpr ⟨_, hdup', rfl⟩, hstep⟩
  | opDup3 oldfd newfd flags =>
    obtain ⟨⟨c₁, done⟩, hdup, hrun⟩ := bind_eq_ok_iff.mp hrun
    cases hrun
    obtain ⟨d₁, hdup', hstep⟩ := h.opDup3 hc hd hp hq hdup
    exact ⟨d₁, bind_eq_ok_iff.mpr ⟨_, hdup', rfl⟩, hstep⟩
  | opSetFlag fd flags => exact h.opOnTracked hp hq hrun
  | opResize fd size => exact h.opOnTracked hp hq hrun
  | opSeek fd pos => exact h.opOnTracked hp hq hrun

/-- A call does the same to process states that are the same. -/
theorem syscallExit {arch : Arch} (h : SameProc c d p q) (hc : c.Tidy) (hd : d.Tidy)
    (hoptions : c.options = d.options) (hp : c.procMap.lookup pid = some p)
    (hq : d.procMap.lookup pid = some q) {os : Os} {registers : UserRegs arch}
    (hrun : c.syscallExit arch os pid registers = .ok c') :
    ∃ d', d.syscallExit arch os pid registers = .ok d' ∧ InStep p q c d c' d' := by
  unfold Context.syscallExit at hrun ⊢
  split at hrun
  · cases hrun
    exact ⟨d, rfl, .refl h⟩
  · exact h.perform hc hd hoptions hp hq hrun

/-! ## Tearing down -/

theorem tearDownFrom (h : SameProc c d p q) (hc : c.Tidy) (hd : d.Tidy)
    (hpc : p < c.heap.procCount) (hqd : q < d.heap.procCount) (fd n : Nat)
    (hrun : tearDownFrom p fd n c = .ok c') :
    ∃ d', Context.tearDownFrom q fd n d = .ok d' ∧ InStep p q c d c' d' := by
  induction n generalizing fd c d with
  | zero =>
    cases hrun
    exact ⟨d, rfl, .refl h⟩
  | succ n ih =>
    simp only [Context.tearDownFrom] at hrun ⊢
    rcases h.slots fd with ⟨hr, hs⟩ | ⟨r, s, hr, hs, -⟩
    · rw [hr] at hrun
      rw [hs]
      exact ih h hc hd hpc hqd (fd + 1) hrun
    · simp only [hr, tearDownFd_eq hr, bind_ok] at hrun
      simp only [hs, tearDownFd_eq hs, bind_ok]
      have hstep := h.clearSlot_inStep hc hd hr hs
      obtain ⟨d', hrun', hrest⟩ := ih hstep.same (hc.clearSlot hpc hr) (hd.clearSlot hqd hs) hpc hqd
        (fd + 1) hrun
      exact ⟨d', hrun', hstep.trans hrest⟩

end SameProc

end Context

/-! ## Copying -/

namespace Heap

variable {g h : Heap} {t u : SlotTable Nat} {os : Os} {cloexecFree : Bool}

theorem highestFdBelow_congr (hstates : ∀ fd, (slot t fd).map g.files = (slot u fd).map h.files)
    (n : Nat) : g.highestFdBelow t cloexecFree n = h.highestFdBelow u cloexecFree n := by
  induction n with
  | zero => rfl
  | succ n ih =>
    rcases Option.map_eq_map_iff.mp (hstates n) with ⟨hr, hs⟩ | ⟨r, s, hr, hs, hfile⟩
    · simp only [highestFdBelow, hr, hs, ih]
    · simp only [highestFdBelow, hr, hs, ih, hfile]

theorem highestFdBelow_lt (n : Nat) : g.highestFdBelow t cloexecFree n < n := by
  induction n with
  | zero => simp [highestFdBelow]
  | succ n ih =>
    simp only [highestFdBelow]
    split
    · split
      · omega
      · omega
    · omega

theorem length_copySlots (t : SlotTable Nat) (next : Nat) :
    (g.copySlots os cloexecFree t next).1.length = t.length := by
  induction t generalizing next with
  | nil => rfl
  | cons v t ih =>
    cases v with
    | none => simp [copySlots, ih]
    | some r =>
      simp only [copySlots]
      split <;> simp [ih]

theorem length_copyTable : (g.copyTable os cloexecFree t).1.length =
    (g.getHighestFd t cloexecFree + 1).toNat := by
  have hlt : g.highestFdBelow t cloexecFree t.length < t.length := g.highestFdBelow_lt t.length
  unfold copyTable
  unfold getHighestFd at hlt ⊢
  simp only
  split
  · rw [length_copySlots, List.length_take]
    omega
  · simp only [List.length_nil]
    omega

/-- Every descriptor of a copied table has a state of its own. -/
theorem copyTable_alone {i j r : Nat} (hi : slot (g.copyTable os cloexecFree t).1 i = some r) :
    slot (g.copyTable os cloexecFree t).1 j = some r ↔ j = i := by
  have hcopied := g.copyTable_copied os cloexecFree t
  obtain ⟨hle, hlt⟩ := hcopied.bound g hi
  have hone := hcopied.once (r - g.fileCount) (by omega)
  rw [Nat.add_sub_cancel' hle] at hone
  constructor
  · exact fun hj => slot_eq_of_refs_one hone hj hi
  · rintro rfl
    exact hi

end Heap

namespace Context

variable {Q : Type} [MaxOutFilesQueue Q] {c d c' d' : Context Q} {p q : Nat}

theorem newProcState_congr (hoptions : c.options = d.options) (os : Os) (pid ppid : Pid) :
    c.newProcState os pid ppid = d.newProcState os pid ppid := by
  unfold newProcState
  rw [hoptions]

/-- Copies of process states that are the same are the same. -/
theorem SameProc.copyProc (h : SameProc c d p q) (hoptions : c.options = d.options) (os : Os)
    (cloexecFree : Bool) (pid ppid : Pid) :
    SameProc { c with heap := c.copyProc os p cloexecFree pid ppid }
      { d with heap := d.copyProc os q cloexecFree pid ppid } c.heap.procCount d.heap.procCount := by
  have hnewc := copyProc_fds_self os c p cloexecFree pid ppid
  have hnewd := copyProc_fds_self os d q cloexecFree pid ppid
  refine ⟨?_, ?_, fun fd => ?_, fun i r s hr hs j => ?_⟩
  · simp only [copyProc_eq, Heap.newProc, Heap.newFiles_procCount, Function.update_self]
    exact newProcState_congr hoptions os pid ppid
  · simp only [hnewc, hnewd, Heap.length_copyTable, Heap.getHighestFd, h.length]
    rw [Heap.highestFdBelow_congr h.states]
  · simp only [hnewc, hnewd]
    simp only [copyProc_eq, Heap.newProc_files]
    rw [Heap.copyTable_states, Heap.copyTable_states, h.states]
  · simp only [hnewc, hnewd] at hr hs ⊢
    rw [Heap.copyTable_alone hr, Heap.copyTable_alone hs]

/-- Making a copy leaves every process state there was alone. -/
theorem SameProc.of_copyProc (hc : c.Tidy) (hp : p < c.heap.procCount) (os : Os) (src : Nat)
    (cloexecFree : Bool) (pid ppid : Pid) :
    SameProc c { c with heap := c.copyProc os src cloexecFree pid ppid } p p := by
  refine SameProc.of_eq ?_ (copyProc_fds_ne os c src cloexecFree pid ppid (Nat.ne_of_lt hp))
    fun fd r hr => c.heap.newFiles_files_old _ (hc.bound p fd r hr)
  exact congrArg ProcState.procInfo (Heap.newProc_procs_ne (c.heap.newFiles _) (Nat.ne_of_lt hp) _)

end Context

end Optrace
