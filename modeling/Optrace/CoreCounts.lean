import Optrace.Arrivals

/-!
# How often a core file is counted

The core files `RegisterCoreDump` finds in the course of `RunTracer`, and what the storage takes
of them.
-/

namespace Optrace

set_option autoImplicit false
set_option linter.unusedSectionVars false

open SlotTable Except

variable {Q : Type} [MaxOutFilesQueue Q] {arch : Arch}

namespace Context

/-! ## Calls that look for no core -/

/-- The storage got some file states whose last descriptor is gone, and no core file. -/
structure Fed (c c' : Context Q) : Prop where
  options : c'.options = c.options
  added : ∃ reports : List Report, (∀ rep ∈ reports, rep.file.isSome = true) ∧
    c'.reports = c.reports ++ reports ∧
    c'.fileStorage = (reports.map Report.output).foldl FileStorage.addFileEntry c.fileStorage

namespace Fed

variable {c c₁ c' : Context Q}

theorem of_same (hoptions : c'.options = c.options) (hreports : c'.reports = c.reports)
    (hstorage : c'.fileStorage = c.fileStorage) : c.Fed c' :=
  ⟨hoptions, [], by simp, by rw [hreports, List.append_nil], hstorage⟩

theorem refl (c : Context Q) : c.Fed c := of_same rfl rfl rfl

theorem trans (h₁ : c.Fed c₁) (h₂ : c₁.Fed c') : c.Fed c' := by
  obtain ⟨reps₁, hfiles₁, hreports₁, hstorage₁⟩ := h₁.added
  obtain ⟨reps₂, hfiles₂, hreports₂, hstorage₂⟩ := h₂.added
  refine ⟨h₂.options.trans h₁.options, reps₁ ++ reps₂, fun rep hrep => ?_, ?_, ?_⟩
  · rcases List.mem_append.mp hrep with hrep | hrep
    · exact hfiles₁ rep hrep
    · exact hfiles₂ rep hrep
  · rw [hreports₂, hreports₁, List.append_assoc]
  · rw [hstorage₂, hstorage₁, List.map_append, List.foldl_append]

theorem clearSlot (c : Context Q) (p fd r : Nat) : c.Fed (c.clearSlot p fd r) := by
  refine ⟨(c.clearSlot_sameRegistry p fd r).options, _, ?_, c.clearSlot_reports p fd r, ?_⟩
  · intro rep hrep
    split at hrep
    · rw [List.mem_singleton.mp hrep]
      rfl
    · cases hrep
  · rw [clearSlot_fileStorage]
    split <;> rfl

theorem closedAt (c : Context Q) (p fd : Nat) : c.Fed (c.closedAt p fd) := by
  unfold Context.closedAt
  split
  · exact clearSlot c p fd _
  · exact refl c

theorem steps {k : StepKind} {p : Nat} (h : TableSteps k p c c') : c.Fed c' := by
  induction h with
  | refl => exact refl c
  | tail _ hstep ih =>
    apply ih.trans
    cases hstep with
    | clear fd r _ => exact clearSlot _ p fd r
    | update fd r f _ _ => exact of_same rfl rfl rfl
    | share fd r src _ _ => exact of_same rfl rfl rfl
    | create fd s _ _ => exact of_same rfl rfl rfl
    | grow n _ => exact of_same rfl rfl rfl
    | signal kills => exact of_same rfl rfl rfl

theorem releaseProc (c : Context Q) (p : Nat) : c.Fed (c.releaseProc p) := by
  obtain ⟨hreports, hstorage, _⟩ := releaseProc_reports c p
  exact of_same (releaseProc_sameRegistry c p).options hreports hstorage

theorem vanishProcess {pid : Pid} (h : c.vanishProcess pid = .ok c') : c.Fed c' := by
  obtain ⟨p, hp⟩ := vanishProcess_mapped h
  obtain ⟨c₁, hrun, hcases⟩ := vanishProcess_ok hp
  rw [h] at hrun
  cases hrun
  have hdrop : c₁.Fed (c₁.dropPid pid p) :=
    (of_same rfl rfl rfl : c₁.Fed { c₁ with
      groupLeaders := c₁.groupLeaders.erase pid
      procMap := c₁.procMap.erase pid }).trans (releaseProc _ p)
  rcases hcases with ⟨_, rfl⟩ | ⟨_, htorn⟩
  · exact hdrop
  · exact (steps htorn.steps).trans hdrop

theorem opOnTracked {pid : Pid} {fd : Word} {f : FileState → FileState}
    (h : c.opOnTracked pid fd f = .ok c') : c.Fed c' := by
  obtain ⟨p, hp, _⟩ := bind_eq_ok_iff.mp h
  rcases opOnTracked_ok (getProcState_ok_iff.mp hp) h with ⟨_, rfl⟩ | ⟨r, _, rfl⟩
  · exact refl c'
  · exact of_same rfl rfl rfl

theorem opOpenWriteFile {os : Os} {pid : Pid} {fd flags : Word}
    (h : c.opOpenWriteFile os pid fd flags = .ok c') : c.Fed c' := by
  obtain ⟨p, hp, _⟩ := bind_eq_ok_iff.mp h
  obtain ⟨filename, kills, _, rfl⟩ := opOpenWriteFile_ok (getProcState_ok_iff.mp hp) h
  exact of_same rfl rfl rfl

theorem opDup2 {pid : Pid} {oldfd newfd : Word} {done : Bool}
    (h : c.opDup2 pid oldfd newfd = .ok (c', done)) : c.Fed c' := by
  obtain ⟨p, hp, _⟩ := bind_eq_ok_iff.mp h
  rcases opDup2_ok (getProcState_ok_iff.mp hp) h with
    ⟨_, rfl, _⟩ | ⟨_, _, rfl, _⟩ | ⟨_, r, _, rfl, _⟩
  · exact refl c'
  · exact closedAt c p _
  · exact (closedAt c p _).trans (of_same rfl rfl rfl)

theorem opDup3 {pid : Pid} {oldfd newfd flags : Word} {done : Bool}
    (h : c.opDup3 pid oldfd newfd flags = .ok (c', done)) : c.Fed c' := by
  obtain ⟨⟨c₁, done₁⟩, hdup, _⟩ := bind_eq_ok_iff.mp h
  obtain ⟨p, hp, _⟩ := bind_eq_ok_iff.mp hdup
  rcases opDup3_ok (getProcState_ok_iff.mp hp) h with hdup | ⟨c₁, r, hdup, _, rfl⟩
  · exact opDup2 hdup
  · exact (opDup2 hdup).trans (of_same rfl rfl rfl)

theorem perform {os : Os} {pid : Pid} {op : Op} (h : c.perform os pid op = .ok c') : c.Fed c' := by
  cases op with
  | opWriteChangeOffset fd offset => exact opOnTracked h
  | opWriteNoOffsetChange fd nbytes offset => exact opOnTracked h
  | opOpenWriteFile fd flags => exact opOpenWriteFile h
  | opOpenFile fd flags =>
    simp only [Context.perform, opOpenFile] at h
    split at h
    · exact opOpenWriteFile h
    · cases h
      exact refl _
  | opClose fd =>
    obtain ⟨p, hp, _⟩ := bind_eq_ok_iff.mp (h : c.opClose pid fd = .ok c')
    rw [Context.perform, opClose_eq (getProcState_ok_iff.mp hp)] at h
    cases h
    exact closedAt c p fd.toNat
  | opDup fd newfd =>
    obtain ⟨⟨c₁, done⟩, hdup, h⟩ := bind_eq_ok_iff.mp h
    cases h
    exact opDup2 hdup
  | opDup2 oldfd newfd =>
    obtain ⟨⟨c₁, done⟩, hdup, h⟩ := bind_eq_ok_iff.mp h
    cases h
    exact opDup2 hdup
  | opDup3 oldfd newfd flags =>
    obtain ⟨⟨c₁, done⟩, hdup, h⟩ := bind_eq_ok_iff.mp h
    cases h
    exact opDup3 hdup
  | opSetFlag fd flags => exact opOnTracked h
  | opResize fd size => exact opOnTracked h
  | opSeek fd pos => exact opOnTracked h

/-- Every call but `RegisterCoreDump`. -/
theorem apply {call : Call arch} (hcall : call.isCoreDump = false) (h : call.apply c = .ok c') :
    c.Fed c' := by
  cases call with
  | syscallExit os pid registers =>
    have h : c.syscallExit arch os pid registers = .ok c' := h
    unfold syscallExit at h
    split at h
    · cases h
      exact refl c
    · exact perform h
  | registerThread pid thread =>
    simp only [Call.apply, Context.registerThread] at h
    split at h
    · cases h
    · rename_i p hp
      have hinsert : c.Fed { c with procMap := c.procMap.insert thread p } := of_same rfl rfl rfl
      split at h
      · cases h
        exact hinsert
      · cases h
        exact hinsert.trans (releaseProc _ _)
  | registerProcess os parent child =>
    obtain ⟨p, _, _, rfl⟩ := registerProcess_ok h
    exact of_same rfl rfl rfl
  | registerExec os pid execpid =>
    have hexec : c.registerExec os pid execpid = .ok c' := h
    obtain ⟨p, c₁, _, hvanish, rfl⟩ := registerExec_ok hexec
    have hcopy : c.Fed { c with
        heap := c.copyProc os p true pid (c.heap.procs p).procInfo.ppid } := of_same rfl rfl rfl
    exact (hcopy.trans (vanishProcess hvanish)).trans (of_same rfl rfl rfl)
  | registerCoreDump os pid termSig => cases hcall
  | vanishProcess pid => exact vanishProcess h

theorem run {calls : List (Call arch)} (hcalls : ∀ call ∈ calls, call.isCoreDump = false)
    (h : Runs.run Call.apply c calls = .ok c') : c.Fed c' := by
  induction calls generalizing c with
  | nil =>
    cases h
    exact refl _
  | cons call calls ih =>
    obtain ⟨c₁, hc₁, h⟩ := Runs.run_cons_ok_iff.mp h
    exact (apply (hcalls call List.mem_cons_self) hc₁).trans
      (ih (fun call hcall => hcalls call (List.mem_cons_of_mem _ hcall)) h)

end Fed

end Context

/-! ## Searches -/

/-- What `SearchAndRegisterCoreDumpFile` is called with, and what it sees. -/
structure CoreSearch where
  os : Os
  pinfo : ProcInfo
  termSig : Int

/-- What the search hands to the storage. -/
def CoreSearch.found (search : CoreSearch) : Option OutputFile :=
  let filename := search.os.recoverCoreDumpFile search.pinfo.pid search.pinfo.commandName
    search.os.getCwd search.termSig
  if filename = "" then none else some ⟨getFileLength search.os filename, filename, search.pinfo⟩

/-- What the storage takes of it. -/
def CoreSearch.counted (opts : Options) (search : CoreSearch) : Option OutputFile :=
  search.found.filter (FileStorage.accepts opts.filesInReport opts.storeEmptyFiles)

/-- The two do not both end at one file that is counted. -/
def CoreSearch.Apart {F : Type} (disk : String → F) (opts : Options) (a b : CoreSearch) : Prop :=
  ∀ f ∈ a.counted opts, ∀ g ∈ b.counted opts, disk f.filename ≠ disk g.filename

namespace Context

variable {c c' : Context Q}

/-- The core files handed to the storage. -/
def coreFiles (c : Context Q) : List OutputFile :=
  (c.reports.filter fun rep => rep.file.isNone).map Report.output

/-- The core files the storage took. -/
def coreEntries (c : Context Q) : List OutputFile :=
  c.coreFiles.filter (FileStorage.accepts c.options.filesInReport c.options.storeEmptyFiles)

/-- No core file was taken twice, where `disk` tells which file a path names. -/
def CoresCountedOnce {F : Type} (disk : String → F) (c : Context Q) : Prop :=
  (c.coreEntries.map fun entry => disk entry.filename).Nodup

instance {F : Type} [DecidableEq F] (disk : String → F) (c : Context Q) :
    Decidable (c.CoresCountedOnce disk) :=
  inferInstanceAs (Decidable (List.Nodup _))

/-- The storage is what the reports made of it. -/
structure Stores (opts : Options) (c : Context Q) : Prop where
  options : c.options = opts
  storage : c.fileStorage = (c.reports.map Report.output).foldl FileStorage.addFileEntry
    (FileStorage.new opts.filesInReport opts.storeEmptyFiles)
  outputSize : c.fileStorage.getOutputSize = (((c.reports.map Report.output).filter
    (FileStorage.accepts opts.filesInReport opts.storeEmptyFiles)).map OutputFile.size).sum

theorem Stores.of_storage {opts : Options} (hoptions : c.options = opts)
    (hstorage : c.fileStorage = (c.reports.map Report.output).foldl FileStorage.addFileEntry
      (FileStorage.new opts.filesInReport opts.storeEmptyFiles)) : c.Stores opts :=
  ⟨hoptions, hstorage, by rw [hstorage, FileStorage.outputSize_eq_sum]⟩

theorem Stores.new (opts : Options) : (Context.new opts : Context Q).Stores opts :=
  .of_storage rfl rfl

theorem Stores.fed {opts : Options} (hc : c.Stores opts) (h : c.Fed c') : c'.Stores opts := by
  obtain ⟨reps, _, hreports, hstorage⟩ := h.added
  refine .of_storage (h.options.trans hc.options) ?_
  rw [hstorage, hc.storage, hreports, List.map_append, List.foldl_append]

theorem Fed.coreFiles (h : c.Fed c') : c'.coreFiles = c.coreFiles := by
  obtain ⟨reps, hfiles, hreports, _⟩ := h.added
  have hnone : reps.filter (fun rep => rep.file.isNone) = [] := by
    refine List.filter_eq_nil_iff.mpr fun rep hrep => ?_
    have hsome := hfiles rep hrep
    cases hfile : rep.file with
    | none =>
      rw [hfile] at hsome
      cases hsome
    | some r => simp
  rw [Context.coreFiles, hreports, List.filter_append, hnone, List.append_nil, Context.coreFiles]

/-- The search `RegisterCoreDump` makes for the pid. -/
def searched (os : Os) (c : Context Q) (pid : Pid) (termSig : Int) : Option CoreSearch :=
  if c.options.searchForCoreDumps then
    (c.procMap.lookup pid).map fun p => ⟨os, (c.heap.procs p).procInfo, termSig⟩
  else none

theorem registerCoreDump_found {os : Os} {pid : Pid} {termSig : Int} {opts : Options}
    (hc : c.Stores opts) (h : c.registerCoreDump os pid termSig = .ok c') :
    c'.Stores opts ∧ c'.coreFiles =
      c.coreFiles ++ ((c.searched os pid termSig).bind CoreSearch.found).toList := by
  obtain ⟨p, hp, h⟩ := bind_eq_ok_iff.mp h
  rw [getProcState_ok_iff] at hp
  unfold searched
  split at h
  · rename_i hon
    rw [pure_eq_ok_iff] at h
    subst h
    rw [if_pos hon, hp, Option.map_some, Option.bind_some, CoreSearch.found,
      searchAndRegisterCoreDumpFile]
    simp only
    split
    · exact ⟨hc, by simp⟩
    · refine ⟨.of_storage hc.options ?_, ?_⟩
      · simp only [hc.storage, List.map_append, List.foldl_append]
        rfl
      · simp [coreFiles]
  · rename_i hoff
    rw [pure_eq_ok_iff] at h
    subst h
    rw [if_neg hoff]
    exact ⟨hc, by simp⟩

end Context

namespace Tracer

variable {cfg : TracerConfig} {s s' s₁ : Tracer arch Q} {i : Heard arch}

/-- The search made in a turn. -/
def searched (s : Tracer arch Q) (i : Heard arch) : Option CoreSearch :=
  match i.wait with
  | .status pid status =>
    if !wifstopped status && wifsignaled status && wcoredump status then
      s.context.searched i.os pid (wtermsig status).toNat
    else none
  | _ => none

/-- The searches of a run, up to the turn that stops it. -/
def searches (cfg : TracerConfig) : Tracer arch Q → List (Heard arch) → List CoreSearch
  | _, [] => []
  | s, i :: is => (s.searched i).toList ++
    match s.hear cfg i with
    | .ok s' => searches cfg s' is
    | .error _ => []

theorem dumped_found {opts : Options} (hs : s.context.Stores opts) (h : s.dumped i = .ok s₁) :
    s₁.context.Stores opts ∧ s₁.context.coreFiles =
      s.context.coreFiles ++ ((s.searched i).bind CoreSearch.found).toList := by
  have hnothing : s.begin.context.Stores opts ∧ s.begin.context.coreFiles =
      s.context.coreFiles ++ ((none : Option CoreSearch).bind CoreSearch.found).toList :=
    ⟨hs, by simp [begin]⟩
  cases hwait : i.wait with
  | status pid status =>
    simp only [dumped, hwait] at h
    simp only [searched, hwait]
    split at h
    · rename_i hcore
      obtain ⟨c, hc, rfl⟩ := call_ok h
      rw [if_pos hcore]
      exact Context.registerCoreDump_found hs hc
    · rename_i hcore
      cases h
      rw [if_neg hcore]
      exact hnothing
  | _ =>
    simp only [dumped, hwait] at h
    simp only [searched, hwait]
    cases h
    exact hnothing

/-- A stop makes no search. -/
theorem searched_stops (h : i.Stops) : s.searched i = none := by
  unfold searched
  split
  · rename_i pid status hwait
    rw [h pid status hwait]
    rfl
  · rfl

theorem Steady.fed {p : Pid → Prop} (h : Steady p s s') : s.context.Fed s'.context := by
  obtain ⟨calls, hcalls, hrun⟩ := h.called
  exact Context.Fed.run hcalls hrun

theorem registration_isCoreDump (os : Os) (pid child : Pid) (isThread : Bool) :
    (registration os pid child isThread : Call arch).isCoreDump = false := by
  cases isThread <;> rfl

/-- A turn hands the storage what its search found, and no other core file. -/
theorem hear_found {opts : Options} (hs : s.context.Stores opts) (h : s.hear cfg i = .ok s') :
    s'.context.Stores opts ∧ s'.context.coreFiles =
      s.context.coreFiles ++ ((s.searched i).bind CoreSearch.found).toList := by
  have hstop : i.Stops → s.context.Fed s'.context → s'.context.Stores opts ∧
      s'.context.coreFiles =
        s.context.coreFiles ++ ((s.searched i).bind CoreSearch.found).toList := by
    intro hstops hfed
    rw [searched_stops hstops, hfed.coreFiles]
    exact ⟨hs.fed hfed, by simp⟩
  cases moved h with
  | steady hstops hsteady => exact hstop hstops hsteady.fed
  | suspended pid status hwait hstopped hpid hs' =>
    subst hs'
    exact hstop (i.stops_of_status hwait hstopped) (.refl _)
  | arrived pid event msg c signal hannounces hpid hmsg htold hc hs' =>
    obtain ⟨status, hwait, hstopped, _⟩ := hannounces
    have hfed : s.context.Fed s'.context := by
      rw [resume_inv hs']
      exact Context.Fed.apply (registration_isCoreDump _ _ _ _) hc
    exact hstop (i.stops_of_status hwait hstopped) hfed
  | dead pid status code hwait hstopped s₁ s₂ hdump hsteady hs' =>
    subst hs'
    obtain ⟨hstores, hfound⟩ := dumped_found hs hdump
    refine ⟨hstores.fed hsteady.fed, ?_⟩
    rw [← hfound]
    exact hsteady.fed.coreFiles

/-! ## Runs -/

/-- The core files of a run are those its searches found. -/
theorem run_found {opts : Options} {inputs : List (Heard arch)} (hs : s.context.Stores opts)
    (h : Runs.run (hear cfg) s inputs = .ok s') :
    s'.context.Stores opts ∧ s'.context.coreFiles =
      s.context.coreFiles ++ (searches cfg s inputs).filterMap CoreSearch.found := by
  induction inputs generalizing s with
  | nil =>
    cases h
    exact ⟨hs, by simp [searches]⟩
  | cons i inputs ih =>
    obtain ⟨s₁, hs₁, h⟩ := Runs.run_cons_ok_iff.mp h
    obtain ⟨hstores, hfound⟩ := hear_found hs hs₁
    obtain ⟨hstores', hrest⟩ := ih hstores h
    refine ⟨hstores', ?_⟩
    rw [hrest, hfound, searches, hs₁]
    cases hsearch : s.searched i with
    | none => simp
    | some search =>
      cases hfile : search.found with
      | none => simp [hfile]
      | some file => simp [hfile]

theorem searches_append {inputs : List (Heard arch)} (last : Heard arch)
    (h : Runs.run (hear cfg) s inputs = .ok s') :
    searches cfg s (inputs ++ [last]) = searches cfg s inputs ++ (s'.searched last).toList := by
  induction inputs generalizing s with
  | nil =>
    cases h
    simp only [List.nil_append, searches]
    split <;> simp
  | cons i inputs ih =>
    obtain ⟨s₁, hs₁, h⟩ := Runs.run_cons_ok_iff.mp h
    rw [List.cons_append, searches, searches, hs₁]
    simp only [ih h, List.append_assoc]

/-- In every run, up to the death it may end with, no core file is counted twice if and only if
no two searches of `RegisterCoreDump` end at one file that the storage takes. -/
theorem cores_counted_once_iff {F : Type} (disk : String → F) {opts : Options} {os : Os}
    {tracee : Pid} {c : Context Q} {inputs : List (Heard arch)} {last : Heard arch}
    (hstart : (Context.new opts : Context Q).registerTracee os tracee = .ok c)
    (hrun : Runs.run (hear cfg) (Tracer.new cfg c) inputs = .ok s) (hlast : s.dumped last = .ok s₁) :
    s₁.context.Stores opts ∧ (s₁.context.CoresCountedOnce disk ↔
      (searches cfg (Tracer.new cfg c : Tracer arch Q) (inputs ++ [last])).Pairwise
        (CoreSearch.Apart disk opts)) := by
  obtain ⟨_, hsteps⟩ := Context.registerTracee_ok hstart
  have hbegun : (Context.new opts : Context Q).Fed c := by
    have hnew : (Context.new opts : Context Q).Fed { (Context.new opts : Context Q) with
        heap := (Context.new opts : Context Q).heap.newProc
          ⟨[], (Context.new opts : Context Q).newProcState os tracee 0⟩
        groupLeaders := insert tracee (Context.new opts : Context Q).groupLeaders
        procMap := (Context.new opts : Context Q).procMap.insert tracee
          (Context.new opts : Context Q).heap.procCount } := .of_same rfl rfl rfl
    exact hnew.trans (.steps hsteps)
  have hnone : c.coreFiles = [] := hbegun.coreFiles
  have hstores : c.Stores opts := (Context.Stores.new opts).fed hbegun
  obtain ⟨hstores', hfound⟩ := run_found hstores hrun
  obtain ⟨hstores₁, hlastFound⟩ := dumped_found hstores' hlast
  refine ⟨hstores₁, ?_⟩
  have hfiles : s₁.context.coreFiles =
      (searches cfg (Tracer.new cfg c) (inputs ++ [last])).filterMap CoreSearch.found := by
    have hstart : (Tracer.new cfg c : Tracer arch Q).context.coreFiles = [] := hnone
    rw [hlastFound, hfound, searches_append last hrun, List.filterMap_append, hstart, List.nil_append]
    cases hsearch : s.searched last with
    | none => rfl
    | some search => cases hfile : search.found <;> simp [hfile]
  have hentries : s₁.context.coreEntries =
      (searches cfg (Tracer.new cfg c) (inputs ++ [last])).filterMap (CoreSearch.counted opts) := by
    rw [Context.coreEntries, hstores₁.options, hfiles, List.filter_filterMap]
    rfl
  rw [Context.CoresCountedOnce, hentries, List.Nodup, List.pairwise_map, List.pairwise_filterMap]
  rfl

end Tracer

def coreOptions : Options := { plainOptions with searchForCoreDumps := true }

/-- A system where each process has its core file of 4096 bytes. -/
def crashOs : Os :=
  { plainOs 4096 with
    recoverCoreDumpFile := fun pid _ _ _ => if pid = 1 then "/tmp/core.1" else "/tmp/core.2" }

open FileStorage in
/-- The tracker once the tracee 1 is registered. -/
def coreStart : Context FileQueue :=
  match (Context.new coreOptions).registerTracee crashOs 1 with
  | .ok c => c
  | .error _ => Context.new coreOptions

/-- The thread 2 of the tracee 1 is announced. -/
def threadOfOne : Heard .x86_64 :=
  ⟨crashOs, plainPtrace 2 0x10000 (entryRegs 0), .status 1 (Notice.cloned .clone 56).status⟩

/-- The child 2 of the tracee 1 is announced. -/
def childOfOne : Heard .x86_64 :=
  ⟨crashOs, plainPtrace 2 0 (entryRegs 0), .status 1 (Notice.cloned .fork 57).status⟩

/-- A tracee is killed by `SIGSEGV` and dumps core. -/
def crashOf (pid : Pid) : Heard .x86_64 :=
  ⟨crashOs, plainPtrace 0 0 (entryRegs 0), .status pid (Notice.killed 11 true).status⟩

open FileStorage in
/-- The crashes of two processes are counted once each. -/
theorem cores_counted_once_processes :
    ∃ s s₁ : Tracer .x86_64 FileQueue,
      Runs.run (Tracer.hear plainConfig) (Tracer.new plainConfig coreStart)
        [childOfOne, crashOf 2] = .ok s ∧
      s.dumped (crashOf 1) = .ok s₁ ∧ s₁.context.CoresCountedOnce id ∧
      s₁.context.fileStorage.getOutputSize = 8192 := by
  refine ⟨_, _, rfl, rfl, ?_, by decide⟩
  refine (@Tracer.cores_counted_once_iff FileQueue _ .x86_64 plainConfig _ _ String id coreOptions
    crashOs 1 coreStart [childOfOne, crashOf 2] (crashOf 1) rfl rfl rfl).2.mpr ?_
  refine List.pairwise_pair.mpr ?_
  rintro _ ⟨⟩ _ ⟨⟩
  decide

open FileStorage in
/-- That of a process with two threads is counted twice. -/
theorem cores_counted_twice :
    ∃ s s₁ : Tracer .x86_64 FileQueue,
      Runs.run (Tracer.hear plainConfig) (Tracer.new plainConfig coreStart)
        [threadOfOne, crashOf 2] = .ok s ∧
      s.dumped (crashOf 1) = .ok s₁ ∧ ¬s₁.context.CoresCountedOnce id ∧
      s₁.context.fileStorage.getOutputSize = 8192 := by
  refine ⟨_, _, rfl, rfl, ?_⟩
  decide

end Optrace
