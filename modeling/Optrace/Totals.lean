import Optrace.Report
import Optrace.Schedules

/-!
# What a run reports in the end

`PostProcess` lets every process that is left vanish and prints the report. From the text of the report
back to the file states of the run: each is in the total once, and the rows are the largest of them.
-/

namespace Optrace

set_option autoImplicit false
set_option linter.unusedSectionVars false

open SlotTable Except Context FileStorage Collections

variable {Q : Type} [MaxOutFilesQueue Q] {arch : Arch}

namespace Context

/-- The reports that were made from no file state: those of core files. -/
def coreReports (c : Context Q) : List Report := c.reports.filter fun rep => rep.file = none

/-- One report for each file state. -/
def stateReports (c : Context Q) (owner : Nat → ProcInfo) : List Report :=
  (List.range c.heap.fileCount).map fun r => ⟨some r, OutputFile.ofState (c.heap.files r) (owner r)⟩

/-- With no process left, the reports are one for each file state, and those of the core files. -/
theorem Owned.reports_perm {c : Context Q} {retired : Finset Pid} (hc : c.Owned retired)
    (hdone : c.procMap = ∅) : ∃ owner, c.reports.Perm (c.stateReports owner ++ c.coreReports) := by
  have hone : ∀ r, ∃ pinfo, r < c.heap.fileCount → c.reports.filter (fun rep => rep.file == some r) =
      [⟨some r, OutputFile.ofState (c.heap.files r) pinfo⟩] := by
    intro r
    by_cases hr : r < c.heap.fileCount
    · obtain ⟨pinfo, hfilter⟩ := hc.tidy.filter_reports hr (hc.useCount_zero hdone r)
      exact ⟨pinfo, fun _ => hfilter⟩
    · exact ⟨default, fun h => absurd h hr⟩
  choose owner howner using hone
  refine ⟨owner, perm_of_filters Report.file fun k => ?_⟩
  cases k with
  | none =>
    have hstates : (c.stateReports owner).filter (fun rep => rep.file = none) = [] := by
      refine List.filter_eq_nil_iff.mpr fun rep hrep => ?_
      obtain ⟨r, -, rfl⟩ := List.mem_map.mp hrep
      simp
    rw [List.filter_append, hstates, List.nil_append, coreReports, List.filter_filter]
    simp
  | some r =>
    have hcores : c.coreReports.filter (fun rep => rep.file = some r) = [] := by
      refine List.filter_eq_nil_iff.mpr fun rep hrep => ?_
      have hnone := of_decide_eq_true (List.mem_filter.mp hrep).2
      simp [hnone]
    rw [List.filter_append, hcores, List.append_nil]
    have hsame : (fun rep : Report => decide (rep.file = some r)) = fun rep => rep.file == some r :=
      funext fun rep => (Bool.beq_eq_decide_eq _ _).symm
    rw [hsame]
    by_cases hr : r < c.heap.fileCount
    · rw [howner r hr, stateReports, List.filter_map]
      have hrange : (List.range c.heap.fileCount).filter
          ((fun rep : Report => rep.file == some r) ∘ fun r =>
            ⟨some r, OutputFile.ofState (c.heap.files r) (owner r)⟩) = [r] := by
        have hsame : ((fun rep : Report => rep.file == some r) ∘ fun r =>
            (⟨some r, OutputFile.ofState (c.heap.files r) (owner r)⟩ : Report)) =
            fun r' => r' == r := rfl
        rw [hsame, List.filter_beq,
          List.count_eq_one_of_mem List.nodup_range (List.mem_range.mpr hr), List.replicate_one]
      rw [hrange]
      rfl
    · have hold : c.reports.filter (fun rep => rep.file == some r) = [] := by
        refine List.filter_eq_nil_iff.mpr fun rep hrep heq => hr ?_
        exact hc.tidy.known rep hrep r (beq_iff_eq.mp heq)
      have hnew : (c.stateReports owner).filter (fun rep => rep.file == some r) = [] := by
        refine List.filter_eq_nil_iff.mpr fun rep hrep heq => hr ?_
        obtain ⟨r', hr', rfl⟩ := List.mem_map.mp hrep
        rw [← Option.some.inj (beq_iff_eq.mp heq)]
        exact List.mem_range.mp hr'
      rw [hold, hnew]

/-- The sizes of the file states and of the core files. -/
def allSizes (c : Context Q) : List Nat :=
  ((List.range c.heap.fileCount).map fun r => (c.heap.files r).getOutputSize.toNat) ++
    c.coreReports.map fun rep => byteCount rep.output

theorem Owned.sizes_perm {c : Context Q} {retired : Finset Pid} (hc : c.Owned retired)
    (hdone : c.procMap = ∅) : (c.outputs.map byteCount).Perm c.allSizes := by
  obtain ⟨owner, hperm⟩ := hc.reports_perm hdone
  have hsizes := (hperm.map Report.output).map byteCount
  rw [List.map_append, List.map_append] at hsizes
  have hstates : ((c.stateReports owner).map Report.output).map byteCount =
      (List.range c.heap.fileCount).map fun r => (c.heap.files r).getOutputSize.toNat := by
    rw [stateReports, List.map_map, List.map_map]
    rfl
  have hcores : (c.coreReports.map Report.output).map byteCount =
      c.coreReports.map fun rep => byteCount rep.output := by
    rw [List.map_map]
    rfl
  rw [hstates, hcores] at hsizes
  exact hsizes

/-- What the storage lets in, told by the size. -/
def acceptsSize (opts : Options) (size : Nat) : Bool := opts.storeEmptyFiles || decide (size ≠ 0)

/-- With a capacity, all that is left out is empty. -/
theorem Owned.storage_eq {c : Context Q} {retired : Finset Pid} (hc : c.Owned retired)
    (hdone : c.procMap = ∅) (hfiles : c.options.filesInReport ≠ 0) :
    c.fileStorage.getOutputSize.toNat = c.allSizes.sum % 2 ^ 64 ∧
    c.fileStorage.getLargestFiles.map (Option.map byteCount) =
      ((((c.allSizes.filter (acceptsSize c.options) : List Nat) : Multiset Nat).sort (· ≥ ·)).take
        (keptCount (limit c.options.filesInReport)
          (c.allSizes.filter (acceptsSize c.options)).length)).map some := by
  have haccepts : accepts c.options.filesInReport c.options.storeEmptyFiles =
      acceptsSize c.options ∘ byteCount := by
    funext file
    have hzero : decide (file.size ≠ 0) = decide (byteCount file ≠ 0) := by
      refine decide_eq_decide.mpr (not_congr ?_)
      rw [byteCount, ← BitVec.toNat_inj]
      rfl
    rw [accepts, decide_eq_true hfiles, Bool.true_and, hzero]
    rfl
  have hsizes := hc.sizes_perm hdone
  have haccepted : ((c.outputs.filter (accepts c.options.filesInReport c.options.storeEmptyFiles)).map
      byteCount).Perm (c.allSizes.filter (acceptsSize c.options)) := by
    rw [haccepts, ← List.filter_map]
    exact hsizes.filter _
  have hstored := hc.tidy.stored
  constructor
  · rw [hstored, outputSize_eq_sum, toNat_sum, List.map_map]
    have hsum : ((c.outputs.filter (accepts c.options.filesInReport
        c.options.storeEmptyFiles)).map byteCount).sum = c.allSizes.sum := by
      rw [haccepted.sum_eq]
      induction c.allSizes with
      | nil => rfl
      | cons size sizes ih =>
        by_cases hsize : acceptsSize c.options size = true
        · rw [List.filter_cons_of_pos hsize, List.sum_cons, List.sum_cons, ih]
        · have hzero : size = 0 := by
            by_contra hne
            exact hsize (by simp [acceptsSize, hne])
          rw [List.filter_cons_of_neg hsize, ih, List.sum_cons, hzero, Nat.zero_add]
    rw [← hsum]
    rfl
  · rw [hstored, listed_sizes]
    have hmultiset : ((c.outputs.filter (accepts c.options.filesInReport
        c.options.storeEmptyFiles) : Multiset OutputFile).map byteCount) =
        (c.allSizes.filter (acceptsSize c.options) : List Nat) :=
      Multiset.coe_eq_coe.mpr haccepted
    have hcard : (c.outputs.filter (accepts c.options.filesInReport
        c.options.storeEmptyFiles)).length = (c.allSizes.filter (acceptsSize c.options)).length := by
      rw [← haccepted.length_eq, List.length_map]
    have houtputs : (c.reports.map Report.output) = c.outputs := rfl
    rw [houtputs, hmultiset, Multiset.coe_card, hcard]

end Context

/-- The text of a plain size. -/
def plainSize (n : Nat) : String := toString n ++ "b"

theorem rows_sizes {opts : Options} (hplain : opts.humanReadableSizes = false)
    {entries : List (OutputFile × Word)} {rows : List Row}
    (h : List.Forall₂ (RowOf opts) entries rows) :
    rows.map Row.size = (entries.map fun e => byteCount e.1).map plainSize := by
  induction h with
  | nil => rfl
  | cons hrow _ ih =>
    have hsize := hrow.size
    rw [sizeText, hplain, if_neg Bool.false_ne_true] at hsize
    rw [List.map_cons, List.map_cons, List.map_cons, ih, ← Except.ok.inj hsize]
    rfl

theorem plain_prints (order : SetOrder) {opts : Options} (hplain : opts.humanReadableSizes = false)
    (listed : Listed) (outputSize : Word) : ∃ text, printReport order opts listed outputSize = .ok text := by
  have hline : ∀ e, ∃ line, entryLine opts (padding opts listed.entries) e = .ok line := by
    intro e
    unfold entryLine sizeColumn
    rw [hplain, if_neg Bool.false_ne_true]
    exact ⟨_, rfl⟩
  have hrows : ∀ entries : List (OutputFile × Word),
      ∃ rows, entries.mapM (entryLine opts (padding opts listed.entries)) = .ok rows := by
    intro entries
    induction entries with
    | nil => exact ⟨[], rfl⟩
    | cons e entries ih =>
      obtain ⟨line, hline⟩ := hline e
      obtain ⟨rows, hrows⟩ := ih
      exact ⟨line :: rows, by rw [List.mapM_cons, hline, bind_ok, hrows, bind_ok]; rfl⟩
  obtain ⟨rows, hrows⟩ := hrows listed.entries
  have htotal : sizeText opts outputSize = .ok (plainSize outputSize.toNat) := by
    rw [sizeText, hplain, if_neg Bool.false_ne_true, plainSize]
  unfold printReport reportLines
  rw [hrows, bind_ok, htotal, bind_ok]
  exact ⟨_, rfl⟩

/-- What a run reports, read back from the text of its report: the total is that of all file states
and core files, the rows have the largest sizes of those that count, largest first, and each process
of a row is in the legend once. -/
theorem report_of_run {opts : Options} {os : Os} {tracee : Pid} {c₀ : Context Q}
    {calls : List (Call arch)} {s : Tracked Q} (order : HashOrder) (setOrder : SetOrder)
    (hplain : opts.humanReadableSizes = false) (hfiles : opts.filesInReport ≠ 0)
    (hstart : (Context.new opts : Context Q).registerTracee os tracee = .ok c₀)
    (hallowed : Runs.Along Tracked.step Tracked.Allowed ⟨c₀, ∅⟩ calls)
    (hrun : Runs.run Tracked.step ⟨c₀, ∅⟩ calls = .ok s) :
    ∃ c, s.context.vanishAll order s.context.procMap.keys.card = some (.ok c) ∧ c.procMap = ∅ ∧
      c.heap.fileCount = s.context.heap.fileCount ∧
      ∀ listed : Listed, listed.entries.map (fun e => some e.1) = c.fileStorage.getLargestFiles →
        OneLine opts listed →
        ∃ text d, printReport setOrder opts listed c.fileStorage.getOutputSize = .ok text ∧
          readLog text = some [d] ∧ Shows opts listed c.fileStorage.getOutputSize d ∧
          d.total = plainSize (c.allSizes.sum % 2 ^ 64) ∧
          d.rows.map Row.size =
            ((((c.allSizes.filter (acceptsSize opts) : List Nat) : Multiset Nat).sort (· ≥ ·)).take
              (keptCount (limit opts.filesInReport)
                (c.allSizes.filter (acceptsSize opts)).length)).map plainSize := by
  have hinv := Tracked.inv_run hstart hallowed hrun
  obtain ⟨c, retired, hloop, howned, hdone, hcount, hoptions⟩ := hinv.vanishAll order _ le_rfl
  rw [Tracked.options_run hstart hallowed hrun] at hoptions
  refine ⟨c, hloop, hdone, hcount, fun listed hlisted hone => ?_⟩
  have hstorage := howned.storage_eq hdone (hoptions.symm ▸ hfiles)
  rw [hoptions] at hstorage
  obtain ⟨text, htext⟩ := plain_prints setOrder hplain listed c.fileStorage.getOutputSize
  let p : Printing := ⟨setOrder, opts, listed, c.fileStorage.getOutputSize, hone⟩
  obtain ⟨d, hshows, hread⟩ := readLog_print (p := p) readLog_empty htext
  have htotal := hshows.total
  have hrows := rows_sizes hplain hshows.rows
  refine ⟨text, d, htext, by rwa [String.empty_append] at hread, hshows, ?_, ?_⟩
  · rw [sizeText, hplain, if_neg Bool.false_ne_true] at htotal
    rw [← Except.ok.inj htotal, plainSize, ← hstorage.1]
  · have hkeys : (listed.entries.map fun e => byteCount e.1).map some =
        c.fileStorage.getLargestFiles.map (Option.map byteCount) := by
      rw [← hlisted, List.map_map, List.map_map]
      rfl
    rw [hstorage.2] at hkeys
    have hsizes := List.map_injective_iff.mpr (Option.some_injective Nat) hkeys
    rw [hrows, hsizes]

/-- The tracee writes after its child has closed its copy. -/
def writeAfterClose : List (Call .x86_64) := openForkClose ++ [exitOf 0 1 1 10 3 0 10 0]

/-- The one file of the report. -/
def listedOut : Listed := ⟨[(⟨10, "out", ⟨1, 0, "", ""⟩⟩, 64)], by simp⟩

theorem report_of_run_fork :
    ∃ (s : Tracked FileQueue) (c : Context FileQueue) (text : String) (d : Summary),
      Runs.run Tracked.step ⟨plainStart, ∅⟩ writeAfterClose = .ok s ∧
      s.context.vanishAll .smallest 2 = some (.ok c) ∧
      listedOut.entries.map (fun e => some e.1) = c.fileStorage.getLargestFiles ∧
      printReport .ascending plainOptions listedOut c.fileStorage.getOutputSize = .ok text ∧
      readLog text = some [d] ∧ d.total = "10b" ∧ d.rows.length = 1 := by
  obtain ⟨c, hloop, -, -, hreport⟩ := @report_of_run FileQueue _ .x86_64 plainOptions
    (plainOs 0) 1 _ writeAfterClose _ .smallest .ascending rfl (by decide) rfl (by decide) rfl
  cases hloop
  have hone : OneLine plainOptions listedOut := by
    intro e he
    rw [List.mem_singleton.mp he]
    decide
  obtain ⟨text, d, htext, hread, hshows, htotal, -⟩ := hreport listedOut rfl hone
  exact ⟨_, _, text, d, rfl, rfl, rfl, htext, hread, htotal, hshows.rows.length_eq.symm⟩

end Optrace
