import Optrace.Report
import Optrace.Trace

/-!
# The file the reports go to

`main` opens the output file once before it traces, and `PrintReport` opens it again. A file that many
runs of optrace report to is a log of their reports.
-/

namespace Optrace

set_option autoImplicit false

open Except

/-- The files there are, and what is in them. -/
abbrev Disk := String → Option String

/-- An `std::ofstream` that opens: the file is there, and empty if it is not appended to. -/
def Disk.openOut (disk : Disk) (name : String) (append : Bool) : Disk :=
  Function.update disk name (some (if append then (disk name).getD "" else ""))

def Disk.write (disk : Disk) (name text : String) : Disk :=
  Function.update disk name ((disk name).map (· ++ text))

/-- The disk, and what optrace wrote to the error stream. -/
structure World where
  disk : Disk
  cerr : String

def failedToOpen (name reason : String) : String := "Failed to open " ++ name ++ ": " ++ reason ++ "\n"

/-- The check of `main` on the output file; without one, optrace does not get to trace. -/
def checkOutput (openError : String → Bool → Option String) (opts : Options) (w : World) :
    World × Bool :=
  if opts.output = "" then (w, true)
  else
    match openError opts.output opts.appendOutput with
    | some reason => ({ w with cerr := w.cerr ++ failedToOpen opts.output reason }, false)
    | none => ({ w with disk := w.disk.openOut opts.output opts.appendOutput }, true)

/-- The stream of `PrintReport`: the error stream, if the file does not open. -/
def deliver (openError : String → Bool → Option String) (opts : Options) (text : String)
    (w : World) : World :=
  if opts.output = "" then { w with cerr := w.cerr ++ text }
  else
    match openError opts.output opts.appendOutput with
    | some reason => { w with cerr := w.cerr ++ failedToOpen opts.output reason ++ text }
    | none =>
      { w with disk := (w.disk.openOut opts.output opts.appendOutput).write opts.output text }

/-- A run of optrace, with the report it has to print, what the two attempts to open the file
come to, and what the traced program does to the disk. -/
structure Session where
  printing : Printing
  checkError : String → Bool → Option String
  reportError : String → Bool → Option String
  work : Disk → Disk

namespace Session

def opts (s : Session) : Options := s.printing.opts

/-- `main` up to the trace, the trace, and the end of `PostProcess`. -/
def run (w : World) (s : Session) : Except Abort World :=
  match checkOutput s.checkError s.opts w with
  | (w, false) => .ok w
  | (w, true) =>
    let w := { w with disk := s.work w.disk }
    if s.opts.filesInReport = 0 then .ok w
    else do
      let text ← s.printing.print
      return deliver s.reportError s.opts text w

/-- The run reports to the file of the given name, or at least gets to trace for it. -/
def Starts (name : String) (s : Session) : Prop :=
  s.opts.output = name ∧ s.checkError name s.opts.appendOutput = none

def Reports (name : String) (s : Session) : Prop :=
  s.Starts name ∧ s.opts.filesInReport ≠ 0 ∧ s.reportError name s.opts.appendOutput = none

/-- What a run makes of a log: nothing if it does not get to trace, else it adds its report, after
clearing the log if it does not append. -/
inductive Extends (name : String) : List Summary → Session → List Summary → Prop where
  | other (ds : List Summary) (s : Session) (h : ¬ s.Starts name) : Extends name ds s ds
  | silent (ds : List Summary) (s : Session) (h : s.Starts name) (hno : ¬ s.Reports name) :
      Extends name ds s (if s.opts.appendOutput then ds else [])
  | report (ds : List Summary) (s : Session) (d : Summary) (h : s.Reports name)
      (hshows : s.printing.Shows d) :
      Extends name ds s ((if s.opts.appendOutput then ds else []) ++ [d])

/-- The log after several runs. -/
inductive Logged (name : String) : List Summary → List Session → List Summary → Prop where
  | nil (ds : List Summary) : Logged name ds [] ds
  | cons {ds ds' ds'' : List Summary} {s : Session} {sessions : List Session}
      (h : Extends name ds s ds') (hrest : Logged name ds' sessions ds'') :
      Logged name ds (s :: sessions) ds''

end Session

/-- What is read from a file; one that is not there is an empty log. -/
def Disk.log (disk : Disk) (name : String) : Option (List Summary) := readLog ((disk name).getD "")

namespace Disk

variable {disk disk' : Disk} {name other : String}

theorem log_congr (h : disk' name = disk name) : disk'.log name = disk.log name := by
  rw [log, log, h]

@[simp] theorem openOut_ne (append : Bool) (h : name ≠ other) :
    disk.openOut other append name = disk name :=
  Function.update_of_ne h _ _

@[simp] theorem write_ne (text : String) (h : name ≠ other) :
    disk.write other text name = disk name :=
  Function.update_of_ne h _ _

theorem log_openOut (append : Bool) {ds : List Summary} (h : disk.log name = some ds) :
    (disk.openOut name append).log name = some (if append then ds else []) := by
  rw [log, openOut, Function.update_self, Option.getD_some]
  cases append with
  | true => exact h
  | false => exact readLog_empty

/-- Opened twice, with nothing written in between, is opened once. -/
theorem openOut_openOut (append : Bool) (h : disk' name = disk.openOut name append name) :
    disk'.openOut name append name = disk.openOut name append name := by
  have hopen : disk.openOut name append name =
      some (if append then (disk name).getD "" else "") := Function.update_self ..
  rw [openOut, Function.update_self, h, hopen, Option.getD_some]
  cases append <;> rfl

end Disk

namespace Session

variable {name : String} {w w' : World} {s : Session} {ds : List Summary}

/-- The traced program leaves the log to optrace. -/
def Spares (name : String) (s : Session) : Prop := ∀ disk, s.work disk name = disk name

theorem checkOutput_eq (hname : name ≠ "") (s : Session) (w : World) :
    (s.Starts name → checkOutput s.checkError s.opts w =
      ({ w with disk := w.disk.openOut name s.opts.appendOutput }, true)) ∧
    (¬ s.Starts name → (checkOutput s.checkError s.opts w).1.disk name = w.disk name ∧
      ((checkOutput s.checkError s.opts w).2 = true → s.opts.output ≠ name)) := by
  constructor
  · rintro ⟨houtput, hcheck⟩
    rw [checkOutput, if_neg (houtput ▸ hname), houtput, hcheck]
  · intro hno
    unfold checkOutput
    split
    · rename_i hempty
      exact ⟨rfl, fun _ heq => hname (heq.symm.trans hempty)⟩
    · split
      · exact ⟨rfl, fun h => absurd h Bool.false_ne_true⟩
      · rename_i hcheck
        have hne : s.opts.output ≠ name := fun heq => hno ⟨heq, heq ▸ hcheck⟩
        exact ⟨Disk.openOut_ne _ hne.symm, fun _ => hne⟩

theorem deliver_ne (hne : s.opts.output ≠ name) (text : String) (w : World) :
    (deliver s.reportError s.opts text w).disk name = w.disk name := by
  unfold deliver
  split
  · rfl
  · split
    · rfl
    · simp only [Disk.write_ne _ (Ne.symm hne), Disk.openOut_ne _ (Ne.symm hne)]

/-- One run of optrace, and what it leaves in the log. -/
theorem run_extends (hname : name ≠ "") (hspares : s.Spares name) (hlog : w.disk.log name = some ds)
    (hrun : s.run w = .ok w') : ∃ ds', Extends name ds s ds' ∧ w'.disk.log name = some ds' := by
  obtain ⟨hstarts, hother⟩ := checkOutput_eq hname s w
  by_cases hstart : s.Starts name
  · rw [run, hstarts hstart] at hrun
    simp only at hrun
    have hopened := w.disk.log_openOut s.opts.appendOutput hlog
    -- the trace leaves the log as the check of `main` found it
    have hkept := hspares (w.disk.openOut name s.opts.appendOutput)
    split at hrun
    · rename_i hzero
      cases hrun
      exact ⟨_, .silent ds s hstart fun hno => hno.2.1 hzero, (Disk.log_congr hkept).trans hopened⟩
    · rename_i hfiles
      obtain ⟨text, htext, hrun⟩ := bind_eq_ok_iff.mp hrun
      rw [pure_eq_ok_iff] at hrun
      subst hrun
      have houtput := hstart.1
      rw [deliver, if_neg (houtput ▸ hname), houtput]
      cases herror : s.reportError name s.opts.appendOutput with
      | some reason =>
        refine ⟨_, .silent ds s hstart fun hno => ?_, (Disk.log_congr hkept).trans hopened⟩
        rw [hno.2.2] at herror
        cases herror
      | none =>
        have htwice := Disk.openOut_openOut s.opts.appendOutput hkept
        have hcontent : w.disk.openOut name s.opts.appendOutput name =
            some (if s.opts.appendOutput then (w.disk name).getD "" else "") :=
          Function.update_self ..
        rw [Disk.log, hcontent, Option.getD_some] at hopened
        obtain ⟨d, hshows, hread⟩ := readLog_print hopened htext
        refine ⟨_, .report ds s d ⟨hstart, hfiles, herror⟩ hshows, ?_⟩
        simp only [Disk.log, Disk.write, Function.update_self]
        rw [htwice, hcontent]
        exact hread
  · obtain ⟨hsame, hne⟩ := hother hstart
    have hlog' : w'.disk name = w.disk name := by
      unfold run at hrun
      split at hrun
      · rename_i hcheck
        cases hrun
        rw [hcheck] at hsame
        exact hsame
      · rename_i w₁ hcheck
        rw [hcheck] at hsame hne
        have hne := hne rfl
        have hkept := (hspares w₁.disk).trans hsame
        split at hrun
        · cases hrun
          exact hkept
        · obtain ⟨text, -, hrun⟩ := bind_eq_ok_iff.mp hrun
          rw [pure_eq_ok_iff] at hrun
          rw [← hrun, deliver_ne hne]
          exact hkept
    exact ⟨ds, .other ds s hstart, (Disk.log_congr hlog').trans hlog⟩

/-- A file that holds a log goes on to hold one, whatever runs of optrace there are and in which
order: after each of them the log reads back as the reports that went into it. -/
theorem log_reads_back {sessions : List Session} (hname : name ≠ "")
    (hspares : ∀ s ∈ sessions, s.Spares name) (hlog : w.disk.log name = some ds)
    (hrun : Runs.run run w sessions = .ok w') :
    ∃ ds', Logged name ds sessions ds' ∧ w'.disk.log name = some ds' := by
  induction sessions generalizing w ds with
  | nil =>
    cases hrun
    exact ⟨ds, .nil ds, hlog⟩
  | cons s sessions ih =>
    obtain ⟨w₁, hfirst, hrun⟩ := Runs.run_cons_ok_iff.mp hrun
    obtain ⟨ds₁, hextends, hlog₁⟩ := run_extends hname (hspares s List.mem_cons_self) hlog hfirst
    obtain ⟨ds', hlogged, hlog'⟩ := ih (fun s hs => hspares s (List.mem_cons_of_mem _ hs)) hlog₁ hrun
    exact ⟨ds', .cons hextends hlogged, hlog'⟩

/-- A report about one file, in a run that appends to `log`. -/
def appending : Session where
  printing :=
    { order := .ascending
      opts := { plainOptions with output := "log", appendOutput := true, commandLengthLimit := 120 }
      listed := ⟨[(⟨10, "out", ⟨1, 0, "cp", "cp in out"⟩⟩, 64)], by simp⟩
      outputSize := 10
      oneLine := by
        intro e he
        rw [List.mem_singleton.mp he]
        decide }
  checkError _ _ := none
  reportError _ _ := none
  work := id

theorem log_reads_back_twice :
    ∃ w' ds', Runs.run run ⟨fun _ => none, ""⟩ [appending, appending] = .ok w' ∧
      Logged "log" [] [appending, appending] ds' ∧ w'.disk.log "log" = some ds' := by
  have hspares : ∀ s ∈ [appending, appending], s.Spares "log" := by
    intro s hs disk
    simp only [List.mem_cons, List.not_mem_nil, or_false, or_self] at hs
    rw [hs]
    rfl
  obtain ⟨ds', hlogged, hlog⟩ := @log_reads_back "log" ⟨fun _ => none, ""⟩ _ []
    [appending, appending] (by decide) hspares readLog_empty rfl
  exact ⟨_, ds', rfl, hlogged, hlog⟩

end Session

end Optrace
