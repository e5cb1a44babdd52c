import Optrace.Types
import Optrace.Lib.Getopt

/-!
# The command line

`main.cpp`, and the part of `TraceProgram` that sets up the signals it asked for. Whether the output
file can be opened is asked of the running system, which answers with the text of the error if not.
-/

namespace Optrace

set_option autoImplicit false

open Getopt

namespace CommandLine

def SIGINT : Int := 2
def SIGABRT : Int := 6
def SIGKILL : Int := 9
def SIGSTOP : Int := 19

def getDefaults : Options where
  output := ""
  appendOutput := false
  followForks := true
  waitDaemons := false
  jailForks := true
  humanReadableSizes := false
  filesInReport := -1
  commandLengthLimit := 120
  useSecComp := true
  searchForCoreDumps := true
  forwardingSignals := [SIGINT]
  forwardAllSignals := false
  storeEmptyFiles := false
  interruptionTarget := ""
  interruptionSignal := 0

def tables : Tables where
  short := "+FJwho:ac:r:j:CDes:Si:I:h"
  long := [
    ⟨"no-follow-forks", false, 'F'⟩,
    ⟨"no-jail-forks", false, 'J'⟩,
    ⟨"wait-daemons", false, 'w'⟩,
    ⟨"human-readable", false, 'h'⟩,
    ⟨"output", true, 'o'⟩,
    ⟨"append", false, 'a'⟩,
    ⟨"cmdline-size", true, 'c'⟩,
    ⟨"report-size", true, 'r'⟩,
    ⟨"threads", true, 'j'⟩,
    ⟨"no-seccomp", false, 'C'⟩,
    ⟨"no-coredumps", false, 'D'⟩,
    ⟨"empty-files", false, 'e'⟩,
    ⟨"forward-sig", true, 's'⟩,
    ⟨"forward-all-signals", false, 'S'⟩,
    ⟨"interruption-target", true, 'i'⟩,
    ⟨"interruption-sig", true, 'I'⟩,
    ⟨"help", false, Char.ofNat 0⟩]

def isBlank (ch : Char) : Bool :=
  ch == ' ' || ch == '\t' || ch == '\n' || ch == '\r' || ch.toNat == 11 || ch.toNat == 12

/-- `atoi`: the low half of what `strtol` reads, which stops at the ends of a `long`. -/
def atoi (text : String) : Int :=
  let chars := text.toList.dropWhile isBlank
  let magnitude := fun digits : List Char => (Nat.ofDigitChars 10 (digits.takeWhile Char.isDigit) 0 : Int)
  let value := match chars with
    | '-' :: digits => max (-2 ^ 63) (-magnitude digits)
    | '+' :: digits => min (2 ^ 63 - 1) (magnitude digits)
    | digits => min (2 ^ 63 - 1) (magnitude digits)
  (BitVec.ofInt 32 value).toInt

/-- What the loop of `main` works on, and the lines it wrote to the error stream. -/
structure State where
  optraceOpts : Options
  cerr : List String

/-- A size on the command line: everything that begins with a dash stands for no limit. -/
def sizeLimit (optarg : String) : Int := if optarg.toList.head? = some '-' then -1 else atoi optarg

/-- The check on a signal number says that it is wrong, and goes on. -/
def checkSignum (signum : Int) (cerr : List String) : List String :=
  if 31 < signum then cerr ++ ["Invalid signal number: " ++ toString signum] else cerr

/-- The cases of the switch that do not return. -/
def optionCase (c : Char) (optarg : String) (s : State) : State :=
  let opts := s.optraceOpts
  match c with
  | 'F' => { s with optraceOpts := { opts with followForks := false } }
  | 'J' => { s with optraceOpts := { opts with jailForks := false } }
  | 'W' => { s with optraceOpts := { opts with waitDaemons := true } }
  | 'h' => { s with optraceOpts := { opts with humanReadableSizes := true } }
  | 'o' => { s with optraceOpts := { opts with output := optarg } }
  | 'a' => { s with optraceOpts := { opts with appendOutput := true } }
  | 'c' => { s with optraceOpts := { opts with commandLengthLimit := sizeLimit optarg } }
  | 'r' => { s with optraceOpts := { opts with filesInReport := sizeLimit optarg } }
  | 'C' => { s with optraceOpts := { opts with useSecComp := false } }
  | 'D' => { s with optraceOpts := { opts with searchForCoreDumps := false } }
  | 's' =>
    let signum := atoi optarg
    ⟨{ opts with forwardingSignals := opts.forwardingSignals ++ [signum] }, checkSignum signum s.cerr⟩
  | 'S' => { s with optraceOpts := { opts with forwardAllSignals := true } }
  | 'e' => { s with optraceOpts := { opts with storeEmptyFiles := true } }
  | 'i' =>
    { s with optraceOpts := { opts with
        interruptionTarget := optarg
        interruptionSignal :=
          if opts.interruptionSignal = 0 then SIGABRT else opts.interruptionSignal } }
  | 'I' =>
    let signum := atoi optarg
    ⟨{ opts with interruptionSignal := signum }, checkSignum signum s.cerr⟩
  | _ => s

/-- The option loop, over what `getopt_long` returns; the number is what `main` returns in it. -/
def optionLoop : List Return → State → State × Option Int
  | [], s => (s, none)
  | .unknown :: _, s => (s, some 1)
  | .option c optarg :: rs, s =>
    if c = Char.ofNat 0 then (s, some 0) else optionLoop rs (optionCase c optarg s)

inductive Result where
  | returns (rc : Int) (cerr : List String)
  | traceProgram (argv : List String) (opts : Options) (cerr : List String)

/-- `main`, on the elements behind the program's own name. -/
def main (openError : String → Bool → Option String) (args : List String) : Result :=
  let (rs, argv) := tables.returns args
  match optionLoop rs ⟨getDefaults, []⟩ with
  | (s, some rc) => .returns rc s.cerr
  | (s, none) =>
    if argv = [] then
      .returns 1 (s.cerr ++ ["optrace: must have PROG [ARGS]", "Try 'optrace --help' for more information."])
    else if s.optraceOpts.output = "" then .traceProgram argv s.optraceOpts s.cerr
    else
      match openError s.optraceOpts.output s.optraceOpts.appendOutput with
      | some text => .returns 1 (s.cerr ++ ["Failed to open " ++ s.optraceOpts.output ++ ": " ++ text])
      | none => .traceProgram argv s.optraceOpts s.cerr

/-! ## The signals -/

/-- `sigaction` of the running system: the C library keeps the signals 32 and 33 for itself. -/
def sigaction (signum : Int) : Int :=
  if 1 ≤ signum ∧ signum ≤ 64 ∧ signum ∉ [SIGKILL, SIGSTOP, 32, 33] then 0 else -1

/-- Whether the assertion of `SetupSignalForwarding` holds for all of the signals. -/
def setupSignalForwarding (signums : List Int) : Bool := signums.all fun signum => sigaction signum == 0

/-- What `TraceProgram` does with the signals, once the tracee is forked. -/
def forwardSignals (opts : Options) : Bool :=
  if opts.forwardAllSignals then setupSignalForwarding [1, 2, 3, 4, 6, 8, 11, 13, 14, 15, 10, 12]
  else if opts.forwardingSignals ≠ [] then setupSignalForwarding opts.forwardingSignals
  else true

/-- A signal a handler can be installed for. -/
def Catchable (signum : Int) : Prop :=
  1 ≤ signum ∧ signum ≤ 31 ∧ signum ≠ SIGKILL ∧ signum ≠ SIGSTOP

instance (signum : Int) : Decidable (Catchable signum) :=
  inferInstanceAs (Decidable (1 ≤ signum ∧ signum ≤ 31 ∧ signum ≠ SIGKILL ∧ signum ≠ SIGSTOP))

/-! ## One pass of the loop -/

/-- The argument texts of `-s` among the returned options. -/
def forwardSigTexts (rs : List Return) : List String :=
  rs.filterMap fun
    | .option c optarg => if c = 's' then some optarg else none
    | .unknown => none

theorem optionCase_forwardingSignals (c : Char) (optarg : String) (s : State) :
    (optionCase c optarg s).optraceOpts.forwardingSignals =
      s.optraceOpts.forwardingSignals ++ if c = 's' then [atoi optarg] else [] := by
  by_cases hs : c = 's'
  · subst hs
    rfl
  · rw [if_neg hs, List.append_nil]
    unfold optionCase
    split
    all_goals first
      | rfl
      | exact absurd rfl hs

/-- One returned value, when the loop goes on. -/
def pass (s : State) : Return → State
  | .option c optarg => optionCase c optarg s
  | .unknown => s

/-- The loop goes through if every returned value is an option, and none of them asks for help. -/
theorem optionLoop_eq_none_iff {rs : List Return} {s s' : State} :
    optionLoop rs s = (s', none) ↔
      (∀ r ∈ rs, ∃ c optarg, r = .option c optarg ∧ c ≠ Char.ofNat 0) ∧ s' = rs.foldl pass s := by
  induction rs generalizing s with
  | nil => simp [optionLoop, eq_comm]
  | cons r rs ih =>
    cases r with
    | unknown => simp [optionLoop]
    | option c optarg =>
      rw [optionLoop]
      by_cases hc : c = Char.ofNat 0
      · simp [hc]
      · rw [if_neg hc, ih]
        simp [hc, pass]

theorem foldl_forwardingSignals (rs : List Return) (s : State) :
    (rs.foldl pass s).optraceOpts.forwardingSignals =
      s.optraceOpts.forwardingSignals ++ (forwardSigTexts rs).map atoi := by
  induction rs generalizing s with
  | nil => simp [forwardSigTexts]
  | cons r rs ih =>
    rw [List.foldl_cons, ih]
    cases r with
    | unknown => simp [pass, forwardSigTexts]
    | option c optarg =>
      rw [pass, optionCase_forwardingSignals, List.append_assoc]
      by_cases hs : c = 's'
      · simp [forwardSigTexts, hs]
      · simp [forwardSigTexts, hs]

/-- What `main` hands over is what the returned options made of the defaults. -/
theorem main_traces {openError : String → Bool → Option String} {args argv : List String}
    {opts : Options} {cerr : List String}
    (h : main openError args = .traceProgram argv opts cerr) :
    argv = (tables.returns args).2 ∧
      opts = ((tables.returns args).1.foldl pass ⟨getDefaults, []⟩).optraceOpts := by
  unfold main at h
  simp only at h
  split at h
  · cases h
  · rename_i s hloop
    obtain ⟨-, hs⟩ := optionLoop_eq_none_iff.mp hloop
    rw [← hs]
    split at h
    · cases h
    · split at h
      · cases h
        exact ⟨rfl, rfl⟩
      · split at h
        · cases h
        · cases h
          exact ⟨rfl, rfl⟩

theorem Catchable.sigaction_eq {signum : Int} (h : Catchable signum) : sigaction signum = 0 := by
  obtain ⟨hlow, hhigh, hkill, hstop⟩ := h
  refine if_pos ⟨hlow, by omega, ?_⟩
  simp only [List.mem_cons, List.not_mem_nil, or_false, not_or]
  exact ⟨hkill, hstop, by omega, by omega⟩

theorem forwardSignals_of_catchable {opts : Options}
    (h : ∀ signum ∈ opts.forwardingSignals, Catchable signum) : forwardSignals opts = true := by
  unfold forwardSignals
  split
  · decide
  · split
    · rw [setupSignalForwarding, List.all_eq_true]
      intro signum hmem
      rw [(h signum hmem).sigaction_eq]
      rfl
    · rfl

/-- The signals of an accepted command line can all be set up, and so they are, if and only if each
argument of `-s` reads as the number of a signal a handler can be installed for. -/
theorem forwarded_signals_catchable_iff {openError : String → Bool → Option String}
    {args argv : List String} {opts : Options} {cerr : List String}
    (h : main openError args = .traceProgram argv opts cerr) :
    ((∀ signum ∈ opts.forwardingSignals, Catchable signum) ∧ forwardSignals opts = true) ↔
      ∀ text ∈ forwardSigTexts (tables.returns args).1, Catchable (atoi text) := by
  have hsignals : opts.forwardingSignals =
      SIGINT :: (forwardSigTexts (tables.returns args).1).map atoi := by
    rw [(main_traces h).2, foldl_forwardingSignals]
    rfl
  have hdefault : Catchable SIGINT := by decide
  have hiff : (∀ signum ∈ opts.forwardingSignals, Catchable signum) ↔
      ∀ text ∈ forwardSigTexts (tables.returns args).1, Catchable (atoi text) := by
    rw [hsignals]
    simp [hdefault]
  rw [← hiff]
  exact ⟨fun hboth => hboth.1, fun hall => ⟨hall, forwardSignals_of_catchable hall⟩⟩

theorem forwarded_signals_catchable_term :
    ∃ opts cerr, main (fun _ _ => none) ["-s", "15", "--forward-sig=1", "true"] =
        .traceProgram ["true"] opts cerr ∧
      (((∀ signum ∈ opts.forwardingSignals, Catchable signum) ∧ forwardSignals opts = true) ↔
        ∀ text ∈ forwardSigTexts
            (tables.returns ["-s", "15", "--forward-sig=1", "true"]).1, Catchable (atoi text)) := by
  obtain ⟨opts, cerr, h⟩ : ∃ opts cerr, main (fun _ _ => none)
      ["-s", "15", "--forward-sig=1", "true"] = .traceProgram ["true"] opts cerr := ⟨_, _, rfl⟩
  exact ⟨opts, cerr, h, forwarded_signals_catchable_iff h⟩

/-- A number above 31 is complained about and a 9 is not, and both are handed over. -/
theorem bad_signals_accepted :
    main (fun _ _ => none) ["-s", "40", "-s", "9", "true"] =
        .traceProgram ["true"] { getDefaults with forwardingSignals := [2, 40, 9] }
          ["Invalid signal number: 40"] ∧
      ¬Catchable 40 ∧ ¬Catchable 9 ∧
      forwardSignals { getDefaults with forwardingSignals := [2, 40, 9] } = false := by
  refine ⟨rfl, ?_, ?_, ?_⟩
  all_goals decide

end CommandLine

end Optrace
