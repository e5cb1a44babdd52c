import Optrace.CommandLine

/-!
# The options of the help text

The help text names fifteen options. What `main` makes of any sequence of them is compared with what
the text says.
-/

namespace Optrace

set_option autoImplicit false

open Getopt

namespace CommandLine

inductive Flag where
  | noFollowForks
  | noJailForks
  | waitDaemons
  | humanReadable
  | append
  | noSeccomp
  | noCoredumps
  | emptyFiles
  | forwardAllSignals
  deriving DecidableEq

inductive Valued where
  | output
  | cmdlineSize
  | reportSize
  | forwardSig
  | interruptionTarget
  | interruptionSig
  deriving DecidableEq

/-- An option as it stands on a command line. -/
inductive DocOption where
  | flag (f : Flag)
  | valued (v : Valued) (text : String)
  deriving DecidableEq

/-! ## The help text -/

def Flag.letter : Flag → Char
  | noFollowForks => 'F'
  | noJailForks => 'J'
  | waitDaemons => 'w'
  | humanReadable => 'h'
  | append => 'a'
  | noSeccomp => 'C'
  | noCoredumps => 'D'
  | emptyFiles => 'e'
  | forwardAllSignals => 'S'

def Flag.longName : Flag → String
  | noFollowForks => "no-follow-forks"
  | noJailForks => "no-jail-forks"
  | waitDaemons => "wait-daemons"
  | humanReadable => "human-readable"
  | append => "append"
  | noSeccomp => "no-seccomp"
  | noCoredumps => "no-coredumps"
  | emptyFiles => "empty-files"
  | forwardAllSignals => "forward-all-signals"

def Valued.letter : Valued → Char
  | output => 'o'
  | cmdlineSize => 'c'
  | reportSize => 'r'
  | forwardSig => 's'
  | interruptionTarget => 'i'
  | interruptionSig => 'I'

def Valued.longName : Valued → String
  | output => "output"
  | cmdlineSize => "cmdline-size"
  | reportSize => "report-size"
  | forwardSig => "forward-sig"
  | interruptionTarget => "interruption-target"
  | interruptionSig => "interruption-sig"

/-- Whether the field a flag is for is set. -/
def Flag.inEffect (o : Options) : Flag → Bool
  | noFollowForks => !o.followForks
  | noJailForks => !o.jailForks
  | waitDaemons => o.waitDaemons
  | humanReadable => o.humanReadableSizes
  | append => o.appendOutput
  | noSeccomp => !o.useSecComp
  | noCoredumps => !o.searchForCoreDumps
  | emptyFiles => o.storeEmptyFiles
  | forwardAllSignals => o.forwardAllSignals

namespace DocOption

def letter : DocOption → Char
  | flag f => f.letter
  | valued v _ => v.letter

/-- What `getopt_long` returns for it. -/
def ret : DocOption → Return
  | flag f => .option f.letter ""
  | valued v text => .option v.letter text

def shortForm : DocOption → List String
  | flag f => [String.ofList ['-', f.letter]]
  | valued v text => [String.ofList ['-', v.letter], text]

def longForm : DocOption → List String
  | flag f => ["--" ++ f.longName]
  | valued v text => ["--" ++ v.longName, text]

def WrittenAs (d : DocOption) (words : List String) : Prop := words = d.shortForm ∨ words = d.longForm

/-- The tables have every option under its letter, with an argument where the text has one. -/
theorem spells_shortForm (d : DocOption) : Spells tables d.shortForm d.ret := by
  cases d with
  | flag f => exact .short (by cases f <;> decide) (by cases f <;> decide)
  | valued v text => exact .shortSeparate text (by cases v <;> decide) (by cases v <;> decide)

theorem spells_longForm (d : DocOption) : Spells tables d.longForm d.ret := by
  cases d with
  | flag f =>
    have hentry : tables.findLong f.longName.toList = some ⟨f.longName, false, f.letter⟩ := by
      cases f <;> decide
    have hname : f.longName ≠ "" ∧ '=' ∉ f.longName.toList := by
      cases f <;> decide
    exact @Spells.long tables ⟨f.longName, false, f.letter⟩ hentry hname rfl
  | valued v text =>
    have hentry : tables.findLong v.longName.toList = some ⟨v.longName, true, v.letter⟩ := by
      cases v <;> decide
    have hname : v.longName ≠ "" ∧ '=' ∉ v.longName.toList := by
      cases v <;> decide
    exact @Spells.longSeparate tables ⟨v.longName, true, v.letter⟩ text hentry hname rfl

end DocOption

/-- The arguments one option has been given, in order. -/
def texts (v : Valued) (ds : List DocOption) : List String :=
  ds.filterMap fun
    | .flag _ => none
    | .valued v' text => if v' = v then some text else none

/-- The options the help text promises for a sequence of options. -/
structure AsDocumented (ds : List DocOption) (o : Options) : Prop where
  flags : ∀ f : Flag, f.inEffect o = true ↔ .flag f ∈ ds
  output : o.output = (texts .output ds).getLast?.getD ""
  commandLengthLimit : o.commandLengthLimit =
    ((texts .cmdlineSize ds).getLast?.map sizeLimit).getD 120
  filesInReport : o.filesInReport = ((texts .reportSize ds).getLast?.map sizeLimit).getD (-1)
  interruptionTarget : o.interruptionTarget = (texts .interruptionTarget ds).getLast?.getD ""
  interruptionSignal : o.interruptionSignal =
    ((texts .interruptionSig ds).getLast?.map atoi).getD
      (if texts .interruptionTarget ds = [] then 0 else SIGABRT)
  forwardingSignals : o.forwardingSignals = SIGINT :: (texts .forwardSig ds).map atoi

/-- Two neighbours with different letters have changed places. -/
def Swapped (ds ds' : List DocOption) : Prop :=
  ∃ pre a b post, DocOption.letter a ≠ DocOption.letter b ∧
    ds = pre ++ a :: b :: post ∧ ds' = pre ++ b :: a :: post

/-- If the number of the last `-I` is 0, no `-i` follows it, and none stands right before it. -/
def SignalKept (ds : List DocOption) : Prop :=
  ∀ pre text post, ds = pre ++ .valued .interruptionSig text :: post →
    texts .interruptionSig post = [] → atoi text = 0 →
      texts .interruptionTarget post = [] ∧
        ∀ target, pre.getLast? ≠ some (.valued .interruptionTarget target)

/-! ## One option -/

variable {s : State} {d : DocOption}

/-- Every flag but `-w` sets its field, and nothing else does. -/
theorem inEffect_pass {f : Flag} (hf : f ≠ .waitDaemons) :
    f.inEffect (pass s d.ret).optraceOpts = (f.inEffect s.optraceOpts || decide (d = .flag f)) := by
  cases d with
  | flag f' =>
    by_cases heq : f' = f
    · subst heq
      cases f' with
      | waitDaemons => exact absurd rfl hf
      | _ => simp [DocOption.ret, pass, Flag.letter, optionCase, Flag.inEffect]
    · have hne : DocOption.flag f' ≠ .flag f := fun h => heq (by cases h; rfl)
      rw [decide_eq_false hne, Bool.or_false]
      cases f' <;> cases f <;> first | rfl | exact absurd rfl heq
  | valued v text =>
    rw [decide_eq_false (by simp), Bool.or_false]
    cases v <;> cases f <;> rfl

/-- `-w` is an option without a case. -/
theorem waitDaemons_pass : (pass s d.ret).optraceOpts.waitDaemons = s.optraceOpts.waitDaemons := by
  cases d with
  | flag f => cases f <;> rfl
  | valued v text => cases v <;> rfl

/-- A field only one option with an argument writes to, and always the same way. -/
def WrittenBy {α : Type} (v : Valued) (get : Options → α) (read : String → α) : Prop :=
  ∀ (s : State) (d : DocOption), get (pass s d.ret).optraceOpts =
    match d with
    | .flag _ => get s.optraceOpts
    | .valued v' text => if v' = v then read text else get s.optraceOpts

theorem output_written : WrittenBy .output Options.output id := by
  intro s d
  cases d with
  | flag f => cases f <;> rfl
  | valued v text => cases v <;> rfl

theorem commandLengthLimit_written :
    WrittenBy .cmdlineSize Options.commandLengthLimit sizeLimit := by
  intro s d
  cases d with
  | flag f => cases f <;> rfl
  | valued v text => cases v <;> rfl

theorem filesInReport_written : WrittenBy .reportSize Options.filesInReport sizeLimit := by
  intro s d
  cases d with
  | flag f => cases f <;> rfl
  | valued v text => cases v <;> rfl

theorem interruptionTarget_written :
    WrittenBy .interruptionTarget Options.interruptionTarget id := by
  intro s d
  cases d with
  | flag f => cases f <;> rfl
  | valued v text => cases v <;> rfl

/-- `-I` writes the signal, and `-i` does where there is none. -/
theorem interruptionSignal_pass : (pass s d.ret).optraceOpts.interruptionSignal =
    match d with
    | .valued .interruptionSig text => atoi text
    | .valued .interruptionTarget _ =>
      if s.optraceOpts.interruptionSignal = 0 then SIGABRT else s.optraceOpts.interruptionSignal
    | _ => s.optraceOpts.interruptionSignal := by
  cases d with
  | flag f => cases f <;> rfl
  | valued v text => cases v <;> rfl

/-! ## A sequence of options -/

/-- The options after a sequence. -/
def after (s : State) (ds : List DocOption) : Options :=
  ((ds.map DocOption.ret).foldl pass s).optraceOpts

theorem after_cons (ds : List DocOption) : after s (d :: ds) = after (pass s d.ret) ds := rfl

theorem texts_cons (v : Valued) (ds : List DocOption) :
    texts v (d :: ds) =
      (match d with
        | .flag _ => []
        | .valued v' text => if v' = v then [text] else []) ++ texts v ds := by
  cases d with
  | flag f => rfl
  | valued v' text =>
    simp only [texts, List.filterMap_cons]
    by_cases hv : v' = v
    · simp [hv]
    · simp [hv]

theorem texts_append (v : Valued) (ds ds' : List DocOption) :
    texts v (ds ++ ds') = texts v ds ++ texts v ds' := List.filterMap_append

theorem inEffect_after {f : Flag} (hf : f ≠ .waitDaemons) (ds : List DocOption) :
    f.inEffect (after s ds) = (f.inEffect s.optraceOpts || decide (.flag f ∈ ds)) := by
  induction ds generalizing s with
  | nil => simp [after]
  | cons d ds ih =>
    rw [after_cons, ih, inEffect_pass hf, Bool.or_assoc]
    simp [eq_comm]

theorem waitDaemons_after (ds : List DocOption) :
    (after s ds).waitDaemons = s.optraceOpts.waitDaemons := by
  induction ds generalizing s with
  | nil => rfl
  | cons d ds ih => rw [after_cons, ih, waitDaemons_pass]

theorem written_after {α : Type} {v : Valued} {get : Options → α} {read : String → α}
    (h : WrittenBy v get read) (ds : List DocOption) :
    get (after s ds) = ((texts v ds).getLast?.map read).getD (get s.optraceOpts) := by
  induction ds generalizing s with
  | nil => rfl
  | cons d ds ih =>
    rw [after_cons, ih, h, texts_cons]
    cases d with
    | flag f => rfl
    | valued v' text =>
      by_cases hv : v' = v
      · simp only [hv, if_true, List.singleton_append, List.getLast?_cons]
        cases (texts v ds).getLast? <;> rfl
      · simp [hv]

theorem forwardingSignals_after (ds : List DocOption) :
    (after s ds).forwardingSignals =
      s.optraceOpts.forwardingSignals ++ (texts .forwardSig ds).map atoi := by
  rw [after, foldl_forwardingSignals]
  congr 2
  induction ds with
  | nil => rfl
  | cons d ds ih =>
    rw [texts_cons, ← ih]
    cases d with
    | flag f => cases f <;> rfl
    | valued v text => cases v <;> rfl

/-- Where no `-I` is left to come, an `-i` makes the signal SIGABRT if it is still 0. -/
theorem interruptionSignal_after (ds : List DocOption) (hds : texts .interruptionSig ds = []) :
    (after s ds).interruptionSignal =
      if s.optraceOpts.interruptionSignal = 0 ∧ texts .interruptionTarget ds ≠ [] then SIGABRT
      else s.optraceOpts.interruptionSignal := by
  induction ds generalizing s with
  | nil => simp [after, texts]
  | cons d ds ih =>
    rw [texts_cons, List.append_eq_nil_iff] at hds
    rw [after_cons, ih hds.2, interruptionSignal_pass, texts_cons]
    cases d with
    | flag f => rfl
    | valued v text =>
      cases v with
      | interruptionSig => exact absurd hds.1 (by simp)
      | interruptionTarget =>
        by_cases hzero : s.optraceOpts.interruptionSignal = 0
        · have habort : SIGABRT ≠ 0 := by decide
          simp [hzero, habort]
        · simp [hzero]
      | _ => simp

theorem after_append (ds ds' : List DocOption) :
    after s (ds ++ ds') = after ((ds.map DocOption.ret).foldl pass s) ds' := by
  rw [after, after, List.map_append, List.foldl_append]

theorem interruptionSignal_last (pre post : List DocOption) (text : String)
    (hpost : texts .interruptionSig post = []) :
    (after s (pre ++ .valued .interruptionSig text :: post)).interruptionSignal =
      if atoi text = 0 ∧ texts .interruptionTarget post ≠ [] then SIGABRT else atoi text := by
  rw [after_append, after_cons, interruptionSignal_after post hpost, interruptionSignal_pass]

theorem exists_last_interruptionSig {ds : List DocOption} (h : texts .interruptionSig ds ≠ []) :
    ∃ pre text post, ds = pre ++ .valued .interruptionSig text :: post ∧
      texts .interruptionSig post = [] := by
  induction ds with
  | nil => exact absurd rfl h
  | cons d ds ih =>
    by_cases hds : texts .interruptionSig ds = []
    · rw [texts_cons, hds, List.append_nil] at h
      cases d with
      | flag f => exact absurd rfl h
      | valued v text =>
        by_cases hv : v = .interruptionSig
        · subst hv
          exact ⟨[], text, ds, rfl, hds⟩
        · exact absurd (if_neg hv) h
    · obtain ⟨pre, text, post, rfl, hpost⟩ := ih hds
      exact ⟨d :: pre, text, post, rfl, hpost⟩

theorem getLast?_interruptionSig (pre post : List DocOption) (text : String)
    (hpost : texts .interruptionSig post = []) :
    (texts .interruptionSig (pre ++ .valued .interruptionSig text :: post)).getLast? = some text := by
  rw [texts_append, texts_cons, hpost]
  simp

/-! ## What the sequence is for -/

/-- The tracer's options before the first option is seen. -/
def start : State := ⟨getDefaults, []⟩

/-- No `-i` behind the last `-I`, if the number of that is 0. -/
def TargetFirst (ds : List DocOption) : Prop :=
  ∀ pre text post, ds = pre ++ .valued .interruptionSig text :: post →
    texts .interruptionSig post = [] → atoi text = 0 → texts .interruptionTarget post = []

theorem interruptionSignal_documented_iff (ds : List DocOption) :
    (after start ds).interruptionSignal =
        ((texts .interruptionSig ds).getLast?.map atoi).getD
          (if texts .interruptionTarget ds = [] then 0 else SIGABRT) ↔ TargetFirst ds := by
  constructor
  · rintro h pre text post rfl hpost hzero
    rw [interruptionSignal_last pre post text hpost, getLast?_interruptionSig pre post text hpost,
      Option.map_some, Option.getD_some, hzero] at h
    by_contra htarget
    rw [if_pos ⟨rfl, htarget⟩] at h
    exact absurd h (by decide)
  · intro h
    by_cases hnone : texts .interruptionSig ds = []
    · have hzero : start.optraceOpts.interruptionSignal = 0 := rfl
      rw [interruptionSignal_after ds hnone, hnone, hzero]
      by_cases htarget : texts .interruptionTarget ds = []
      · simp [htarget]
      · simp [htarget]
    · obtain ⟨pre, text, post, rfl, hpost⟩ := exists_last_interruptionSig hnone
      rw [interruptionSignal_last pre post text hpost, getLast?_interruptionSig pre post text hpost,
        if_neg]
      · rfl
      · rintro ⟨hzero, htarget⟩
        exact htarget (h pre text post rfl hpost hzero)

/-- What is handed over, whatever the order of `-i` and `-I`. -/
structure Written (ds : List DocOption) (o : Options) : Prop where
  flags : ∀ f : Flag, f ≠ .waitDaemons → (f.inEffect o = true ↔ .flag f ∈ ds)
  waitDaemons : o.waitDaemons = false
  output : o.output = (texts .output ds).getLast?.getD ""
  commandLengthLimit : o.commandLengthLimit =
    ((texts .cmdlineSize ds).getLast?.map sizeLimit).getD 120
  filesInReport : o.filesInReport = ((texts .reportSize ds).getLast?.map sizeLimit).getD (-1)
  interruptionTarget : o.interruptionTarget = (texts .interruptionTarget ds).getLast?.getD ""
  forwardingSignals : o.forwardingSignals = SIGINT :: (texts .forwardSig ds).map atoi

theorem written_start (ds : List DocOption) : Written ds (after start ds) where
  flags f hf := by
    have hdefault : f.inEffect start.optraceOpts = false := by
      cases f <;> rfl
    rw [inEffect_after hf, hdefault]
    simp
  waitDaemons := waitDaemons_after ds
  output := by
    rw [written_after output_written]
    simp [start, getDefaults]
  commandLengthLimit := written_after commandLengthLimit_written ds
  filesInReport := written_after filesInReport_written ds
  interruptionTarget := by
    rw [written_after interruptionTarget_written]
    simp [start, getDefaults]
  forwardingSignals := forwardingSignals_after ds

theorem asDocumented_iff (ds : List DocOption) :
    AsDocumented ds (after start ds) ↔ .flag .waitDaemons ∉ ds ∧ TargetFirst ds := by
  have hwritten := written_start ds
  rw [← interruptionSignal_documented_iff]
  constructor
  · intro h
    refine ⟨fun hmem => ?_, h.interruptionSignal⟩
    have hset := (h.flags .waitDaemons).mpr hmem
    rw [Flag.inEffect, hwritten.waitDaemons] at hset
    cases hset
  · rintro ⟨hwait, hsignal⟩
    refine ⟨fun f => ?_, hwritten.output, hwritten.commandLengthLimit, hwritten.filesInReport,
      hwritten.interruptionTarget, hsignal, hwritten.forwardingSignals⟩
    by_cases hf : f = .waitDaemons
    · subst hf
      rw [Flag.inEffect, hwritten.waitDaemons]
      simp [hwait]
    · exact hwritten.flags f hf

/-! ## Neighbours that change places -/

/-- The options that are handed over are settled by what each option is given, and the signal. -/
theorem Written.unique {ds ds' : List DocOption} {o o' : Options} (h : Written ds o)
    (h' : Written ds' o') (hmem : ∀ d, d ∈ ds ↔ d ∈ ds') (htexts : ∀ v, texts v ds = texts v ds')
    (hsignal : o.interruptionSignal = o'.interruptionSignal) : o = o' := by
  have hflags : ∀ f : Flag, f ≠ .waitDaemons → f.inEffect o = f.inEffect o' := by
    intro f hf
    rw [Bool.eq_iff_iff, h.flags f hf, h'.flags f hf, hmem]
  have hfollow : o.followForks = o'.followForks := Bool.not_inj (hflags .noFollowForks (by decide))
  have hjail : o.jailForks = o'.jailForks := Bool.not_inj (hflags .noJailForks (by decide))
  have hseccomp : o.useSecComp = o'.useSecComp := Bool.not_inj (hflags .noSeccomp (by decide))
  have hcores : o.searchForCoreDumps = o'.searchForCoreDumps :=
    Bool.not_inj (hflags .noCoredumps (by decide))
  have hwait : o.waitDaemons = o'.waitDaemons := h.waitDaemons.trans h'.waitDaemons.symm
  have houtput : o.output = o'.output := by rw [h.output, h'.output, htexts]
  have hlimit : o.commandLengthLimit = o'.commandLengthLimit := by
    rw [h.commandLengthLimit, h'.commandLengthLimit, htexts]
  have hfiles : o.filesInReport = o'.filesInReport := by
    rw [h.filesInReport, h'.filesInReport, htexts]
  have htarget : o.interruptionTarget = o'.interruptionTarget := by
    rw [h.interruptionTarget, h'.interruptionTarget, htexts]
  have hforward : o.forwardingSignals = o'.forwardingSignals := by
    rw [h.forwardingSignals, h'.forwardingSignals, htexts]
  cases o
  cases o'
  rw [Options.mk.injEq]
  exact ⟨houtput, hflags .append (by decide), hfollow, hwait, hjail, hflags .humanReadable (by decide),
    hfiles, hlimit, hseccomp, hcores, hforward, hflags .forwardAllSignals (by decide),
    hflags .emptyFiles (by decide), htarget, hsignal⟩

theorem texts_swap {a b : DocOption} (hletter : a.letter ≠ b.letter) (v : Valued)
    (pre post : List DocOption) :
    texts v (pre ++ a :: b :: post) = texts v (pre ++ b :: a :: post) := by
  rw [texts_append, texts_append]
  congr 1
  simp only [texts_cons]
  cases a with
  | flag f =>
    cases b with
    | flag f' => rfl
    | valued v' text' => rfl
  | valued v₁ text₁ =>
    cases b with
    | flag f' => rfl
    | valued v₂ text₂ =>
      by_cases h₁ : v₁ = v
      · by_cases h₂ : v₂ = v
        · exact absurd (by rw [h₁, h₂]; rfl) hletter
        · simp [h₁, h₂]
      · simp [h₁]

theorem mem_swap (a b : DocOption) (pre post : List DocOption) (d : DocOption) :
    d ∈ pre ++ a :: b :: post ↔ d ∈ pre ++ b :: a :: post := by
  simp only [List.mem_append, List.mem_cons]
  tauto

/-- The signal alone, as a fold. -/
def signalStep (signal : Int) : DocOption → Int
  | .valued .interruptionSig text => atoi text
  | .valued .interruptionTarget _ => if signal = 0 then SIGABRT else signal
  | _ => signal

theorem interruptionSignal_foldl (ds : List DocOption) :
    (after s ds).interruptionSignal = ds.foldl signalStep s.optraceOpts.interruptionSignal := by
  induction ds generalizing s with
  | nil => rfl
  | cons d ds ih =>
    rw [after_cons, ih, interruptionSignal_pass, List.foldl_cons]
    cases d with
    | flag f => rfl
    | valued v text => cases v <;> rfl

/-- Only `-I` with the number 0 and `-i` do not change places. -/
theorem signalStep_comm {a b : DocOption} (hletter : a.letter ≠ b.letter)
    (hab : ∀ text target, atoi text = 0 →
      ¬(a = .valued .interruptionSig text ∧ b = .valued .interruptionTarget target))
    (hba : ∀ text target, atoi text = 0 →
      ¬(a = .valued .interruptionTarget target ∧ b = .valued .interruptionSig text))
    (signal : Int) :
    signalStep (signalStep signal a) b = signalStep (signalStep signal b) a := by
  cases a with
  | flag f => rfl
  | valued v₁ text₁ =>
    cases b with
    | flag f => rfl
    | valued v₂ text₂ =>
      cases v₁ with
      | interruptionSig =>
        cases v₂ with
        | interruptionSig => exact absurd rfl hletter
        | interruptionTarget =>
          have hnonzero : atoi text₁ ≠ 0 := fun hzero => hab text₁ text₂ hzero ⟨rfl, rfl⟩
          exact if_neg hnonzero
        | _ => rfl
      | interruptionTarget =>
        cases v₂ with
        | interruptionSig =>
          have hnonzero : atoi text₂ ≠ 0 := fun hzero => hba text₂ text₁ hzero ⟨rfl, rfl⟩
          exact (if_neg hnonzero).symm
        | interruptionTarget => exact absurd rfl hletter
        | _ => rfl
      | _ => cases v₂ <;> rfl

/-- From the last `-I` on the signal before it does not matter. -/
theorem foldl_signalStep {ds : List DocOption} (h : texts .interruptionSig ds ≠ [])
    (signal signal' : Int) : ds.foldl signalStep signal = ds.foldl signalStep signal' := by
  obtain ⟨pre, text, post, rfl, -⟩ := exists_last_interruptionSig h
  rw [List.foldl_append, List.foldl_append, List.foldl_cons, List.foldl_cons]
  rfl

theorem interruptionSignal_swap {ds ds' : List DocOption} (hkept : SignalKept ds)
    (hswap : Swapped ds ds') :
    (after start ds').interruptionSignal = (after start ds).interruptionSignal := by
  obtain ⟨pre, a, b, post, hletter, rfl, rfl⟩ := hswap
  rw [interruptionSignal_foldl, interruptionSignal_foldl, List.foldl_append, List.foldl_append,
    List.foldl_cons, List.foldl_cons, List.foldl_cons, List.foldl_cons]
  by_cases hpost : texts .interruptionSig post = []
  · rw [signalStep_comm hletter]
    · rintro text target hzero ⟨rfl, rfl⟩
      have htarget := (hkept pre text (.valued .interruptionTarget target :: post) rfl
        (by rw [texts_cons, hpost]; rfl) hzero).1
      rw [texts_cons] at htarget
      cases htarget
    · rintro text target hzero ⟨rfl, rfl⟩
      have hsplit : pre ++ .valued .interruptionTarget target :: .valued .interruptionSig text :: post =
          (pre ++ [.valued .interruptionTarget target]) ++ .valued .interruptionSig text :: post := by
        simp
      exact (hkept _ text post hsplit hpost hzero).2 target (by simp)
  · exact foldl_signalStep hpost _ _

theorem after_swap {ds ds' : List DocOption} (hkept : SignalKept ds) (hswap : Swapped ds ds') :
    after start ds' = after start ds := by
  have hsignal := interruptionSignal_swap hkept hswap
  obtain ⟨pre, a, b, post, hletter, rfl, rfl⟩ := hswap
  exact (written_start _).unique (written_start _) (fun d => mem_swap b a pre post d)
    (fun v => (texts_swap hletter v pre post).symm) hsignal

/-! ## The program -/

theorem loop_options (ds : List DocOption) :
    optionLoop (ds.map DocOption.ret) start = ((ds.map DocOption.ret).foldl pass start, none) := by
  rw [optionLoop_eq_none_iff]
  refine ⟨fun r hr => ?_, rfl⟩
  obtain ⟨d, -, rfl⟩ := List.mem_map.mp hr
  cases d with
  | flag f => exact ⟨f.letter, "", rfl, by cases f <;> decide⟩
  | valued v text => exact ⟨v.letter, text, rfl, by cases v <;> decide⟩

variable {openError : String → Bool → Option String} {args args' : List String}
  {ds ds' : List DocOption} {prog : String} {rest : List String}

/-- Documented options and a program are turned down for the output file only. -/
theorem main_traces_iff (hargs : tables.returns args = (ds.map DocOption.ret, prog :: rest))
    {o : Options} : (∃ cerr, main openError args = .traceProgram (prog :: rest) o cerr) ↔
      o = after start ds ∧ (o.output = "" ∨ openError o.output o.appendOutput = none) := by
  have hloop := loop_options ds
  rw [start] at hloop
  rw [main, hargs]
  simp only [hloop, reduceCtorEq, if_false]
  have hafter : ((ds.map DocOption.ret).foldl pass ⟨getDefaults, []⟩).optraceOpts = after start ds := rfl
  rw [hafter]
  by_cases houtput : (after start ds).output = ""
  · simp only [if_pos houtput, Result.traceProgram.injEq, true_and]
    constructor
    · rintro ⟨cerr, rfl, -⟩
      exact ⟨rfl, Or.inl houtput⟩
    · rintro ⟨rfl, -⟩
      exact ⟨_, rfl, rfl⟩
  · rw [if_neg houtput]
    cases hopen : openError (after start ds).output (after start ds).appendOutput with
    | some text =>
      constructor
      · rintro ⟨cerr, h⟩
        cases h
      · rintro ⟨rfl, hnone | hnone⟩
        · exact absurd hnone houtput
        · rw [hopen] at hnone
          cases hnone
    | none =>
      simp only [Result.traceProgram.injEq, true_and]
      constructor
      · rintro ⟨cerr, rfl, -⟩
        exact ⟨rfl, Or.inr hopen⟩
      · rintro ⟨rfl, -⟩
        exact ⟨_, rfl, rfl⟩

theorem spellsAll_forms {forms : List (List String)}
    (h : List.Forall₂ DocOption.WrittenAs ds forms) :
    SpellsAll tables forms.flatten (ds.map DocOption.ret) := by
  induction h with
  | nil => exact .nil
  | @cons d words ds forms hwords _ ih =>
    have hspells : Spells tables words d.ret := by
      rcases hwords with rfl | rfl
      · exact d.spells_shortForm
      · exact d.spells_longForm
    exact .cons hspells ih

/-- Each option in its short or its long form, and then a program that begins with no dash. -/
theorem returns_forms {forms : List (List String)} (h : List.Forall₂ DocOption.WrittenAs ds forms)
    (hprog : prog.toList.head? ≠ some '-') (rest : List String) :
    tables.returns (forms.flatten ++ prog :: rest) = (ds.map DocOption.ret, prog :: rest) :=
  (spellsAll_forms h).returns_eq hprog rest

/-- Any sequence of options can be written in front of any program. -/
theorem returns_shortForms (ds : List DocOption) (prog : String) (rest : List String) :
    tables.returns ((ds.map DocOption.shortForm).flatten ++ "--" :: prog :: rest) =
      (ds.map DocOption.ret, prog :: rest) := by
  have hforms : List.Forall₂ DocOption.WrittenAs ds (ds.map DocOption.shortForm) := by
    rw [List.forall₂_map_right_iff, List.forall₂_same]
    exact fun d _ => Or.inl rfl
  rw [(spellsAll_forms hforms).returns_append, Tables.returns_end, List.append_nil]

theorem signalKept_of_swaps (htarget : TargetFirst ds)
    (hswaps : ∀ ds', Swapped ds ds' →
      (after start ds').interruptionSignal = (after start ds).interruptionSignal) :
    SignalKept ds := by
  rintro pre text post rfl hpost hzero
  refine ⟨htarget pre text post rfl hpost hzero, fun target hlast => ?_⟩
  obtain ⟨pre', rfl⟩ := List.getLast?_eq_some_iff.mp hlast
  have hletter : Valued.interruptionTarget.letter ≠ Valued.interruptionSig.letter := by decide
  have hswap := hswaps (pre' ++ .valued .interruptionSig text ::
    .valued .interruptionTarget target :: post) ⟨pre', .valued .interruptionTarget target,
      .valued .interruptionSig text, post, hletter, by simp, rfl⟩
  have hpost' : texts .interruptionSig (.valued .interruptionTarget target :: post) = [] := by
    rw [texts_cons, hpost]
    rfl
  rw [interruptionSignal_last _ post text hpost, interruptionSignal_last pre' _ text hpost',
    hzero, texts_cons, htarget _ text post rfl hpost hzero, if_pos ⟨rfl, by simp⟩, if_neg (by simp)] at hswap
  exact absurd hswap (by decide)

/-- Every documented option takes effect wherever it stands if and only if `-w` is not among them,
and the last `-I`, if its number is 0, has no `-i` after it or right before it. -/
theorem options_take_effect_iff {o : Options} {cerr : List String}
    (hargs : tables.returns args = (ds.map DocOption.ret, prog :: rest))
    (h : main openError args = .traceProgram (prog :: rest) o cerr) :
    (AsDocumented ds o ∧ ∀ ds' args', Swapped ds ds' →
      tables.returns args' = (ds'.map DocOption.ret, prog :: rest) →
        ∃ cerr', main openError args' = .traceProgram (prog :: rest) o cerr') ↔
      .flag .waitDaemons ∉ ds ∧ SignalKept ds := by
  obtain ⟨rfl, hopen⟩ := (main_traces_iff hargs).mp ⟨cerr, h⟩
  constructor
  · rintro ⟨hdocumented, hswaps⟩
    obtain ⟨hwait, htarget⟩ := (asDocumented_iff ds).mp hdocumented
    refine ⟨hwait, signalKept_of_swaps htarget fun ds' hswap => ?_⟩
    have hargs' := returns_shortForms ds' prog rest
    have hsame := ((main_traces_iff hargs').mp (hswaps ds' _ hswap hargs')).1
    rw [hsame]
  · rintro ⟨hwait, hkept⟩
    have htarget : TargetFirst ds := fun pre text post hds hpost hzero =>
      (hkept pre text post hds hpost hzero).1
    refine ⟨(asDocumented_iff ds).mpr ⟨hwait, htarget⟩, fun ds' args' hswap hargs' => ?_⟩
    exact (main_traces_iff hargs').mpr ⟨(after_swap hkept hswap).symm, hopen⟩

/-! ## Three command lines -/

/-- `-a -o log true`, and its options. -/
def appendLog : List DocOption := [.flag .append, .valued .output "log"]

theorem options_take_effect_append :
    ∃ o cerr, main (fun _ _ => none) ["-a", "--output", "log", "true"] =
        .traceProgram ["true"] o cerr ∧
      ((AsDocumented appendLog o ∧ ∀ ds' args', Swapped appendLog ds' →
        tables.returns args' = (ds'.map DocOption.ret, ["true"]) →
          ∃ cerr', main (fun _ _ => none) args' = .traceProgram ["true"] o cerr') ↔
        .flag .waitDaemons ∉ appendLog ∧ SignalKept appendLog) := by
  obtain ⟨o, cerr, h⟩ : ∃ o cerr, main (fun _ _ => none) ["-a", "--output", "log", "true"] =
      .traceProgram ["true"] o cerr := ⟨_, _, rfl⟩
  have hforms : List.Forall₂ DocOption.WrittenAs appendLog [["-a"], ["--output", "log"]] :=
    .cons (Or.inl rfl) (.cons (Or.inr rfl) .nil)
  exact ⟨o, cerr, h, options_take_effect_iff (returns_forms hforms (by decide) []) h⟩

/-- `-w` is accepted and forgotten, and `-I 0` stands only behind `-i`. -/
theorem options_lost :
    main (fun _ _ => none) ["-w", "true"] = .traceProgram ["true"] getDefaults [] ∧
      ¬AsDocumented [.flag .waitDaemons] getDefaults ∧
      main (fun _ _ => none) ["-i", "log", "-I", "0", "true"] =
        .traceProgram ["true"] { getDefaults with interruptionTarget := "log" } [] ∧
      main (fun _ _ => none) ["-I", "0", "-i", "log", "true"] =
        .traceProgram ["true"]
          { getDefaults with interruptionTarget := "log", interruptionSignal := SIGABRT } [] := by
  refine ⟨rfl, fun h => ?_, rfl, rfl⟩
  have hwait := (h.flags .waitDaemons).mpr (List.mem_singleton.mpr rfl)
  exact absurd hwait (by decide)

end CommandLine

end Optrace
