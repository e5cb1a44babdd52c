import Optrace.CommandLine
import Optrace.Tracer
import Optrace.Lib.SignalMask

/-!
# Forwarded signals

`TraceProgram` from the blocking of all signals on: the fork, `SetupTracer`, the handlers and the
tracing, while signals come at any time. Which of them reach the tracee, and which end the program.
-/

namespace Optrace

set_option autoImplicit false

open Except SignalMask

namespace Forwarding

/-! ## The program -/

/-- `TraceePid`, and the signals that `ForwardSignal` has sent. -/
structure Forwarder where
  traceePid : Pid
  sent : List (Pid × Int)

def forwardSignal (s : Forwarder) (sig : Int) : Forwarder :=
  if s.traceePid ≠ 0 then { s with sent := s.sent ++ [(s.traceePid, sig)] } else s

/-- The signals of the running kernel. `SIGCHLD`, `SIGCONT`, `SIGURG` and `SIGWINCH` are ignored by
default, and four others stop a process; nor does a signal end it that it was started to ignore. -/
def kinds (ignored : Int → Bool) : Kinds where
  queues sig := decide (32 ≤ sig)
  fatal sig := !ignored sig && decide (sig ∉ ([17, 18, 19, 20, 21, 22, 23, 28] : List Int))
  forced sig := decide (sig = CommandLine.SIGKILL ∨ sig = CommandLine.SIGSTOP)

/-- The signals that `TraceProgram` asks to forward. -/
def forwarded (opts : Options) : List Int :=
  if opts.forwardAllSignals then [1, 2, 3, 4, 6, 8, 11, 13, 14, 15, 10, 12]
  else opts.forwardingSignals

/-- Where the program is: before the fork, in `SetupTracer`, in `SetupSignalForwarding` with some
signals left, or behind the restored mask. -/
inductive Point where
  | masked
  | forked
  | installing (signums : List Int)
  | tracing
  deriving DecidableEq

/-- The child: it starts with its parent's mask, puts the old one back, and stops itself. -/
inductive Child where
  | absent
  | forked (mask : Int → Bool)
  | restored (mask : Int → Bool)
  | stopped (mask : Int → Bool)
  | dead

structure Launch where
  opts : Options
  oldmask : Int → Bool
  point : Point
  child : Child
  process : Process Forwarder

inductive Halt where
  | killed (sig : Int)
  | exit2
  | assertion
  deriving DecidableEq

/-- What the calls of the next statement return. -/
structure Answer where
  fork : Pid
  waitpid : Option (BitVec 32)
  setOptions : Bool
  order : List Int

/-- A signal comes, the program or its child goes on, or the child dies. -/
inductive Input where
  | raise (sig : Int)
  | go (answer : Answer)
  | child
  | childDies

namespace Launch

/-- All signals are blocked. -/
def start (opts : Options) (oldmask : Int → Bool) (pending : List Int) : Launch where
  opts := opts
  oldmask := oldmask
  point := .masked
  child := .absent
  process := ⟨fun _ => true, [], pending, ⟨0, []⟩⟩

/-- A signal may end the program. -/
def absorb (s : Launch) : Except Int (Process Forwarder) → Except Halt Launch
  | .ok process => .ok { s with process := process }
  | .error sig => .error (.killed sig)

/-- `SetupTracer`, from `waitpid` on. -/
def setupTracer (s : Launch) (answer : Answer) : Except Halt Launch :=
  match answer.waitpid with
  | none => .error .exit2
  | some status =>
    if !wifstopped status && wstopsig status != 5 then .error .exit2
    else if answer.setOptions then .ok { s with point := .installing (forwarded s.opts) }
    else .error .exit2

def go (ignored : Int → Bool) (s : Launch) (answer : Answer) : Except Halt Launch :=
  match s.point with
  | .masked =>
    if answer.fork < 0 then .error .exit2
    else .ok { s with
      point := .forked
      child := .forked s.process.blocked
      process := { s.process with own := { s.process.own with traceePid := answer.fork } } }
  | .forked => s.setupTracer answer
  | .installing (signum :: signums) =>
    if CommandLine.sigaction signum = 0 then .ok { s with
      point := .installing signums
      process := { s.process with handled := signum :: s.process.handled } }
    else .error .assertion
  | .installing [] =>
    { s with point := .tracing }.absorb
      (setMask (kinds ignored) forwardSignal s.oldmask answer.order s.process)
  | .tracing => .ok s

def childGoes (s : Launch) : Launch :=
  match s.child with
  | .forked _ => { s with child := .restored s.oldmask }
  | .restored mask => { s with child := .stopped mask }
  | _ => s

def step (ignored : Int → Bool) (s : Launch) : Input → Except Halt Launch
  | .raise sig => s.absorb (raise (kinds ignored) forwardSignal s.process sig)
  | .go answer => s.go ignored answer
  | .child => .ok s.childGoes
  | .childDies => .ok { s with child := .dead }

/-- The parent is told a pid by `fork`. `waitpid` returns when the child has stopped or died. -/
def permits (s : Launch) : Input → Bool
  | .go answer =>
    match s.point with
    | .masked => answer.fork != 0
    | .forked =>
      match s.child, answer.waitpid with
      | _, none => true
      | .stopped _, some status => status == 0x057f
      | .dead, some status => !wifstopped status
      | _, some _ => false
    | .installing [] => decide (Released s.oldmask s.process answer.order)
    | _ => true
  | .childDies =>
    match s.child with
    | .absent => false
    | _ => true
  | _ => true

def Permitted (s : Launch) (input : Input) : Prop := s.permits input = true

instance (s : Launch) (input : Input) : Decidable (s.Permitted input) :=
  inferInstanceAs (Decidable (s.permits input = true))

end Launch

/-- The signals that come. -/
def signalsOf (inputs : List Input) : List Int :=
  inputs.filterMap fun
    | .raise sig => some sig
    | _ => none

/-- A signal that is to be forwarded, and was not blocked when the program was started. -/
def wanted (opts : Options) (oldmask : Int → Bool) (sig : Int) : Bool :=
  decide (sig ∈ forwarded opts) && !oldmask sig

theorem foldl_forwardSignal {own : Forwarder} (hpid : own.traceePid ≠ 0) (sigs : List Int) :
    sigs.foldl forwardSignal own =
      { own with sent := own.sent ++ sigs.map fun sig => (own.traceePid, sig) } := by
  induction sigs generalizing own with
  | nil => simp
  | cons sig sigs ih =>
    have hfirst : forwardSignal own sig = { own with sent := own.sent ++ [(own.traceePid, sig)] } :=
      if_pos hpid
    have hrest := @ih { own with sent := own.sent ++ [(own.traceePid, sig)] } hpid
    rw [List.foldl_cons, hfirst, hrest]
    simp

/-- A signal that a handler can be installed for can be blocked. -/
theorem not_forced {ignored : Int → Bool} {sig : Int} (h : CommandLine.sigaction sig = 0) :
    (kinds ignored).forced sig = false := by
  unfold CommandLine.sigaction at h
  split at h
  · rename_i hvalid
    obtain ⟨_, _, hmem⟩ := hvalid
    simp only [List.mem_cons, not_or] at hmem
    exact decide_eq_false (not_or.mpr ⟨hmem.1, hmem.2.1⟩)
  · cases h

namespace Launch

variable {ignored : Int → Bool} {opts : Options} {oldmask : Int → Bool} {pending sigs : List Int}
  {s s' : Launch} {pid : Pid}

/-! ## Until the mask is restored -/

/-- Nothing was sent yet, and the signals that came are pending. -/
structure Readying (ignored : Int → Bool) (opts : Options) (oldmask : Int → Bool)
    (pending sigs : List Int) (s : Launch) : Prop where
  asked : s.opts = opts
  old : s.oldmask = oldmask
  blocked : s.process.blocked = fun _ => true
  kept : s.process.pending =
    (sigs.filter fun sig => !(kinds ignored).forced sig).foldl (queue (kinds ignored)) pending
  sent : s.process.own.sent = []
  traceePid : s.point ≠ .masked → s.process.own.traceePid ≠ 0
  child : ∀ mask, s.child = .restored mask ∨ s.child = .stopped mask → mask = oldmask
  handled : ∀ sig ∈ s.process.handled, CommandLine.sigaction sig = 0 ∧ sig ∈ forwarded opts
  waited : ∀ signums, s.point = .installing signums →
    s.child = .dead ∨ ∃ mask, s.child = .stopped mask
  rest : ∀ signums, s.point = .installing signums →
    (∀ sig ∈ signums, sig ∈ forwarded opts) ∧
      ∀ sig ∈ forwarded opts, sig ∈ s.process.handled ∨ sig ∈ signums

theorem readying_start : (start opts oldmask pending).Readying ignored opts oldmask pending [] where
  asked := rfl
  old := rfl
  blocked := rfl
  kept := rfl
  sent := rfl
  traceePid h := absurd rfl h
  child _ h := by rcases h with h | h <;> cases h
  handled _ h := by cases h
  waited _ h := by cases h
  rest _ h := by cases h

namespace Readying

/-- A signal that comes is pending then, or cannot be blocked and changes nothing. -/
theorem raise (hs : s.Readying ignored opts oldmask pending sigs) {sig : Int}
    (h : s.step ignored (.raise sig) = .ok s') :
    s'.Readying ignored opts oldmask pending (sigs ++ [sig]) ∧ s'.point = s.point := by
  have hkept : ∀ process : Process Forwarder, process.blocked = s.process.blocked →
      process.handled = s.process.handled → process.own = s.process.own →
      process.pending = ((sigs ++ [sig]).filter fun sig => !(kinds ignored).forced sig).foldl
        (queue (kinds ignored)) pending →
      ({ s with process := process } : Launch).Readying ignored opts oldmask pending
        (sigs ++ [sig]) := by
    intro process hblocked hhandled hown hpending
    refine ⟨hs.asked, hs.old, hblocked.trans hs.blocked, hpending, ?_, ?_, hs.child, ?_, hs.waited,
      ?_⟩
    · exact (congrArg Forwarder.sent hown).trans hs.sent
    · intro hne
      exact fun hzero => hs.traceePid hne ((congrArg Forwarder.traceePid hown).symm.trans hzero)
    · intro other hother
      rw [hhandled] at hother
      exact hs.handled other hother
    · intro signums hpoint
      obtain ⟨hasked, hcovered⟩ := hs.rest signums hpoint
      rw [hhandled]
      exact ⟨hasked, hcovered⟩
  have h : s.absorb (SignalMask.raise (kinds ignored) forwardSignal s.process sig) = .ok s' := h
  have hblocked : s.process.blocked sig = true := by rw [hs.blocked]
  unfold SignalMask.raise at h
  rw [hblocked, Bool.true_and] at h
  cases hforced : (kinds ignored).forced sig with
  | false =>
    rw [hforced] at h
    cases h
    refine ⟨hkept _ rfl rfl rfl ?_, rfl⟩
    rw [List.filter_append, List.foldl_append, ← hs.kept]
    simp [hforced]
  | true =>
    rw [hforced] at h
    have hnot : ¬(sig ∈ s.process.handled ∧ (kinds ignored).forced sig = false) := by
      rw [hforced]
      exact fun hno => by cases hno.2
    have hkeeps : s.process.pending =
        ((sigs ++ [sig]).filter fun sig => !(kinds ignored).forced sig).foldl
          (queue (kinds ignored)) pending := by
      rw [hs.kept, List.filter_append]
      simp [hforced]
    simp only [Bool.not_true, Bool.false_eq_true, if_false, SignalMask.deliver, if_neg hnot] at h
    split at h
    · cases h
    · cases h
      exact ⟨hkept s.process rfl rfl rfl hkeeps, rfl⟩

theorem setupTracer (hs : s.Readying ignored opts oldmask pending sigs) {answer : Answer}
    (hpoint : s.point = .forked) (hpermit : s.Permitted (.go answer))
    (h : s.setupTracer answer = .ok s') : s'.Readying ignored opts oldmask pending sigs := by
  unfold Launch.setupTracer at h
  split at h
  · cases h
  · rename_i status hstatus
    split at h
    · cases h
    split at h
    · cases h
      -- `waitpid` has returned a status
      have hwaited : s.child = .dead ∨ ∃ mask, s.child = .stopped mask := by
        simp only [Permitted, permits, hpoint, hstatus] at hpermit
        cases hchild : s.child with
        | stopped mask => exact Or.inr ⟨mask, rfl⟩
        | dead => exact Or.inl rfl
        | _ =>
          rw [hchild] at hpermit
          cases hpermit
      refine ⟨hs.asked, hs.old, hs.blocked, hs.kept, hs.sent, fun _ => hs.traceePid (by simp [hpoint]),
        hs.child, hs.handled, fun _ _ => hwaited, ?_⟩
      intro signums heq
      cases heq
      rw [hs.asked]
      exact ⟨fun _ h => h, fun _ h => Or.inr h⟩
    · cases h

/-- One more handler is installed. -/
theorem install (hs : s.Readying ignored opts oldmask pending sigs) {signum : Int}
    {signums : List Int} (hpoint : s.point = .installing (signum :: signums))
    (hvalid : CommandLine.sigaction signum = 0) : ({ s with
      point := .installing signums
      process := { s.process with handled := signum :: s.process.handled } } : Launch).Readying
        ignored opts oldmask pending sigs := by
  obtain ⟨hasked, hcovered⟩ := hs.rest _ hpoint
  refine ⟨hs.asked, hs.old, hs.blocked, hs.kept, hs.sent, fun _ => hs.traceePid (by simp [hpoint]),
    hs.child, ?_, fun _ _ => hs.waited _ hpoint, ?_⟩
  · intro sig hsig
    rcases List.mem_cons.mp hsig with rfl | hsig
    · exact ⟨hvalid, hasked sig List.mem_cons_self⟩
    · exact hs.handled sig hsig
  · intro rest heq
    cases heq
    refine ⟨fun sig hsig => hasked sig (List.mem_cons_of_mem signum hsig), fun sig hsig => ?_⟩
    rcases hcovered sig hsig with hdone | hleft
    · exact Or.inl (List.mem_cons_of_mem signum hdone)
    · rcases List.mem_cons.mp hleft with rfl | hleft
      · exact Or.inl List.mem_cons_self
      · exact Or.inr hleft

theorem go (hs : s.Readying ignored opts oldmask pending sigs) {answer : Answer}
    (hpermit : s.Permitted (.go answer)) (h : s.go ignored answer = .ok s')
    (hpoint' : s'.point ≠ .tracing) : s'.Readying ignored opts oldmask pending sigs := by
  unfold Launch.go at h
  cases hpoint : s.point with
  | masked =>
    simp only [hpoint] at h
    split at h
    · cases h
    · cases h
      have hfork : answer.fork ≠ 0 := by simpa [Permitted, permits, hpoint] using hpermit
      refine ⟨hs.asked, hs.old, hs.blocked, hs.kept, hs.sent, fun _ => hfork, ?_, hs.handled, ?_, ?_⟩
      · rintro mask (hno | hno)
        · cases hno
        · cases hno
      · exact fun _ hno => by cases hno
      · exact fun _ hno => by cases hno
  | forked =>
    simp only [hpoint] at h
    exact hs.setupTracer hpoint hpermit h
  | installing signums =>
    cases signums with
    | nil =>
      simp only [hpoint, absorb] at h
      split at h
      · cases h
        exact absurd rfl hpoint'
      · cases h
    | cons signum signums =>
      simp only [hpoint] at h
      split at h
      · rename_i hvalid
        cases h
        exact hs.install hpoint hvalid
      · cases h
  | tracing =>
    simp only [hpoint] at h
    cases h
    exact absurd hpoint hpoint'

/-- The child has its parent's mask until it puts the old one back. -/
theorem childGoes (hs : s.Readying ignored opts oldmask pending sigs) :
    s.childGoes.Readying ignored opts oldmask pending sigs := by
  unfold Launch.childGoes
  split
  · refine ⟨hs.asked, hs.old, hs.blocked, hs.kept, hs.sent, hs.traceePid, ?_, hs.handled, ?_, hs.rest⟩
    · rintro mask (hmask | hno)
      · cases hmask
        exact hs.old
      · cases hno
    · rename_i mask hchild
      intro signums hpoint
      rcases hs.waited signums hpoint with hno | ⟨_, hno⟩
      · rw [hchild] at hno
        cases hno
      · rw [hchild] at hno
        cases hno
  · rename_i mask hchild
    refine ⟨hs.asked, hs.old, hs.blocked, hs.kept, hs.sent, hs.traceePid, ?_, hs.handled,
      fun _ _ => Or.inr ⟨mask, rfl⟩, hs.rest⟩
    rintro mask' (hno | hmask)
    · cases hno
    · cases hmask
      exact hs.child mask (Or.inl hchild)
  · exact hs

theorem childDies (hs : s.Readying ignored opts oldmask pending sigs) :
    ({ s with child := .dead } : Launch).Readying ignored opts oldmask pending sigs := by
  refine ⟨hs.asked, hs.old, hs.blocked, hs.kept, hs.sent, hs.traceePid, ?_, hs.handled,
    fun _ _ => Or.inl rfl, hs.rest⟩
  rintro mask (hno | hno)
  · cases hno
  · cases hno

theorem step (hs : s.Readying ignored opts oldmask pending sigs) {input : Input}
    (hpermit : s.Permitted input) (h : s.step ignored input = .ok s')
    (hpoint : s'.point ≠ .tracing) :
    s'.Readying ignored opts oldmask pending (sigs ++ signalsOf [input]) := by
  cases input with
  | raise sig => exact (hs.raise h).1
  | go answer =>
    rw [show signalsOf [.go answer] = [] from rfl, List.append_nil]
    exact hs.go hpermit h hpoint
  | child =>
    cases h
    rw [show signalsOf [.child] = [] from rfl, List.append_nil]
    exact hs.childGoes
  | childDies =>
    cases h
    rw [show signalsOf [.childDies] = [] from rfl, List.append_nil]
    exact hs.childDies

end Readying

/-! ## Behind the restored mask -/

/-- Every handler is installed, and the child has its own mask or is dead. -/
structure Serving (ignored : Int → Bool) (opts : Options) (oldmask : Int → Bool) (s : Launch) :
    Prop where
  point : s.point = .tracing
  blocked : s.process.blocked = oldmask
  handles : ∀ sig, s.process.handles (kinds ignored) sig = decide (sig ∈ forwarded opts)
  valid : ∀ sig ∈ forwarded opts, (kinds ignored).forced sig = false
  traceePid : s.process.own.traceePid ≠ 0
  child : s.child = .dead ∨ s.child = .stopped oldmask

theorem signalsOf_append (inputs inputs' : List Input) :
    signalsOf (inputs ++ inputs') = signalsOf inputs ++ signalsOf inputs' := List.filterMap_append ..

theorem wanted_iff {sig : Int} :
    wanted opts oldmask sig = true ↔ sig ∈ forwarded opts ∧ oldmask sig = false := by
  simp [wanted]

/-- At the end of `SetupSignalForwarding` the handlers are those asked for. -/
theorem Readying.handles (hs : s.Readying ignored opts oldmask pending sigs)
    (hpoint : s.point = .installing []) :
    (∀ sig ∈ forwarded opts, (kinds ignored).forced sig = false) ∧
      ∀ sig, s.process.handles (kinds ignored) sig = decide (sig ∈ forwarded opts) := by
  have hhandled : ∀ sig, sig ∈ s.process.handled ↔ sig ∈ forwarded opts := by
    intro sig
    constructor
    · exact fun hsig => (hs.handled sig hsig).2
    · exact fun hsig => ((hs.rest _ hpoint).2 sig hsig).resolve_right (by simp)
  have hvalid : ∀ sig ∈ forwarded opts, (kinds ignored).forced sig = false := fun sig hsig =>
    not_forced (hs.handled sig ((hhandled sig).mpr hsig)).1
  refine ⟨hvalid, fun sig => ?_⟩
  by_cases hsig : sig ∈ forwarded opts
  · simp [Process.handles, (hhandled sig).mpr hsig, hvalid sig hsig, hsig]
  · have hno : sig ∉ s.process.handled := fun h => hsig ((hhandled sig).mp h)
    simp [Process.handles, hno, hsig]

/-- The wanted ones among the pending signals are those that came, with their likes together. -/
theorem Readying.kept_wanted (hs : s.Readying ignored opts oldmask pending sigs)
    (hpending : ∀ sig ∈ pending, oldmask sig = true)
    (hvalid : ∀ sig ∈ forwarded opts, (kinds ignored).forced sig = false) :
    s.process.pending.filter (wanted opts oldmask) =
      (sigs.filter (wanted opts oldmask)).foldl (queue (kinds ignored)) [] := by
  have hnone : pending.filter (wanted opts oldmask) = [] := by
    refine List.filter_eq_nil_iff.mpr fun sig hsig hyes => ?_
    have hold := hpending sig hsig
    rw [(wanted_iff.mp hyes).2] at hold
    cases hold
  rw [hs.kept, filter_foldl_queue, hnone, List.filter_filter]
  congr 1
  refine List.filter_congr fun sig _ => ?_
  cases hyes : wanted opts oldmask sig with
  | false => rfl
  | true => simp [hvalid sig (wanted_iff.mp hyes).1]

/-- What the restored mask lets through is sent to the tracee. -/
theorem restored (hs : s.Readying ignored opts oldmask pending sigs)
    (hpending : ∀ sig ∈ pending, oldmask sig = true) (hpoint : s.point = .installing [])
    {answer : Answer} (hpermit : s.Permitted (.go answer)) (h : s.go ignored answer = .ok s') :
    s'.Serving ignored opts oldmask ∧ ∃ released : List Int,
      released.Perm ((sigs.filter (wanted opts oldmask)).foldl (queue (kinds ignored)) []) ∧
      s'.process.own.sent = released.map fun sig => (s'.process.own.traceePid, sig) := by
  obtain ⟨hvalid, hhandles⟩ := hs.handles hpoint
  have hchild : s.child = .dead ∨ s.child = .stopped oldmask := by
    rcases hs.waited _ hpoint with hdead | ⟨mask, hmask⟩
    · exact Or.inl hdead
    · rw [hs.child mask (Or.inr hmask)] at hmask
      exact Or.inr hmask
  have hpid := hs.traceePid (by simp [hpoint])
  have hreleased : Released s.oldmask s.process answer.order := by
    simpa [Permitted, permits, hpoint] using hpermit
  unfold Launch.go at h
  simp only [hpoint, absorb] at h
  split at h
  · rename_i process hmask
    cases h
    have hprocess := deliver_run hmask
    have hown : process.own = { s.process.own with
        sent := s.process.own.sent ++ (answer.order.filter fun sig =>
          decide (sig ∈ forwarded opts)).map fun sig => (s.process.own.traceePid, sig) } := by
      have hfilter : answer.order.filter (s.process.handles (kinds ignored)) =
          answer.order.filter fun sig => decide (sig ∈ forwarded opts) :=
        List.filter_congr fun sig _ => hhandles sig
      rw [hprocess, ← foldl_forwardSignal hpid, ← hfilter]
      rfl
    have hserving : ({ s with point := .tracing, process := process } : Launch).Serving ignored
        opts oldmask := by
      refine ⟨rfl, ?_, fun sig => ?_, hvalid, ?_, hchild⟩
      · rw [hprocess]
        exact hs.old
      · rw [hprocess]
        exact hhandles sig
      · rw [hown]
        exact hpid
    refine ⟨hserving, answer.order.filter fun sig => decide (sig ∈ forwarded opts), ?_, ?_⟩
    · have hperm := List.Perm.filter (fun sig => decide (sig ∈ forwarded opts)) hreleased
      rw [hs.old, List.filter_filter] at hperm
      exact hperm.trans (List.Perm.of_eq (hs.kept_wanted hpending hvalid))
    · rw [hown, hs.sent]
      rfl
  · cases h

/-- What a step of the traced program adds: a wanted signal is sent at once. -/
structure Sends (opts : Options) (oldmask : Int → Bool) (sigs : List Int) (s s' : Launch) :
    Prop where
  traceePid : s'.process.own.traceePid = s.process.own.traceePid
  sent : s'.process.own.sent = s.process.own.sent ++
    (sigs.filter (wanted opts oldmask)).map fun sig => (s.process.own.traceePid, sig)

namespace Serving

/-- A signal is kept, or delivered at once. -/
theorem raise (hs : s.Serving ignored opts oldmask) {sig : Int}
    (h : s.step ignored (.raise sig) = .ok s') :
    s'.Serving ignored opts oldmask ∧ Sends opts oldmask [sig] s s' := by
  have h : s.absorb (SignalMask.raise (kinds ignored) forwardSignal s.process sig) = .ok s' := h
  have hmask : s.process.blocked sig = oldmask sig := by rw [hs.blocked]
  unfold SignalMask.raise at h
  rw [hmask] at h
  split at h
  · rename_i hblocked
    cases h
    rw [Bool.and_eq_true] at hblocked
    have hno : wanted opts oldmask sig = false := by simp [wanted, hblocked.1]
    refine ⟨⟨hs.point, hs.blocked, hs.handles, hs.valid, hs.traceePid, hs.child⟩, rfl, ?_⟩
    simp [hno]
  · rename_i hopen
    unfold absorb at h
    split at h
    · rename_i process hdeliver
      cases h
      have hprocess := deliver_ok hdeliver
      rw [hs.handles] at hprocess
      have hwanted : wanted opts oldmask sig = decide (sig ∈ forwarded opts) := by
        by_cases hsig : sig ∈ forwarded opts
        · have hold : oldmask sig = false := by
            simpa [hs.valid sig hsig] using hopen
          simp [wanted, hold]
        · simp [wanted, hsig]
      have hown : process.own = { s.process.own with
          sent := s.process.own.sent ++ ([sig].filter (wanted opts oldmask)).map fun sig =>
            (s.process.own.traceePid, sig) } := by
        rw [hprocess]
        by_cases hsig : sig ∈ forwarded opts
        · simp [hwanted, hsig, forwardSignal, hs.traceePid]
        · simp [hwanted, hsig]
      refine ⟨⟨hs.point, ?_, fun other => ?_, hs.valid, ?_, hs.child⟩, ?_, ?_⟩
      · rw [hprocess]
        exact hs.blocked
      · rw [hprocess]
        exact hs.handles other
      · rw [hown]
        exact hs.traceePid
      · rw [hown]
      · rw [hown]
    · cases h

theorem step (hs : s.Serving ignored opts oldmask) {input : Input}
    (h : s.step ignored input = .ok s') :
    s'.Serving ignored opts oldmask ∧ Sends opts oldmask (signalsOf [input]) s s' := by
  cases input with
  | raise sig => exact hs.raise h
  | go answer =>
    have h : s.go ignored answer = .ok s' := h
    unfold Launch.go at h
    simp only [hs.point] at h
    cases h
    exact ⟨hs, rfl, (List.append_nil _).symm⟩
  | child =>
    have hchild : s.childGoes = s := by
      unfold Launch.childGoes
      rcases hs.child with hdead | hstopped
      · rw [hdead]
      · rw [hstopped]
    cases h
    rw [hchild]
    exact ⟨hs, rfl, (List.append_nil _).symm⟩
  | childDies =>
    cases h
    exact ⟨⟨hs.point, hs.blocked, hs.handles, hs.valid, hs.traceePid, Or.inl rfl⟩, rfl,
      (List.append_nil _).symm⟩

theorem run (hs : s.Serving ignored opts oldmask) {inputs : List Input}
    (h : Runs.run (Launch.step ignored) s inputs = .ok s') :
    s'.Serving ignored opts oldmask ∧ Sends opts oldmask (signalsOf inputs) s s' := by
  induction inputs generalizing s with
  | nil =>
    cases h
    exact ⟨hs, rfl, (List.append_nil _).symm⟩
  | cons input inputs ih =>
    obtain ⟨s₁, hfirst, hrest⟩ := Runs.run_cons_ok_iff.mp h
    obtain ⟨hs₁, hpid₁, hsent₁⟩ := hs.step hfirst
    obtain ⟨hs', hpid, hsent⟩ := ih hs₁ hrest
    refine ⟨hs', hpid.trans hpid₁, ?_⟩
    have hsplit : signalsOf (input :: inputs) = signalsOf [input] ++ signalsOf inputs :=
      signalsOf_append [input] inputs
    rw [hsent, hsent₁, hpid₁, hsplit, List.filter_append, List.map_append, List.append_assoc]

end Serving

/-! ## Whole runs -/

theorem absorb_ok {outcome : Except Int (Process Forwarder)} (h : s.absorb outcome = .ok s') :
    ∃ process, outcome = .ok process ∧ s' = { s with process := process } := by
  unfold absorb at h
  split at h
  · cases h
    exact ⟨_, rfl, rfl⟩
  · cases h

/-- The only statement that leads to the tracing restores the mask. -/
theorem restores_of_tracing {input : Input} (h : s.step ignored input = .ok s')
    (hbefore : s.point ≠ .tracing) (hafter : s'.point = .tracing) :
    ∃ answer, input = .go answer ∧ s.point = .installing [] := by
  cases input with
  | raise sig =>
    obtain ⟨process, _, rfl⟩ := absorb_ok h
    exact absurd hafter hbefore
  | child =>
    cases h
    have hsame : s.childGoes.point = s.point := by
      unfold childGoes
      split <;> rfl
    exact absurd (hsame.symm.trans hafter) hbefore
  | childDies =>
    cases h
    exact absurd hafter hbefore
  | go answer =>
    refine ⟨answer, rfl, ?_⟩
    have h : s.go ignored answer = .ok s' := h
    unfold Launch.go at h
    cases hpoint : s.point with
    | masked =>
      simp only [hpoint] at h
      split at h
      · cases h
      · cases h
        cases hafter
    | forked =>
      simp only [hpoint, Launch.setupTracer] at h
      split at h
      · cases h
      split at h
      · cases h
      split at h
      · cases h
        cases hafter
      · cases h
    | installing signums =>
      cases signums with
      | nil => rfl
      | cons signum signums =>
        simp only [hpoint] at h
        split at h
        · cases h
          cases hafter
        · cases h
    | tracing => exact absurd hpoint hbefore

/-- A run either has not restored the mask yet, or splits where it does. -/
theorem Readying.run (hs : s.Readying ignored opts oldmask pending sigs)
    (hpoint : s.point ≠ .tracing) {inputs : List Input}
    (hpermitted : Runs.Along (Launch.step ignored) Permitted s inputs)
    (h : Runs.run (Launch.step ignored) s inputs = .ok s') :
    (s'.point ≠ .tracing ∧
        s'.Readying ignored opts oldmask pending (sigs ++ signalsOf inputs)) ∨
      ∃ before answer after s₁ s₂, inputs = before ++ .go answer :: after ∧
        Runs.run (Launch.step ignored) s before = .ok s₁ ∧ s₁.point = .installing [] ∧
        s₁.Readying ignored opts oldmask pending (sigs ++ signalsOf before) ∧
        s₁.Permitted (.go answer) ∧ s₁.go ignored answer = .ok s₂ ∧
        Runs.run (Launch.step ignored) s₂ after = .ok s' := by
  induction inputs generalizing s sigs with
  | nil =>
    cases h
    exact Or.inl ⟨hpoint, by rwa [show signalsOf [] = [] from rfl, List.append_nil]⟩
  | cons input inputs ih =>
    obtain ⟨s₁, hfirst, hrest⟩ := Runs.run_cons_ok_iff.mp h
    by_cases htracing : s₁.point = .tracing
    · obtain ⟨answer, rfl, hlast⟩ := restores_of_tracing hfirst hpoint htracing
      refine Or.inr ⟨[], answer, inputs, s, s₁, rfl, rfl, hlast, ?_, hpermitted.1, hfirst, hrest⟩
      rwa [show signalsOf [] = [] from rfl, List.append_nil]
    · have hs₁ := hs.step hpermitted.1 hfirst htracing
      have hsplit : ∀ rest, signalsOf (input :: rest) = signalsOf [input] ++ signalsOf rest :=
        fun rest => signalsOf_append [input] rest
      rcases ih hs₁ htracing (hpermitted.2 s₁ hfirst) hrest with ⟨hbefore, hs'⟩ |
        ⟨before, answer, after, t₁, t₂, rfl, hrun, hlast, ht₁, hgo, hrestored, hafter⟩
      · rw [List.append_assoc, ← hsplit] at hs'
        exact Or.inl ⟨hbefore, hs'⟩
      · rw [List.append_assoc, ← hsplit] at ht₁
        exact Or.inr ⟨input :: before, answer, after, t₁, t₂, rfl,
          Runs.run_cons_ok_iff.mpr ⟨s₁, hfirst, hrun⟩, hlast, ht₁, hgo, hrestored, hafter⟩

/-- A signal that was to be forwarded has ended the program. -/
def Lost (ignored : Int → Bool) (opts : Options) (e : Halt) : Prop :=
  ∃ sig, e = .killed sig ∧ sig ∈ forwarded opts ∧ (kinds ignored).forced sig = false

theorem absorb_avoids {outcome : Except Int (Process Forwarder)}
    (h : ∀ sig, outcome = .error sig → sig ∉ forwarded opts ∨ (kinds ignored).forced sig = true) :
    (s.absorb outcome).Avoids (Lost ignored opts) := by
  unfold absorb
  split
  · exact Avoids.ok _
  · rename_i sig
    refine Avoids.error ?_
    rintro ⟨_, hsame, hwanted, hforced⟩
    cases hsame
    rcases h sig rfl with hno | hyes
    · exact hno hwanted
    · rw [hyes] at hforced
      cases hforced

/-- While all signals are blocked only those end the program that cannot be. -/
theorem Readying.avoids (hs : s.Readying ignored opts oldmask pending sigs) {input : Input} :
    (s.step ignored input).Avoids (Lost ignored opts) := by
  have hother : ∀ e, (∀ sig, e ≠ .killed sig) → ¬Lost ignored opts e :=
    fun e he ⟨sig, hkilled, _⟩ => he sig hkilled
  cases input with
  | raise sig =>
    refine absorb_avoids fun e he => ?_
    have hblocked : s.process.blocked sig = true := by rw [hs.blocked]
    unfold SignalMask.raise at he
    rw [hblocked, Bool.true_and] at he
    split at he
    · cases he
    · rename_i hforced
      rw [(deliver_error he).1]
      right
      simpa using hforced
  | child => exact Avoids.ok _
  | childDies => exact Avoids.ok _
  | go answer =>
    have hgo : (s.go ignored answer).Avoids (Lost ignored opts) := by
      unfold Launch.go
      cases hpoint : s.point with
      | masked =>
        simp only
        split
        · exact Avoids.error (hother _ fun _ h => by cases h)
        · exact Avoids.ok _
      | forked =>
        simp only [Launch.setupTracer]
        split
        · exact Avoids.error (hother _ fun _ h => by cases h)
        split
        · exact Avoids.error (hother _ fun _ h => by cases h)
        split
        · exact Avoids.ok _
        · exact Avoids.error (hother _ fun _ h => by cases h)
      | installing signums =>
        cases signums with
        | nil =>
          refine absorb_avoids fun e he => ?_
          obtain ⟨_, hno⟩ := deliver_run_error he
          have hno : s.process.handles (kinds ignored) e = false := hno
          rw [(hs.handles hpoint).2] at hno
          exact Or.inl (of_decide_eq_false hno)
        | cons signum signums =>
          simp only
          split
          · exact Avoids.ok _
          · exact Avoids.error (hother _ fun _ h => by cases h)
      | tracing => exact Avoids.ok _
    exact hgo

theorem Serving.avoids (hs : s.Serving ignored opts oldmask) {input : Input} :
    (s.step ignored input).Avoids (Lost ignored opts) := by
  cases input with
  | raise sig =>
    refine absorb_avoids fun e he => ?_
    unfold SignalMask.raise at he
    split at he
    · cases he
    · obtain ⟨rfl, hno⟩ := deliver_error he
      rw [hs.handles] at hno
      exact Or.inl (of_decide_eq_false hno)
  | child => exact Avoids.ok _
  | childDies => exact Avoids.ok _
  | go answer =>
    have hgo : (s.go ignored answer).Avoids (Lost ignored opts) := by
      unfold Launch.go
      simp only [hs.point]
      exact Avoids.ok _
    exact hgo

/-- Before the mask is restored or behind it. -/
def Guarded (ignored : Int → Bool) (opts : Options) (oldmask : Int → Bool) (pending : List Int)
    (s : Launch) : Prop :=
  (s.point ≠ .tracing ∧ ∃ sigs, s.Readying ignored opts oldmask pending sigs) ∨
    s.Serving ignored opts oldmask

theorem Guarded.step (hpending : ∀ sig ∈ pending, oldmask sig = true) {input : Input}
    (hs : s.Guarded ignored opts oldmask pending) (hpermit : s.Permitted input)
    (h : s.step ignored input = .ok s') : s'.Guarded ignored opts oldmask pending := by
  rcases hs with ⟨hpoint, sigs, hs⟩ | hs
  · by_cases htracing : s'.point = .tracing
    · obtain ⟨answer, rfl, hlast⟩ := restores_of_tracing h hpoint htracing
      exact Or.inr (restored hs hpending hlast hpermit h).1
    · exact Or.inl ⟨htracing, _, hs.step hpermit h htracing⟩
  · exact Or.inr (hs.step h).1

/-- Once the signals are blocked, no signal that is to be forwarded ends the program. -/
theorem not_killed (hpending : ∀ sig ∈ pending, oldmask sig = true) {inputs : List Input}
    (hpermitted : Runs.Along (step ignored) Permitted (start opts oldmask pending) inputs) {sig : Int}
    (hwanted : sig ∈ forwarded opts) (hvalid : CommandLine.sigaction sig = 0) :
    Runs.run (step ignored) (start opts oldmask pending) inputs ≠ .error (.killed sig) := by
  have havoids : (Runs.run (step ignored) (start opts oldmask pending) inputs).Avoids
      (Lost ignored opts) := by
    refine @Runs.run_avoids _ _ _ (step ignored) Permitted (Guarded ignored opts oldmask pending) _
      (fun _ _ _ hs hpermit h => Guarded.step hpending hs hpermit h) (fun _ _ hs _ => ?_) _ inputs
      (Or.inl ⟨(fun h => by cases h), [], readying_start⟩) hpermitted
    rcases hs with ⟨_, _, hs⟩ | hs
    · exact hs.avoids
    · exact hs.avoids
  exact fun h => havoids _ h ⟨sig, rfl, hwanted, not_forced hvalid⟩

/-- Interrupts come before the fork, before the handlers are there, and later. -/
def interrupts : List Input :=
  [.raise 2, .go ⟨7, none, true, []⟩, .raise 15, .child, .raise 2, .child,
    .go ⟨0, some 0x057f, true, []⟩, .go ⟨0, none, true, []⟩, .go ⟨0, none, true, []⟩,
    .go ⟨0, none, true, [15, 2]⟩, .raise 17, .raise 2]

def interruptOptions : Options := { plainOptions with forwardingSignals := [2, 15] }

theorem not_killed_interrupts :
    Runs.run (step fun _ => false) (start interruptOptions (fun _ => false) []) interrupts ≠
      .error (.killed 2) :=
  @not_killed (fun _ => false) interruptOptions (fun _ => false) [] (by simp) interrupts (by decide)
    2 (by decide) (by decide)

end Launch

end Forwarding

end Optrace
