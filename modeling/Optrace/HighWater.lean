import Optrace.Types

/-!
# The positions of a file state

Sequences of the three calls that move the positions of a `TFileState`, and where both are
afterwards.
-/

namespace Optrace

set_option autoImplicit false

inductive PositionCall where
  | enroll (nbytes : Word)
  | enrollNoShift (nbytes offset : Word)
  | setCurrPos (pos : Word)
  deriving DecidableEq

namespace PositionCall

def apply : PositionCall → FileState → FileState
  | enroll nbytes => FileState.enroll nbytes
  | enrollNoShift nbytes offset => FileState.enrollNoShift nbytes offset
  | setCurrPos pos => FileState.setCurrPos pos

def isPositional : PositionCall → Bool
  | enrollNoShift _ _ => true
  | _ => false

/-- The bytes enrolled at the current offset. -/
def enrolled : PositionCall → Nat
  | enroll nbytes => nbytes.toNat
  | _ => 0

def target : PositionCall → Option Nat
  | setCurrPos pos => some pos.toNat
  | _ => none

/-- Where the bytes of a call end, if it enrolls any. -/
def endAt (offset : Nat) : PositionCall → Option Nat
  | enroll nbytes => some (offset + nbytes.toNat)
  | enrollNoShift nbytes start => some (start.toNat + nbytes.toNat)
  | setCurrPos _ => none

end PositionCall

open PositionCall

def FileState.run (s : FileState) (calls : List PositionCall) : FileState :=
  calls.foldl (fun s call => call.apply s) s

/-- The last target, or the offset at the beginning, and all bytes enrolled since. -/
def offsetAfter (offset : Nat) (calls : List PositionCall) : Nat :=
  (calls.filterMap target).getLast?.getD offset +
    ((calls.reverse.takeWhile fun call => call.target.isNone).map enrolled).sum

/-- The ends of the calls that follow those already done. -/
def endsFrom (offset : Nat) : List PositionCall → List PositionCall → List Nat
  | _, [] => []
  | done, call :: calls =>
    (call.endAt (offsetAfter offset done)).toList ++ endsFrom offset (done ++ [call]) calls

def ends (offset : Nat) (calls : List PositionCall) : List Nat := endsFrom offset [] calls

/-- No sum reaches 2 ^ 64. -/
def SumsFit (offset : Nat) (calls : List PositionCall) : Prop :=
  ∀ position ∈ ends offset calls, position < 2 ^ 64

instance (offset : Nat) (calls : List PositionCall) : Decidable (SumsFit offset calls) :=
  inferInstanceAs (Decidable (∀ position ∈ ends offset calls, position < 2 ^ 64))

/-! ## One more call -/

theorem offsetAfter_concat (offset : Nat) (calls : List PositionCall) (call : PositionCall) :
    offsetAfter offset (calls ++ [call]) =
      call.target.getD (offsetAfter offset calls + call.enrolled) := by
  unfold offsetAfter
  rw [List.filterMap_append, List.reverse_append]
  cases call with
  | setCurrPos pos => simp [target]
  | enroll nbytes => simp [target, enrolled]; omega
  | enrollNoShift nbytes start => simp [target, enrolled]

theorem endsFrom_concat (offset : Nat) (done calls : List PositionCall) (call : PositionCall) :
    endsFrom offset done (calls ++ [call]) =
      endsFrom offset done calls ++ (call.endAt (offsetAfter offset (done ++ calls))).toList := by
  induction calls generalizing done with
  | nil => simp [endsFrom]
  | cons first calls ih =>
    rw [List.cons_append, endsFrom, ih, endsFrom, List.append_assoc, List.append_assoc]
    rfl

theorem ends_concat (offset : Nat) (calls : List PositionCall) (call : PositionCall) :
    ends offset (calls ++ [call]) =
      ends offset calls ++ (call.endAt (offsetAfter offset calls)).toList :=
  endsFrom_concat offset [] calls call

namespace FileState

theorem run_concat (s : FileState) (calls : List PositionCall) (call : PositionCall) :
    s.run (calls ++ [call]) = call.apply (s.run calls) := by
  simp [run]

theorem run_append (s : FileState) (calls calls' : List PositionCall) :
    s.run (calls ++ calls') = (s.run calls).run calls' := by
  simp [run]

theorem raised_toNat (mark position : Word) :
    (if mark < position then position else mark).toNat = max mark.toNat position.toNat := by
  split
  · rename_i hlt
    exact (max_eq_right (Nat.le_of_lt hlt)).symm
  · rename_i hge
    exact (max_eq_left (Nat.le_of_not_lt hge)).symm

/-- Where a call takes both positions if its sum fits. -/
theorem apply_positions {s : FileState} {call : PositionCall}
    (h : ∀ position ∈ call.endAt s.currPos.toNat, position < 2 ^ 64) :
    (call.apply s).currPos.toNat = call.target.getD (s.currPos.toNat + call.enrolled) ∧
      (call.apply s).maxPos.toNat =
        (call.endAt s.currPos.toNat).toList.foldr max s.maxPos.toNat := by
  cases call with
  | setCurrPos pos => exact ⟨rfl, rfl⟩
  | enroll nbytes =>
    have hsum : (s.currPos + nbytes).toNat = s.currPos.toNat + nbytes.toNat :=
      BitVec.toNat_add_of_lt (h _ rfl)
    refine ⟨hsum, ?_⟩
    simp only [apply, FileState.enroll, raised_toNat, hsum, endAt, Option.toList_some,
      List.foldr_cons, List.foldr_nil]
    exact max_comm _ _
  | enrollNoShift nbytes start =>
    have hsum : (start + nbytes).toNat = start.toNat + nbytes.toNat :=
      BitVec.toNat_add_of_lt (h _ rfl)
    refine ⟨rfl, ?_⟩
    simp only [apply, FileState.enrollNoShift, raised_toNat, hsum, endAt, Option.toList_some,
      List.foldr_cons, List.foldr_nil]
    exact max_comm _ _

/-! ## Whole sequences -/

/-- Both positions after a sequence, with the greatest end on top of the mark there was. -/
theorem run_positions {s : FileState} {calls : List PositionCall}
    (h : SumsFit s.currPos.toNat calls) :
    (s.run calls).currPos.toNat = offsetAfter s.currPos.toNat calls ∧
      (s.run calls).maxPos.toNat = (ends s.currPos.toNat calls).foldr max s.maxPos.toNat := by
  induction calls using List.reverseRecOn with
  | nil => exact ⟨rfl, rfl⟩
  | append_singleton calls call ih =>
    unfold SumsFit at h
    rw [ends_concat] at h
    obtain ⟨hcurr, hmax⟩ := ih fun position hposition => h position (List.mem_append_left _ hposition)
    have hlast : ∀ position ∈ call.endAt (s.run calls).currPos.toNat, position < 2 ^ 64 := by
      intro position hposition
      rw [hcurr] at hposition
      exact h position (List.mem_append_right _ (Option.mem_toList.mpr hposition))
    obtain ⟨hcurr', hmax'⟩ := apply_positions hlast
    rw [run_concat, hcurr', hmax', hcurr, hmax, offsetAfter_concat, ends_concat, List.foldr_append]
    refine ⟨rfl, ?_⟩
    cases call.endAt (offsetAfter s.currPos.toNat calls) with
    | none => rfl
    | some position =>
      rw [Option.toList_some, List.foldr_cons, List.foldr_nil, List.foldr_cons, List.foldr_nil,
        max_comm position s.maxPos.toNat, List.foldr_assoc]
      exact max_comm _ _

/-- No call lowers the mark, and none touches the size at the beginning. -/
theorem apply_mono (s : FileState) (call : PositionCall) :
    s.maxPos.toNat ≤ (call.apply s).maxPos.toNat ∧ (call.apply s).initSize = s.initSize := by
  cases call with
  | setCurrPos pos => exact ⟨le_refl _, rfl⟩
  | enroll nbytes =>
    simp only [apply, FileState.enroll, raised_toNat]
    exact ⟨le_max_left _ _, trivial⟩
  | enrollNoShift nbytes start =>
    simp only [apply, FileState.enrollNoShift, raised_toNat]
    exact ⟨le_max_left _ _, trivial⟩

theorem run_mono (s : FileState) (calls : List PositionCall) :
    s.maxPos.toNat ≤ (s.run calls).maxPos.toNat ∧ (s.run calls).initSize = s.initSize := by
  induction calls generalizing s with
  | nil => exact ⟨le_refl _, rfl⟩
  | cons call calls ih =>
    obtain ⟨hmax, hinit⟩ := apply_mono s call
    obtain ⟨hmax', hinit'⟩ := ih (call.apply s)
    exact ⟨le_trans hmax hmax', hinit'.trans hinit⟩

theorem getOutputSize_mono (s : FileState) (calls : List PositionCall) :
    s.getOutputSize ≤ (s.run calls).getOutputSize := by
  obtain ⟨hmax, hinit⟩ := run_mono s calls
  rw [BitVec.le_def, getOutputSize_toNat, getOutputSize_toNat, hinit]
  exact Nat.sub_le_sub_right hmax _

/-! ## Positional calls -/

theorem raised_comm (mark a b : Word) :
    (if (if mark < a then a else mark) < b then b else if mark < a then a else mark) =
      if (if mark < b then b else mark) < a then a else if mark < b then b else mark := by
  apply BitVec.eq_of_toNat_eq
  simp only [raised_toNat]
  exact max_right_comm _ _ _

/-- A positional call may be made before any other call instead of after it. -/
theorem apply_enrollNoShift (s : FileState) (nbytes start : Word) (call : PositionCall) :
    call.apply (s.enrollNoShift nbytes start) = (call.apply s).enrollNoShift nbytes start := by
  cases call with
  | setCurrPos pos => rfl
  | enroll nbytes' =>
    simp only [apply, FileState.enroll, FileState.enrollNoShift, FileState.mk.injEq, and_true]
    exact raised_comm _ _ _
  | enrollNoShift nbytes' start' =>
    simp only [apply, FileState.enrollNoShift, FileState.mk.injEq, and_true]
    exact raised_comm _ _ _

theorem run_enrollNoShift (s : FileState) (nbytes start : Word) (calls : List PositionCall) :
    (s.enrollNoShift nbytes start).run calls = (s.run calls).enrollNoShift nbytes start := by
  induction calls generalizing s with
  | nil => rfl
  | cons call calls ih =>
    have hfirst := apply_enrollNoShift s nbytes start call
    have hrest := ih (call.apply s)
    rw [← hfirst] at hrest
    exact hrest

/-- And so it may stand anywhere else. -/
theorem run_move (s : FileState) (nbytes start : Word) (before between rest : List PositionCall) :
    s.run (before ++ .enrollNoShift nbytes start :: (between ++ rest)) =
      s.run (before ++ between ++ .enrollNoShift nbytes start :: rest) := by
  have hmove := run_enrollNoShift (s.run before) nbytes start between
  rw [run_append, run_append, run_append]
  have hfirst : (s.run before).run (.enrollNoShift nbytes start :: (between ++ rest)) =
      (((s.run before).enrollNoShift nbytes start).run between).run rest :=
    run_append _ between rest
  rw [hfirst, hmove]
  rfl

theorem run_currPos (s t : FileState) (hoffset : s.currPos = t.currPos)
    (calls : List PositionCall) : (s.run calls).currPos =
      (t.run (calls.filter fun call => !call.isPositional)).currPos := by
  induction calls generalizing s t with
  | nil => exact hoffset
  | cons call calls ih =>
    cases call with
    | enrollNoShift nbytes start => exact ih (s.enrollNoShift nbytes start) t hoffset
    | enroll nbytes =>
      have hnext : (s.enroll nbytes).currPos = (t.enroll nbytes).currPos :=
        congrArg (· + nbytes) hoffset
      exact ih _ _ hnext
    | setCurrPos pos =>
      have hnext : (s.setCurrPos pos).currPos = (t.setCurrPos pos).currPos := rfl
      exact ih _ _ hnext

end FileState

/-- A file state keeps a high-water mark: the greatest end of all calls, whatever the order of the
positional ones. -/
theorem high_water_mark {s : FileState} {calls : List PositionCall} (hnew : s.maxPos = 0)
    (hfit : SumsFit s.currPos.toNat calls) :
    (s.run calls).maxPos.toNat = (ends s.currPos.toNat calls).foldr max 0 ∧
      (s.run calls).currPos.toNat = offsetAfter s.currPos.toNat calls ∧
      (s.run calls).currPos = (s.run (calls.filter fun call => !call.isPositional)).currPos ∧
      (s.run calls).getOutputSize.toNat =
        (ends s.currPos.toNat calls).foldr max 0 - s.initSize.toNat ∧
      (∀ done rest, calls = done ++ rest →
        (s.run done).getOutputSize ≤ (s.run calls).getOutputSize) ∧
      ∀ before between rest nbytes start,
        (calls = before ++ .enrollNoShift nbytes start :: (between ++ rest) →
          s.run (before ++ between ++ .enrollNoShift nbytes start :: rest) = s.run calls) ∧
        (calls = before ++ between ++ .enrollNoShift nbytes start :: rest →
          s.run (before ++ .enrollNoShift nbytes start :: (between ++ rest)) = s.run calls) := by
  obtain ⟨hcurr, hmax⟩ := FileState.run_positions hfit
  rw [hnew] at hmax
  refine ⟨hmax, hcurr, FileState.run_currPos s s rfl calls, ?_, ?_, ?_⟩
  · rw [FileState.getOutputSize_toNat, hmax, (FileState.run_mono s calls).2]
    rfl
  · rintro done rest rfl
    rw [FileState.run_append]
    exact FileState.getOutputSize_mono _ _
  · intro before between rest nbytes start
    have hmove := FileState.run_move s nbytes start before between rest
    constructor
    · rintro rfl
      exact hmove.symm
    · rintro rfl
      exact hmove

/-- Ten bytes written, five more 20 bytes further on, and the rest from offset 4. -/
def fourCalls : List PositionCall :=
  [.enroll 10, .enrollNoShift 5 30, .setCurrPos 4, .enroll 8]

theorem high_water_mark_fourCalls :
    ((⟨0, 7, 0, 20, "log"⟩ : FileState).run fourCalls).maxPos.toNat = 35 ∧
      ((⟨0, 7, 0, 20, "log"⟩ : FileState).run fourCalls).currPos.toNat = 12 ∧
      ((⟨0, 7, 0, 20, "log"⟩ : FileState).run fourCalls).getOutputSize.toNat = 15 := by
  obtain ⟨hmax, hcurr, _, hsize, _⟩ :=
    @high_water_mark ⟨0, 7, 0, 20, "log"⟩ fourCalls rfl (by decide)
  exact ⟨hmax, hcurr, hsize⟩

end Optrace
