import Mathlib.Data.BitVec

/-!
# Classic BPF

The part of the classic BPF machine that straight filters use: 32-bit absolute loads,
equality and bit-test jumps, and constant returns. Jumps only go forward, so a program
is run by structural recursion with a count of the instructions still to be skipped.
-/

namespace Bpf

set_option autoImplicit false

/-- The instructions, named after the `BPF_*` codes they are assembled from. Jump
offsets are relative to the next instruction. -/
inductive Insn where
  | ldWAbs (off : Nat)
  | jeqK (k : BitVec 32) (jt jf : Nat)
  | jsetK (k : BitVec 32) (jt jf : Nat)
  | retK (k : BitVec 32)
  deriving DecidableEq

/-- Run a program on the packet `load` reads from; `none` is a run off its end. -/
def exec (load : Nat → BitVec 32) : List Insn → Nat → BitVec 32 → Option (BitVec 32)
  | [], _, _ => none
  | _ :: rest, skip + 1, acc => exec load rest skip acc
  | .ldWAbs off :: rest, 0, _ => exec load rest 0 (load off)
  | .jeqK k jt jf :: rest, 0, acc => exec load rest (if acc = k then jt else jf) acc
  | .jsetK k jt jf :: rest, 0, acc => exec load rest (if acc &&& k ≠ 0#32 then jt else jf) acc
  | .retK k :: _, 0, _ => some k

def run (load : Nat → BitVec 32) (program : List Insn) : Option (BitVec 32) :=
  exec load program 0 0

variable (load : Nat → BitVec 32)

theorem exec_drop (program : List Insn) (skip : Nat) (acc : BitVec 32) :
    exec load program skip acc = exec load (program.drop skip) 0 acc := by
  induction program generalizing skip with
  | nil => simp [exec]
  | cons insn rest ih =>
    cases skip with
    | zero => rfl
    | succ skip => simpa [exec] using ih skip

/-- A jump over the whole of `skipped` lands on what follows it. -/
theorem exec_append_skip (skipped rest : List Insn) (acc : BitVec 32) :
    exec load (skipped ++ rest) skipped.length acc = exec load rest 0 acc := by
  rw [exec_drop, List.drop_left]

/-! ## Blocks -/

/-- Return `verdict` when the accumulator is one of `ks`, else go on. -/
def returnOn (ks : List (BitVec 32)) (verdict : BitVec 32) : List Insn :=
  ks.flatMap fun k => [.jeqK k 0 1, .retK verdict]

theorem exec_returnOn (ks : List (BitVec 32)) (verdict : BitVec 32) (rest : List Insn)
    (acc : BitVec 32) :
    exec load (returnOn ks verdict ++ rest) 0 acc =
      if acc ∈ ks then some verdict else exec load rest 0 acc := by
  induction ks with
  | nil => simp [returnOn]
  | cons k ks ih =>
    change exec load (.jeqK k 0 1 :: .retK verdict :: (returnOn ks verdict ++ rest)) 0 acc = _
    by_cases hk : acc = k
    · simp [exec, hk]
    · simp [exec, hk, ih]

/-- Bit tests for each mask in turn: the first that shares a bit jumps behind the last test,
and when none does the instruction after the tests is skipped. -/
def anyBit : List (BitVec 32) → List Insn
  | [] => []
  | [mask] => [.jsetK mask 0 1]
  | mask :: next :: masks => .jsetK mask (masks.length + 1) 0 :: anyBit (next :: masks)

@[simp] theorem anyBit_length (masks : List (BitVec 32)) :
    (anyBit masks).length = masks.length := by
  induction masks with
  | nil => rfl
  | cons mask masks ih =>
    cases masks with
    | nil => rfl
    | cons next masks => simpa [anyBit] using ih

theorem exec_anyBit (masks : List (BitVec 32)) (hmasks : masks ≠ []) (verdict : BitVec 32)
    (rest : List Insn) (acc : BitVec 32) :
    exec load (anyBit masks ++ .retK verdict :: rest) 0 acc =
      if ∃ mask ∈ masks, acc &&& mask ≠ 0#32 then some verdict else exec load rest 0 acc := by
  induction masks with
  | nil => exact absurd rfl hmasks
  | cons mask masks ih =>
    cases masks with
    | nil => by_cases hbit : acc &&& mask = 0#32 <;> simp [anyBit, exec, hbit]
    | cons next masks =>
      have hrest := ih (by simp)
      change exec load (.jsetK mask (masks.length + 1) 0 ::
        (anyBit (next :: masks) ++ .retK verdict :: rest)) 0 acc = _
      by_cases hbit : acc &&& mask = 0#32
      · simp only [exec, hbit, ne_eq, not_true_eq_false, if_false, hrest, List.mem_cons,
          exists_eq_or_imp, false_or]
      · have hskip := exec_append_skip load (anyBit (next :: masks)) (.retK verdict :: rest) acc
        simp only [anyBit_length, List.length_cons] at hskip
        simp [exec, hbit, hskip]

/-- A call number test guarding bit tests of an argument word. -/
def argTest (nr : BitVec 32) (off : Nat) (masks : List (BitVec 32)) (verdict : BitVec 32) :
    List Insn :=
  .jeqK nr 0 (masks.length + 2) :: .ldWAbs off :: (anyBit masks ++ [.retK verdict])

/-- After a call that passes no bit test the accumulator is the argument, not the number. -/
theorem exec_argTest (nr : BitVec 32) (off : Nat) (masks : List (BitVec 32))
    (hmasks : masks ≠ []) (verdict : BitVec 32) (rest : List Insn) (acc : BitVec 32) :
    exec load (argTest nr off masks verdict ++ rest) 0 acc =
      if acc = nr then
        if ∃ mask ∈ masks, load off &&& mask ≠ 0#32 then some verdict
        else exec load rest 0 (load off)
      else exec load rest 0 acc := by
  have happend : argTest nr off masks verdict ++ rest =
      .jeqK nr 0 (masks.length + 2) :: ((.ldWAbs off :: (anyBit masks ++ [.retK verdict])) ++ rest) :=
    rfl
  rw [happend]
  by_cases hnr : acc = nr
  · have htest := exec_anyBit load masks hmasks verdict rest (load off)
    simp [exec, hnr, htest]
  · have hskip := exec_append_skip load (.ldWAbs off :: (anyBit masks ++ [.retK verdict])) rest acc
    simp only [List.length_cons, List.length_append, anyBit_length, List.length_nil] at hskip
    simp only [exec, hnr, if_false]
    exact hskip

end Bpf
