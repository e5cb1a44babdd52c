import Optrace.Context
import Optrace.Lib.Decimal
import Mathlib.Tactic.FieldSimp
import Mathlib.Tactic.Positivity

/-!
# Printed sizes

`HumanReadableSize` of `utils.cpp`, with the logarithm and the divisions taken as exact, and a reader
of what it prints.
-/

namespace Optrace

set_option autoImplicit false

open Except Decimal

def suffixes : List String := ["b", "KiB", "MiB", "GiB", "PiB"]

/-- `sprintf` into the eight bytes of `buff`, the last of them for the terminator. -/
def sprintfBuff (text : String) : Except Abort String :=
  if text.length + 1 ≤ 8 then .ok text else .error .undefined

/-- The loop over `val /= 1024`. -/
def divided : Nat → ℚ → ℚ
  | 0, val => val
  | i + 1, val => divided i (val / 1024)

def suffixAt (k : Nat) : Except Abort String :=
  match suffixes[k]? with
  | some suffix => .ok suffix
  | none => .error .undefined

/-- The width of `%3.1f` never pads: there is a digit before the point and one after it. -/
def humanReadableSize (bytes : Word) : Except Abort String :=
  if bytes = 0 then .ok "0"
  else
    let log := bytes.toNat.log2
    let k := log / 10
    if k = 0 then do
      let suffix ← suffixAt 0
      sprintfBuff (toString bytes.toNat ++ suffix)
    else
      let val := divided k bytes.toNat
      if 100 ≤ val then do
        let suffix ← suffixAt k
        sprintfBuff (toString ⌊val⌋.toNat ++ suffix)
      else do
        let suffix ← suffixAt k
        sprintfBuff (oneDecimal (roundEven (10 * val)).toNat ++ suffix)

/-- The unit a suffix names. -/
def unitOf : String → Option Nat
  | "" => some 1
  | "b" => some 1
  | "KiB" => some (2 ^ 10)
  | "MiB" => some (2 ^ 20)
  | "GiB" => some (2 ^ 30)
  | "TiB" => some (2 ^ 40)
  | "PiB" => some (2 ^ 50)
  | _ => none

/-- A printed size read back, with what one more in its last digit is worth. -/
structure Size where
  value : ℚ
  unit : ℚ
  deriving DecidableEq

def readSize (text : String) : Option Size := do
  let r ← read text.toList
  let unit ← unitOf (String.ofList r.rest)
  return ⟨r.value * unit, r.unit * unit⟩

/-- The count rounds to 100.0 in a unit where it is below 100. -/
def RoundsToHundred (bytes : Nat) : Prop :=
  ∃ k, 1 ≤ k ∧ 1999 * 1024 ^ k ≤ 20 * bytes ∧ bytes < 100 * 1024 ^ k

/-! ## What is printed -/

theorem divided_eq (k : Nat) (val : ℚ) : divided k val = val / 1024 ^ k := by
  induction k generalizing val with
  | zero => simp [divided]
  | succ k ih =>
    rw [divided, ih, pow_succ]
    field_simp

theorem magnitude_le {bytes : Nat} (hbytes : bytes ≠ 0) : 1024 ^ (bytes.log2 / 10) ≤ bytes :=
  calc 1024 ^ (bytes.log2 / 10)
    _ = 2 ^ (10 * (bytes.log2 / 10)) := pow_mul 2 10 _ |>.symm
    _ ≤ 2 ^ bytes.log2 := Nat.pow_le_pow_right (by decide) (by omega)
    _ ≤ bytes := Nat.log2_self_le hbytes

theorem lt_magnitude (bytes : Nat) : bytes < 1024 ^ (bytes.log2 / 10 + 1) :=
  calc bytes
    _ < 2 ^ (bytes.log2 + 1) := Nat.lt_log2_self
    _ ≤ 2 ^ (10 * (bytes.log2 / 10 + 1)) := Nat.pow_le_pow_right (by decide) (by omega)
    _ = 1024 ^ (bytes.log2 / 10 + 1) := pow_mul 2 10 _

theorem magnitude_eq {bytes k : Nat} (hle : 1024 ^ k ≤ bytes) (hlt : bytes < 1024 ^ (k + 1)) :
    bytes.log2 / 10 = k := by
  have hbytes : bytes ≠ 0 := by
    have := Nat.pow_pos (n := k) (show 0 < 1024 by decide)
    omega
  have hle' := lt_of_le_of_lt (magnitude_le hbytes) hlt
  have hlt' := lt_of_le_of_lt hle (lt_magnitude bytes)
  have h₁ := (Nat.pow_lt_pow_iff_right (show 1 < 1024 by decide)).mp hle'
  have h₂ := (Nat.pow_lt_pow_iff_right (show 1 < 1024 by decide)).mp hlt'
  omega

/-- The number before the suffix of the given place. -/
def printed (k bytes : Nat) : String :=
  if k = 0 ∨ 100 * 1024 ^ k ≤ bytes then toString (bytes / 1024 ^ k)
  else oneDecimal (roundEven (10 * (bytes / 1024 ^ k : ℚ))).toNat

theorem hundred_le_iff (k bytes : Nat) : (100 : ℚ) ≤ bytes / 1024 ^ k ↔ 100 * 1024 ^ k ≤ bytes := by
  rw [le_div_iff₀ (by positivity)]
  exact_mod_cast Iff.rfl

theorem humanReadableSize_eq {bytes : Word} (hbytes : bytes ≠ 0) :
    humanReadableSize bytes = suffixAt (bytes.toNat.log2 / 10) >>= fun suffix =>
      sprintfBuff (printed (bytes.toNat.log2 / 10) bytes.toNat ++ suffix) := by
  rw [humanReadableSize, if_neg hbytes]
  simp only [divided_eq, hundred_le_iff, printed]
  by_cases hk : bytes.toNat.log2 / 10 = 0
  · simp [hk]
  · rw [if_neg hk]
    have hfloor : ⌊(bytes.toNat / 1024 ^ (bytes.toNat.log2 / 10) : ℚ)⌋.toNat =
        bytes.toNat / 1024 ^ (bytes.toNat.log2 / 10) := by
      have h := Rat.floor_natCast_div_natCast bytes.toNat (1024 ^ (bytes.toNat.log2 / 10))
      push_cast at h
      rw [h]
      exact_mod_cast Int.toNat_natCast _
    split
    · rename_i hge
      simp only [hk, hge, or_true, if_true, hfloor]
    · rename_i hlt
      simp only [hk, hlt, or_false, if_false]

/-! ## The suffixes and the buffer -/

theorem suffixAt_ok_iff {k : Nat} {suffix : String} :
    suffixAt k = .ok suffix ↔ suffixes[k]? = some suffix := by
  unfold suffixAt
  split
  · rename_i h
    rw [h]
    simp
  · rename_i h
    rw [h]
    simp

theorem sprintfBuff_ok_iff {text text' : String} :
    sprintfBuff text = .ok text' ↔ text.length ≤ 7 ∧ text = text' := by
  unfold sprintfBuff
  split
  · simp
    omega
  · simp
    omega

/-- The tenths behind a `%3.1f`. -/
def tenths (k bytes : Nat) : Nat := (roundEven (10 * (bytes / 1024 ^ k : ℚ))).toNat

variable {k bytes : Nat}

theorem ten_le_roundEven (hle : 1024 ^ k ≤ bytes) : 10 ≤ roundEven (10 * (bytes / 1024 ^ k : ℚ)) := by
  refine le_roundEven ?_
  have hone : (1 : ℚ) ≤ bytes / 1024 ^ k := by
    rw [le_div_iff₀ (by positivity), one_mul]
    exact_mod_cast hle
  push_cast
  linarith

theorem tenths_cast (hle : 1024 ^ k ≤ bytes) :
    (tenths k bytes : ℤ) = roundEven (10 * (bytes / 1024 ^ k : ℚ)) :=
  Int.toNat_of_nonneg (by have := ten_le_roundEven hle; omega)

theorem tenths_le (hlt : bytes < 100 * 1024 ^ k) : tenths k bytes ≤ 1000 := by
  have hval : (bytes / 1024 ^ k : ℚ) ≤ 100 := by
    rw [div_le_iff₀ (by positivity)]
    exact_mod_cast hlt.le
  have hround : roundEven (10 * (bytes / 1024 ^ k : ℚ)) ≤ 1000 :=
    roundEven_le (by push_cast; linarith)
  unfold tenths
  omega

/-- From 99.95 on it is 100.0. -/
theorem thousand_le_tenths_iff (hle : 1024 ^ k ≤ bytes) :
    1000 ≤ tenths k bytes ↔ 1999 * 1024 ^ k ≤ 20 * bytes := by
  have hcast := tenths_cast hle
  have hround := lt_roundEven_iff (x := 10 * (bytes / 1024 ^ k : ℚ)) (n := 999) (by decide)
  have hval : 2 * ((999 : ℤ) : ℚ) + 1 ≤ 2 * (10 * (bytes / 1024 ^ k : ℚ)) ↔
      1999 * 1024 ^ k ≤ 20 * bytes := by
    have hpos : (0 : ℚ) < 1024 ^ k := by positivity
    have hmul : 2 * (10 * (bytes / 1024 ^ k : ℚ)) = 20 * bytes / 1024 ^ k := by ring
    rw [hmul, le_div_iff₀ hpos]
    norm_num
    exact_mod_cast Iff.rfl
  rw [← hval, ← hround]
  omega

theorem oneDecimal_length_le (n : Nat) : (oneDecimal n).length ≤ 4 ↔ n < 1000 := by
  have hlast : (toString (n % 10)).length = 1 := by
    have hle := (Nat.length_repr_le_iff (n := n % 10) (k := 1) (by decide)).mpr (by omega)
    have hpos := Nat.length_repr_pos (n := n % 10)
    rw [Nat.toString_eq_repr]
    omega
  have hfirst : (toString (n / 10)).length ≤ 2 ↔ n / 10 < 100 :=
    Nat.length_repr_le_iff (k := 2) (by decide)
  rw [oneDecimal, String.length_append, String.length_append, hlast]
  have hpoint : ".".length = 1 := rfl
  omega

theorem printed_length_le (hle : 1024 ^ k ≤ bytes) (hlt : bytes < 1024 ^ (k + 1)) :
    (printed k bytes).length ≤ 4 ↔
      ¬(1 ≤ k ∧ 1999 * 1024 ^ k ≤ 20 * bytes ∧ bytes < 100 * 1024 ^ k) := by
  unfold printed
  split
  · rename_i hwhole
    have hdiv : bytes / 1024 ^ k < 10 ^ 4 := by
      rw [Nat.div_lt_iff_lt_mul (by positivity)]
      rw [pow_succ] at hlt
      omega
    have hlen : (toString (bytes / 1024 ^ k)).length ≤ 4 :=
      (Nat.length_repr_le_iff (by decide)).mpr hdiv
    constructor
    · intro _ h
      omega
    · intro _
      exact hlen
  · rename_i htenths
    have hsmall : tenths k bytes ≤ 1000 := tenths_le (by omega)
    have hiff := thousand_le_tenths_iff hle
    rw [← tenths, oneDecimal_length_le]
    omega

theorem suffix_length {suffix : String} (h : suffixes[k]? = some suffix) :
    k = 0 ∧ suffix.length = 1 ∨ 1 ≤ k ∧ suffix.length = 3 := by
  match k, h with
  | 0, rfl => exact Or.inl ⟨rfl, rfl⟩
  | 1, rfl | 2, rfl | 3, rfl | 4, rfl => exact Or.inr ⟨by decide, rfl⟩

/-- The buffer takes the text of every count but those that round to 100.0. -/
theorem sprintf_fits {suffix : String} (hsuffix : suffixes[k]? = some suffix)
    (hle : 1024 ^ k ≤ bytes) (hlt : bytes < 1024 ^ (k + 1)) :
    (printed k bytes ++ suffix).length ≤ 7 ↔
      ¬(1 ≤ k ∧ 1999 * 1024 ^ k ≤ 20 * bytes ∧ bytes < 100 * 1024 ^ k) := by
  rw [← printed_length_le hle hlt, String.length_append]
  rcases suffix_length hsuffix with ⟨rfl, hlen⟩ | ⟨_, hlen⟩
  · have hfour := (printed_length_le hle hlt).mpr (by omega)
    omega
  · omega

theorem magnitude_lt_iff {bytes : Nat} (hbytes : bytes ≠ 0) :
    bytes.log2 / 10 < 5 ↔ bytes < 2 ^ 50 := by
  rw [← Nat.log2_lt hbytes]
  omega

theorem roundsToHundred_iff (bytes : Nat) :
    RoundsToHundred bytes ↔ 1 ≤ bytes.log2 / 10 ∧
      1999 * 1024 ^ (bytes.log2 / 10) ≤ 20 * bytes ∧ bytes < 100 * 1024 ^ (bytes.log2 / 10) := by
  constructor
  · rintro ⟨k, hk, hle, hlt⟩
    have hmagnitude : bytes.log2 / 10 = k := magnitude_eq (by omega) (by rw [pow_succ]; omega)
    rw [hmagnitude]
    exact ⟨hk, hle, hlt⟩
  · intro h
    exact ⟨_, h⟩

/-- The table has a suffix for the count and the buffer room for its text if and only if the count is
below 2 ^ 50 and does not round to 100.0 in its unit. -/
theorem humanReadableSize_ok_iff (bytes : Word) :
    (∃ text, humanReadableSize bytes = .ok text) ↔
      bytes.toNat < 2 ^ 50 ∧ ¬RoundsToHundred bytes.toNat := by
  by_cases hbytes : bytes = 0
  · subst hbytes
    refine ⟨fun _ => ⟨by decide, ?_⟩, fun _ => ⟨"0", rfl⟩⟩
    rintro ⟨k, -, hle, -⟩
    have hpos := Nat.pow_pos (n := k) (show 0 < 1024 by decide)
    have hzero : (0 : Word).toNat = 0 := rfl
    omega
  · have hne : bytes.toNat ≠ 0 := fun h => hbytes (BitVec.eq_of_toNat_eq h)
    rw [humanReadableSize_eq hbytes, roundsToHundred_iff, ← magnitude_lt_iff hne]
    constructor
    · rintro ⟨text, h⟩
      obtain ⟨suffix, hsuffix, h⟩ := bind_eq_ok_iff.mp h
      rw [suffixAt_ok_iff] at hsuffix
      rw [sprintfBuff_ok_iff] at h
      refine ⟨(List.getElem?_eq_some_iff.mp hsuffix).1, ?_⟩
      exact (sprintf_fits hsuffix (magnitude_le hne) (lt_magnitude _)).mp h.1
    · rintro ⟨hk, hfits⟩
      have hsuffix : suffixes[bytes.toNat.log2 / 10]? = some suffixes[bytes.toNat.log2 / 10] :=
        List.getElem?_eq_getElem hk
      refine ⟨_, bind_eq_ok_iff.mpr ⟨_, suffixAt_ok_iff.mpr hsuffix, sprintfBuff_ok_iff.mpr ⟨?_, rfl⟩⟩⟩
      exact (sprintf_fits hsuffix (magnitude_le hne) (lt_magnitude _)).mpr hfits

/-- 99.95 KiB are written 100.0KiB, one byte too long, and there is no suffix for 2 ^ 50 bytes. -/
theorem humanReadableSize_overruns :
    humanReadableSize 102350 = .error .undefined ∧
      humanReadableSize (2 ^ 50) = .error .undefined := by
  decide +kernel

/-! ## Reading it back -/

/-- The number before the suffix. -/
def shown (k bytes : Nat) : ℚ :=
  if k = 0 ∨ 100 * 1024 ^ k ≤ bytes then ((bytes / 1024 ^ k : Nat) : ℚ) else tenths k bytes / 10

/-- What one more in its last digit is worth. -/
def shownUnit (k bytes : Nat) : ℚ := if k = 0 ∨ 100 * 1024 ^ k ≤ bytes then 1 else 1 / 10

theorem ends_of_suffix {suffix : String} (h : suffixes[k]? = some suffix) : Ends suffix.toList := by
  match k, h with
  | 0, rfl | 1, rfl | 2, rfl | 3, rfl | 4, rfl =>
    intro ch hch
    cases hch
    decide

theorem readSize_printed {suffix : String} {unit : Nat} (hsuffix : suffixes[k]? = some suffix)
    (hunit : unitOf suffix = some unit) :
    readSize (printed k bytes ++ suffix) =
      some ⟨shown k bytes * unit, shownUnit k bytes * unit⟩ := by
  have hends := ends_of_suffix hsuffix
  rw [readSize, String.toList_append, printed, shown, shownUnit]
  split
  · rw [read_toString _ hends]
    simp [hunit, Reading.value, Reading.unit]
  · rw [← tenths, read_oneDecimal _ hends]
    simp [hunit, Reading.value, Reading.unit]

/-- The unit each place of the table names. -/
def namedUnit (k : Nat) : Nat := if k = 4 then 2 ^ 50 else 1024 ^ k

theorem unitOf_suffix {suffix : String} (h : suffixes[k]? = some suffix) :
    unitOf suffix = some (namedUnit k) := by
  match k, h with
  | 0, rfl | 1, rfl | 2, rfl | 3, rfl | 4, rfl => decide

theorem shown_error (hle : 1024 ^ k ≤ bytes) :
    |shown k bytes * 1024 ^ k - bytes| < shownUnit k bytes * 1024 ^ k := by
  have hpos : (0 : ℚ) < 1024 ^ k := by positivity
  unfold shown shownUnit
  split
  · have hmod : bytes % 1024 ^ k < 1024 ^ k := Nat.mod_lt _ (by positivity)
    have hdiv : ((bytes / 1024 ^ k : Nat) : ℚ) * 1024 ^ k + (bytes % 1024 ^ k : Nat) = bytes := by
      exact_mod_cast Nat.div_add_mod' bytes (1024 ^ k)
    have hmod' : ((bytes % 1024 ^ k : Nat) : ℚ) < 1024 ^ k := by exact_mod_cast hmod
    have hnonneg : (0 : ℚ) ≤ (bytes % 1024 ^ k : Nat) := Nat.cast_nonneg _
    rw [abs_lt]
    constructor <;> linarith
  · have hround := roundEven_error (10 * (bytes / 1024 ^ k : ℚ))
    rw [← tenths_cast hle] at hround
    push_cast at hround
    have hscale : (tenths k bytes : ℚ) / 10 * 1024 ^ k - bytes =
        (tenths k bytes - 10 * (bytes / 1024 ^ k)) * (1024 ^ k / 10) := by
      field_simp
    rw [hscale, abs_mul, abs_of_pos (show (0 : ℚ) < 1024 ^ k / 10 by positivity)]
    calc |(tenths k bytes : ℚ) - 10 * (bytes / 1024 ^ k)| * (1024 ^ k / 10)
      _ ≤ 1 / 2 * (1024 ^ k / 10) := mul_le_mul_of_nonneg_right hround (by positivity)
      _ < 1 / 10 * 1024 ^ k := by linarith

theorem one_le_shown (hle : 1024 ^ k ≤ bytes) : 1 ≤ shown k bytes := by
  unfold shown
  split
  · have hdiv : 1 ≤ bytes / 1024 ^ k := (Nat.one_le_div_iff (by positivity)).mpr hle
    exact_mod_cast hdiv
  · have hcast := tenths_cast hle
    have hten := ten_le_roundEven hle
    have htenths : (10 : ℚ) ≤ tenths k bytes := by
      have : 10 ≤ tenths k bytes := by omega
      exact_mod_cast this
    linarith

theorem shown_lt (hlt : bytes < 1024 ^ (k + 1)) : shown k bytes < 1024 := by
  unfold shown
  split
  · have hdiv : bytes / 1024 ^ k < 1024 := by
      rw [Nat.div_lt_iff_lt_mul (by positivity)]
      rwa [pow_succ, mul_comm] at hlt
    exact_mod_cast hdiv
  · have hthousand : tenths k bytes ≤ 1000 := tenths_le (by omega)
    have hsmall : (tenths k bytes : ℚ) ≤ 1000 := by exact_mod_cast hthousand
    linarith

theorem shown_mono {bytes' : Nat} (hle : bytes ≤ bytes') : shown k bytes ≤ shown k bytes' := by
  unfold shown
  split
  · rename_i hwhole
    rw [if_pos (by omega)]
    exact_mod_cast Nat.div_le_div_right hle
  · rename_i htenths
    split
    · rename_i hwhole
      have hthousand : tenths k bytes ≤ 1000 := tenths_le (by omega)
      have hsmall : (tenths k bytes : ℚ) ≤ 1000 := by exact_mod_cast hthousand
      have hdiv : 100 ≤ bytes' / 1024 ^ k := by
        rw [Nat.le_div_iff_mul_le (by positivity)]
        omega
      have hdiv' : (100 : ℚ) ≤ (bytes' / 1024 ^ k : Nat) := by exact_mod_cast hdiv
      linarith
    · have hval : (bytes / 1024 ^ k : ℚ) ≤ bytes' / 1024 ^ k := by
        gcongr
      have hround := roundEven_mono (mul_le_mul_of_nonneg_left hval (show (0 : ℚ) ≤ 10 by norm_num))
      have htenths : tenths k bytes ≤ tenths k bytes' := Int.toNat_le_toNat hround
      have hcast : (tenths k bytes : ℚ) ≤ tenths k bytes' := by exact_mod_cast htenths
      linarith

theorem namedUnit_step :
    ∀ {k' : Nat}, k' < 5 → ∀ {k : Nat}, k < k' → 1024 * namedUnit k ≤ namedUnit k' := by
  decide

/-- The text of a count, read back. -/
theorem readSize_of_ok {bytes : Word} {text : String} (hbytes : bytes ≠ 0)
    (h : humanReadableSize bytes = .ok text) :
    readSize text = some ⟨shown (bytes.toNat.log2 / 10) bytes.toNat *
        namedUnit (bytes.toNat.log2 / 10),
      shownUnit (bytes.toNat.log2 / 10) bytes.toNat * namedUnit (bytes.toNat.log2 / 10)⟩ := by
  rw [humanReadableSize_eq hbytes] at h
  obtain ⟨suffix, hsuffix, h⟩ := bind_eq_ok_iff.mp h
  rw [suffixAt_ok_iff] at hsuffix
  rw [sprintfBuff_ok_iff] at h
  rw [← h.2, readSize_printed hsuffix (unitOf_suffix hsuffix)]

/-- With the suffix for the next unit but one the number printed is off by more than itself. -/
theorem misnamed_error (hle : 1024 ^ 4 ≤ bytes) (hlt : bytes < 1024 ^ 5) :
    shownUnit 4 bytes * (2 ^ 50 : Nat) ≤ |shown 4 bytes * (2 ^ 50 : Nat) - bytes| := by
  have hone := one_le_shown hle
  refine le_trans ?_ (le_abs_self _)
  by_cases hwhole : 100 * 1024 ^ 4 ≤ bytes
  · have hdiv : 100 ≤ bytes / 1024 ^ 4 := by
      rw [Nat.le_div_iff_mul_le (by positivity)]
      exact hwhole
    have hdiv' : (100 : ℚ) ≤ (bytes / 1024 ^ 4 : Nat) := by exact_mod_cast hdiv
    have hlt' : (bytes : ℚ) < 1125899906842624 := by exact_mod_cast hlt
    rw [shown, shownUnit, if_pos (Or.inr hwhole), if_pos (Or.inr hwhole)]
    norm_num
    linarith
  · have hlt' : (bytes : ℚ) < 109951162777600 := by exact_mod_cast not_le.mp hwhole
    rw [shownUnit, if_neg (by omega)]
    norm_num
    linarith

theorem readSize_zero : readSize "0" = some ⟨0, 1⟩ := by decide +kernel

theorem readable {bytes : Word} {text : String} (h : humanReadableSize bytes = .ok text) :
    ∃ size, readSize text = some size := by
  by_cases hbytes : bytes = 0
  · subst hbytes
    cases h
    exact ⟨⟨0, 1⟩, readSize_zero⟩
  · exact ⟨_, readSize_of_ok hbytes h⟩

theorem shown_nonneg (k bytes : Nat) : 0 ≤ shown k bytes := by
  unfold shown
  split
  · exact Nat.cast_nonneg _
  · positivity

theorem value_mono {a b : Word} {text text' : String} {size size' : Size}
    (hle : a.toNat ≤ b.toNat) (htext : humanReadableSize a = .ok text)
    (htext' : humanReadableSize b = .ok text') (hsize : readSize text = some size)
    (hsize' : readSize text' = some size') : size.value ≤ size'.value := by
  by_cases ha : a = 0
  · have hzero : size.value = 0 := by
      subst ha
      cases htext
      rw [readSize_zero] at hsize
      cases hsize
      rfl
    rw [hzero]
    by_cases hb : b = 0
    · subst hb
      cases htext'
      rw [readSize_zero] at hsize'
      cases hsize'
      rfl
    · rw [readSize_of_ok hb htext'] at hsize'
      cases hsize'
      exact mul_nonneg (shown_nonneg _ _) (Nat.cast_nonneg _)
  · have hane : a.toNat ≠ 0 := fun h => ha (BitVec.eq_of_toNat_eq h)
    have hbne : b.toNat ≠ 0 := by omega
    have hb : b ≠ 0 := fun h => hbne (by rw [h]; rfl)
    have hlast : b.toNat.log2 / 10 < 5 :=
      (magnitude_lt_iff hbne).mpr ((humanReadableSize_ok_iff b).mp ⟨text', htext'⟩).1
    rw [readSize_of_ok ha htext] at hsize
    rw [readSize_of_ok hb htext'] at hsize'
    cases hsize
    cases hsize'
    have hlog : a.toNat.log2 ≤ b.toNat.log2 :=
      (Nat.le_log2 hbne).mpr ((Nat.log2_self_le hane).trans hle)
    rcases Nat.lt_or_eq_of_le (Nat.div_le_div_right (c := 10) hlog) with hlt | heq
    · have hstep : (1024 * namedUnit (a.toNat.log2 / 10) : ℚ) ≤ namedUnit (b.toNat.log2 / 10) := by
        exact_mod_cast namedUnit_step hlast hlt
      calc shown (a.toNat.log2 / 10) a.toNat * namedUnit (a.toNat.log2 / 10)
        _ ≤ 1024 * namedUnit (a.toNat.log2 / 10) :=
            mul_le_mul_of_nonneg_right (shown_lt (lt_magnitude _)).le (Nat.cast_nonneg _)
        _ ≤ 1 * namedUnit (b.toNat.log2 / 10) := by rwa [one_mul]
        _ ≤ shown (b.toNat.log2 / 10) b.toNat * namedUnit (b.toNat.log2 / 10) :=
            mul_le_mul_of_nonneg_right (one_le_shown (magnitude_le hbne)) (Nat.cast_nonneg _)
    · rw [heq]
      exact mul_le_mul_of_nonneg_right (shown_mono hle) (Nat.cast_nonneg _)

/-- The count is read back to within one in the last digit printed. -/
def ReadsBack (bytes : Word) : Prop :=
  ∃ text size, humanReadableSize bytes = .ok text ∧ readSize text = some size ∧
    |size.value - bytes.toNat| < size.unit

/-- Both counts are printed, and the first is not given the greater value. -/
def PrintedInOrder (a b : Word) : Prop :=
  ∃ text text' size size', humanReadableSize a = .ok text ∧ humanReadableSize b = .ok text' ∧
    readSize text = some size ∧ readSize text' = some size' ∧ size.value ≤ size'.value

theorem readsBack_iff (bytes : Word) :
    ReadsBack bytes ↔ bytes.toNat < 2 ^ 40 ∧ ¬RoundsToHundred bytes.toNat := by
  have hok := humanReadableSize_ok_iff bytes
  by_cases hbytes : bytes = 0
  · subst hbytes
    refine ⟨fun _ => ⟨by decide, (hok.mp ⟨"0", rfl⟩).2⟩,
      fun _ => ⟨"0", ⟨0, 1⟩, rfl, readSize_zero, ?_⟩⟩
    simp
  · have hne : bytes.toNat ≠ 0 := fun h => hbytes (BitVec.eq_of_toNat_eq h)
    have hle := magnitude_le hne
    have hlt := lt_magnitude bytes.toNat
    constructor
    · rintro ⟨text, size, htext, hsize, herror⟩
      obtain ⟨hsmall, hhundred⟩ := hok.mp ⟨text, htext⟩
      refine ⟨?_, hhundred⟩
      by_contra hlarge
      have hfour : bytes.toNat.log2 / 10 = 4 := magnitude_eq (by omega) (by omega)
      rw [readSize_of_ok hbytes htext] at hsize
      cases hsize
      rw [hfour] at hle hlt herror
      exact absurd herror (not_lt.mpr (misnamed_error hle hlt))
    · rintro ⟨hsmall, hhundred⟩
      obtain ⟨text, htext⟩ := hok.mpr ⟨by omega, hhundred⟩
      have hunit : namedUnit (bytes.toNat.log2 / 10) = 1024 ^ (bytes.toNat.log2 / 10) := by
        have hlog := (Nat.log2_lt hne).mpr hsmall
        rw [namedUnit, if_neg (by omega)]
      refine ⟨text, _, htext, readSize_of_ok hbytes htext, ?_⟩
      rw [hunit]
      push_cast
      exact shown_error hle

theorem printedInOrder_iff {a b : Word} (hab : a ≤ b) :
    PrintedInOrder a b ↔
      b.toNat < 2 ^ 50 ∧ ¬RoundsToHundred a.toNat ∧ ¬RoundsToHundred b.toNat := by
  have hle : a.toNat ≤ b.toNat := hab
  constructor
  · rintro ⟨text, text', _, _, htext, htext', -⟩
    obtain ⟨_, ha⟩ := (humanReadableSize_ok_iff a).mp ⟨text, htext⟩
    obtain ⟨hsmall, hb⟩ := (humanReadableSize_ok_iff b).mp ⟨text', htext'⟩
    exact ⟨hsmall, ha, hb⟩
  · rintro ⟨hsmall, ha, hb⟩
    obtain ⟨text, htext⟩ := (humanReadableSize_ok_iff a).mpr ⟨by omega, ha⟩
    obtain ⟨text', htext'⟩ := (humanReadableSize_ok_iff b).mpr ⟨hsmall, hb⟩
    obtain ⟨size, hsize⟩ := readable htext
    obtain ⟨size', hsize'⟩ := readable htext'
    refine ⟨text, text', size, size', htext, htext', hsize, hsize', ?_⟩
    exact value_mono hle htext htext' hsize hsize'

/-- A printed size can be read back if and only if the count is below 2 ^ 40 and does not round to
100.0 in its unit; two printed sizes are in order whenever both can be printed. -/
theorem sizes_read_back_iff (a b : Word) :
    (ReadsBack a ↔ a.toNat < 2 ^ 40 ∧ ¬RoundsToHundred a.toNat) ∧
      (a ≤ b → (PrintedInOrder a b ↔
        b.toNat < 2 ^ 50 ∧ ¬RoundsToHundred a.toNat ∧ ¬RoundsToHundred b.toNat)) :=
  ⟨readsBack_iff a, fun hab => printedInOrder_iff hab⟩

theorem sizes_read_back_kibibyte :
    (ReadsBack 1024 ↔ 1024 < 2 ^ 40 ∧ ¬RoundsToHundred 1024) ∧
      (PrintedInOrder 1024 (2 ^ 40) ↔
        2 ^ 40 < 2 ^ 50 ∧ ¬RoundsToHundred 1024 ∧ ¬RoundsToHundred (2 ^ 40)) :=
  (sizes_read_back_iff 1024 (2 ^ 40)).imp_right fun h => h (by decide)

/-- One tebibyte is printed as a pebibyte. -/
theorem tebibyte_misread :
    humanReadableSize (2 ^ 40) = .ok "1.0PiB" ∧ readSize "1.0PiB" = some ⟨2 ^ 50, 2 ^ 50 / 10⟩ ∧
      ¬ReadsBack (2 ^ 40) := by
  have htext : humanReadableSize (2 ^ 40) = .ok "1.0PiB" := by decide +kernel
  have hsize : readSize "1.0PiB" = some ⟨2 ^ 50, 2 ^ 50 / 10⟩ := by decide +kernel
  refine ⟨htext, hsize, ?_⟩
  rintro ⟨text, size, htext', hsize', herror⟩
  rw [htext] at htext'
  cases htext'
  rw [hsize] at hsize'
  cases hsize'
  exact absurd herror (by decide +kernel)

end Optrace
