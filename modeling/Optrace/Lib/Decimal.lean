import Mathlib.Algebra.Order.Floor.Ring
import Mathlib.Data.Rat.Floor
import Mathlib.Tactic.Linarith
import Mathlib.Tactic.NormNum

/-!
# Decimal numbers as text

Rounding to a whole number, numbers written with and without a decimal, and a reader of such text
that also says what the last digit stands for.
-/

set_option autoImplicit false

namespace Decimal

/-! ## Rounding -/

/-- The nearest whole number, and the even one of two that are equally near. -/
def roundEven (x : ℚ) : ℤ :=
  if 2 * (x - ⌊x⌋) < 1 ∨ (2 * (x - ⌊x⌋) = 1 ∧ ⌊x⌋ % 2 = 0) then ⌊x⌋ else ⌊x⌋ + 1

theorem roundEven_error (x : ℚ) : |(roundEven x : ℚ) - x| ≤ 1 / 2 := by
  have hfloor := Int.floor_le x
  have hlt := Int.lt_floor_add_one x
  rw [abs_le, roundEven]
  split
  · rename_i h
    rcases h with h | ⟨h, -⟩
    · constructor <;> linarith
    · constructor <;> linarith
  · rename_i h
    have hge : 1 ≤ 2 * (x - ⌊x⌋) := le_of_not_gt fun hlt => h (Or.inl hlt)
    push_cast
    constructor <;> linarith

theorem roundEven_intCast (n : ℤ) : roundEven n = n := by
  rw [roundEven, Int.floor_intCast, sub_self, if_pos (Or.inl (by norm_num))]

/-- Between two numbers that round the wrong way round lies the midpoint that both are. -/
theorem roundEven_mono {x y : ℚ} (h : x ≤ y) : roundEven x ≤ roundEven y := by
  by_contra hlt
  have hx := abs_le.mp (roundEven_error x)
  have hy := abs_le.mp (roundEven_error y)
  have hstep : (roundEven y : ℚ) + 1 ≤ roundEven x := by
    exact_mod_cast not_le.mp hlt
  have heq : x = y := by linarith [hx.2, hy.1]
  rw [heq] at hlt
  exact hlt le_rfl

theorem roundEven_le {x : ℚ} {n : ℤ} (h : x ≤ n) : roundEven x ≤ n :=
  (roundEven_mono h).trans_eq (roundEven_intCast n)

theorem le_roundEven {x : ℚ} {n : ℤ} (h : (n : ℚ) ≤ x) : n ≤ roundEven x :=
  (roundEven_intCast n).symm.trans_le (roundEven_mono h)

/-- A midpoint above an odd number rounds up. -/
theorem lt_roundEven_iff {x : ℚ} {n : ℤ} (hodd : n % 2 = 1) :
    n < roundEven x ↔ 2 * (n : ℚ) + 1 ≤ 2 * x := by
  constructor
  · intro h
    have hle : (n : ℚ) + 1 ≤ roundEven x := by exact_mod_cast h
    have herr := (abs_le.mp (roundEven_error x)).2
    linarith
  · intro h
    have hfloor : ⌊(n : ℚ) + 1 / 2⌋ = n := by
      rw [Int.floor_eq_iff]
      constructor <;> linarith
    have hup : roundEven ((n : ℚ) + 1 / 2) = n + 1 := by
      rw [roundEven, hfloor, if_neg]
      rintro (hlt | ⟨-, heven⟩)
      · linarith
      · omega
    have hmono : roundEven ((n : ℚ) + 1 / 2) ≤ roundEven x := roundEven_mono (by linarith)
    omega

/-! ## Text -/

/-- A number with one decimal, given in tenths. -/
def oneDecimal (tenths : Nat) : String := toString (tenths / 10) ++ "." ++ toString (tenths % 10)

/-- A number read: its digits, how many of them stand behind the point, and the text after it. -/
structure Reading where
  digits : Nat
  decimals : Nat
  rest : List Char
  deriving DecidableEq

def read (text : List Char) : Option Reading :=
  let whole := text.takeWhile Char.isDigit
  if whole = [] then none
  else
    match text.dropWhile Char.isDigit with
    | '.' :: rest =>
      let decimals := rest.takeWhile Char.isDigit
      some ⟨Nat.ofDigitChars 10 (whole ++ decimals) 0, decimals.length,
        rest.dropWhile Char.isDigit⟩
    | rest => some ⟨Nat.ofDigitChars 10 whole 0, 0, rest⟩

namespace Reading

def value (r : Reading) : ℚ := r.digits / 10 ^ r.decimals

/-- What one more in the last digit is worth. -/
def unit (r : Reading) : ℚ := 1 / 10 ^ r.decimals

end Reading

/-- Nothing in the text continues a number before it. -/
def Ends (text : List Char) : Prop := ∀ ch ∈ text.head?, ch.isDigit = false ∧ ch ≠ '.'

theorem takeWhile_isDigit (n : Nat) {rest : List Char}
    (hrest : ∀ ch ∈ rest.head?, ch.isDigit = false) :
    (Nat.toDigits 10 n ++ rest).takeWhile Char.isDigit = Nat.toDigits 10 n := by
  rw [List.takeWhile_append_of_pos fun ch hch =>
    Nat.isDigit_of_mem_toDigits (by decide) (by decide) hch]
  cases rest with
  | nil => simp
  | cons ch rest => simp [hrest ch rfl]

theorem dropWhile_isDigit (n : Nat) {rest : List Char}
    (hrest : ∀ ch ∈ rest.head?, ch.isDigit = false) :
    (Nat.toDigits 10 n ++ rest).dropWhile Char.isDigit = rest := by
  rw [List.dropWhile_append_of_pos fun ch hch =>
    Nat.isDigit_of_mem_toDigits (by decide) (by decide) hch]
  cases rest with
  | nil => rfl
  | cons ch rest => simp [hrest ch rfl]

theorem read_toString (n : Nat) {rest : List Char} (hrest : Ends rest) :
    read ((toString n).toList ++ rest) = some ⟨n, 0, rest⟩ := by
  have hdigit : ∀ ch ∈ rest.head?, ch.isDigit = false := fun ch hch => (hrest ch hch).1
  rw [Nat.toString_eq_repr, Nat.toList_repr, read, takeWhile_isDigit n hdigit,
    dropWhile_isDigit n hdigit, if_neg Nat.toDigits_ne_nil, Nat.ofDigitChars_ten_toDigits]
  split
  · exact absurd rfl (hrest '.' rfl).2
  · rfl

theorem read_oneDecimal (n : Nat) {rest : List Char} (hrest : Ends rest) :
    read ((oneDecimal n).toList ++ rest) = some ⟨n, 1, rest⟩ := by
  have hdigit : ∀ ch ∈ rest.head?, ch.isDigit = false := fun ch hch => (hrest ch hch).1
  have hpoint : ∀ ch ∈ ('.' :: (Nat.toDigits 10 (n % 10) ++ rest)).head?, ch.isDigit = false := by
    intro ch hch
    cases hch
    rfl
  have hlast : Nat.toDigits 10 (n % 10) = [(n % 10).digitChar] :=
    Nat.toDigits_of_lt_base (Nat.mod_lt _ (by decide))
  have htext : (oneDecimal n).toList ++ rest =
      Nat.toDigits 10 (n / 10) ++ '.' :: (Nat.toDigits 10 (n % 10) ++ rest) := by
    simp [oneDecimal]
  have hvalue : Nat.ofDigitChars 10 (Nat.toDigits 10 (n / 10) ++ Nat.toDigits 10 (n % 10)) 0 = n := by
    rw [Nat.ofDigitChars_append, Nat.ofDigitChars_ten_toDigits, hlast,
      Nat.ofDigitChars_cons_digitChar_of_lt_ten (Nat.mod_lt _ (by decide)), Nat.ofDigitChars_nil]
    omega
  rw [htext, read, takeWhile_isDigit _ hpoint, dropWhile_isDigit _ hpoint,
    if_neg Nat.toDigits_ne_nil]
  simp only
  rw [takeWhile_isDigit _ hdigit, dropWhile_isDigit _ hdigit, hvalue, hlast]
  rfl

end Decimal
