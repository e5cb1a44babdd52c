import Mathlib.Data.List.Basic
import Mathlib.Tactic.Common

/-!
# Text in lines and fields

Cutting a text at a separator, at its first or its last occurrence, and the lines of a text. Each
reader has the lemma that it takes apart what was put together, as long as the separator is in
none of the parts.
-/

set_option autoImplicit false
set_option linter.unusedSectionVars false

universe u

namespace Fields

variable {α : Type u} [DecidableEq α] {sep : α} {before after : List α}

/-- The text before the first separator and the text behind it. -/
def cut (sep : α) : List α → Option (List α × List α)
  | [] => none
  | a :: as => if a = sep then some ([], as) else (cut sep as).map fun parts => (a :: parts.1, parts.2)

theorem cut_append (h : sep ∉ before) (after : List α) :
    cut sep (before ++ sep :: after) = some (before, after) := by
  induction before with
  | nil => simp [cut]
  | cons a before ih =>
    obtain ⟨hne, hrest⟩ := not_or.mp (List.mem_cons.not.mp h)
    rw [List.cons_append, cut, if_neg (Ne.symm hne), ih hrest]
    rfl

/-- The same at the last separator. -/
def cutLast (sep : α) (text : List α) : Option (List α × List α) :=
  (cut sep text.reverse).map fun parts => (parts.2.reverse, parts.1.reverse)

theorem cutLast_append (before : List α) (h : sep ∉ after) :
    cutLast sep (before ++ sep :: after) = some (before, after) := by
  have hreverse : (before ++ sep :: after).reverse = after.reverse ++ sep :: before.reverse := by simp
  rw [cutLast, hreverse, cut_append (by rwa [List.mem_reverse])]
  simp

/-- Nothing of the filling is left in front. -/
theorem dropWhile_replicate (n : Nat) {text : List α} (h : text.head? ≠ some sep) :
    (List.replicate n sep ++ text).dropWhile (fun a => a = sep) = text := by
  induction n with
  | zero =>
    cases text with
    | nil => rfl
    | cons a text =>
      have hne : a ≠ sep := fun heq => h (by rw [heq]; rfl)
      simp [hne]
  | succ n ih => simpa [List.replicate_succ] using ih

/-! ## Lines -/

/-- Each line with its end. -/
def unlines (eol : α) (ls : List (List α)) : List α := ls.flatMap fun l => l ++ [eol]

/-- The lines of a text; one that is not ended counts as well. -/
def lines (eol : α) : List α → List (List α)
  | [] => []
  | a :: as =>
    if a = eol then [] :: lines eol as
    else
      match lines eol as with
      | [] => [[a]]
      | l :: ls => (a :: l) :: ls

variable {eol : α}

theorem lines_cons {line : List α} (h : eol ∉ line) (text : List α) :
    lines eol (line ++ eol :: text) = line :: lines eol text := by
  induction line with
  | nil => simp [lines]
  | cons a line ih =>
    obtain ⟨hne, hrest⟩ := not_or.mp (List.mem_cons.not.mp h)
    rw [List.cons_append, lines, if_neg (Ne.symm hne), ih hrest]

theorem lines_unlines {ls : List (List α)} (h : ∀ l ∈ ls, eol ∉ l) : lines eol (unlines eol ls) = ls := by
  induction ls with
  | nil => rfl
  | cons l ls ih =>
    have hfirst := h l List.mem_cons_self
    have hrest : ∀ l ∈ ls, eol ∉ l := fun l hl => h l (List.mem_cons_of_mem _ hl)
    rw [unlines, List.flatMap_cons, List.append_assoc, List.singleton_append, lines_cons hfirst]
    exact congrArg _ (ih hrest)

/-- The last line of the text is ended. -/
def Ended (eol : α) (text : List α) : Prop := ∀ a ∈ text.getLast?, a = eol

instance (text : List α) : Decidable (Ended eol text) :=
  inferInstanceAs (Decidable (∀ a ∈ text.getLast?, a = eol))

theorem Ended.append {text text' : List α} (h : Ended eol text) (h' : Ended eol text') :
    Ended eol (text ++ text') := by
  unfold Ended
  rw [List.getLast?_append]
  cases hlast : text'.getLast? with
  | none => simpa [Ended] using h
  | some a => simpa [hlast] using h' a

theorem ended_unlines (ls : List (List α)) : Ended eol (unlines eol ls) := by
  induction ls with
  | nil => simp [Ended, unlines]
  | cons l ls ih =>
    have hfirst : Ended eol (l ++ [eol]) := by simp [Ended]
    rw [unlines, List.flatMap_cons]
    exact hfirst.append ih

theorem lines_ne_nil {text : List α} (h : text ≠ []) : lines eol text ≠ [] := by
  cases text with
  | nil => exact absurd rfl h
  | cons a text =>
    rw [lines]
    split
    · exact List.cons_ne_nil _ _
    · split <;> exact List.cons_ne_nil _ _

/-- A text can be read up to an end of line, and on from there. -/
theorem lines_append {text : List α} (h : Ended eol text) (text' : List α) :
    lines eol (text ++ text') = lines eol text ++ lines eol text' := by
  induction text with
  | nil => rfl
  | cons a text ih =>
    have hrest : Ended eol text := by
      intro b hb
      refine h b ?_
      cases text with
      | nil => cases hb
      | cons a' text => rwa [List.getLast?_cons_cons]
    rw [List.cons_append, lines, lines, ih hrest]
    split
    · rfl
    · rename_i hne
      have htext : text ≠ [] := by
        rintro rfl
        exact hne (h a rfl)
      cases hlines : lines eol text with
      | nil => exact absurd hlines (lines_ne_nil htext)
      | cons l ls => rfl

/-! ## Numbers -/

def readNat (text : List Char) : Option Nat :=
  if text ≠ [] ∧ text.all Char.isDigit then some (Nat.ofDigitChars 10 text 0) else none

def readInt : List Char → Option Int
  | '-' :: text => (readNat text).map fun n => -(n : Int)
  | text => (readNat text).map fun n => (n : Int)

theorem readNat_toString (n : Nat) : readNat (toString n).toList = some n := by
  have hdigits : (Nat.toDigits 10 n).all Char.isDigit = true :=
    List.all_eq_true.mpr fun ch hch => Nat.isDigit_of_mem_toDigits (by decide) (by decide) hch
  rw [Nat.toString_eq_repr, Nat.toList_repr, readNat, if_pos ⟨Nat.toDigits_ne_nil, hdigits⟩,
    Nat.ofDigitChars_ten_toDigits]

theorem readInt_toString (n : Int) : readInt (toString n).toList = some n := by
  have hdash : ∀ m : Nat, ∀ text, (toString m).toList ≠ '-' :: text := by
    intro m text heq
    have hmem : '-' ∈ (toString m).toList := heq ▸ List.mem_cons_self
    rw [Nat.toString_eq_repr, Nat.toList_repr] at hmem
    exact absurd (Nat.isDigit_of_mem_toDigits (by decide) (by decide) hmem) (by decide)
  have hnat : ∀ m : Nat, readInt (toString m).toList = some (m : Int) := by
    intro m
    unfold readInt
    split
    · rename_i text heq
      exact absurd heq (hdash m text)
    · rw [readNat_toString]
      rfl
  rcases Int.lt_or_le n 0 with hneg | hpos
  · obtain ⟨m, rfl⟩ := Int.exists_eq_neg_ofNat (Int.le_of_lt hneg)
    have htext : (toString (-(m : Int))).toList = '-' :: (toString m).toList := by
      rw [Int.toString_eq_repr, Int.repr_eq_if, if_neg (Int.not_le.mpr hneg)]
      simp [Nat.toString_eq_repr]
    rw [htext, readInt, readNat_toString]
    rfl
  · obtain ⟨m, rfl⟩ := Int.eq_ofNat_of_zero_le hpos
    exact hnat m

end Fields
