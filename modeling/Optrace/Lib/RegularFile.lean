import Mathlib.Order.Basic
import Mathlib.Order.Lattice
import Mathlib.Order.Nat

/-!
# A regular file behind one descriptor

The length of the file and the offset of its one open description, and what the calls on the
descriptor do to them. The greatest length so far is kept along with them.
-/

set_option autoImplicit false

namespace RegularFile

structure File where
  length : Nat
  offset : Nat
  append : Bool
  peak : Nat
  length_le : length ≤ peak

/-- How `fallocate` treats the range it is given. -/
inductive AllocMode where
  | extend
  | keepSize
  | collapse
  | insert
  deriving DecidableEq

/-- What a call did. A write may go to the end of the file for the flag of the description, or for
one of its own. -/
inductive Effect where
  | nothing
  | write (n : Nat) (atEnd : Bool)
  | writeAt (n pos : Nat) (atEnd : Bool)
  | seek (pos : Nat)
  | truncate (length : Nat)
  | allocate (mode : AllocMode) (pos n : Nat)
  | setAppend (on : Bool)

namespace File

def opened (length : Nat) (append : Bool) : File := ⟨length, 0, append, length, le_refl _⟩

def resized (f : File) (length : Nat) : File :=
  { f with
    length := length
    peak := max f.peak length
    length_le := le_max_right _ _ }

/-- Where a write begins. -/
def start (f : File) (pos : Nat) (atEnd : Bool) : Nat := if f.append || atEnd then f.length else pos

/-- The length after the call. -/
def lengthAfter (f : File) : Effect → Nat
  | .write n atEnd => if n = 0 then f.length else max f.length (f.start f.offset atEnd + n)
  | .writeAt n pos atEnd => if n = 0 then f.length else max f.length (f.start pos atEnd + n)
  | .truncate length => length
  | .allocate .extend pos n => max f.length (pos + n)
  | .allocate .collapse _ n => f.length - n
  | .allocate .insert _ n => f.length + n
  | _ => f.length

/-- The offset after the call: a write through it ends there, and a positional one leaves it. -/
def offsetAfter (f : File) : Effect → Nat
  | .write n atEnd => if n = 0 then f.offset else f.start f.offset atEnd + n
  | .seek pos => pos
  | _ => f.offset

def after (f : File) (effect : Effect) : File :=
  { f.resized (f.lengthAfter effect) with
    offset := f.offsetAfter effect
    append := match effect with
      | .setAppend on => on
      | _ => f.append }

@[simp] theorem after_length (f : File) (effect : Effect) :
    (f.after effect).length = f.lengthAfter effect := rfl

@[simp] theorem after_offset (f : File) (effect : Effect) :
    (f.after effect).offset = f.offsetAfter effect := rfl

@[simp] theorem after_peak (f : File) (effect : Effect) :
    (f.after effect).peak = max f.peak (f.lengthAfter effect) := rfl

theorem after_append_of_ne {f : File} {effect : Effect} (h : ∀ on, effect ≠ .setAppend on) :
    (f.after effect).append = f.append := by
  cases effect with
  | setAppend on => exact absurd rfl (h on)
  | _ => rfl

end File

/-- What a file system lets succeed whose positions stay below the limit. -/
def Effect.Fits (limit : Nat) (f : File) : Effect → Prop
  | .write n atEnd => f.start f.offset atEnd + n < limit
  | .writeAt n pos atEnd => pos + n < limit ∧ f.start pos atEnd + n < limit
  | .seek pos => pos < limit
  | .truncate length => length < limit
  | .allocate mode pos n => 0 < n ∧ pos + n < limit ∧ (mode = .collapse → pos + n < f.length) ∧
      (mode = .insert → pos < f.length ∧ f.length + n < limit)
  | _ => True

instance (limit : Nat) (f : File) : (effect : Effect) → Decidable (effect.Fits limit f)
  | .nothing => isTrue trivial
  | .write n atEnd => inferInstanceAs (Decidable (f.start f.offset atEnd + n < limit))
  | .writeAt n pos atEnd =>
    inferInstanceAs (Decidable (pos + n < limit ∧ f.start pos atEnd + n < limit))
  | .seek pos => inferInstanceAs (Decidable (pos < limit))
  | .truncate length => inferInstanceAs (Decidable (length < limit))
  | .allocate mode pos n => inferInstanceAs (Decidable (0 < n ∧ pos + n < limit ∧
      (mode = .collapse → pos + n < f.length) ∧
      (mode = .insert → pos < f.length ∧ f.length + n < limit)))
  | .setAppend _ => isTrue trivial

theorem max_eq_max_iff {m a b : Nat} : max m a = max m b ↔ a = b ∨ (a ≤ m ∧ b ≤ m) := by
  omega

theorem sub_eq_sub_iff {l a b : Nat} : a - l = b - l ↔ max l a = max l b := by
  omega

/-- A mark that follows the length of a file that began with `l` bytes still follows it exactly if
both are moved to one place, or neither passes the end. -/
theorem gained_eq_iff {l m length a b : Nat} (h : max l m = length) :
    max m a - l = max length b - l ↔ a = b ∨ (a ≤ length ∧ b ≤ length) := by
  have hlength : max l length = length := max_eq_right (h ▸ le_max_left l m)
  rw [sub_eq_sub_iff, ← max_assoc, h, ← max_assoc, hlength, max_eq_max_iff]

end RegularFile
