import Mathlib.Data.List.TakeWhile

/-!
# Buffers of a fixed size

Storing at an index, which fails where the buffer ends, the text up to a terminator, as it is kept
in such a buffer, and the search for a word in it.
-/

set_option autoImplicit false

universe u

namespace Buffer

variable {α : Type u}

/-- The elements are stored one after another from the index on. -/
def store (buffer : List α) (i : Nat) (elements : List α) : Option (List α) :=
  if i + elements.length ≤ buffer.length then
    some (buffer.take i ++ (elements ++ buffer.drop (i + elements.length)))
  else none

theorem store_eq_some_iff {buffer buffer' : List α} {i : Nat} {elements : List α} :
    store buffer i elements = some buffer' ↔
      i + elements.length ≤ buffer.length ∧
        buffer' = buffer.take i ++ (elements ++ buffer.drop (i + elements.length)) := by
  unfold store
  split
  · rename_i hfits
    simp [hfits, eq_comm]
  · rename_i hfits
    simp [hfits]

theorem store_eq_none_iff {buffer : List α} {i : Nat} {elements : List α} :
    store buffer i elements = none ↔ buffer.length < i + elements.length := by
  simp [store]

theorem length_store {buffer buffer' : List α} {i : Nat} {elements : List α}
    (h : store buffer i elements = some buffer') : buffer'.length = buffer.length := by
  obtain ⟨hfits, rfl⟩ := store_eq_some_iff.mp h
  simp only [List.length_append, List.length_take, List.length_drop]
  omega

theorem take_store {buffer buffer' : List α} {i : Nat} {elements : List α}
    (h : store buffer i elements = some buffer') : buffer'.take i = buffer.take i := by
  obtain ⟨hfits, rfl⟩ := store_eq_some_iff.mp h
  have hlength : (buffer.take i).length = i := List.length_take_of_le (by omega)
  rw [List.take_left' hlength]

/-- `snprintf`: no more than `limit` elements are stored, the terminator among them. -/
def snprintf (stop : α) (buffer : List α) (i limit : Nat) (elements : List α) : Option (List α) :=
  if limit = 0 then some buffer else store buffer i (elements.take (limit - 1) ++ [stop])

/-- Nothing is cut off if there is room for the terminator, too. -/
theorem snprintf_eq_store {stop : α} {buffer : List α} {i limit : Nat} {elements : List α}
    (h : elements.length < limit) :
    snprintf stop buffer i limit elements = store buffer i (elements ++ [stop]) := by
  rw [snprintf, if_neg (by omega), List.take_of_length_le (by omega)]

variable [DecidableEq α] {stop : α}

/-- The elements before the first terminator. -/
def text (stop : α) (buffer : List α) : List α := buffer.takeWhile fun a => a ≠ stop

theorem text_append_stop {elements : List α} (helements : stop ∉ elements) (rest : List α) :
    text stop (elements ++ stop :: rest) = elements := by
  have hall : ∀ a ∈ elements, decide (a ≠ stop) = true := by
    intro a ha
    exact decide_eq_true fun heq => helements (heq ▸ ha)
  rw [text, List.takeWhile_append_of_pos hall, List.takeWhile_cons_of_neg (by simp),
    List.append_nil]

/-- A text stored with its terminator lengthens what stands before it, whatever stood there. -/
theorem text_store {buffer buffer' : List α} {i : Nat} {elements : List α}
    (h : store buffer i (elements ++ [stop]) = some buffer') (hbefore : stop ∉ buffer.take i)
    (helements : stop ∉ elements) : text stop buffer' = buffer.take i ++ elements := by
  obtain ⟨hfits, rfl⟩ := store_eq_some_iff.mp h
  rw [List.append_assoc, List.singleton_append, ← List.append_assoc]
  refine text_append_stop ?_ _
  rw [List.mem_append]
  exact not_or.mpr ⟨hbefore, helements⟩

/-! ## The first occurrence of a word -/

/-- What stands before the first occurrence. -/
structure First (word buffer before : List α) : Prop where
  occurs : before ++ word <+: buffer
  least : ∀ before', before' ++ word <+: buffer → before.length ≤ before'.length

omit [DecidableEq α] in
theorem exists_first {word buffer before : List α} (h : before ++ word <+: buffer) :
    ∃ before', First word buffer before' ∧ before'.length ≤ before.length := by
  obtain ⟨n, hn⟩ : ∃ n, n = before.length := ⟨_, rfl⟩
  induction n using Nat.strong_induction_on generalizing before with
  | h n ih =>
    by_cases hless : ∃ before', before' ++ word <+: buffer ∧ before'.length < before.length
    · obtain ⟨before', hoccurs, hlt⟩ := hless
      obtain ⟨first, hfirst, hle⟩ := ih before'.length (by omega) hoccurs rfl
      exact ⟨first, hfirst, by omega⟩
    · refine ⟨before, ⟨h, fun before' hoccurs => ?_⟩, le_refl _⟩
      by_contra hlt
      exact hless ⟨before', hoccurs, by omega⟩

omit [DecidableEq α] in
/-- What is behind the first occurrence does not matter. -/
theorem First.congr {word buffer buffer' before : List α} (h : First word buffer before)
    (hoccurs : before ++ word <+: buffer') : First word buffer' before := by
  refine ⟨hoccurs, fun before' hoccurs' => ?_⟩
  by_contra hlt
  have hlength : (before' ++ word).length ≤ (before ++ word).length := by
    rw [List.length_append, List.length_append]
    omega
  have hearlier := List.prefix_of_prefix_length_le hoccurs' hoccurs hlength
  exact hlt (h.least before' (hearlier.trans h.occurs))

/-- `strstr`: the rest of the buffer from the first occurrence on, before the terminator. -/
def find (stop : α) (word : List α) : List α → Option (List α)
  | [] => none
  | a :: buffer =>
    if word.isPrefixOf (a :: buffer) then some (a :: buffer)
    else if a = stop then none
    else find stop word buffer

theorem find_of_first {word buffer before : List α} (hword : word ≠ [])
    (h : First word buffer before) :
    find stop word buffer = if stop ∈ before then none else some (buffer.drop before.length) := by
  induction before generalizing buffer with
  | nil =>
    obtain ⟨rest, rfl⟩ := h.occurs
    cases word with
    | nil => exact absurd rfl hword
    | cons a word => simp [find]
  | cons a before ih =>
    obtain ⟨rest, rfl⟩ := h.occurs
    have hnot : ¬word <+: a :: before ++ word ++ rest := by
      intro hoccurs
      have hleast := h.least [] hoccurs
      simp at hleast
    have htail : First word (before ++ word ++ rest) before := by
      refine ⟨List.prefix_append _ _, fun before' hoccurs => ?_⟩
      have hleast := h.least (a :: before') (List.cons_prefix_cons.mpr ⟨rfl, hoccurs⟩)
      simpa using hleast
    rw [List.cons_append, List.cons_append] at hnot ⊢
    rw [find, if_neg (by rwa [List.isPrefixOf_iff_prefix]), ih htail, List.length_cons,
      List.drop_succ_cons]
    by_cases ha : a = stop
    · simp [ha]
    · simp [ha, Ne.symm ha]

end Buffer
