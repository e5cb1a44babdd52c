import Optrace.Types
import Optrace.Lib.PriorityQueue

/-!
# The bounded file store

`storage.h` and `storage.cpp`. The queue is any correct heap for `TFileSizeGreater`, so
nothing below depends on which of two equal files a full store evicts.
-/

namespace Optrace

set_option autoImplicit false

open Collections Collections.PriorityQueue

/-- The inverted comparator that makes the queue a min-heap. -/
def fileSizeGreater (f1 f2 : OutputFile) : Bool := decide (f2.size < f1.size)

/-- `std::priority_queue<TOutputFilePtr, std::vector<TOutputFilePtr>, TFileSizeGreater>`. -/
abbrev MaxOutFilesQueue (Q : Type) := PriorityQueue Q OutputFile fileSizeGreater

structure FileStorage (Q : Type) where
  capacity : Int
  outputSize : Word
  storeEmptyFiles : Bool
  queue : Q

namespace FileStorage

variable {Q : Type} [MaxOutFilesQueue Q]

/-- `TFileStorage(capacity, storeEmptyFiles)`. -/
def new (capacity : Int) (storeEmptyFiles : Bool) : FileStorage Q :=
  ⟨capacity, 0, storeEmptyFiles, empty⟩

def addFileEntry (s : FileStorage Q) (file : OutputFile) : FileStorage Q :=
  if s.capacity = 0 then s
  else if s.storeEmptyFiles = false ∧ file.size = 0 then s
  else
    let queue :=
      if s.capacity < 0 ∨ size s.queue < s.capacity.toNat then push s.queue file
      else
        match top s.queue with
        | some smallest =>
          if smallest.size < file.size then push (pop s.queue) file else s.queue
        | none => s.queue
    { s with queue := queue, outputSize := s.outputSize + file.size }

/-- The loop of `GetLargestFiles`: `res[temp.size() - 1] = temp.top(); temp.pop()`. -/
def fillFromBack : Nat → Q → List (Option OutputFile) → List (Option OutputFile)
  | 0, _, res => res
  | n + 1, temp, res =>
    match top temp with
    | some file => fillFromBack n (pop temp) (res.set n (some file))
    | none => res

/-- A vector of shared pointers starts out with null pointers. -/
def getLargestFiles (s : FileStorage Q) : List (Option OutputFile) :=
  fillFromBack (size s.queue) s.queue (List.replicate (size s.queue) none)

def getOutputSize (s : FileStorage Q) : Word := s.outputSize

/-! ## Acceptance -/

def accepts (capacity : Int) (storeEmptyFiles : Bool) (file : OutputFile) : Bool :=
  decide (capacity ≠ 0) && (storeEmptyFiles || decide (file.size ≠ 0))

/-- A negative capacity keeps everything. -/
def limit (capacity : Int) : Option Nat := if capacity < 0 then none else some capacity.toNat

def byteCount (file : OutputFile) : Nat := file.size.toNat

theorem fileSizeGreater_eq (f1 f2 : OutputFile) :
    fileSizeGreater f1 f2 = decide (byteCount f2 < byteCount f1) :=
  decide_eq_decide.mpr BitVec.lt_def

/-- What an accepted call does; a rejected one does nothing. -/
theorem addFileEntry_eq (s : FileStorage Q) (file : OutputFile) :
    s.addFileEntry file =
      if accepts s.capacity s.storeEmptyFiles file then
        { s with
          queue := offer byteCount (limit s.capacity) s.queue file
          outputSize := s.outputSize + file.size }
      else s := by
  have hroom : (s.capacity < 0 ∨ size s.queue < s.capacity.toNat) ↔
      hasRoom (limit s.capacity) (size s.queue) = true := by
    unfold limit
    split <;> simp_all [hasRoom]
  unfold addFileEntry accepts offer
  by_cases hcap : s.capacity = 0
  · simp [hcap]
  by_cases hempty : s.storeEmptyFiles = false ∧ file.size = 0
  · simp [hcap, hempty]
  have haccept : (s.storeEmptyFiles || decide (file.size ≠ 0)) = true := by
    cases hs : s.storeEmptyFiles <;> simp_all
  rw [if_neg hcap, if_neg hempty, decide_eq_true hcap, haccept]
  simp only [hroom, Bool.and_self, if_true, BitVec.lt_def, byteCount]
  cases top s.queue with
  | none => rfl
  | some smallest => congr

@[simp] theorem addFileEntry_capacity (s : FileStorage Q) (file : OutputFile) :
    (s.addFileEntry file).capacity = s.capacity := by
  rw [addFileEntry_eq]
  split <;> rfl

@[simp] theorem addFileEntry_storeEmptyFiles (s : FileStorage Q) (file : OutputFile) :
    (s.addFileEntry file).storeEmptyFiles = s.storeEmptyFiles := by
  rw [addFileEntry_eq]
  split <;> rfl

/-! ## Runs of calls -/

theorem foldl_addFileEntry (s : FileStorage Q) (files : List OutputFile) :
    let accepted := files.filter (accepts s.capacity s.storeEmptyFiles)
    files.foldl addFileEntry s =
      { s with
        queue := accepted.foldl (offer byteCount (limit s.capacity)) s.queue
        outputSize := s.outputSize + (accepted.map OutputFile.size).sum } := by
  induction files generalizing s with
  | nil => simp
  | cons file files ih =>
    have h := ih (s.addFileEntry file)
    simp only [addFileEntry_capacity, addFileEntry_storeEmptyFiles] at h
    rw [List.foldl_cons, h, addFileEntry_eq]
    cases haccept : accepts s.capacity s.storeEmptyFiles file with
    | true => simp [haccept, BitVec.add_assoc]
    | false => simp [haccept]

theorem toNat_sum (sizes : List Word) :
    sizes.sum.toNat = (sizes.map BitVec.toNat).sum % 2 ^ 64 := by
  induction sizes with
  | nil => rfl
  | cons size sizes ih =>
    rw [List.sum_cons, BitVec.toNat_add, ih, List.map_cons, List.sum_cons, Nat.add_mod_mod]

/-- The loop fills the positions below `n` with what the queue hands out, last one first. -/
theorem fillFromBack_eq (n : Nat) (temp : Q) (hn : size temp = n)
    (done : List (Option OutputFile)) :
    fillFromBack n temp (List.replicate n none ++ done) =
      (drain n temp).reverse.map some ++ done := by
  induction n generalizing temp done with
  | zero => simp [fillFromBack, drain]
  | succ n ih =>
    obtain ⟨file, hfile⟩ := exists_top_of_size_pos (q := temp) (by omega)
    have hpop : size (pop temp) = n := by
      have := size_of_top hfile
      omega
    have hset : (List.replicate (n + 1) none ++ done).set n (some file) =
        List.replicate n none ++ some file :: done := by
      rw [List.replicate_succ', List.append_assoc, List.set_append_right _ _ (by simp)]
      simp
    simp only [fillFromBack, drain, hfile, hset]
    rw [ih (pop temp) hpop]
    simp

theorem getLargestFiles_eq (s : FileStorage Q) :
    s.getLargestFiles = (drain (size s.queue) s.queue).reverse.map some := by
  have h := fillFromBack_eq (size s.queue) s.queue rfl []
  rwa [List.append_nil, List.append_nil] at h

theorem new_queue_largest (capacity : Int) (storeEmptyFiles : Bool) :
    Largest byteCount (limit capacity) 0
      (items (new capacity storeEmptyFiles : FileStorage Q).queue) := by
  have hitems : items (new capacity storeEmptyFiles : FileStorage Q).queue = 0 := items_empty
  rw [hitems]
  exact Largest.empty byteCount _

/-- After any run the queue holds the largest accepted files. -/
theorem queue_largest (capacity : Int) (storeEmptyFiles : Bool) (files : List OutputFile) :
    Largest byteCount (limit capacity) (files.filter (accepts capacity storeEmptyFiles))
      (items (files.foldl addFileEntry (new capacity storeEmptyFiles : FileStorage Q)).queue) := by
  have h := largest_foldl_offer byteCount fileSizeGreater_eq (limit capacity)
    (files.filter (accepts capacity storeEmptyFiles))
    (new_queue_largest (Q := Q) capacity storeEmptyFiles)
  rw [foldl_addFileEntry]
  rwa [zero_add] at h

theorem outputSize_eq_sum (capacity : Int) (storeEmptyFiles : Bool) (files : List OutputFile) :
    (files.foldl addFileEntry (new capacity storeEmptyFiles : FileStorage Q)).getOutputSize =
      ((files.filter (accepts capacity storeEmptyFiles)).map OutputFile.size).sum := by
  rw [foldl_addFileEntry]
  simp [getOutputSize, new]

/-- `OutputSize` does not depend on the capacity, as long as there is one, nor on the order. -/
theorem outputSize_invariant {capacity capacity' : Int} (storeEmptyFiles : Bool)
    {files files' : List OutputFile} (hcap : capacity ≠ 0) (hcap' : capacity' ≠ 0)
    (hperm : files'.Perm files) :
    (files'.foldl addFileEntry (new capacity' storeEmptyFiles : FileStorage Q)).getOutputSize =
      (files.foldl addFileEntry (new capacity storeEmptyFiles : FileStorage Q)).getOutputSize := by
  have haccepts : accepts capacity' storeEmptyFiles = accepts capacity storeEmptyFiles := by
    funext file
    simp [accepts, hcap, hcap']
  rw [outputSize_eq_sum, outputSize_eq_sum, haccepts]
  exact ((hperm.filter _).map _).sum_eq

/-- The store is an exact top-N of the accepted files with an exact total. -/
theorem largest_files_exact (capacity : Int) (storeEmptyFiles : Bool)
    (files : List OutputFile) :
    let storage := files.foldl addFileEntry (new capacity storeEmptyFiles : FileStorage Q)
    let accepted := files.filter (accepts capacity storeEmptyFiles)
    ∃ largest : List OutputFile,
      storage.getLargestFiles = largest.map some ∧
      (largest : Multiset OutputFile) ≤ accepted ∧
      (largest.Pairwise fun f g => g.size ≤ f.size) ∧
      largest.length =
        (if capacity < 0 then accepted.length else min accepted.length capacity.toNat) ∧
      (∀ kept ∈ largest, ∀ left ∈ (accepted : Multiset OutputFile) - largest,
        left.size ≤ kept.size) ∧
      largest.map byteCount =
        ((accepted.map byteCount).mergeSort (· ≥ ·)).take largest.length ∧
      storage.getOutputSize.toNat = (accepted.map byteCount).sum % 2 ^ 64 ∧
      ∀ (capacity' : Int) (files' : List OutputFile), capacity ≠ 0 → capacity' ≠ 0 →
        files'.Perm files →
        (files'.foldl addFileEntry (new capacity' storeEmptyFiles : FileStorage Q)).getOutputSize =
          storage.getOutputSize := by
  intro storage accepted
  have hlargest : Largest byteCount (limit capacity) accepted (items storage.queue) :=
    queue_largest capacity storeEmptyFiles files
  have hdrain := drain_pairwise (size storage.queue) storage.queue rfl
  have hitems : ((drain (size storage.queue) storage.queue).reverse : Multiset OutputFile) =
      items storage.queue := by
    rw [← coe_drain (size storage.queue) storage.queue rfl]
    exact Multiset.coe_eq_coe.mpr (List.reverse_perm _)
  have hlength : (drain (size storage.queue) storage.queue).reverse.length =
      Multiset.card (items storage.queue) := by
    rw [List.length_reverse, drain_length _ _ rfl]
    rfl
  have hsorted : (drain (size storage.queue) storage.queue).reverse.Pairwise
      fun f g => g.size ≤ f.size := by
    rw [List.pairwise_reverse]
    apply hdrain.imp
    intro f g hfg
    simpa [fileSizeGreater, BitVec.lt_def, BitVec.le_def] using hfg
  refine ⟨(drain (size storage.queue) storage.queue).reverse, getLargestFiles_eq storage, ?_,
    hsorted, ?_, ?_, ?_, ?_, ?_⟩
  · rw [hitems]
    exact hlargest.le
  · rw [hlength, hlargest.card_eq]
    unfold limit
    split <;> simp [keptCount, min_comm]
  · intro kept hkept left hleft
    obtain ⟨rest, heq, hrest⟩ := hlargest.split
    rw [hitems, heq, add_tsub_cancel_left] at hleft
    have hmem : kept ∈ items storage.queue := by
      rw [← hitems]
      exact hkept
    exact BitVec.le_def.mpr (hrest kept hmem left hleft)
  · have hkeys := hlargest.keys_eq_take
    rw [← hitems, Multiset.map_coe, Multiset.map_coe, Multiset.coe_sort, Multiset.coe_sort,
      Multiset.coe_card] at hkeys
    rw [← hkeys]
    refine (List.mergeSort_of_pairwise ?_).symm
    rw [List.pairwise_map]
    apply hsorted.imp
    intro f g hfg
    simpa [byteCount, BitVec.le_def] using hfg
  · rw [outputSize_eq_sum, toNat_sum, List.map_map]
    rfl
  · intro capacity' files' hcap hcap' hperm
    exact outputSize_invariant storeEmptyFiles hcap hcap' hperm

/-- The sizes that are listed: the largest ones of those accepted. -/
theorem listed_sizes (capacity : Int) (storeEmptyFiles : Bool) (files : List OutputFile) :
    let accepted : Multiset OutputFile := files.filter (accepts capacity storeEmptyFiles)
    (files.foldl addFileEntry (new capacity storeEmptyFiles : FileStorage Q)).getLargestFiles.map
        (Option.map byteCount) =
      (((accepted.map byteCount).sort (· ≥ ·)).take
        (keptCount (limit capacity) (Multiset.card accepted))).map some := by
  intro accepted
  have hlargest := queue_largest (Q := Q) capacity storeEmptyFiles files
  generalize files.foldl addFileEntry (new capacity storeEmptyFiles : FileStorage Q) = storage at *
  have hkeys := hlargest.keys_eq_take
  rw [hlargest.card_eq] at hkeys
  have hsorted : ((drain (size storage.queue) storage.queue).reverse.map byteCount).Pairwise
      (· ≥ ·) := by
    rw [List.pairwise_map, List.pairwise_reverse]
    apply (drain_pairwise (size storage.queue) storage.queue rfl).imp
    intro f g hfg
    simpa [fileSizeGreater_eq] using hfg
  have hitems : (((drain (size storage.queue) storage.queue).reverse.map byteCount : List Nat) :
      Multiset Nat) = (items storage.queue).map byteCount := by
    rw [← coe_drain (size storage.queue) storage.queue rfl, Multiset.map_coe, List.map_reverse]
    exact Multiset.coe_eq_coe.mpr (List.reverse_perm _)
  have hlisted : (drain (size storage.queue) storage.queue).reverse.map byteCount =
      ((items storage.queue).map byteCount).sort (· ≥ ·) := by
    refine List.Perm.eq_of_pairwise' (r := (· ≥ ·)) hsorted (Multiset.pairwise_sort _ _) ?_
    rw [← Multiset.coe_eq_coe, hitems, Multiset.sort_eq]
  rw [getLargestFiles_eq, ← hkeys, ← hlisted, List.map_map, List.map_map]
  rfl

/-- Neither the total nor the listed sizes depend on the order of the reports. -/
theorem listed_perm (capacity : Int) (storeEmptyFiles : Bool) {files files' : List OutputFile}
    (h : files.Perm files') :
    let storage := files.foldl addFileEntry (new capacity storeEmptyFiles : FileStorage Q)
    let storage' := files'.foldl addFileEntry (new capacity storeEmptyFiles : FileStorage Q)
    storage.getOutputSize = storage'.getOutputSize ∧
      storage.getLargestFiles.map (Option.map byteCount) =
        storage'.getLargestFiles.map (Option.map byteCount) := by
  intro storage storage'
  have haccepted := h.filter (accepts capacity storeEmptyFiles)
  constructor
  · unfold storage storage'
    rw [outputSize_eq_sum, outputSize_eq_sum]
    exact (haccepted.map OutputFile.size).sum_eq
  · unfold storage storage'
    rw [listed_sizes, listed_sizes, Multiset.coe_eq_coe.mpr haccepted]

/-- A sorted list will do for the heap. -/
abbrev FileQueue := SortedQueue byteCount

instance : MaxOutFilesQueue FileQueue :=
  inferInstanceAs (PriorityQueue FileQueue OutputFile fun f1 f2 =>
    decide (byteCount f2 < byteCount f1))

end FileStorage

end Optrace
