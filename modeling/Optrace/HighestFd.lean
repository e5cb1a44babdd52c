import Optrace.CommandLine
import Optrace.Lib.Buffer

/-!
# The highest open descriptor

`MyHighestFd` of `utils.cpp`: it reads the beginning of `/proc/self/status` into a buffer, looks for
the number behind `FDSize:` in it, and goes down from there. A character stands for a byte.
-/

namespace Optrace

set_option autoImplicit false

def nul : Char := Char.ofNat 0

namespace HighestFd

def buffSize : Nat := 512

def limit : Nat := buffSize - 1

def fdSize : List Char := "FDSize:".toList

/-- What a call of `read` does: it fails, or it delivers some of what it is asked for. -/
inductive Read where
  | interrupted
  | failed
  | atMost (n : Nat)
  deriving DecidableEq

/-- The failed assertion of `MyHighestFd`, and an access outside its buffer. -/
inductive Stop where
  | assertion
  | outside
  deriving DecidableEq

/-- The bytes of one call. `line` is an array, so `&line + size` is that many arrays behind it. -/
def receive (chunk : List Char) (size : Nat) (line : List Char) : Except Stop (List Char) :=
  match Buffer.store line (buffSize * size) chunk with
  | some line => .ok line
  | none => .error .outside

/-- The outer loop, over what is left of the file. The calls behind the given ones deliver all they
are asked for, so that there is one more that stores anything. -/
def readLoop (content : List Char) (size : Nat) (line : List Char) :
    List Read → Except Stop (List Char)
  | [] =>
    if limit ≤ size ∨ content = [] then .ok line
    else receive (content.take (limit - size)) size line
  | .interrupted :: reads => if limit ≤ size then .ok line else readLoop content size line reads
  | .failed :: _ => .ok line
  | .atMost n :: reads =>
    if limit ≤ size ∨ content = [] then .ok line
    else
      let chunk := content.take (min (n + 1) (limit - size))
      match receive chunk size line with
      | .error stop => .error stop
      | .ok line => readLoop (content.drop chunk.length) (size + chunk.length) line reads

/-- `parseLine`: neither of its loops looks for the end of the buffer. -/
def parseLine (line : List Char) : Except Stop Int :=
  let line := line.dropWhile fun ch => !ch.isDigit
  let digits := line.takeWhile Char.isDigit
  if digits.length = line.length then .error .outside
  else .ok (CommandLine.atoi (String.ofList digits))

def highestBelow (isOpen : Nat → Bool) : Nat → Int
  | 0 => -1
  | fd + 1 => if isOpen fd then fd else highestBelow isOpen fd

/-- The last loop, downwards from a number that may be negative already. -/
def highestFrom (isOpen : Nat → Bool) (fd : Int) : Int :=
  if fd < 0 then fd else highestBelow isOpen (fd.toNat + 1)

/-- What is done with the buffer. -/
def search (isOpen : Nat → Bool) (line : List Char) : Except Stop Int :=
  match Buffer.find nul fdSize line with
  | none => .error .assertion
  | some found =>
    match parseLine (found.drop 7) with
    | .error stop => .error stop
    | .ok fd => .ok (highestFrom isOpen fd)

def emptyLine : List Char := List.replicate buffSize nul

def myHighestFd (content : List Char) (reads : List Read) (isOpen : Nat → Bool) : Except Stop Int :=
  match readLoop content 0 emptyLine reads with
  | .error stop => .error stop
  | .ok line => search isOpen line

/-! ## The chunks -/

/-- The first call that is not interrupted delivers all that it is asked for, or all there is. -/
def ReadAtOnce (content : List Char) : List Read → Prop
  | [] => True
  | .interrupted :: reads => ReadAtOnce content reads
  | .failed :: _ => False
  | .atMost n :: _ => min limit content.length ≤ n + 1

/-- The buffer as it should be: the bytes one after another, and zeros behind. -/
def filled (content : List Char) : List Char :=
  content.take limit ++ List.replicate (buffSize - min limit content.length) nul

theorem readLoop_full (content line : List Char) {size : Nat} (h : limit ≤ size)
    (reads : List Read) : readLoop content size line reads = .ok line := by
  cases reads with
  | nil => rw [readLoop, if_pos (Or.inl h)]
  | cons read reads =>
    cases read with
    | interrupted => rw [readLoop, if_pos h]
    | failed => rw [readLoop]
    | atMost n => rw [readLoop, if_pos (Or.inl h)]

theorem readLoop_nil (line : List Char) (size : Nat) (reads : List Read) :
    readLoop [] size line reads = .ok line := by
  induction reads with
  | nil => rw [readLoop, if_pos (Or.inr rfl)]
  | cons read reads ih =>
    cases read with
    | interrupted =>
      rw [readLoop, ih]
      exact ite_self _
    | failed => rw [readLoop]
    | atMost n => rw [readLoop, if_pos (Or.inr rfl)]

/-- Behind the first bytes there is no room in the buffer for any more. -/
theorem receive_outside {chunk line : List Char} {size : Nat} (hline : line.length = buffSize)
    (hsize : 0 < size) (hchunk : chunk ≠ []) : receive chunk size line = .error .outside := by
  have hpos := List.length_pos_iff.mpr hchunk
  have harray : buffSize * 1 ≤ buffSize * size := Nat.mul_le_mul_left _ hsize
  have hnone : Buffer.store line (buffSize * size) chunk = none :=
    Buffer.store_eq_none_iff.mpr (by omega)
  rw [receive, hnone]

theorem receive_first {chunk line : List Char} (hchunk : chunk.length ≤ line.length) :
    receive chunk 0 line = .ok (chunk ++ line.drop chunk.length) := by
  have hsome : Buffer.store line (buffSize * 0) chunk = some (chunk ++ line.drop chunk.length) :=
    Buffer.store_eq_some_iff.mpr ⟨by omega, by simp⟩
  rw [receive, hsome]

/-- A second chunk does not fit, however it comes. -/
theorem readLoop_second {content line : List Char} {size : Nat} (hline : line.length = buffSize)
    (hsize : 0 < size) (hlimit : size < limit) (hcontent : content ≠ []) {reads : List Read}
    (hreads : Read.failed ∉ reads) : readLoop content size line reads = .error .outside := by
  have hchunk : ∀ n, 0 < n → content.take n ≠ [] := by
    intro n hn hnil
    rcases List.take_eq_nil_iff.mp hnil with hzero | hempty
    · omega
    · exact hcontent hempty
  induction reads with
  | nil =>
    rw [readLoop, if_neg (not_or.mpr ⟨by omega, hcontent⟩)]
    exact receive_outside hline hsize (hchunk _ (by omega))
  | cons read reads ih =>
    cases read with
    | interrupted =>
      rw [readLoop, if_neg (by omega)]
      exact ih fun hmem => hreads (List.mem_cons_of_mem _ hmem)
    | failed => exact absurd List.mem_cons_self hreads
    | atMost n =>
      have hout : receive (content.take (min (n + 1) (limit - size))) size line = .error .outside :=
        receive_outside hline hsize (hchunk _ (by omega))
      rw [readLoop, if_neg (not_or.mpr ⟨by omega, hcontent⟩)]
      simp only [hout]

theorem drop_emptyLine (content : List Char) :
    emptyLine.drop (content.take limit).length =
      List.replicate (buffSize - min limit content.length) nul := by
  rw [emptyLine, List.drop_replicate, List.length_take]

/-- The first call that delivers anything decides. -/
theorem readLoop_atMost {content : List Char} (hcontent : content ≠ []) (n : Nat)
    {reads : List Read} (hreads : Read.failed ∉ reads) :
    (min limit content.length ≤ n + 1 →
        readLoop content 0 emptyLine (.atMost n :: reads) = .ok (filled content)) ∧
      (¬min limit content.length ≤ n + 1 →
        readLoop content 0 emptyLine (.atMost n :: reads) = .error .outside) := by
  have hlimit : 0 < limit := by decide
  have hempty : emptyLine.length = limit + 1 := by rw [emptyLine, List.length_replicate]; rfl
  have hpos := List.length_pos_iff.mpr hcontent
  have hlength : (content.take (min (n + 1) limit)).length =
      min (min (n + 1) limit) content.length := List.length_take
  rw [readLoop, if_neg (not_or.mpr ⟨by omega, hcontent⟩), Nat.sub_zero]
  simp only [Nat.zero_add, receive_first (hlength.trans_le (by omega : _ ≤ emptyLine.length))]
  constructor
  · intro hall
    have hchunk : content.take (min (n + 1) limit) = content.take limit :=
      List.take_eq_take_iff.mpr (by omega)
    rw [hchunk, drop_emptyLine, ← filled]
    by_cases hlong : limit ≤ content.length
    · exact readLoop_full _ _ (by rw [List.length_take]; omega) _
    · have hrest : content.drop (content.take limit).length = [] := by
        rw [List.length_take]
        exact List.drop_of_length_le (by omega)
      rw [hrest]
      exact readLoop_nil _ _ _
  · intro hpart
    refine readLoop_second ?_ (by omega) (by omega) ?_ hreads
    · rw [List.length_append, List.length_drop, hempty]
      have hbuff : buffSize = limit + 1 := rfl
      omega
    · intro hnil
      have hle := List.drop_eq_nil_iff.mp hnil
      omega

/-- The buffer is filled if one call delivers everything, and overrun if not. -/
theorem readLoop_first {content : List Char} (hcontent : content ≠ []) {reads : List Read}
    (hreads : Read.failed ∉ reads) :
    (ReadAtOnce content reads → readLoop content 0 emptyLine reads = .ok (filled content)) ∧
      (¬ReadAtOnce content reads → readLoop content 0 emptyLine reads = .error .outside) := by
  have hlimit : 0 < limit := by decide
  have hempty : emptyLine.length = limit + 1 := by rw [emptyLine, List.length_replicate]; rfl
  induction reads with
  | nil =>
    refine ⟨fun _ => ?_, fun hno => absurd trivial hno⟩
    have hchunk : (content.take limit).length ≤ emptyLine.length := by
      rw [List.length_take]
      omega
    rw [readLoop, if_neg (not_or.mpr ⟨by omega, hcontent⟩), Nat.sub_zero, receive_first hchunk,
      drop_emptyLine, filled]
  | cons read reads ih =>
    have hrest : Read.failed ∉ reads := fun hmem => hreads (List.mem_cons_of_mem _ hmem)
    cases read with
    | interrupted =>
      rw [readLoop, if_neg (by omega)]
      exact ih hrest
    | failed => exact absurd List.mem_cons_self hreads
    | atMost n => exact readLoop_atMost hcontent n hrest

/-! ## The number -/

/-- A number behind `FDSize:`: the first digits after the colon. -/
structure NumberAt (content before gap digits after : List Char) : Prop where
  text : content = before ++ fdSize ++ (gap ++ (digits ++ after))
  gap : ∀ ch ∈ gap, ch.isDigit = false
  ne : digits ≠ []
  digits : ∀ ch ∈ digits, ch.isDigit = true
  after : ∀ ch ∈ after.head?, ch.isDigit = false

namespace NumberAt

variable {content before gap digits after : List Char}

theorem length_text (h : NumberAt content before gap digits after) :
    content.length = before.length + 7 + gap.length + digits.length + after.length := by
  have hword : fdSize.length = 7 := rfl
  rw [h.text]
  simp only [List.length_append, hword]
  omega

theorem getElem?_rest (h : NumberAt content before gap digits after) {i : Nat}
    (hi : before.length + 7 ≤ i) :
    content[i]? = (gap ++ (digits ++ after))[i - (before.length + 7)]? := by
  have hlength : (before ++ fdSize).length = before.length + 7 := List.length_append
  rw [h.text, List.getElem?_append_right (by omega), hlength]

theorem at_gap (h : NumberAt content before gap digits after) {i : Nat}
    (hlo : before.length + 7 ≤ i) (hhi : i < before.length + 7 + gap.length) :
    ∀ ch ∈ content[i]?, ch.isDigit = false := by
  intro ch hch
  rw [h.getElem?_rest hlo, List.getElem?_append_left (by omega)] at hch
  exact h.gap ch (List.mem_of_getElem? hch)

theorem at_digits (h : NumberAt content before gap digits after) {i : Nat}
    (hlo : before.length + 7 + gap.length ≤ i)
    (hhi : i < before.length + 7 + gap.length + digits.length) :
    ∃ ch ∈ content[i]?, ch.isDigit = true := by
  have hlt : i - (before.length + 7) - gap.length < digits.length := by omega
  refine ⟨digits[i - (before.length + 7) - gap.length], ?_, h.digits _ (List.getElem_mem hlt)⟩
  rw [h.getElem?_rest (by omega), List.getElem?_append_right (by omega),
    List.getElem?_append_left hlt]
  exact List.getElem?_eq_getElem hlt

theorem at_after (h : NumberAt content before gap digits after) :
    ∀ ch ∈ content[before.length + 7 + gap.length + digits.length]?, ch.isDigit = false := by
  intro ch hch
  have hindex : before.length + 7 + gap.length + digits.length - (before.length + 7) - gap.length -
      digits.length = 0 := by omega
  rw [h.getElem?_rest (by omega), List.getElem?_append_right (by omega),
    List.getElem?_append_right (by omega), hindex, ← List.head?_eq_getElem?] at hch
  exact h.after ch hch

/-- The number behind an earlier `FDSize:` ends no later. -/
theorem end_mono {before' gap' digits' after' : List Char}
    (h : NumberAt content before gap digits after)
    (h' : NumberAt content before' gap' digits' after') (hle : before.length ≤ before'.length) :
    before.length + 7 + gap.length + digits.length ≤
      before'.length + 7 + gap'.length + digits'.length := by
  have hpos := List.length_pos_iff.mpr h'.ne
  have hstart : before.length + 7 + gap.length ≤ before'.length + 7 + gap'.length := by
    by_contra hlt
    obtain ⟨ch, hch, hdigit⟩ := h'.at_digits (le_refl _) (by omega)
    rw [h.at_gap (by omega) (by omega) ch hch] at hdigit
    cases hdigit
  by_contra hlt
  obtain ⟨ch, hch, hdigit⟩ := h.at_digits (i := before'.length + 7 + gap'.length + digits'.length)
    (by omega) (by omega)
  rw [h'.at_after ch hch] at hdigit
  cases hdigit

/-- Behind the first `FDSize:` there is a number if there is one behind any. -/
theorem exists_first (h : NumberAt content before gap digits after) :
    ∃ before' gap' digits' after', NumberAt content before' gap' digits' after' ∧
      Buffer.First fdSize content before' ∧ before'.length ≤ before.length := by
  have hoccurs : before ++ fdSize <+: content := ⟨_, h.text.symm⟩
  obtain ⟨before', hfirst, hle⟩ := Buffer.exists_first hoccurs
  obtain ⟨rest, hrest⟩ := hfirst.occurs
  obtain ⟨ch, hch, hdigit⟩ := h.at_digits (le_refl _)
    (by have := List.length_pos_iff.mpr h.ne; omega)
  have hmem : ch ∈ rest := by
    have hlength : (before' ++ fdSize).length = before'.length + 7 := List.length_append
    rw [← hrest, List.getElem?_append_right (by omega)] at hch
    exact List.mem_of_getElem? hch
  have htail : rest.dropWhile (fun ch => !ch.isDigit) ≠ [] := by
    intro hnil
    have hno := List.dropWhile_eq_nil_iff.mp hnil ch hmem
    rw [hdigit] at hno
    cases hno
  obtain ⟨first, tail, htext⟩ := List.exists_cons_of_ne_nil htail
  have hfirstDigit : first.isDigit = true := by
    have hhead := List.head?_dropWhile_not (fun ch => !ch.isDigit) rest
    rw [htext] at hhead
    simpa using hhead
  refine ⟨before', rest.takeWhile (fun ch => !ch.isDigit), (first :: tail).takeWhile Char.isDigit,
    (first :: tail).dropWhile Char.isDigit, ⟨?_, ?_, ?_, ?_, ?_⟩, hfirst, hle⟩
  · rw [List.takeWhile_append_dropWhile, ← htext, List.takeWhile_append_dropWhile, hrest]
  · intro ch hch
    have hnot := List.mem_takeWhile_imp hch
    simpa using hnot
  · rw [List.takeWhile_cons_of_pos hfirstDigit]
    exact List.cons_ne_nil _ _
  · intro ch hch
    exact List.mem_takeWhile_imp hch
  · intro ch hch
    have hhead := List.head?_dropWhile_not Char.isDigit (first :: tail)
    rw [Option.mem_def.mp hch] at hhead
    simpa using hhead

/-- The buffer holds the number, too, if it ends early enough. -/
theorem filled (h : NumberAt content before gap digits after)
    (hend : before.length + 7 + gap.length + digits.length ≤ limit) :
    ∃ after', after' ≠ [] ∧ NumberAt (filled content) before gap digits after' := by
  have hlimit : buffSize = limit + 1 := rfl
  obtain ⟨zeros, hzeros⟩ : ∃ zeros, buffSize - min limit content.length = zeros + 1 :=
    ⟨buffSize - min limit content.length - 1, by omega⟩
  obtain ⟨kept, hkept⟩ := Nat.exists_eq_add_of_le hend
  refine ⟨after.take kept ++ List.replicate (zeros + 1) nul, ?_, ?_, h.gap, h.ne, h.digits, ?_⟩
  · exact List.append_ne_nil_of_right_ne_nil _ (List.cons_ne_nil _ _)
  · have hhead : (before ++ fdSize ++ (gap ++ digits)).length =
        before.length + 7 + gap.length + digits.length := by
      have hword : fdSize.length = 7 := rfl
      simp only [List.length_append, hword]
      omega
    have htext : content = before ++ fdSize ++ (gap ++ digits) ++ after := by
      rw [h.text, List.append_assoc, List.append_assoc, List.append_assoc, List.append_assoc]
    have htake : content.take limit = before ++ fdSize ++ (gap ++ digits) ++ after.take kept := by
      rw [hkept, ← hhead, htext, List.take_length_add_append]
    rw [HighestFd.filled, hzeros, htake]
    simp only [List.append_assoc]
  · intro ch hch
    cases kept with
    | zero =>
      cases hch
      decide
    | succ kept =>
      cases hafter : after with
      | nil =>
        rw [hafter] at hch
        cases hch
        decide
      | cons first rest =>
        rw [hafter] at hch
        exact h.after ch (by rw [hafter]; exact hch)

/-- `parseLine` stops behind the number, as long as something is left. -/
theorem parseLine (h : NumberAt content before gap digits after) (hafter : after ≠ []) :
    parseLine (gap ++ (digits ++ after)) = .ok (CommandLine.atoi (String.ofList digits)) := by
  have hskip : (gap ++ (digits ++ after)).dropWhile (fun ch => !ch.isDigit) = digits ++ after := by
    obtain ⟨first, rest, hdigits⟩ := List.exists_cons_of_ne_nil h.ne
    have hfirst : first.isDigit = true := h.digits first (hdigits ▸ List.mem_cons_self)
    rw [List.dropWhile_append_of_pos fun ch hch => by simp [h.gap ch hch], hdigits,
      List.cons_append, List.dropWhile_cons_of_neg (by simp [hfirst])]
  have htake : (digits ++ after).takeWhile Char.isDigit = digits := by
    obtain ⟨first, rest, rfl⟩ := List.exists_cons_of_ne_nil hafter
    rw [List.takeWhile_append_of_pos h.digits,
      List.takeWhile_cons_of_neg (by simp [h.after first rfl]), List.append_nil]
  have hlonger : digits.length ≠ (digits ++ after).length := by
    have hpos := List.length_pos_iff.mpr hafter
    rw [List.length_append]
    omega
  simp only [HighestFd.parseLine, hskip, htake, if_neg hlonger]

end NumberAt

/-! ## The descriptors -/

/-- The greatest open descriptor, and -1 if there is none. -/
structure IsHighest (isOpen : Nat → Bool) (fd : Int) : Prop where
  least : -1 ≤ fd
  opened : 0 ≤ fd → isOpen fd.toNat = true
  greatest : ∀ i, isOpen i = true → (i : Int) ≤ fd

theorem highestBelow_spec (isOpen : Nat → Bool) (n : Nat) :
    -1 ≤ highestBelow isOpen n ∧ highestBelow isOpen n < n ∧
      (0 ≤ highestBelow isOpen n → isOpen (highestBelow isOpen n).toNat = true) ∧
      ∀ i < n, isOpen i = true → (i : Int) ≤ highestBelow isOpen n := by
  induction n with
  | zero =>
    have hnone : highestBelow isOpen 0 = -1 := rfl
    rw [hnone]
    exact ⟨le_refl _, by omega, fun h => by omega, fun i hi => by omega⟩
  | succ fd ih =>
    obtain ⟨hleast, hlt, hopen, hgreatest⟩ := ih
    rw [highestBelow]
    split
    · rename_i hfd
      exact ⟨by omega, by omega, fun _ => hfd, fun i hi _ => by omega⟩
    · rename_i hfd
      refine ⟨hleast, by omega, hopen, fun i hi hi' => hgreatest i ?_ hi'⟩
      have hne : i ≠ fd := by
        rintro rfl
        exact hfd hi'
      omega

/-- The last loop finds it from every number that is not below it. -/
theorem isHighest_highestFrom_iff (isOpen : Nat → Bool) (fd : Int) :
    IsHighest isOpen (highestFrom isOpen fd) ↔
      -1 ≤ fd ∧ ∀ i, isOpen i = true → (i : Int) ≤ fd := by
  unfold highestFrom
  split
  · rename_i hneg
    constructor
    · rintro ⟨hleast, -, hgreatest⟩
      exact ⟨hleast, hgreatest⟩
    · rintro ⟨hleast, hgreatest⟩
      exact ⟨hleast, fun hpos => by omega, hgreatest⟩
  · rename_i hpos
    obtain ⟨hleast, hlt, hopen, hgreatest⟩ := highestBelow_spec isOpen (fd.toNat + 1)
    constructor
    · rintro ⟨-, -, hall⟩
      refine ⟨by omega, fun i hi => ?_⟩
      have hle := hall i hi
      omega
    · rintro ⟨-, hall⟩
      refine ⟨hleast, hopen, fun i hi => hgreatest i ?_ hi⟩
      have hle := hall i hi
      omega

/-- A number that is an `int` is read as what it is. -/
theorem atoi_digits {digits : List Char} (hne : digits ≠ [])
    (hdigits : ∀ ch ∈ digits, ch.isDigit = true) (hint : Nat.ofDigitChars 10 digits 0 < 2 ^ 31) :
    CommandLine.atoi (String.ofList digits) = Nat.ofDigitChars 10 digits 0 := by
  obtain ⟨first, rest, rfl⟩ := List.exists_cons_of_ne_nil hne
  have hfirst : first.isDigit = true := hdigits first List.mem_cons_self
  have hblank : CommandLine.isBlank first = false := by
    rw [← Bool.not_eq_true]
    intro hblank
    simp only [CommandLine.isBlank, Bool.or_eq_true, beq_iff_eq] at hblank
    have hvalue : 48 ≤ first.toNat := (Char.isDigit_iff_toNat.mp hfirst).1
    rcases hblank with ((((rfl | rfl) | rfl) | rfl) | hnat) | hnat
    all_goals first
      | omega
      | exact absurd hfirst (by decide)
  have htake : (first :: rest).takeWhile Char.isDigit = first :: rest :=
    List.takeWhile_eq_self_iff.mpr hdigits
  have hrange : (BitVec.ofInt 32 (Nat.ofDigitChars 10 (first :: rest) 0)).toInt =
      Nat.ofDigitChars 10 (first :: rest) 0 := by
    rw [BitVec.toInt_ofInt, Int.bmod_eq_of_le (by omega) (by omega)]
  rw [CommandLine.atoi, String.toList_ofList, List.dropWhile_cons_of_neg (by simp [hblank])]
  split
  · rename_i hdash
    cases hdash
    exact absurd hfirst (by decide)
  · rename_i hplus
    cases hplus
    exact absurd hfirst (by decide)
  · simp only [htake]
    rw [min_eq_right (by omega), hrange]

/-! ## The function -/

/-- The file has a line `FDSize:` with a number that ends within the first 511 bytes. -/
def HasLine (content : List Char) (number : Nat) : Prop :=
  ∃ before gap digits after, NumberAt content before gap digits after ∧
    (before = [] ∨ before.getLast? = some '\n') ∧ '\n' ∉ gap ∧
    before.length + 7 + gap.length + digits.length ≤ limit ∧ number = Nat.ofDigitChars 10 digits 0

/-- No zero stands before the first `FDSize:`, and the number behind it, as an `int`, is not below
the highest open descriptor. -/
def FirstReaches (content : List Char) (isOpen : Nat → Bool) : Prop :=
  ∃ before gap digits after, NumberAt content before gap digits after ∧
    Buffer.First fdSize content before ∧ nul ∉ before ∧
    -1 ≤ CommandLine.atoi (String.ofList digits) ∧
    ∀ i, isOpen i = true → (i : Int) ≤ CommandLine.atoi (String.ofList digits)

/-- What the function is for: the buffer is filled and never overrun, and the highest open
descriptor comes out. -/
structure FindsHighest (content : List Char) (reads : List Read) (isOpen : Nat → Bool) : Prop where
  line : readLoop content 0 emptyLine reads = .ok (filled content)
  result : ∃ fd, myHighestFd content reads isOpen = .ok fd ∧ IsHighest isOpen fd

theorem search_filled {content : List Char} {number : Nat} (hline : HasLine content number)
    {before gap digits after : List Char} (hnumber : NumberAt content before gap digits after)
    (hfirst : Buffer.First fdSize content before) (isOpen : Nat → Bool) :
    search isOpen (filled content) =
      if nul ∈ before then .error .assertion
      else .ok (highestFrom isOpen (CommandLine.atoi (String.ofList digits))) := by
  obtain ⟨before', gap', digits', after', hnumber', _, _, hend, _⟩ := hline
  have hle : before.length ≤ before'.length := hfirst.least before' ⟨_, hnumber'.text.symm⟩
  obtain ⟨rest, hrest, hfilled⟩ := hnumber.filled ((hnumber.end_mono hnumber' hle).trans hend)
  have hword : fdSize ≠ [] := by decide
  have hfind : Buffer.find nul fdSize (HighestFd.filled content) = _ :=
    Buffer.find_of_first hword (hfirst.congr ⟨_, hfilled.text.symm⟩)
  have hlength : (before ++ fdSize).length = before.length + 7 := List.length_append
  have hbehind : ((HighestFd.filled content).drop before.length).drop 7 = gap ++ (digits ++ rest) := by
    rw [List.drop_drop, ← hlength, hfilled.text, List.drop_left]
  rw [search, hfind]
  by_cases hzero : nul ∈ before
  · rw [if_pos hzero, if_pos hzero]
  · rw [if_neg hzero, if_neg hzero]
    simp only [hbehind, hfilled.parseLine hrest]

/-- The function does what it is for exactly if one call delivers everything and the first number
reaches the highest open descriptor. -/
theorem findsHighest_iff {content : List Char} {number : Nat} {reads : List Read}
    {isOpen : Nat → Bool} (hline : HasLine content number) (hreads : Read.failed ∉ reads) :
    FindsHighest content reads isOpen ↔ ReadAtOnce content reads ∧ FirstReaches content isOpen := by
  have hcontent : content ≠ [] := by
    obtain ⟨before, gap, digits, after, hnumber, _⟩ := hline
    rw [← List.length_pos_iff, hnumber.length_text]
    omega
  obtain ⟨hfilled, houtside⟩ := readLoop_first hcontent hreads
  constructor
  · rintro ⟨hloop, fd, hresult, hhighest⟩
    have hatOnce : ReadAtOnce content reads := by
      by_contra hnot
      rw [houtside hnot] at hloop
      cases hloop
    obtain ⟨before', gap', digits', after', hnumber', _⟩ := id hline
    obtain ⟨before, gap, digits, after, hnumber, hfirst, -⟩ := hnumber'.exists_first
    have hsearch := search_filled hline hnumber hfirst isOpen
    simp only [myHighestFd, hloop] at hresult
    rw [hresult] at hsearch
    split at hsearch
    · cases hsearch
    · rename_i hzero
      cases hsearch
      exact ⟨hatOnce, before, gap, digits, after, hnumber, hfirst, hzero,
        (isHighest_highestFrom_iff _ _).mp hhighest⟩
  · rintro ⟨hatOnce, before, gap, digits, after, hnumber, hfirst, hzero, hreaches⟩
    refine ⟨hfilled hatOnce, _, ?_, (isHighest_highestFrom_iff _ _).mpr hreaches⟩
    simp only [myHighestFd, hfilled hatOnce]
    rw [search_filled hline hnumber hfirst, if_neg hzero]

/-- In a status file that mentions `FDSize:` for the first time in front of its number, the number
reaches every open descriptor. -/
theorem firstReaches_of_exceeds {content before gap digits after : List Char}
    {isOpen : Nat → Bool} (hnumber : NumberAt content before gap digits after)
    (hfirst : Buffer.First fdSize content before) (hzero : nul ∉ before)
    (hint : Nat.ofDigitChars 10 digits 0 < 2 ^ 31)
    (hopen : ∀ i, isOpen i = true → i < Nat.ofDigitChars 10 digits 0) :
    FirstReaches content isOpen := by
  have hatoi := atoi_digits hnumber.ne hnumber.digits hint
  refine ⟨before, gap, digits, after, hnumber, hfirst, hzero, ?_, fun i hi => ?_⟩
  · omega
  · have hlt := hopen i hi
    omega

theorem FindsHighest.covers {content : List Char} {reads : List Read} {os : Os}
    (h : FindsHighest content reads fun fd => (os.fdFlags fd).isSome)
    (hos : myHighestFd content reads (fun fd => (os.fdFlags fd).isSome) =
      .ok os.myHighestFd.toInt) {fd : Nat} {flags : Word} (hfd : os.fdFlags fd = some flags) :
    (fd : Int) ≤ os.myHighestFd.toInt := by
  obtain ⟨fd', hresult, hhighest⟩ := h.result
  rw [hos] at hresult
  cases hresult
  exact hhighest.greatest fd (by rw [hfd]; rfl)

def statusFile : List Char := "Name:\toptrace\nFDSize:\t64\nGroups:\t0\n".toList

theorem statusFile_number :
    NumberAt statusFile "Name:\toptrace\n".toList ['\t'] ['6', '4'] "\nGroups:\t0\n".toList := by
  refine ⟨by decide, List.forall_mem_singleton.mpr (by decide), List.cons_ne_nil _ _, ?_, ?_⟩
  · exact List.forall_mem_cons.mpr ⟨by decide, List.forall_mem_singleton.mpr (by decide)⟩
  · intro ch hch
    cases hch
    decide

theorem statusFile_hasLine : HasLine statusFile 64 :=
  ⟨_, _, _, _, statusFile_number, by decide, by decide, by decide, by decide⟩

theorem statusFile_first : Buffer.First fdSize statusFile "Name:\toptrace\n".toList := by
  refine ⟨⟨_, statusFile_number.text.symm⟩, fun before hoccurs => ?_⟩
  have hearlier : ∀ k < 14, (statusFile.drop k).take 7 ≠ fdSize := by decide
  obtain ⟨rest, hrest⟩ := hoccurs
  by_contra hlt
  refine hearlier before.length (Nat.lt_of_not_le hlt) ?_
  rw [← hrest, List.append_assoc, List.drop_left]
  rfl

theorem findsHighest_iff_statusFile :
    FindsHighest statusFile [.interrupted, .atMost 600] fun fd => decide (fd < 3) := by
  have hatOnce : ReadAtOnce statusFile [.interrupted, .atMost 600] :=
    (by decide : min limit statusFile.length ≤ 600 + 1)
  refine (findsHighest_iff statusFile_hasLine (by decide)).mpr ⟨hatOnce, ?_⟩
  refine firstReaches_of_exceeds statusFile_number statusFile_first (by decide) (by decide) ?_
  intro i hi
  have hlt : i < 3 := of_decide_eq_true hi
  have hnumber : Nat.ofDigitChars 10 ['6', '4'] 0 = 64 := rfl
  omega

/-- The bytes behind the first chunk do not get into the buffer. -/
theorem not_findsHighest_chunks :
    HasLine statusFile 64 ∧ (∀ i, decide (i < 3) = true → i < 64) ∧
      ¬FindsHighest statusFile [.atMost 9, .interrupted, .atMost 600] fun fd => decide (fd < 3) := by
  refine ⟨statusFile_hasLine, fun i hi => ?_, fun h => ?_⟩
  · have hlt : i < 3 := of_decide_eq_true hi
    omega
  · have hpart : ¬ReadAtOnce statusFile [.atMost 9, .interrupted, .atMost 600] :=
      (by decide : ¬min limit statusFile.length ≤ 9 + 1)
    have hloop := h.line
    rw [(readLoop_first (by decide) (by decide)).2 hpart] at hloop
    cases hloop

end HighestFd

end Optrace
