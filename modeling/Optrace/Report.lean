import Optrace.Sizes
import Optrace.Lib.Fields
import Mathlib.Data.Finset.Sort
import Mathlib.Data.Nat.Log

/-!
# The report

`TContext::PrintReport`, and a reader of the log that reports in append mode make up. The
addresses of the `TProcInfo` objects are not settled by the source, and neither is the order in which the
set of them is gone through: both are given.
-/

namespace Optrace

set_option autoImplicit false

open Except Fields

/-- The files of a report, each with the address of its `TProcInfo`: one object at one address. -/
structure Listed where
  entries : List (OutputFile × Word)
  one : ∀ e ∈ entries, ∀ e' ∈ entries, e.2 = e'.2 → e.1.procInfo = e'.1.procInfo

/-- How an `unordered_set` of addresses is gone through. -/
structure SetOrder where
  visit : Finset Word → List Word
  nodup : ∀ s, (visit s).Nodup
  mem_iff : ∀ s a, a ∈ visit s ↔ a ∈ s

/-- The order of the numbers is one such order. -/
def SetOrder.ascending : SetOrder where
  visit s := ((s.image BitVec.toNat).sort (· ≤ ·)).map (BitVec.ofNat 64)
  nodup s := by
    refine List.Nodup.map_on (fun n hn m hm heq => ?_) (Finset.sort_nodup _ _)
    obtain ⟨a, -, rfl⟩ := Finset.mem_image.mp ((Finset.mem_sort _).mp hn)
    obtain ⟨b, -, rfl⟩ := Finset.mem_image.mp ((Finset.mem_sort _).mp hm)
    rwa [BitVec.ofNat_toNat, BitVec.ofNat_toNat, BitVec.setWidth_eq, BitVec.setWidth_eq,
      ← BitVec.toNat_inj] at heq
  mem_iff s a := by
    rw [List.mem_map]
    constructor
    · rintro ⟨n, hn, rfl⟩
      obtain ⟨b, hb, rfl⟩ := Finset.mem_image.mp ((Finset.mem_sort _).mp hn)
      rwa [BitVec.ofNat_toNat, BitVec.setWidth_eq]
    · intro ha
      exact ⟨a.toNat, (Finset.mem_sort _).mpr (Finset.mem_image_of_mem _ ha),
        by rw [BitVec.ofNat_toNat, BitVec.setWidth_eq]⟩

def blanks (n : Nat) : String := String.ofList (List.replicate n ' ')

/-- `std::setw` fills up on the left, and cuts nothing off. -/
def setw (width : Nat) (text : String) : String := blanks (width - text.length) ++ text

def maxSize (entries : List (OutputFile × Word)) : Word :=
  entries.foldl (fun max e => if max < e.1.size then e.1.size else max) 0

/-- The logarithm is taken as exact. -/
def padding (opts : Options) (entries : List (OutputFile × Word)) : Nat :=
  if opts.humanReadableSizes then 9
  else
    let max := maxSize entries
    if max ≠ 0 then Nat.log 10 max.toNat + 3 else 9

def sizeText (opts : Options) (size : Word) : Except Abort String :=
  if opts.humanReadableSizes then humanReadableSize size else .ok (toString size.toNat ++ "b")

/-- The width is for the number alone where the unit is printed after it. -/
def sizeColumn (opts : Options) (width : Nat) (size : Word) : Except Abort String :=
  if opts.humanReadableSizes then do return setw width (← humanReadableSize size)
  else .ok (setw width (toString size.toNat) ++ "b")

def dumpProcLegend (opts : Options) : Bool := opts.commandLengthLimit ≠ 0

def procMark (info : ProcInfo) (address : Word) : String :=
  toString info.pid ++ "|" ++ toString address.toNat

def entryLine (opts : Options) (width : Nat) (e : OutputFile × Word) : Except Abort String := do
  let size ← sizeColumn opts width e.1.size
  let mark := if dumpProcLegend opts then " (pid:" ++ procMark e.1.procInfo e.2 ++ ")" else ""
  return size ++ " " ++ e.1.filename ++ mark

def legendLine (info : ProcInfo) (address : Word) : String :=
  "  " ++ procMark info address ++ " (ppid:" ++ toString info.ppid ++ ") " ++ info.commandLine

namespace Listed

/-- `procInfoSet`. -/
def procInfoSet (listed : Listed) : Finset Word := (listed.entries.map Prod.snd).toFinset

/-- What an address of the set points to. -/
def infoAt (listed : Listed) (address : Word) : Option ProcInfo :=
  (listed.entries.find? fun e => e.2 = address).map fun e => e.1.procInfo

end Listed

def headerLines (opts : Options) (listed : Listed) : List String :=
  if listed.entries = [] then []
  else if 0 < opts.filesInReport then
    ["Output tracer summary report (limit: " ++ toString opts.filesInReport ++ ")"]
  else ["Output tracer summary report"]

def legendLines (order : SetOrder) (opts : Options) (listed : Listed) : List String :=
  if dumpProcLegend opts ∧ listed.entries ≠ [] then
    "Proc legend:" :: (order.visit listed.procInfoSet).filterMap fun address =>
      (listed.infoAt address).map fun info => legendLine info address
  else []

/-- The lines of a report; `std::endl` ends each of them. -/
def reportLines (order : SetOrder) (opts : Options) (listed : Listed) (outputSize : Word) :
    Except Abort (List String) := do
  let rows ← listed.entries.mapM (entryLine opts (padding opts listed.entries))
  let total ← sizeText opts outputSize
  return headerLines opts listed ++ rows ++ legendLines order opts listed ++ ["Total output: " ++ total]

def printReport (order : SetOrder) (opts : Options) (listed : Listed) (outputSize : Word) :
    Except Abort String := do
  return String.join ((← reportLines order opts listed outputSize).map (· ++ "\n"))

/-! ## Reading -/

/-- A line about a file. -/
structure Row where
  size : String
  filename : String
  proc : Option (Pid × Nat)
  deriving DecidableEq

/-- A line about a process. -/
structure Legend where
  pid : Pid
  address : Nat
  ppid : Pid
  commandLine : String
  deriving DecidableEq

structure Summary where
  limit : Option Int
  rows : List Row
  legend : List Legend
  total : String
  deriving DecidableEq

abbrev Line := List Char

/-- Where the reader is within a report. -/
inductive ReaderPhase where
  | between
  | rows (limit : Option Int) (lines : List Line)
  | legend (limit : Option Int) (rows : List Row) (legend : List Legend)

structure LogState where
  done : List Summary
  phase : ReaderPhase

def readMark (text : Line) : Option (Pid × Nat) := do
  let (pid, address) ← cut '|' text
  return (← readInt pid, ← readNat address)

/-- The size is the first word, and one blank follows it. -/
def readPlainRow (line : Line) : Option Row := do
  let (size, filename) ← cut ' ' (line.dropWhile fun ch => ch = ' ')
  return ⟨String.ofList size, String.ofList filename, none⟩

/-- The mark is the last word, whatever stands in the name. -/
def readMarkedRow (line : Line) : Option Row := do
  let (front, last) ← cutLast ' ' line
  let (_, mark) ← cut ':' last
  let (mark, _) ← cutLast ')' mark
  let row ← readPlainRow front
  return { row with proc := some (← readMark mark) }

def readLegend (line : Line) : Option Legend := do
  let (mark, rest) ← cut ' ' (line.dropWhile fun ch => ch = ' ')
  let (pid, address) ← readMark mark
  let (parent, commandLine) ← cut ' ' rest
  let (_, ppid) ← cut ':' parent
  let (ppid, _) ← cut ')' ppid
  return ⟨pid, address, ← readInt ppid, String.ofList commandLine⟩

def readHeader (line : Line) : Option (Option Int) :=
  match cut ':' line with
  | none => some none
  | some (_, limit) => do
    let (limit, _) ← cut ')' (limit.drop 1)
    return some (← readInt limit)

def readTotal (line : Line) : Option String := do
  let (_, total) ← cut ':' line
  return String.ofList (total.drop 1)

/-- One line of a log. What a line is about shows in its first character. -/
def readLine (s : LogState) (line : Line) : Option LogState :=
  match s.phase, line.head? with
  | .between, some 'O' => do return ⟨s.done, .rows (← readHeader line) []⟩
  | .between, some 'T' => do return ⟨s.done ++ [⟨none, [], [], ← readTotal line⟩], .between⟩
  | .rows limit lines, some ' ' => some ⟨s.done, .rows limit (lines ++ [line])⟩
  | .rows limit lines, some 'P' => do
    return ⟨s.done, .legend limit (← lines.mapM readMarkedRow) []⟩
  | .rows limit lines, some 'T' => do
    return ⟨s.done ++ [⟨limit, ← lines.mapM readPlainRow, [], ← readTotal line⟩], .between⟩
  | .legend limit rows legend, some ' ' => do
    return ⟨s.done, .legend limit rows (legend ++ [← readLegend line])⟩
  | .legend limit rows legend, some 'T' => do
    return ⟨s.done ++ [⟨limit, rows, legend, ← readTotal line⟩], .between⟩
  | _, _ => none

/-- The state of the reader after a text. -/
def readText (text : String) (s : LogState) : Option LogState :=
  (lines '\n' text.toList).foldlM readLine s

/-- The reports in a log, none of them cut off. -/
def readLog (text : String) : Option (List Summary) :=
  if Ended '\n' text.toList then do
    let s ← readText text ⟨[], .between⟩
    match s.phase with
    | .between => return s.done
    | _ => none
  else none

/-! ## What a report shows -/

structure RowOf (opts : Options) (e : OutputFile × Word) (row : Row) : Prop where
  size : sizeText opts e.1.size = .ok row.size
  filename : row.filename = e.1.filename
  proc : row.proc = if dumpProcLegend opts then some (e.1.procInfo.pid, e.2.toNat) else none

def legendOf (e : OutputFile × Word) : Legend :=
  ⟨e.1.procInfo.pid, e.2.toNat, e.1.procInfo.ppid, e.1.procInfo.commandLine⟩

/-- The rows are the files in their order, and the legend has each of their processes once. -/
structure Shows (opts : Options) (listed : Listed) (outputSize : Word) (d : Summary) : Prop where
  limit : d.limit =
    if listed.entries = [] ∨ opts.filesInReport ≤ 0 then none else some opts.filesInReport
  rows : List.Forall₂ (RowOf opts) listed.entries d.rows
  nodup : (d.legend.map Legend.address).Nodup
  legend : ∀ l, l ∈ d.legend ↔ dumpProcLegend opts = true ∧ ∃ e ∈ listed.entries, l = legendOf e
  total : sizeText opts outputSize = .ok d.total

/-- Neither a name nor a command line that is printed goes over more than one line. -/
def OneLine (opts : Options) (listed : Listed) : Prop :=
  ∀ e ∈ listed.entries, '\n' ∉ e.1.filename.toList ∧
    (dumpProcLegend opts = true → '\n' ∉ e.1.procInfo.commandLine.toList)

/-! ## Sizes and marks -/

theorem toString_nat_chars {n : Nat} {ch : Char} (h : ch ∈ (toString n).toList) : ch.isDigit = true := by
  rw [Nat.toString_eq_repr, Nat.toList_repr] at h
  exact Nat.isDigit_of_mem_toDigits (by decide) (by decide) h

theorem toString_nat_ne_nil (n : Nat) : (toString n).toList ≠ [] := by
  rw [Nat.toString_eq_repr, Nat.toList_repr]
  exact Nat.toDigits_ne_nil

/-- No blank and no end of line in it. -/
def Solid (text : List Char) : Prop := text ≠ [] ∧ ∀ ch ∈ text, ch ≠ ' ' ∧ ch ≠ '\n'

theorem solid_number (n : Nat) (rest : List Char) (hrest : ∀ ch ∈ rest, ch ≠ ' ' ∧ ch ≠ '\n') :
    Solid ((toString n).toList ++ rest) := by
  refine ⟨fun h => toString_nat_ne_nil n (List.append_eq_nil_iff.mp h).1, fun ch hch => ?_⟩
  rcases List.mem_append.mp hch with hch | hch
  · have hdigit := toString_nat_chars hch
    constructor
    · rintro rfl
      exact absurd hdigit (by decide)
    · rintro rfl
      exact absurd hdigit (by decide)
  · exact hrest ch hch

theorem solid_of_all {text : List Char}
    (h : text.all (fun ch => ch != ' ' && ch != '\n') = true) :
    ∀ ch ∈ text, ch ≠ ' ' ∧ ch ≠ '\n' := by
  simpa using h

theorem suffix_solid {k : Nat} {suffix : String} (h : suffixes[k]? = some suffix) :
    ∀ ch ∈ suffix.toList, ch ≠ ' ' ∧ ch ≠ '\n' := by
  match k, h with
  | 0, rfl | 1, rfl | 2, rfl | 3, rfl | 4, rfl => exact solid_of_all (by decide)

theorem humanReadableSize_solid {size : Word} {text : String} (h : humanReadableSize size = .ok text) :
    Solid text.toList ∧ text.length ≤ 7 := by
  by_cases hsize : size = 0
  · rw [humanReadableSize, if_pos hsize] at h
    cases h
    exact ⟨⟨by decide, solid_of_all (by decide)⟩, by decide⟩
  · rw [humanReadableSize_eq hsize] at h
    obtain ⟨suffix, hsuffix, h⟩ := bind_eq_ok_iff.mp h
    obtain ⟨hlength, rfl⟩ := sprintfBuff_ok_iff.mp h
    have hsolid := suffix_solid (suffixAt_ok_iff.mp hsuffix)
    refine ⟨?_, hlength⟩
    rw [String.toList_append, printed]
    split
    · exact solid_number _ _ hsolid
    · rw [Decimal.oneDecimal, String.toList_append, String.toList_append, List.append_assoc,
        List.append_assoc]
      refine solid_number _ _ fun ch hch => ?_
      rcases List.mem_append.mp hch with hch | hch
      · rw [List.mem_singleton.mp hch]
        decide
      · exact (solid_number _ _ hsolid).2 ch hch

theorem sizeText_solid {opts : Options} {size : Word} {text : String}
    (h : sizeText opts size = .ok text) : Solid text.toList := by
  unfold sizeText at h
  split at h
  · exact (humanReadableSize_solid h).1
  · cases h
    rw [String.toList_append]
    exact solid_number _ _ (solid_of_all (by decide))

theorem le_maxSize {entries : List (OutputFile × Word)} {e : OutputFile × Word} (h : e ∈ entries) :
    e.1.size ≤ maxSize entries := by
  have hgrows : ∀ (entries : List (OutputFile × Word)) (max : Word),
      max ≤ entries.foldl (fun max e => if max < e.1.size then e.1.size else max) max ∧
        ∀ e ∈ entries,
          e.1.size ≤ entries.foldl (fun max e => if max < e.1.size then e.1.size else max) max := by
    intro entries
    induction entries with
    | nil => exact fun max => ⟨BitVec.le_refl max, by simp⟩
    | cons e entries ih =>
      intro max
      obtain ⟨hle, hall⟩ := ih (if max < e.1.size then e.1.size else max)
      have hboth : max ≤ (if max < e.1.size then e.1.size else max) ∧
          e.1.size ≤ (if max < e.1.size then e.1.size else max) := by
        split
        · rename_i hlt
          exact ⟨BitVec.le_of_lt hlt, BitVec.le_refl _⟩
        · rename_i hge
          exact ⟨BitVec.le_refl _, BitVec.not_lt.mp hge⟩
      refine ⟨BitVec.le_trans hboth.1 hle, fun f hf => ?_⟩
      rcases List.mem_cons.mp hf with rfl | hf
      · exact BitVec.le_trans hboth.2 hle
      · exact hall f hf
  exact (hgrows entries 0).2 e h

/-- Every size is narrower than its column. -/
theorem length_lt_padding {opts : Options} {entries : List (OutputFile × Word)}
    {e : OutputFile × Word} (he : e ∈ entries) (hplain : opts.humanReadableSizes = false) :
    (toString e.1.size.toNat).length + 2 ≤ padding opts entries := by
  have hle : e.1.size.toNat ≤ (maxSize entries).toNat := BitVec.le_def.mp (le_maxSize he)
  unfold padding
  rw [hplain, if_neg Bool.false_ne_true]
  simp only
  split
  · have hlt : (maxSize entries).toNat < 10 ^ (Nat.log 10 (maxSize entries).toNat + 1) :=
      Nat.lt_pow_succ_log_self (by decide) _
    have hlength : (toString e.1.size.toNat).length ≤ Nat.log 10 (maxSize entries).toNat + 1 := by
      rw [Nat.toString_eq_repr, Nat.length_repr_le_iff (by omega)]
      omega
    omega
  · rename_i hzero
    have hmax : maxSize entries = 0 := not_not.mp hzero
    have hsize : e.1.size.toNat = 0 := by
      rw [hmax] at hle
      exact Nat.le_zero.mp hle
    rw [hsize]
    decide

/-- How wide the sizes of a report are printed, their units included. -/
def columnWidth (opts : Options) (entries : List (OutputFile × Word)) : Nat :=
  padding opts entries + if opts.humanReadableSizes then 0 else 1

/-- A size in its column: right-aligned, with two blanks or more before it. -/
theorem sizeColumn_eq {opts : Options} {entries : List (OutputFile × Word)} {e : OutputFile × Word}
    (he : e ∈ entries) {column : String}
    (h : sizeColumn opts (padding opts entries) e.1.size = .ok column) :
    ∃ n text, sizeText opts e.1.size = .ok text ∧ column = blanks (n + 2) ++ text ∧
      n + 2 + text.length = columnWidth opts entries := by
  unfold sizeColumn at h
  unfold sizeText columnWidth
  cases hhuman : opts.humanReadableSizes with
  | true =>
    rw [hhuman, if_pos rfl] at h
    obtain ⟨text, htext, h⟩ := bind_eq_ok_iff.mp h
    have hlength := (humanReadableSize_solid htext).2
    have hwidth : padding opts entries = 9 := by rw [padding, hhuman, if_pos rfl]
    rw [pure_eq_ok_iff, setw, hwidth] at h
    refine ⟨7 - text.length, text, by rw [if_pos rfl, htext], ?_, ?_⟩
    · rw [← h]
      congr 2
      omega
    · rw [hwidth, if_pos rfl]
      omega
  | false =>
    rw [hhuman, if_neg Bool.false_ne_true] at h
    have hcolumn := Except.ok.inj h
    have hlength := length_lt_padding he hhuman
    refine ⟨padding opts entries - (toString e.1.size.toNat).length - 2, _,
      by rw [if_neg Bool.false_ne_true], ?_, ?_⟩
    · rw [← hcolumn, setw, String.append_assoc]
      congr 2
      omega
    · have hunit : (toString e.1.size.toNat ++ "b").length = (toString e.1.size.toNat).length + 1 := by
        rw [String.length_append]
        rfl
      rw [hunit, if_neg Bool.false_ne_true]
      omega

/-- The sizes of a report end in the same column. -/
theorem entryLine_aligned {opts : Options} {entries : List (OutputFile × Word)}
    {e : OutputFile × Word} (he : e ∈ entries) {line : String}
    (h : entryLine opts (padding opts entries) e = .ok line) :
    ∃ column text rest, line = column ++ text ++ " " ++ e.1.filename ++ rest ∧
      sizeText opts e.1.size = .ok text ∧
      (column ++ text).length = columnWidth opts entries := by
  obtain ⟨column, hcolumn, h⟩ := bind_eq_ok_iff.mp h
  obtain ⟨n, text, htext, rfl, hwidth⟩ := sizeColumn_eq he hcolumn
  rw [pure_eq_ok_iff] at h
  refine ⟨blanks (n + 2), text, _, h.symm, htext, ?_⟩
  rw [String.length_append, ← hwidth]
  simp [blanks]

/-! ## Reading a line back -/

section

variable {opts : Options} {e : OutputFile × Word} {size : String}

theorem readPlainRow_append (n : Nat) (hsize : Solid size.toList) (name : List Char) :
    readPlainRow (List.replicate n ' ' ++ (size.toList ++ ' ' :: name)) =
      some ⟨size, String.ofList name, none⟩ := by
  have hhead : (size.toList ++ ' ' :: name).head? ≠ some ' ' := by
    obtain ⟨hne, hchars⟩ := hsize
    cases hlist : size.toList with
    | nil => exact absurd hlist hne
    | cons ch rest =>
      rw [List.cons_append, List.head?_cons]
      intro heq
      exact (hchars ch (hlist ▸ List.mem_cons_self)).1 (Option.some.inj heq)
  have hblank : ' ' ∉ size.toList := fun hmem => (hsize.2 ' ' hmem).1 rfl
  rw [readPlainRow, dropWhile_replicate n hhead, cut_append hblank]
  simp

theorem procMark_chars (info : ProcInfo) (address : Word) {ch : Char}
    (h : ch ∈ (procMark info address).toList) : ch.isDigit = true ∨ ch = '-' ∨ ch = '|' := by
  rw [procMark, String.toList_append, String.toList_append, List.mem_append, List.mem_append] at h
  rcases h with (h | h) | h
  · exact (toString_chars _ h).imp id Or.inl
  · exact Or.inr (Or.inr (List.mem_singleton.mp h))
  · exact Or.inl (toString_nat_chars h)

theorem readMark_procMark (info : ProcInfo) (address : Word) :
    readMark (procMark info address).toList = some (info.pid, address.toNat) := by
  have hbar : '|' ∉ (toString info.pid).toList := fun h => absurd (toString_chars _ h) (by decide)
  have htext : (procMark info address).toList =
      (toString info.pid).toList ++ '|' :: (toString address.toNat).toList := by
    simp [procMark]
  rw [readMark, htext, cut_append hbar]
  simp only [Option.bind_eq_bind, Option.bind_some, readInt_toString, readNat_toString]
  rfl

theorem readMarkedRow_append (n : Nat) (hsize : Solid size.toList) (name : List Char)
    (info : ProcInfo) (address : Word) :
    readMarkedRow (List.replicate n ' ' ++ (size.toList ++ ' ' :: name) ++
        (" (pid:" ++ procMark info address ++ ")").toList) =
      some ⟨size, String.ofList name, some (info.pid, address.toNat)⟩ := by
  have hsolid : ∀ ch : Char, ch.isDigit = false → ch ≠ '-' → ch ≠ '|' →
      ch ∉ (procMark info address).toList := by
    intro ch hdigit hdash hbar hmem
    rcases procMark_chars info address hmem with h | h | h
    · rw [hdigit] at h
      cases h
    · exact hdash h
    · exact hbar h
  have hlast : ' ' ∉ "(pid:".toList ++ (procMark info address).toList ++ [')'] := by
    rw [List.append_assoc, List.mem_append, List.mem_append]
    exact not_or.mpr ⟨by decide, not_or.mpr ⟨hsolid ' ' rfl (by decide) (by decide), by decide⟩⟩
  have hline : (" (pid:" ++ procMark info address ++ ")").toList =
      ' ' :: ("(pid:".toList ++ (procMark info address).toList ++ [')']) := by
    simp
  have hcolon : "(pid:".toList ++ (procMark info address).toList ++ [')'] =
      "(pid".toList ++ ':' :: ((procMark info address).toList ++ ')' :: []) := by
    simp
  rw [readMarkedRow, hline, cutLast_append _ hlast]
  simp only [Option.bind_eq_bind, Option.bind_some]
  rw [hcolon, cut_append (by decide)]
  simp only [Option.bind_some]
  rw [cutLast_append _ (by simp), readPlainRow_append n hsize]
  simp only [Option.bind_some]
  rw [readMark_procMark]
  rfl

theorem readLegend_legendLine (info : ProcInfo) (address : Word) :
    readLegend (legendLine info address).toList =
      some ⟨info.pid, address.toNat, info.ppid, info.commandLine⟩ := by
  have hmark : ' ' ∉ (procMark info address).toList := by
    intro hmem
    exact absurd (procMark_chars info address hmem) (by decide)
  have hhead : ((procMark info address).toList ++ ' ' :: ("(ppid:".toList ++
      (toString info.ppid).toList ++ [')'] ++ ' ' :: info.commandLine.toList)).head? ≠ some ' ' := by
    cases hlist : (procMark info address).toList with
    | nil =>
      have hempty := congrArg List.length hlist
      simp [procMark] at hempty
    | cons ch rest =>
      rw [List.cons_append, List.head?_cons]
      intro heq
      exact hmark (hlist ▸ Option.some.inj heq ▸ List.mem_cons_self)
  have hline : (legendLine info address).toList = List.replicate 2 ' ' ++
      ((procMark info address).toList ++ ' ' :: ("(ppid:".toList ++
        (toString info.ppid).toList ++ [')'] ++ ' ' :: info.commandLine.toList)) := by
    simp [legendLine, List.replicate]
  have hparent : ' ' ∉ "(ppid:".toList ++ (toString info.ppid).toList ++ [')'] := by
    rw [List.append_assoc, List.mem_append, List.mem_append]
    refine not_or.mpr ⟨by decide, not_or.mpr ⟨fun h => ?_, by decide⟩⟩
    exact absurd (toString_chars _ h) (by decide)
  have hcolon : "(ppid:".toList ++ (toString info.ppid).toList ++ [')'] =
      "(ppid".toList ++ ':' :: ((toString info.ppid).toList ++ ')' :: []) := by
    simp
  have hclose : ')' ∉ (toString info.ppid).toList := fun h =>
    absurd (toString_chars _ h) (by decide)
  rw [readLegend, hline, dropWhile_replicate 2 hhead, cut_append hmark]
  simp only [Option.bind_eq_bind, Option.bind_some, readMark_procMark]
  rw [cut_append hparent]
  simp only [Option.bind_some]
  rw [hcolon, cut_append (by decide)]
  simp only [Option.bind_some]
  rw [cut_append hclose]
  simp only [Option.bind_some, readInt_toString, String.ofList_toList]
  rfl

theorem readTotal_append (total : String) :
    readTotal ("Total output: " ++ total).toList = some total := by
  have hline : ("Total output: " ++ total).toList =
      "Total output".toList ++ ':' :: (' ' :: total.toList) := by
    simp
  rw [readTotal, hline, cut_append (by decide)]
  simp

theorem readHeader_limit (n : Int) :
    readHeader ("Output tracer summary report (limit: " ++ toString n ++ ")").toList = some (some n) := by
  have hline : ("Output tracer summary report (limit: " ++ toString n ++ ")").toList =
      "Output tracer summary report (limit".toList ++ ':' :: (' ' :: ((toString n).toList ++ ')' :: [])) := by
    simp
  have hclose : ')' ∉ (toString n).toList := fun h => absurd (toString_chars _ h) (by decide)
  rw [readHeader, hline, cut_append (by decide)]
  simp only [List.drop_one, List.tail_cons]
  rw [cut_append hclose]
  simp only [Option.bind_eq_bind, Option.bind_some, readInt_toString]
  rfl

end

/-! ## Reading a report back -/

theorem mapM_ok_iff {α β ε : Type} {f : α → Except ε β} {as : List α} {bs : List β} :
    as.mapM f = .ok bs ↔ List.Forall₂ (fun a b => f a = .ok b) as bs := by
  induction as generalizing bs with
  | nil =>
    rw [List.mapM_nil, pure_eq_ok_iff, List.forall₂_nil_left_iff, eq_comm]
  | cons a as ih =>
    rw [List.mapM_cons, bind_eq_ok_iff, List.forall₂_cons_left_iff]
    constructor
    · rintro ⟨b, hb, hrest⟩
      obtain ⟨bs', hbs, hrest⟩ := bind_eq_ok_iff.mp hrest
      rw [pure_eq_ok_iff] at hrest
      exact ⟨b, bs', hb, ih.mp hbs, hrest.symm⟩
    · rintro ⟨b, bs', hb, hbs, rfl⟩
      exact ⟨b, hb, bind_eq_ok_iff.mpr ⟨bs', ih.mpr hbs, rfl⟩⟩

theorem mapM_some {α β : Type} {f : α → Option β} {as : List α} {bs : List β}
    (h : List.Forall₂ (fun a b => f a = some b) as bs) : as.mapM f = some bs := by
  induction h with
  | nil => rfl
  | cons hab _ ih =>
    rw [List.mapM_cons, hab]
    simp only [Option.bind_eq_bind, Option.bind_some, ih]
    rfl

/-- A line about a file, and what is read from it. -/
structure RowLine (opts : Options) (e : OutputFile × Word) (line : Line) (row : Row) : Prop where
  rowOf : RowOf opts e row
  head : line.head? = some ' '
  reads : (if dumpProcLegend opts then readMarkedRow line else readPlainRow line) = some row

theorem entryLine_rowLine {opts : Options} {entries : List (OutputFile × Word)}
    {e : OutputFile × Word} (he : e ∈ entries) {line : String}
    (h : entryLine opts (padding opts entries) e = .ok line) :
    (∃ row, RowLine opts e line.toList row) ∧
      ('\n' ∉ e.1.filename.toList → '\n' ∉ line.toList) := by
  obtain ⟨column, hcolumn, h⟩ := bind_eq_ok_iff.mp h
  obtain ⟨n, size, hsize, rfl, -⟩ := sizeColumn_eq he hcolumn
  have hsolid := sizeText_solid hsize
  rw [pure_eq_ok_iff] at h
  have hfront : (blanks (n + 2) ++ size ++ " " ++ e.1.filename).toList =
      List.replicate (n + 2) ' ' ++ (size.toList ++ ' ' :: e.1.filename.toList) := by
    simp [blanks]
  have hfrontEnd : '\n' ∉ e.1.filename.toList →
      '\n' ∉ List.replicate (n + 2) ' ' ++ (size.toList ++ ' ' :: e.1.filename.toList) := by
    intro hname hmem
    rw [List.mem_append, List.mem_append, List.mem_cons] at hmem
    rcases hmem with hmem | hmem | hmem | hmem
    · exact absurd (List.eq_of_mem_replicate hmem) (by decide)
    · exact (hsolid.2 _ hmem).2 rfl
    · exact absurd hmem (by decide)
    · exact hname hmem
  cases hdump : dumpProcLegend opts with
  | true =>
    rw [hdump, if_pos rfl] at h
    have hline : line.toList =
        List.replicate (n + 2) ' ' ++ (size.toList ++ ' ' :: e.1.filename.toList) ++
          (" (pid:" ++ procMark e.1.procInfo e.2 ++ ")").toList := by
      rw [← h, String.toList_append, hfront]
    refine ⟨⟨⟨size, e.1.filename, some (e.1.procInfo.pid, e.2.toNat)⟩, ⟨hsize, rfl, ?_⟩, ?_, ?_⟩, ?_⟩
    · rw [hdump, if_pos rfl]
    · rw [hline]
      rfl
    · rw [hdump, if_pos rfl, hline, readMarkedRow_append _ hsolid, String.ofList_toList]
    · intro hname hmem
      rw [hline, List.mem_append] at hmem
      rcases hmem with hmem | hmem
      · exact hfrontEnd hname hmem
      · rw [String.toList_append, String.toList_append, List.mem_append, List.mem_append] at hmem
        rcases hmem with (hmem | hmem) | hmem
        · exact absurd hmem (by decide)
        · exact absurd (procMark_chars _ _ hmem) (by decide)
        · exact absurd hmem (by decide)
  | false =>
    rw [hdump, if_neg Bool.false_ne_true, String.append_empty] at h
    have hline := hfront
    rw [h] at hline
    refine ⟨⟨⟨size, e.1.filename, none⟩, ⟨hsize, rfl, ?_⟩, ?_, ?_⟩, ?_⟩
    · rw [hdump, if_neg Bool.false_ne_true]
    · rw [hline]
      rfl
    · rw [hdump, if_neg Bool.false_ne_true, hline, readPlainRow_append _ hsolid, String.ofList_toList]
    · rw [hline]
      exact hfrontEnd

theorem readLine_rows (done : List Summary) (limit : Option Int) (before ls : List Line)
    (h : ∀ l ∈ ls, l.head? = some ' ') :
    ls.foldlM readLine ⟨done, .rows limit before⟩ = some ⟨done, .rows limit (before ++ ls)⟩ := by
  induction ls generalizing before with
  | nil => simp
  | cons l ls ih =>
    have hl := h l List.mem_cons_self
    have hrest := ih (before ++ [l]) fun l' hl' => h l' (List.mem_cons_of_mem _ hl')
    rw [List.foldlM_cons]
    simp only [readLine, hl, Option.bind_eq_bind, Option.bind_some, hrest, List.append_assoc,
      List.singleton_append]

theorem readLine_legend (done : List Summary) (limit : Option Int) (rows : List Row)
    (before legends : List Legend) (ls : List Line) (hhead : ∀ l ∈ ls, l.head? = some ' ')
    (h : List.Forall₂ (fun l legend => readLegend l = some legend) ls legends) :
    ls.foldlM readLine ⟨done, .legend limit rows before⟩ =
      some ⟨done, .legend limit rows (before ++ legends)⟩ := by
  induction h generalizing before with
  | nil => simp
  | @cons l legend ls legends hl _ ih =>
    have hhead' := hhead l List.mem_cons_self
    have hrest := ih (before ++ [legend]) fun l' hl' => hhead l' (List.mem_cons_of_mem _ hl')
    rw [List.foldlM_cons]
    simp only [readLine, hhead', hl, Option.bind_eq_bind, Option.bind_some, Option.pure_def, hrest,
      List.append_assoc, List.singleton_append]

/-! ## The legend -/

namespace Listed

theorem infoAt_of_mem (listed : Listed) {e : OutputFile × Word} (he : e ∈ listed.entries) :
    listed.infoAt e.2 = some e.1.procInfo := by
  unfold infoAt
  cases hfind : listed.entries.find? fun f => f.2 = e.2 with
  | none => exact absurd (List.find?_eq_none.mp hfind e he) (by simp)
  | some f =>
    have hsame : f.2 = e.2 := by simpa using List.find?_some hfind
    rw [Option.map_some, listed.one f (List.mem_of_find?_eq_some hfind) e he hsame]

theorem mem_procInfoSet (listed : Listed) (address : Word) :
    address ∈ listed.procInfoSet ↔ ∃ e ∈ listed.entries, e.2 = address := by
  rw [procInfoSet, List.mem_toFinset, List.mem_map]

/-- The legend as data, in the order of the set. -/
def legend (order : SetOrder) (listed : Listed) : List Legend :=
  (order.visit listed.procInfoSet).filterMap fun address =>
    (listed.infoAt address).map fun info => ⟨info.pid, address.toNat, info.ppid, info.commandLine⟩

theorem mem_legend (order : SetOrder) (listed : Listed) (l : Legend) :
    l ∈ listed.legend order ↔ ∃ e ∈ listed.entries, l = legendOf e := by
  rw [legend, List.mem_filterMap]
  constructor
  · rintro ⟨address, haddress, hl⟩
    obtain ⟨e, he, rfl⟩ := (listed.mem_procInfoSet address).mp ((order.mem_iff _ _).mp haddress)
    rw [listed.infoAt_of_mem he] at hl
    cases hl
    exact ⟨e, he, rfl⟩
  · rintro ⟨e, he, rfl⟩
    exact ⟨e.2, (order.mem_iff _ _).mpr ((listed.mem_procInfoSet _).mpr ⟨e, he, rfl⟩),
      by rw [listed.infoAt_of_mem he]; rfl⟩

theorem nodup_legend (order : SetOrder) (listed : Listed) :
    ((listed.legend order).map Legend.address).Nodup := by
  have hmap : (listed.legend order).map Legend.address =
      (order.visit listed.procInfoSet).filterMap fun address =>
        (listed.infoAt address).map fun _ => address.toNat := by
    rw [legend, List.map_filterMap]
    congr 1
    funext address
    cases listed.infoAt address <;> rfl
  rw [hmap]
  refine List.Nodup.filterMap (fun a a' b hb hb' => ?_) (order.nodup _)
  cases ha : listed.infoAt a with
  | none =>
    rw [ha] at hb
    cases hb
  | some info =>
    cases ha' : listed.infoAt a' with
    | none =>
      rw [ha'] at hb'
      cases hb'
    | some info' =>
      rw [ha] at hb
      rw [ha'] at hb'
      exact BitVec.eq_of_toNat_eq ((Option.some.inj hb).trans (Option.some.inj hb').symm)

theorem legendLines_read (order : SetOrder) (listed : Listed) :
    List.Forall₂ (fun line l => readLegend line = some l)
      (((order.visit listed.procInfoSet).filterMap fun address =>
        (listed.infoAt address).map fun info => legendLine info address).map String.toList)
      (listed.legend order) := by
  unfold legend
  induction order.visit listed.procInfoSet with
  | nil => exact .nil
  | cons address addresses ih =>
    cases hinfo : listed.infoAt address with
    | none => simpa [hinfo] using ih
    | some info =>
      simp only [List.filterMap_cons, hinfo, Option.map_some, List.map_cons]
      exact .cons (readLegend_legendLine info address) ih

end Listed

/-! ## The log -/

/-- A report and everything that goes into it. -/
structure Printing where
  order : SetOrder
  opts : Options
  listed : Listed
  outputSize : Word
  oneLine : OneLine opts listed

def Printing.lines (p : Printing) : Except Abort (List String) :=
  reportLines p.order p.opts p.listed p.outputSize

def Printing.print (p : Printing) : Except Abort String :=
  printReport p.order p.opts p.listed p.outputSize

def Printing.Shows (p : Printing) (d : Summary) : Prop := Optrace.Shows p.opts p.listed p.outputSize d

theorem Printing.print_ok_iff {p : Printing} {text : String} :
    p.print = .ok text ↔ ∃ ls, p.lines = .ok ls ∧ text = String.join (ls.map (· ++ "\n")) := by
  rw [Printing.print, printReport, bind_eq_ok_iff]
  constructor
  · rintro ⟨ls, hls, h⟩
    exact ⟨ls, hls, (pure_eq_ok_iff.mp h).symm⟩
  · rintro ⟨ls, hls, rfl⟩
    exact ⟨ls, hls, rfl⟩

theorem Printing.lines_ok {p : Printing} {ls : List String} (h : p.lines = .ok ls) :
    ∃ rows total, List.Forall₂ (fun e line =>
        entryLine p.opts (padding p.opts p.listed.entries) e = .ok line) p.listed.entries rows ∧
      sizeText p.opts p.outputSize = .ok total ∧
      ls = headerLines p.opts p.listed ++ rows ++ legendLines p.order p.opts p.listed ++
        ["Total output: " ++ total] := by
  obtain ⟨rows, hrows, h⟩ := bind_eq_ok_iff.mp h
  obtain ⟨total, htotal, h⟩ := bind_eq_ok_iff.mp h
  exact ⟨rows, total, mapM_ok_iff.mp hrows, htotal, (pure_eq_ok_iff.mp h).symm⟩

theorem rowLines {opts : Options} {all entries : List (OutputFile × Word)} {rows : List String}
    (hsub : ∀ e ∈ entries, e ∈ all) (hone : ∀ e ∈ entries, '\n' ∉ e.1.filename.toList)
    (h : List.Forall₂ (fun e line => entryLine opts (padding opts all) e = .ok line) entries rows) :
    (∃ data, List.Forall₂ (RowOf opts) entries data ∧
      List.Forall₂ (fun line row =>
        (if dumpProcLegend opts then readMarkedRow line else readPlainRow line) = some row)
        (rows.map String.toList) data) ∧
    ∀ line ∈ rows.map String.toList, line.head? = some ' ' ∧ '\n' ∉ line := by
  induction h with
  | nil => exact ⟨⟨[], .nil, .nil⟩, by simp⟩
  | @cons e line entries rows hline _ ih =>
    obtain ⟨⟨data, hdata, hreads⟩, hlines⟩ := ih (fun f hf => hsub f (List.mem_cons_of_mem _ hf))
      fun f hf => hone f (List.mem_cons_of_mem _ hf)
    obtain ⟨⟨row, hrow⟩, hend⟩ := entryLine_rowLine (hsub e List.mem_cons_self) hline
    refine ⟨⟨row :: data, .cons hrow.rowOf hdata, .cons hrow.reads hreads⟩, fun l hl => ?_⟩
    rw [List.map_cons, List.mem_cons] at hl
    rcases hl with rfl | hl
    · exact ⟨hrow.head, hend (hone e List.mem_cons_self)⟩
    · exact hlines l hl

theorem legendLines_chars {order : SetOrder} {listed : Listed} {line : Line}
    (hone : ∀ e ∈ listed.entries, '\n' ∉ e.1.procInfo.commandLine.toList)
    (h : line ∈ ((order.visit listed.procInfoSet).filterMap fun address =>
      (listed.infoAt address).map fun info => legendLine info address).map String.toList) :
    line.head? = some ' ' ∧ '\n' ∉ line := by
  obtain ⟨text, htext, rfl⟩ := List.mem_map.mp h
  obtain ⟨address, haddress, htext⟩ := List.mem_filterMap.mp htext
  obtain ⟨e, he, rfl⟩ := (listed.mem_procInfoSet address).mp ((order.mem_iff _ _).mp haddress)
  rw [listed.infoAt_of_mem he] at htext
  cases htext
  have hline : (legendLine e.1.procInfo e.2).toList = ' ' :: ' ' ::
      ((procMark e.1.procInfo e.2).toList ++ (" (ppid:".toList ++
        ((toString e.1.procInfo.ppid).toList ++ (") ".toList ++
          e.1.procInfo.commandLine.toList)))) := by
    simp [legendLine]
  refine ⟨by rw [hline]; rfl, fun hmem => ?_⟩
  simp only [hline, List.mem_cons, List.mem_append] at hmem
  rcases hmem with hmem | hmem | hmem | hmem | hmem | hmem | hmem
  · exact absurd hmem (by decide)
  · exact absurd hmem (by decide)
  · exact absurd (procMark_chars _ _ hmem) (by decide)
  · exact absurd hmem (by decide)
  · exact absurd (toString_chars _ hmem) (by decide)
  · exact absurd hmem (by decide)
  · exact hone e he hmem

theorem header_chars {opts : Options} {listed : Listed} {line : String}
    (h : line ∈ headerLines opts listed) : '\n' ∉ line.toList := by
  unfold headerLines at h
  split at h
  · cases h
  · split at h
    · rw [List.mem_singleton.mp h, String.toList_append, String.toList_append, List.mem_append,
        List.mem_append]
      refine not_or.mpr ⟨not_or.mpr ⟨by decide, fun hmem => ?_⟩, by decide⟩
      exact absurd (toString_chars _ hmem) (by decide)
    · rw [List.mem_singleton.mp h]
      decide

/-- Nothing in a report spreads over lines. -/
theorem Printing.lines_chars {p : Printing} {ls : List String} (h : p.lines = .ok ls) :
    ∀ line ∈ ls.map String.toList, '\n' ∉ line := by
  obtain ⟨rows, total, hrows, htotal, rfl⟩ := p.lines_ok h
  obtain ⟨-, hlines⟩ := rowLines (fun _ he => he) (fun e he => (p.oneLine e he).1) hrows
  intro line hline
  simp only [List.map_append, List.mem_append, List.map_cons, List.map_nil,
    List.mem_singleton] at hline
  rcases hline with ((hline | hline) | hline) | rfl
  · obtain ⟨text, htext, rfl⟩ := List.mem_map.mp hline
    exact header_chars htext
  · exact (hlines line hline).2
  · unfold legendLines at hline
    split at hline
    · rename_i hdump
      rw [List.map_cons, List.mem_cons] at hline
      rcases hline with rfl | hline
      · decide
      · exact (legendLines_chars (fun e he => (p.oneLine e he).2 hdump.1) hline).2
    · cases hline
  · rw [String.toList_append, List.mem_append]
    exact not_or.mpr ⟨by decide, fun hmem => ((sizeText_solid htotal).2 _ hmem).2 rfl⟩

/-- The reader goes through a report and is then between reports again. -/
theorem Printing.readLine_lines {p : Printing} {ls : List String} (h : p.lines = .ok ls)
    (done : List Summary) : ∃ d, p.Shows d ∧
      (ls.map String.toList).foldlM readLine ⟨done, .between⟩ = some ⟨done ++ [d], .between⟩ := by
  obtain ⟨rows, total, hrows, htotal, rfl⟩ := p.lines_ok h
  obtain ⟨⟨data, hdata, hreads⟩, hlines⟩ :=
    rowLines (fun _ he => he) (fun e he => (p.oneLine e he).1) hrows
  have hlast : readTotal ("Total output: " ++ total).toList = some total := readTotal_append total
  have hT : ("Total output: " ++ total).toList.head? = some 'T' := by
    rw [String.toList_append]
    rfl
  by_cases hempty : p.listed.entries = []
  · -- no file, no header: the total alone
    rw [hempty] at hrows hdata
    cases hrows
    cases hdata
    refine ⟨⟨none, [], [], total⟩, ⟨?_, ?_, ?_, ?_, htotal⟩, ?_⟩
    · rw [if_pos (Or.inl hempty)]
    · rw [hempty]
      exact .nil
    · exact List.nodup_nil
    · intro l
      rw [hempty]
      simp
    · have hlegend : legendLines p.order p.opts p.listed = [] := by
        rw [legendLines, if_neg fun hno => hno.2 hempty]
      simp only [headerLines, hempty, if_true, hlegend, List.nil_append, List.map_cons, List.map_nil,
        List.foldlM_cons, List.foldlM_nil, readLine, hT, hlast, Option.bind_eq_bind,
        Option.bind_some, Option.pure_def]
  · obtain ⟨header, limit, hheader, hlimit, hO, hread⟩ : ∃ header limit,
        headerLines p.opts p.listed = [header] ∧
        limit = (if p.listed.entries = [] ∨ p.opts.filesInReport ≤ 0 then none
          else some p.opts.filesInReport) ∧
        header.toList.head? = some 'O' ∧ readHeader header.toList = some limit := by
      unfold headerLines
      rw [if_neg hempty]
      by_cases hpos : 0 < p.opts.filesInReport
      · rw [if_pos hpos]
        refine ⟨_, _, rfl, (if_neg (not_or.mpr ⟨hempty, Int.not_le.mpr hpos⟩)).symm, ?_,
          readHeader_limit _⟩
        rw [String.toList_append, String.toList_append]
        rfl
      · rw [if_neg hpos]
        exact ⟨_, _, rfl, (if_pos (Or.inr (Int.not_lt.mp hpos))).symm, rfl, by decide⟩
    have hrun : (rows.map String.toList).foldlM readLine ⟨done, .rows limit []⟩ =
        some ⟨done, .rows limit (rows.map String.toList)⟩ :=
      readLine_rows done limit [] _ fun l hl => (hlines l hl).1
    rw [hheader]
    by_cases hdump : dumpProcLegend p.opts = true
    · have hrowsRead : (rows.map String.toList).mapM readMarkedRow = some data := by
        refine mapM_some (hreads.imp fun line row hrow => ?_)
        rwa [if_pos hdump] at hrow
      have hlegendRun := readLine_legend done limit data [] (p.listed.legend p.order) _
        (fun l hl => (legendLines_chars (fun e he => (p.oneLine e he).2 hdump) hl).1)
        (p.listed.legendLines_read p.order)
      refine ⟨⟨limit, data, p.listed.legend p.order, total⟩,
        ⟨hlimit, hdata, p.listed.nodup_legend p.order, fun l => ?_, htotal⟩, ?_⟩
      · rw [p.listed.mem_legend p.order, and_iff_right hdump]
      · have hP : "Proc legend:".toList.head? = some 'P' := rfl
        simp only [legendLines, if_pos (And.intro hdump hempty), List.map_append, List.map_cons,
          List.map_nil, List.cons_append, List.foldlM_cons, List.foldlM_append, List.foldlM_nil,
          readLine, hO, hread, hrun, hP, hrowsRead, hlegendRun, hT, hlast, Option.bind_eq_bind,
          Option.bind_some, Option.pure_def, List.nil_append]
    · have hrowsRead : (rows.map String.toList).mapM readPlainRow = some data := by
        refine mapM_some (hreads.imp fun line row hrow => ?_)
        rwa [if_neg hdump] at hrow
      refine ⟨⟨limit, data, [], total⟩, ⟨hlimit, hdata, List.nodup_nil, fun l => ?_, htotal⟩, ?_⟩
      · exact iff_of_false (by simp) fun hno => hdump hno.1
      · simp only [legendLines, if_neg fun hno : dumpProcLegend p.opts = true ∧ _ => hdump hno.1,
          List.map_append, List.map_cons, List.map_nil, List.cons_append, List.append_nil,
          List.foldlM_cons, List.foldlM_append, List.foldlM_nil, readLine, hO,
          hread, hrun, hrowsRead, hT, hlast, Option.bind_eq_bind, Option.bind_some,
          Option.pure_def]

theorem toList_join (ls : List String) :
    (String.join (ls.map (· ++ "\n"))).toList = unlines '\n' (ls.map String.toList) := by
  rw [String.toList_join, List.flatMap_map, unlines, List.flatMap_map]
  simp

theorem readText_append {text : String} (h : Ended '\n' text.toList) (text' : String) (s : LogState) :
    readText (text ++ text') s = readText text s >>= readText text' := by
  unfold readText
  rw [String.toList_append, lines_append h, List.foldlM_append]

theorem readLog_eq_some_iff {text : String} {ds : List Summary} :
    readLog text = some ds ↔
      Ended '\n' text.toList ∧ readText text ⟨[], .between⟩ = some ⟨ds, .between⟩ := by
  unfold readLog
  split
  · rename_i hended
    rw [and_iff_right hended]
    cases hrun : readText text ⟨[], .between⟩ with
    | none => simp
    | some s =>
      obtain ⟨done, phase⟩ := s
      cases phase <;> simp
  · rename_i hended
    exact iff_of_false (by simp) fun h => hended h.1

theorem readLog_empty : readLog "" = some [] := by decide

/-- A report behind a log is one more report of the log. -/
theorem readLog_print {log text : String} {ds : List Summary} (hlog : readLog log = some ds)
    {p : Printing} (h : p.print = .ok text) :
    ∃ d, p.Shows d ∧ readLog (log ++ text) = some (ds ++ [d]) := by
  obtain ⟨hended, hread⟩ := readLog_eq_some_iff.mp hlog
  obtain ⟨ls, hls, rfl⟩ := Printing.print_ok_iff.mp h
  obtain ⟨d, hd, hlines⟩ := Printing.readLine_lines hls ds
  have htext := toList_join ls
  have hended' : Ended '\n' (String.join (ls.map (· ++ "\n"))).toList := htext ▸ ended_unlines _
  refine ⟨d, hd, readLog_eq_some_iff.mpr ⟨?_, ?_⟩⟩
  · rw [String.toList_append]
    exact hended.append hended'
  · rw [readText_append hended, hread]
    simp only [Option.bind_eq_bind, Option.bind_some]
    rw [readText, htext, lines_unlines (Printing.lines_chars hls), hlines]

end Optrace
