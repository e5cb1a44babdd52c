import Optrace.Lib.Glob
import Optrace.Context

/-!
# Core dumps

`RecoverCoreDumpFile` of `cores.cpp` with `GetDirName` and `GetBaseName` of `utils.cpp`, and
the name the kernel gives to a core file. A character stands for a byte.
-/

namespace Optrace

set_option autoImplicit false

open Except

/-! ## Paths -/

/-- What stands before and behind the last slash. -/
def splitSlash : List Char → Option (List Char × List Char)
  | [] => none
  | c :: s =>
    match splitSlash s with
    | some (dir, base) => some (c :: dir, base)
    | none => if c = '/' then some ([], s) else none

def getDirName (filename : List Char) : List Char :=
  match splitSlash filename with
  | none => ['/']
  | some (dir, _) => dir

def getBaseName (filename : List Char) : List Char :=
  match splitSlash filename with
  | none => []
  | some (_, base) => base

theorem splitSlash_eq_none_iff {s : List Char} : splitSlash s = none ↔ '/' ∉ s := by
  induction s with
  | nil => simp [splitSlash]
  | cons c s ih =>
    rw [splitSlash, List.mem_cons, not_or, ← ih]
    cases splitSlash s with
    | some r => simp
    | none => simp [eq_comm]

theorem splitSlash_append {dir base : List Char} (hbase : '/' ∉ base) :
    splitSlash (dir ++ '/' :: base) = some (dir, base) := by
  induction dir with
  | nil =>
    have hnone := splitSlash_eq_none_iff.mpr hbase
    simp [splitSlash, hnone]
  | cons c dir ih => simp [splitSlash, ih]

theorem splitSlash_ok {s dir base : List Char} (h : splitSlash s = some (dir, base)) :
    s = dir ++ '/' :: base ∧ '/' ∉ base := by
  induction s generalizing dir with
  | nil => cases h
  | cons c s ih =>
    rw [splitSlash] at h
    cases hs : splitSlash s with
    | some r =>
      rw [hs] at h
      cases h
      obtain ⟨rfl, hbase⟩ := ih hs
      exact ⟨rfl, hbase⟩
    | none =>
      rw [hs] at h
      simp only [Option.ite_none_right_eq_some, Option.some.injEq, Prod.mk.injEq] at h
      obtain ⟨rfl, rfl, rfl⟩ := h
      exact ⟨rfl, splitSlash_eq_none_iff.mp hs⟩

/-! ## `ResolveMask` -/

def NUL : Char := Char.ofNat 0

/-- `*it`: at the end stands the terminating NUL, and behind it nothing that may be read. -/
def charAt (str : List Char) (it : Nat) : Except Abort Char :=
  if h : it < str.length then .ok str[it]
  else if it = str.length then .ok NUL
  else .error .undefined

theorem charAt_bound {str : List Char} {it : Nat} {ch : Char} (h : charAt str it = .ok ch) :
    it ≤ str.length := by
  unfold charAt at h
  split at h
  · omega
  · split at h
    · omega
    · cases h

section

variable (pid : Pid) (comm : List Char) (termSig : Int)

/-- The switch behind a `%`. -/
def specifier (ch : Char) : List Char :=
  if ch = NUL then []
  else if ch = '%' then [ch]
  else if ch = 'p' then (toString pid).toList
  else if ch = 'e' then comm
  else if ch = 's' then (toString termSig).toList
  else ['*']

/-- The loop of `ResolveMask` from the iterator on. -/
def resolveFrom (mask : List Char) (it : Nat) (res : List Char) : Except Abort (List Char) :=
  if _hend : it = mask.length then .ok res
  else
    match _h : charAt mask it with
    | .error e => .error e
    | .ok ch =>
      if ch = '%' then
        match charAt mask (it + 1) with
        | .error e => .error e
        | .ok ch => resolveFrom mask (it + 2) (res ++ specifier pid comm termSig ch)
      else resolveFrom mask (it + 1) (res ++ [ch])
termination_by mask.length + 1 - it
decreasing_by
  · have hle := charAt_bound _h
    omega
  · have hle := charAt_bound _h
    omega

def resolveMask (mask : List Char) : Except Abort (List Char) :=
  resolveFrom pid comm termSig mask 0 []

/-- The expansion from left to right, given what becomes of the other specifiers. A lone `%` at
the end gives nothing. -/
def expand (other : Char → List Char) : List Char → List Char
  | [] => []
  | ['%'] => []
  | '%' :: ch :: rest =>
    (if ch = '%' then ['%']
      else if ch = 'p' then (toString pid).toList
      else if ch = 'e' then comm
      else if ch = 's' then (toString termSig).toList
      else other ch) ++ expand other rest
  | ch :: rest => ch :: expand other rest

end

/-- The scan comes to a `%` at the end. -/
def loneEnd : List Char → Bool
  | [] => false
  | ['%'] => true
  | '%' :: _ :: rest => loneEnd rest
  | _ :: rest => loneEnd rest

/-- The scan comes to a `%` before a NUL. -/
def nulEscape : List Char → Bool
  | [] => false
  | ['%'] => false
  | '%' :: ch :: rest => ch == NUL || nulEscape rest
  | _ :: rest => nulEscape rest

theorem charAt_append (pre suf : List Char) (k : Nat) :
    charAt (pre ++ suf) (pre.length + k) = charAt suf k := by
  unfold charAt
  simp

section

variable (pid : Pid) (comm : List Char) (termSig : Int)

/-- What the default of the switch and its case for NUL write. -/
def starOrNul (ch : Char) : List Char := if ch = NUL then [] else ['*']

theorem specifier_eq (ch : Char) : specifier pid comm termSig ch =
    if ch = '%' then ['%']
    else if ch = 'p' then (toString pid).toList
    else if ch = 'e' then comm
    else if ch = 's' then (toString termSig).toList
    else starOrNul ch := by
  unfold specifier starOrNul
  by_cases hnul : ch = NUL
  · subst hnul
    rfl
  · rw [if_neg hnul, if_neg hnul]
    by_cases hpercent : ch = '%'
    · rw [if_pos hpercent, if_pos hpercent, hpercent]
    · rw [if_neg hpercent, if_neg hpercent]

theorem resolveFrom_turn (mask : List Char) {it : Nat} (res : List Char) (hit : it ≠ mask.length) :
    resolveFrom pid comm termSig mask it res = (do
      let ch ← charAt mask it
      if ch = '%' then do
        let ch ← charAt mask (it + 1)
        resolveFrom pid comm termSig mask (it + 2) (res ++ specifier pid comm termSig ch)
      else resolveFrom pid comm termSig mask (it + 1) (res ++ [ch])) := by
  rw [resolveFrom, dif_neg hit]
  split
  · rename_i e hread
    rw [hread]
    rfl
  · rename_i ch hread
    rw [hread, bind_ok]
    split
    · cases charAt mask (it + 1) <;> rfl
    · rfl

/-- The loop from any point of the mask on. The induction is on what is left of the mask, two
characters at a time behind a `%`. -/
theorem resolveFrom_eq (pre suf res : List Char) :
    resolveFrom pid comm termSig (pre ++ suf) pre.length res =
      if loneEnd suf then .error .undefined
      else .ok (res ++ expand pid comm termSig starOrNul suf) := by
  fun_induction loneEnd suf generalizing pre res with
  | case1 => simp [resolveFrom, expand]
  | case2 =>
    have hhere : charAt (pre ++ ['%']) pre.length = .ok '%' := charAt_append pre ['%'] 0
    have hnext : charAt (pre ++ ['%']) (pre.length + 1) = .ok NUL := charAt_append pre ['%'] 1
    have hpast : charAt (pre ++ ['%']) (pre.length + 2) = .error .undefined :=
      charAt_append pre ['%'] 2
    rw [resolveFrom_turn _ _ _ _ _ (by simp), hhere, bind_ok, if_pos rfl, hnext, bind_ok,
      resolveFrom_turn _ _ _ _ _ (by simp), hpast]
    rfl
  | case3 ch rest ih =>
    have hhere : charAt (pre ++ '%' :: ch :: rest) pre.length = .ok '%' :=
      charAt_append pre ('%' :: ch :: rest) 0
    have hnext : charAt (pre ++ '%' :: ch :: rest) (pre.length + 1) = .ok ch :=
      charAt_append pre ('%' :: ch :: rest) 1
    have hrest := ih (pre ++ ['%', ch]) (res ++ specifier pid comm termSig ch)
    rw [List.append_assoc, List.length_append] at hrest
    rw [resolveFrom_turn _ _ _ _ _ (by simp), hhere, bind_ok, if_pos rfl, hnext, bind_ok]
    apply hrest.trans
    rw [expand, ← specifier_eq, List.append_assoc]
  | case4 ch rest hlone hescape ih =>
    have hhere : charAt (pre ++ ch :: rest) pre.length = .ok ch := charAt_append pre (ch :: rest) 0
    have hplain : ch ≠ '%' := by
      rintro rfl
      cases rest with
      | nil => exact hlone rfl rfl
      | cons next rest => exact hescape next rest rfl rfl
    have hrest := ih (pre ++ [ch]) (res ++ [ch])
    rw [List.append_assoc, List.length_append] at hrest
    rw [resolveFrom_turn _ _ _ _ _ (by simp), hhere, bind_ok, if_neg hplain]
    apply hrest.trans
    rw [expand, List.append_assoc, List.singleton_append]
    · exact hlone
    · exact hescape

theorem resolveMask_eq (mask : List Char) : resolveMask pid comm termSig mask =
    if loneEnd mask then .error .undefined
    else .ok (expand pid comm termSig starOrNul mask) :=
  resolveFrom_eq pid comm termSig [] mask []

theorem expand_length_le (mask : List Char) :
    (expand pid comm termSig starOrNul mask).length ≤
      (expand pid comm termSig (fun _ => ['*']) mask).length := by
  fun_induction nulEscape mask with
  | case1 => exact Nat.le_refl _
  | case2 => exact Nat.le_refl _
  | case3 ch rest ih =>
    have hstar : (starOrNul ch).length ≤ ['*'].length := by
      unfold starOrNul
      split <;> simp
    simp only [expand, List.length_append]
    split_ifs <;> omega
  | case4 ch rest hlone hescape ih =>
    rw [expand, expand, List.length_cons, List.length_cons]
    · omega
    all_goals assumption

/-- The two expansions differ at a `%` before a NUL alone. -/
theorem expand_starOrNul_iff (mask : List Char) :
    expand pid comm termSig starOrNul mask = expand pid comm termSig (fun _ => ['*']) mask ↔
      nulEscape mask = false := by
  fun_induction nulEscape mask with
  | case1 => exact iff_of_true rfl rfl
  | case2 => exact iff_of_true rfl rfl
  | case3 ch rest ih =>
    by_cases hnul : ch = NUL
    · subst hnul
      refine iff_of_false (fun h => ?_) (by simp)
      have hlt : (expand pid comm termSig starOrNul ('%' :: NUL :: rest)).length <
          (expand pid comm termSig (fun _ => ['*']) ('%' :: NUL :: rest)).length :=
        Nat.lt_succ_of_le (expand_length_le pid comm termSig rest)
      rw [h] at hlt
      exact Nat.lt_irrefl _ hlt
    · have hstar : starOrNul ch = ['*'] := if_neg hnul
      rw [expand, expand, hstar, List.append_right_inj, ih, Bool.or_eq_false_iff]
      exact (and_iff_right (beq_eq_false_iff_ne.mpr hnul)).symm
  | case4 ch rest hlone hescape ih =>
    rw [expand, expand, List.cons_inj_right, ih]
    all_goals assumption

/-- `ResolveMask` is exact on the masks whose scan comes neither to a `%` at the end nor to one
before a NUL. -/
theorem resolveMask_exact_iff (mask : List Char) :
    resolveMask pid comm termSig mask = .ok (expand pid comm termSig (fun _ => ['*']) mask) ↔
      loneEnd mask = false ∧ nulEscape mask = false := by
  rw [resolveMask_eq]
  cases hlone : loneEnd mask with
  | true => simp
  | false => simp [expand_starOrNul_iff]

end

/-- At a `%` at the end of the mask the iterator is moved past the end. -/
theorem resolveMask_corePercent :
    resolveMask 7 "sh".toList 11 "core.%".toList = .error .undefined ∧
      expand 7 "sh".toList 11 (fun _ => ['*']) "core.%".toList = "core.".toList := by
  constructor
  · rw [resolveMask_eq]
    decide
  · decide

/-! ## The search -/

structure CorePattern where
  path : List Char
  mask : List Char
  deriving DecidableEq

structure DirEntry where
  name : List Char
  regular : Bool

/-- Which directory a path opens, and what is in a directory. -/
structure Dirs (D : Type) where
  resolve : List Char → Option D
  entries : D → List DirEntry

/-- `fnmatch(mask.c_str(), direntry->d_name, FNM_NOESCAPE) == 0`. -/
def Os.matchesMask (os : Os) (mask name : List Char) : Bool :=
  os.fnmatch (String.ofList mask) (String.ofList name)

def CORE_PATTERN : String := "/proc/sys/kernel/core_pattern"
def CORE_USES_PID : String := "/proc/sys/kernel/core_uses_pid"

/-- What is searched first, from the texts of the two files. -/
def defaultPattern (corePattern coreUsesPid : String) (cwd : List Char) : CorePattern :=
  let text := corePattern.toList
  { path := (if text.head? = some '/' then getDirName text else cwd) ++ ['/']
    mask :=
      if text = [] ∨ text.head? = some '|' then
        if coreUsesPid = "" ∨ coreUsesPid = "0" then "core".toList else "core.%p".toList
      else getBaseName text }

/-- Some widely distributed directories and masks come behind it. -/
def searchPatterns (first : CorePattern) : List CorePattern :=
  [first,
    ⟨"/coredumps/".toList, "%e.%p.%s".toList⟩,
    ⟨"/coredumps/".toList, "*%p*".toList⟩,
    ⟨"/cores/".toList, "*%p*".toList⟩,
    ⟨"/var/lib/systemd/coredump".toList, "*%p*".toList⟩]

section

variable {D : Type} (fs : Dirs D) (pid : Pid) (comm : List Char) (termSig : Int) (os : Os)

/-- The loop over `readdir`: the first regular file that matches. -/
def findEntry (path mask : List Char) : Option DirEntry :=
  match fs.resolve path with
  | none => none
  | some dir => (fs.entries dir).find? fun entry => entry.regular && os.matchesMask mask entry.name

/-- The loop over the patterns; the empty string is no file. -/
def searchFrom : List CorePattern → Except Abort (List Char)
  | [] => .ok []
  | pattern :: rest => do
    let mask ← resolveMask pid comm termSig pattern.mask
    match findEntry fs os pattern.path mask with
    | some entry => return pattern.path ++ entry.name
    | none => searchFrom rest

def recoverCoreDumpFile (cwd : List Char) : Except Abort (List Char) :=
  let corePattern := readFileSafe os CORE_PATTERN (-1)
  let coreUsesPid := readFileSafe os CORE_USES_PID (-1)
  searchFrom fs pid comm termSig os (searchPatterns (defaultPattern corePattern coreUsesPid cwd))

end

/-! ## The kernel's name -/

/-- The two settings of the kernel. -/
structure CoreSettings where
  corePattern : String
  coreUsesPid : Int

/-- The files of `/proc` hold one line each. -/
structure CoreSettings.Shown (k : CoreSettings) (os : Os) : Prop where
  corePattern : os.fileContent CORE_PATTERN = some (k.corePattern ++ "\n")
  coreUsesPid : os.fileContent CORE_USES_PID = some (toString k.coreUsesPid ++ "\n")

/-- The scan comes to a `%p`. -/
def hasPid : List Char → Bool
  | [] => false
  | ['%'] => false
  | '%' :: ch :: rest => ch == 'p' || hasPid rest
  | _ :: rest => hasPid rest

/-- The path of the dump, as `core(5)` describes it. -/
def CoreSettings.dumpPath (k : CoreSettings) (other : Char → List Char) (pid : Pid)
    (comm : List Char) (termSig : Int) (cwd : List Char) : List Char :=
  let pattern := k.corePattern.toList
  (if pattern.head? = some '/' then [] else cwd ++ ['/']) ++ expand pid comm termSig other pattern ++
    (if k.coreUsesPid ≠ 0 ∧ hasPid pattern = false then '.' :: (toString pid).toList else [])

/-- The path names the file of that name in the directory. -/
def Dirs.Names {D : Type} (fs : Dirs D) (path : List Char) (dir : D) (name : List Char) : Prop :=
  ∃ front, splitSlash path = some (front, name) ∧ fs.resolve (front ++ ['/']) = some dir

/-- The pattern's directory is the file's and its mask matches the file's name. -/
def Dirs.Hits {D : Type} (fs : Dirs D) (pid : Pid) (comm : List Char) (termSig : Int) (os : Os)
    (dir : D) (name : List Char) (pattern : CorePattern) : Prop :=
  fs.resolve pattern.path = some dir ∧
    os.matchesMask (expand pid comm termSig starOrNul pattern.mask) name = true

instance {D : Type} [DecidableEq D] (fs : Dirs D) (pid : Pid) (comm : List Char) (termSig : Int)
    (os : Os) (dir : D) (name : List Char) (pattern : CorePattern) :
    Decidable (fs.Hits pid comm termSig os dir name pattern) :=
  inferInstanceAs (Decidable (_ ∧ _))

/-- No other regular file is where the pattern is looked for. -/
def Dirs.Only {D : Type} (fs : Dirs D) (dir : D) (name : List Char) (pattern : CorePattern) : Prop :=
  ∀ dir', fs.resolve pattern.path = some dir' → ∀ entry ∈ fs.entries dir', entry.regular = true →
    dir' = dir ∧ entry.name = name

section

variable {D : Type} (fs : Dirs D) (pid : Pid) (comm : List Char) (termSig : Int) (os : Os) {dir : D}
  {name : List Char}

theorem findEntry_only {pattern : CorePattern} (mask : List Char)
    (hfile : ⟨name, true⟩ ∈ fs.entries dir) (honly : fs.Only dir name pattern) :
    (∃ entry, findEntry fs os pattern.path mask = some entry ∧ entry.name = name) ∧
        fs.resolve pattern.path = some dir ∧ os.matchesMask mask name = true ∨
      findEntry fs os pattern.path mask = none ∧
        ¬(fs.resolve pattern.path = some dir ∧ os.matchesMask mask name = true) := by
  unfold findEntry
  cases hresolve : fs.resolve pattern.path with
  | none => simp
  | some dir' =>
    cases hfind : (fs.entries dir').find? fun entry =>
        entry.regular && os.matchesMask mask entry.name with
    | some entry =>
      have hmatch := List.find?_some hfind
      rw [Bool.and_eq_true] at hmatch
      obtain ⟨rfl, hname⟩ :=
        honly dir' hresolve entry (List.mem_of_find?_eq_some hfind) hmatch.1
      refine Or.inl ⟨⟨entry, hfind, hname⟩, rfl, ?_⟩
      rw [← hname]
      exact hmatch.2
    | none =>
      refine Or.inr ⟨hfind, ?_⟩
      rintro ⟨hdir, hmatch⟩
      cases hdir
      have hno := List.find?_eq_none.mp hfind _ hfile
      simp [hmatch] at hno

theorem searchFrom_cons {pattern : CorePattern} (rest : List CorePattern)
    (hlone : loneEnd pattern.mask = false) :
    searchFrom fs pid comm termSig os (pattern :: rest) =
      match findEntry fs os pattern.path (expand pid comm termSig starOrNul pattern.mask) with
      | some entry => .ok (pattern.path ++ entry.name)
      | none => searchFrom fs pid comm termSig os rest := by
  rw [searchFrom, resolveMask_eq, hlone]
  rfl

/-- The search ends at the first pattern that hits, and goes on behind patterns that do not. -/
theorem searchFrom_append {patterns : List CorePattern} (rest : List CorePattern)
    (hfile : ⟨name, true⟩ ∈ fs.entries dir) (honly : ∀ p ∈ patterns, fs.Only dir name p)
    (hlone : ∀ p ∈ patterns, loneEnd p.mask = false) :
    (∃ p ∈ patterns, fs.Hits pid comm termSig os dir name p ∧
        searchFrom fs pid comm termSig os (patterns ++ rest) = .ok (p.path ++ name)) ∨
      (∀ p ∈ patterns, ¬fs.Hits pid comm termSig os dir name p) ∧
        searchFrom fs pid comm termSig os (patterns ++ rest) =
          searchFrom fs pid comm termSig os rest := by
  induction patterns with
  | nil => exact Or.inr ⟨by simp, rfl⟩
  | cons p patterns ih =>
    rw [List.forall_mem_cons] at honly hlone
    have hcons := searchFrom_cons fs pid comm termSig os (patterns ++ rest) hlone.1
    rw [List.cons_append, hcons]
    rcases findEntry_only fs os (expand pid comm termSig starOrNul p.mask) hfile honly.1 with
      ⟨⟨entry, hfound, rfl⟩, hhit⟩ | ⟨hfound, hmiss⟩
    · rw [hfound]
      exact Or.inl ⟨p, List.mem_cons_self, hhit, rfl⟩
    · rw [hfound]
      rcases ih honly.2 hlone.2 with ⟨q, hq, hhit, hsearch⟩ | ⟨hno, hsearch⟩
      · exact Or.inl ⟨q, List.mem_cons_of_mem p hq, hhit, hsearch⟩
      · exact Or.inr ⟨List.forall_mem_cons.mpr ⟨hmiss, hno⟩, hsearch⟩

end

/-- A path with a slash at the end of its directory names what it appends. -/
theorem Dirs.names_append {D : Type} {fs : Dirs D} {front name : List Char} {dir : D}
    (hname : '/' ∉ name) (hresolve : fs.resolve (front ++ ['/']) = some dir) :
    fs.Names (front ++ ['/'] ++ name) dir name :=
  ⟨front, by rw [List.append_assoc]; exact splitSlash_append hname, hresolve⟩

theorem readFileSafe_line {os : Os} {filename text : String}
    (h : os.fileContent filename = some (text ++ "\n")) :
    readFileSafe os filename (-1) = stripString text := by
  have hline : stripString (text ++ "\n") = stripString text := by
    simp [stripString, isSpace]
  simp [readFileSafe, h, hline]

theorem digit_not_space {ch : Char} (h : ch.isDigit = true ∨ ch = '-') : isSpace ch = false := by
  rw [← Bool.not_eq_true]
  intro hspace
  simp only [isSpace, Bool.or_eq_true, beq_iff_eq] at hspace
  rcases hspace with ((rfl | rfl) | rfl) | rfl
  all_goals revert h; decide

theorem stripString_of_noSpace {text : String} (h : ∀ ch ∈ text.toList, isSpace ch = false) :
    stripString text = text := by
  have hdrop : ∀ s : List Char, (∀ ch ∈ s, isSpace ch = false) → s.dropWhile isSpace = s := by
    intro s hs
    cases s with
    | nil => rfl
    | cons c s => simp [hs c List.mem_cons_self]
  have hback : ∀ ch ∈ text.toList.reverse, isSpace ch = false :=
    fun ch hch => h ch (List.mem_reverse.mp hch)
  simp only [stripString, hdrop _ hback, List.reverse_reverse, hdrop _ h, String.ofList_toList]

theorem stripString_toString (n : Int) : stripString (toString n) = toString n :=
  stripString_of_noSpace fun _ h => digit_not_space (toString_chars n h)

/-- What the tracer searches for first, from the settings of the kernel. -/
def CoreSettings.firstPattern (k : CoreSettings) (cwd : List Char) : CorePattern :=
  defaultPattern (stripString k.corePattern) (toString k.coreUsesPid) cwd

/-- The dump is there, and no other regular file is where the patterns are looked for. -/
structure Dirs.Dumped {D : Type} (fs : Dirs D) (path : List Char) (patterns : List CorePattern)
    (dir : D) (name : List Char) : Prop where
  path : fs.Names path dir name
  file : ⟨name, true⟩ ∈ fs.entries dir
  only : ∀ p ∈ patterns, fs.Only dir name p

theorem recoverCoreDumpFile_eq {D : Type} (fs : Dirs D) {os : Os} {k : CoreSettings} (pid : Pid)
    (comm : List Char) (termSig : Int) (cwd : List Char) (hos : k.Shown os) :
    recoverCoreDumpFile fs pid comm termSig os cwd =
      searchFrom fs pid comm termSig os (searchPatterns (k.firstPattern cwd)) := by
  unfold recoverCoreDumpFile
  rw [readFileSafe_line hos.corePattern, readFileSafe_line hos.coreUsesPid, stripString_toString]
  rfl

/-- The last of the directories has no slash at its end: what is found there is misnamed. -/
theorem Dirs.not_names_last {D : Type} (fs : Dirs D) {name : List Char} (dir : D)
    (hname : '/' ∉ name) : ¬fs.Names ("/var/lib/systemd/coredump".toList ++ name) dir name := by
  rintro ⟨front, hsplit, -⟩
  have hbase : '/' ∉ "coredump".toList ++ name := by
    rw [List.mem_append]
    exact fun h => h.elim (by decide) hname
  have hlast : splitSlash ("/var/lib/systemd".toList ++ '/' :: ("coredump".toList ++ name)) =
      some ("/var/lib/systemd".toList, "coredump".toList ++ name) := splitSlash_append hbase
  have hsame : "/var/lib/systemd/coredump".toList =
      "/var/lib/systemd".toList ++ '/' :: "coredump".toList := by decide
  rw [hsame, List.append_assoc, List.cons_append, hlast] at hsplit
  have hlength := congrArg (fun r => (r.map fun p => p.2.length).getD 0) hsplit
  have hdump : "coredump".toList.length = 8 := by decide
  simp only [Option.map_some, Option.getD_some, List.length_append, hdump] at hlength
  omega

theorem mem_searchPatterns_take {first p : CorePattern} (h : p ∈ (searchPatterns first).take 4) :
    p = first ∨ loneEnd p.mask = false ∧ ∃ q, p.path = q ++ ['/'] := by
  simp only [searchPatterns, List.take_succ_cons, List.take_zero, List.mem_cons,
    List.not_mem_nil, or_false] at h
  rcases h with rfl | rfl | rfl | rfl
  · exact Or.inl rfl
  · exact Or.inr ⟨by decide, "/coredumps".toList, by decide⟩
  · exact Or.inr ⟨by decide, "/coredumps".toList, by decide⟩
  · exact Or.inr ⟨by decide, "/cores".toList, by decide⟩

/-- The dump is found if and only if the mask made from the core pattern does not end in a lone
`%` and one of the first four patterns hits. -/
theorem recoverCoreDumpFile_names_iff {D : Type} {os : Os} {fs : Dirs D} {k : CoreSettings}
    {other : Char → List Char} {pid : Pid} {comm cwd : List Char} {termSig : Int}
    {dir : D} {name : List Char} (hos : k.Shown os)
    (hdump : fs.Dumped (k.dumpPath other pid comm termSig cwd)
      (searchPatterns (k.firstPattern cwd)) dir name) :
    (∃ path, recoverCoreDumpFile fs pid comm termSig os cwd = .ok path ∧ fs.Names path dir name) ↔
      loneEnd (k.firstPattern cwd).mask = false ∧
        ∃ p ∈ (searchPatterns (k.firstPattern cwd)).take 4, fs.Hits pid comm termSig os dir name p := by
  obtain ⟨front, hpath, -⟩ := hdump.path
  have hname := (splitSlash_ok hpath).2
  rw [recoverCoreDumpFile_eq fs pid comm termSig cwd hos]
  cases hlone : loneEnd (k.firstPattern cwd).mask with
  | true =>
    have hfails : searchFrom fs pid comm termSig os (searchPatterns (k.firstPattern cwd)) =
        .error .undefined := by
      rw [searchPatterns, searchFrom, resolveMask_eq, hlone]
      rfl
    simp [hfails]
  | false =>
    have honly : ∀ p ∈ (searchPatterns (k.firstPattern cwd)).take 4, fs.Only dir name p :=
      fun p hp => hdump.only p (List.mem_of_mem_take hp)
    have hends : ∀ p ∈ (searchPatterns (k.firstPattern cwd)).take 4, loneEnd p.mask = false := by
      intro p hp
      rcases mem_searchPatterns_take hp with rfl | ⟨hend, -⟩
      · exact hlone
      · exact hend
    have hsearch := searchFrom_append fs pid comm termSig os
      ((searchPatterns (k.firstPattern cwd)).drop 4) hdump.file honly hends
    rw [List.take_append_drop] at hsearch
    rw [eq_self, true_and]
    rcases hsearch with ⟨p, hp, hhit, hsearch⟩ | ⟨hno, hsearch⟩
    · refine iff_of_true ⟨_, hsearch, ?_⟩ ⟨p, hp, hhit⟩
      obtain ⟨q, hq⟩ : ∃ q, p.path = q ++ ['/'] := by
        rcases mem_searchPatterns_take hp with rfl | ⟨-, hslash⟩
        · exact ⟨_, rfl⟩
        · exact hslash
      rw [hq]
      exact Dirs.names_append hname (hq ▸ hhit.1)
    · refine iff_of_false ?_ (fun ⟨p, hp, hhit⟩ => hno p hp hhit)
      rintro ⟨path, hok, hnames⟩
      rw [hsearch] at hok
      obtain ⟨last, hlast⟩ : ∃ last : CorePattern,
          (searchPatterns (k.firstPattern cwd)).drop 4 = [last] ∧
            last.path = "/var/lib/systemd/coredump".toList ∧ loneEnd last.mask = false :=
        ⟨_, rfl, rfl, by decide⟩
      rw [hlast.1, searchFrom_cons fs pid comm termSig os [] hlast.2.2] at hok
      have hmem : last ∈ searchPatterns (k.firstPattern cwd) :=
        List.mem_of_mem_drop (hlast.1 ▸ List.mem_singleton_self last)
      rcases findEntry_only fs os (expand pid comm termSig starOrNul last.mask) hdump.file
        (hdump.only last hmem) with ⟨⟨entry, hfound, rfl⟩, -⟩ | ⟨hfound, -⟩
      · rw [hfound] at hok
        cases hok
        rw [hlast.2.1] at hnames
        exact fs.not_names_last dir hname hnames
      · rw [hfound] at hok
        cases hok
        obtain ⟨_, hsplit, -⟩ := hnames
        cases hsplit

/-! ## Which patterns hit -/

section

variable (pid : Pid) (comm : List Char) (termSig : Int)

/-- Where a character of the expansion comes from. -/
theorem mem_expand {other : Char → List Char} {mask : List Char} {ch : Char}
    (h : ch ∈ expand pid comm termSig other mask) :
    ch ∈ mask ∨ (ch.isDigit = true ∨ ch = '-') ∨ ch ∈ comm ∨ ∃ c, ch ∈ other c := by
  fun_induction expand pid comm termSig other mask with
  | case1 => cases h
  | case2 => cases h
  | case3 c rest ih =>
    rw [List.mem_append] at h
    rcases h with h | h
    · split_ifs at h with hpercent hp he hs
      · exact Or.inl (List.mem_cons.mpr (Or.inl (List.mem_singleton.mp h)))
      · exact Or.inr (Or.inl (toString_chars _ h))
      · exact Or.inr (Or.inr (Or.inl h))
      · exact Or.inr (Or.inl (toString_chars _ h))
      · exact Or.inr (Or.inr (Or.inr ⟨c, h⟩))
    · exact (ih h).imp_left fun h => List.mem_cons_of_mem _ (List.mem_cons_of_mem _ h)
  | case4 c rest hlone hescape ih =>
    rw [List.mem_cons] at h
    rcases h with rfl | h
    · exact Or.inl List.mem_cons_self
    · exact (ih h).imp_left (List.mem_cons_of_mem _)

theorem notMem_expand {other : Char → List Char} {mask : List Char} {x : Char}
    (hx : x.isDigit = false ∧ x ≠ '-') (hmask : x ∉ mask) (hcomm : x ∉ comm)
    (hother : ∀ c, x ∉ other c) : x ∉ expand pid comm termSig other mask := by
  intro h
  rcases mem_expand pid comm termSig h with h | h | h | ⟨c, h⟩
  · exact hmask h
  · rcases h with h | h
    · rw [hx.1] at h
      cases h
    · exact hx.2 h
  · exact hcomm h
  · exact hother c h

theorem notMem_starOrNul {x : Char} (hx : x ≠ '*') (c : Char) : x ∉ starOrNul c := by
  unfold starOrNul
  split
  · exact List.not_mem_nil
  · exact fun h => hx (List.mem_singleton.mp h)

theorem nulEscape_of_notMem {mask : List Char} (h : NUL ∉ mask) : nulEscape mask = false := by
  fun_induction nulEscape mask with
  | case1 => rfl
  | case2 => rfl
  | case3 c rest ih =>
    simp only [List.mem_cons, not_or] at h
    rw [ih h.2.2, Bool.or_false, beq_eq_false_iff_ne]
    exact fun heq => h.2.1 heq.symm
  | case4 c rest hlone hescape ih => exact ih fun hmem => h (List.mem_cons_of_mem c hmem)

theorem expand_append {front : List Char} (other : Char → List Char) (mask : List Char)
    (hfront : '%' ∉ front) :
    expand pid comm termSig other (front ++ mask) = front ++ expand pid comm termSig other mask := by
  induction front with
  | nil => rfl
  | cons c front ih =>
    rw [List.mem_cons, not_or] at hfront
    have hplain : c ≠ '%' := fun h => hfront.1 h.symm
    rw [List.cons_append, expand, ih hfront.2, List.cons_append]
    · exact fun h => absurd h hplain
    · exact fun _ _ h => absurd h hplain

/-- A `*` stands for whatever the kernel writes, and any other character for itself. -/
theorem expand_matches (other : Char → List Char) {mask : List Char}
    (hnul : nulEscape mask = false) :
    Glob.matchPlain (expand pid comm termSig starOrNul mask) (expand pid comm termSig other mask) =
      true := by
  unfold Glob.matchPlain
  fun_induction nulEscape mask with
  | case1 => rfl
  | case2 => rfl
  | case3 c rest ih =>
    rw [Bool.or_eq_false_iff, beq_eq_false_iff_ne] at hnul
    have hstar : starOrNul c = ['*'] := if_neg hnul.1
    have hrest := ih hnul.2
    rw [expand, expand, List.map_append, hstar]
    split_ifs
    · exact Glob.matchTokens_self _ hrest
    · exact Glob.matchTokens_self _ hrest
    · exact Glob.matchTokens_self _ hrest
    · exact Glob.matchTokens_self _ hrest
    · exact Glob.matchTokens_star hrest
  | case4 c rest hlone hescape ih =>
    rw [expand, expand, List.map_cons]
    · exact Glob.matchTokens_plain c (ih hnul)
    all_goals assumption

end

/-- `fnmatch` as it is documented, on masks without brackets. -/
def Os.MatchesPlain (os : Os) : Prop :=
  ∀ mask name, '[' ∉ mask → NUL ∉ mask → NUL ∉ name →
    os.matchesMask mask name = Glob.matchPlain mask name

/-- Patterns that always hit: absolute, with no `%` in the directory, no bracket in the name or
the command, and `%p` wherever the kernel would append the pid. -/
theorem CoreSettings.hits_of_absolute {D : Type} {fs : Dirs D} {os : Os} {k : CoreSettings}
    {other : Char → List Char} {comm cwd front base name : List Char} {dir : D} (pid : Pid)
    (termSig : Int) (hmatches : os.MatchesPlain)
    (hstrip : stripString k.corePattern = k.corePattern)
    (habsolute : k.corePattern.toList.head? = some '/')
    (hsplit : splitSlash k.corePattern.toList = some (front, base)) (hfront : '%' ∉ front)
    (hbracket : '[' ∉ base ∧ '[' ∉ comm) (hslash : '/' ∉ comm ∧ ∀ c, '/' ∉ other c)
    (hnul : NUL ∉ base ∧ NUL ∉ comm ∧ ∀ c, NUL ∉ other c)
    (hpid : k.coreUsesPid = 0 ∨ hasPid k.corePattern.toList = true)
    (hnames : fs.Names (k.dumpPath other pid comm termSig cwd) dir name) :
    fs.Hits pid comm termSig os dir name (k.firstPattern cwd) := by
  obtain ⟨htext, hbase⟩ := splitSlash_ok hsplit
  have hexpand : expand pid comm termSig other k.corePattern.toList =
      front ++ '/' :: expand pid comm termSig other base := by
    rw [htext, expand_append pid comm termSig other _ hfront, expand]
    · exact fun h => absurd h (by decide)
    · exact fun _ _ h => absurd h (by decide)
  have hplain : '/' ∉ expand pid comm termSig other base :=
    notMem_expand pid comm termSig (by decide) hbase hslash.1 hslash.2
  have hpath : k.dumpPath other pid comm termSig cwd =
      front ++ '/' :: expand pid comm termSig other base := by
    have happended : ¬(k.coreUsesPid ≠ 0 ∧ hasPid k.corePattern.toList = false) := by
      rintro ⟨huses, hno⟩
      rcases hpid with hzero | hyes
      · exact huses hzero
      · rw [hyes] at hno
        cases hno
    simp only [CoreSettings.dumpPath, if_pos habsolute, if_neg happended, hexpand,
      List.nil_append, List.append_nil]
  obtain ⟨front', hdump, hresolve⟩ := hnames
  rw [hpath, splitSlash_append hplain] at hdump
  cases hdump
  have hnotPipe : ¬(k.corePattern.toList = [] ∨ k.corePattern.toList.head? = some '|') := by
    rintro (hno | hno)
    · rw [hno] at habsolute
      cases habsolute
    · rw [hno] at habsolute
      exact absurd habsolute (by decide)
  have hfirst : k.firstPattern cwd = ⟨front ++ ['/'], base⟩ := by
    simp only [CoreSettings.firstPattern, defaultPattern, hstrip, if_pos habsolute,
      if_neg hnotPipe, getDirName, getBaseName, hsplit]
  have hopen : '[' ∉ expand pid comm termSig starOrNul base :=
    notMem_expand pid comm termSig (by decide) hbracket.1 hbracket.2 (notMem_starOrNul (by decide))
  have hmask : NUL ∉ expand pid comm termSig starOrNul base :=
    notMem_expand pid comm termSig (by decide) hnul.1 hnul.2.1 (notMem_starOrNul (by decide))
  have hname : NUL ∉ expand pid comm termSig other base :=
    notMem_expand pid comm termSig (by decide) hnul.1 hnul.2.1 hnul.2.2
  rw [hfirst]
  refine ⟨hresolve, ?_⟩
  rw [hmatches _ _ hopen hmask hname]
  exact expand_matches pid comm termSig other (nulEscape_of_notMem hnul.1)

/-- A pattern without a slash has no base name, so nothing in the working directory matches. -/
theorem CoreSettings.not_hits_of_relative {D : Type} (fs : Dirs D) {os : Os} {k : CoreSettings}
    {cwd name : List Char} (pid : Pid) (comm : List Char) (termSig : Int) (dir : D)
    (hmatches : os.MatchesPlain)
    (hempty : stripString k.corePattern ≠ "")
    (hpipe : (stripString k.corePattern).toList.head? ≠ some '|')
    (hslash : '/' ∉ (stripString k.corePattern).toList) (hname : name ≠ []) (hnul : NUL ∉ name) :
    ¬fs.Hits pid comm termSig os dir name (k.firstPattern cwd) := by
  have hmask : (k.firstPattern cwd).mask = [] := by
    simp [CoreSettings.firstPattern, defaultPattern, hempty, hpipe, getBaseName,
      splitSlash_eq_none_iff.mpr hslash]
  rintro ⟨-, hmatch⟩
  rw [hmask] at hmatch
  have hempty := (hmatches [] name List.not_mem_nil List.not_mem_nil hnul).symm.trans hmatch
  exact hname (List.isEmpty_iff.mp hempty)

/-! ## Two settings -/

/-- A system where the kernel is set so. No mask there has brackets. -/
def coreOs (k : CoreSettings) : Os where
  fileContent filename :=
    if filename = CORE_PATTERN then some (k.corePattern ++ "\n")
    else if filename = CORE_USES_PID then some (toString k.coreUsesPid ++ "\n")
    else none
  stat _ := none
  readlink _ := none
  fdFlags _ := none
  isFile _ := false
  myHighestFd := -1
  getCwd := "/tmp"
  recoverCoreDumpFile _ _ _ _ := ""
  fnmatch mask name := Glob.matchPlain mask.toList name.toList

theorem coreOs_shown (k : CoreSettings) : k.Shown (coreOs k) :=
  ⟨by simp [coreOs], by simp [coreOs, CORE_PATTERN, CORE_USES_PID]⟩

theorem coreOs_matches (k : CoreSettings) : (coreOs k).MatchesPlain := by
  intro mask name _ _ _
  simp only [Os.matchesMask, coreOs, String.toList_ofList]

/-- Nothing but one file in one directory. -/
def oneFile (path name : List Char) : Dirs Unit where
  resolve p := if p = path then some () else none
  entries _ := [⟨name, true⟩]

theorem oneFile_dumped {path name : List Char} {dump : List Char} (patterns : List CorePattern)
    (hnames : (oneFile path name).Names dump () name) :
    (oneFile path name).Dumped dump patterns () name := by
  refine ⟨hnames, List.mem_singleton_self _, ?_⟩
  intro p _ dir' _ entry hentry _
  rw [List.mem_singleton.mp hentry]
  exact ⟨rfl, rfl⟩

theorem recoverCoreDumpFile_names_tmp :
    ∃ path, recoverCoreDumpFile (oneFile "/tmp/".toList "core.7".toList) 7 "sh".toList 11
        (coreOs ⟨"/tmp/core.%p", 0⟩) "/root".toList = .ok path ∧
      (oneFile "/tmp/".toList "core.7".toList).Names path () "core.7".toList := by
  have hnames : (oneFile "/tmp/".toList "core.7".toList).Names
      (CoreSettings.dumpPath ⟨"/tmp/core.%p", 0⟩ (fun _ => []) 7 "sh".toList 11 "/root".toList) ()
      "core.7".toList := ⟨"/tmp".toList, by decide, by decide⟩
  exact (recoverCoreDumpFile_names_iff (coreOs_shown _) (oneFile_dumped _ hnames)).mpr (by decide)

/-- The default name of the kernel is not found in the working directory. -/
theorem recoverCoreDumpFile_misses_core :
    (oneFile "/tmp/".toList "core".toList).Dumped
        (CoreSettings.dumpPath ⟨"core", 0⟩ (fun _ => []) 7 "sh".toList 11 "/tmp".toList)
        (searchPatterns (CoreSettings.firstPattern ⟨"core", 0⟩ "/tmp".toList)) () "core".toList ∧
      recoverCoreDumpFile (oneFile "/tmp/".toList "core".toList) 7 "sh".toList 11
        (coreOs ⟨"core", 0⟩) "/tmp".toList = .ok [] := by
  have hnames : (oneFile "/tmp/".toList "core".toList).Names
      (CoreSettings.dumpPath ⟨"core", 0⟩ (fun _ => []) 7 "sh".toList 11 "/tmp".toList) ()
      "core".toList := ⟨"/tmp".toList, by decide, by decide⟩
  have hdumped := oneFile_dumped
    (searchPatterns (CoreSettings.firstPattern ⟨"core", 0⟩ "/tmp".toList)) hnames
  refine ⟨hdumped, ?_⟩
  rw [recoverCoreDumpFile_eq _ _ _ _ _ (coreOs_shown _)]
  have hsearch := searchFrom_append _ 7 "sh".toList 11 (coreOs ⟨"core", 0⟩) [] hdumped.file
    hdumped.only (by decide)
  rw [List.append_nil] at hsearch
  rcases hsearch with ⟨p, hp, hhit, -⟩ | ⟨-, hsearch⟩
  · exact absurd hhit (by revert p; decide)
  · exact hsearch

end Optrace
