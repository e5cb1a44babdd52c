import Optrace.Cores

/-!
# The path of a recovered core

A path is the search's directory string with the entry's name behind it. Four of the five strings
end in a slash.
-/

namespace Optrace

set_option autoImplicit false

open Except

namespace Dirs

variable {D : Type} (fs : Dirs D) (pid : Pid) (comm : List Char) (termSig : Int) (os : Os)

/-- A regular file in the pattern's directory matches its mask. -/
def Finds (pattern : CorePattern) : Prop :=
  ∃ dir, fs.resolve pattern.path = some dir ∧ ∃ entry ∈ fs.entries dir, entry.regular = true ∧
    os.matchesMask (expand pid comm termSig starOrNul pattern.mask) entry.name = true

/-- The loop over the patterns has come to this one when it finds a match. -/
def FoundAt (patterns : List CorePattern) (pattern : CorePattern) : Prop :=
  ∃ before after, patterns = before ++ pattern :: after ∧
    (∀ q ∈ before, ¬fs.Finds pid comm termSig os q) ∧ fs.Finds pid comm termSig os pattern

/-- The path is one of a regular file of the directory whose name matches the mask. -/
def Denotes (path : List Char) (dir : D) (mask : List Char) : Prop :=
  ∃ name, fs.Names path dir name ∧ ⟨name, true⟩ ∈ fs.entries dir ∧ os.matchesMask mask name = true

/-- What is returned denotes a match in the directory the match was found in. -/
def ReturnsMatch (cwd : List Char) (patterns : List CorePattern) : Prop :=
  ∀ path, recoverCoreDumpFile fs pid comm termSig os cwd = .ok path → path ≠ [] →
    ∃ pattern mask dir, fs.FoundAt pid comm termSig os patterns pattern ∧
      resolveMask pid comm termSig pattern.mask = .ok mask ∧
      fs.resolve pattern.path = some dir ∧ fs.Denotes os path dir mask

/-- Names of directory entries have no slash and no NUL. -/
def WellNamed : Prop := ∀ dir, ∀ entry ∈ fs.entries dir, '/' ∉ entry.name ∧ NUL ∉ entry.name

end Dirs

/-- The pattern whose directory string ends in no slash. -/
def systemdPattern : CorePattern := ⟨"/var/lib/systemd/coredump".toList, "*%p*".toList⟩

/-- The first match in `systemd`'s directory has a namesake there, behind the text `coredump`, and
that directory is its own parent. -/
def Dirs.Namesake {D : Type} (fs : Dirs D) (pid : Pid) (comm : List Char) (termSig : Int) (os : Os) :
    Prop :=
  ∃ dir entry, fs.resolve systemdPattern.path = some dir ∧
    fs.resolve "/var/lib/systemd/".toList = some dir ∧
    (fs.entries dir).find? (fun entry => entry.regular &&
      os.matchesMask (expand pid comm termSig starOrNul systemdPattern.mask) entry.name) =
        some entry ∧
    ⟨"coredump".toList ++ entry.name, true⟩ ∈ fs.entries dir

section

variable {D : Type} (fs : Dirs D) (pid : Pid) (comm : List Char) (termSig : Int) (os : Os)

theorem findEntry_ok {path mask : List Char} {entry : DirEntry}
    (h : findEntry fs os path mask = some entry) :
    ∃ dir, fs.resolve path = some dir ∧ ⟨entry.name, true⟩ ∈ fs.entries dir ∧
      os.matchesMask mask entry.name = true := by
  unfold findEntry at h
  cases hresolve : fs.resolve path with
  | none =>
    rw [hresolve] at h
    cases h
  | some dir =>
    simp only [hresolve] at h
    have hmatch := List.find?_some h
    rw [Bool.and_eq_true] at hmatch
    refine ⟨dir, rfl, ?_, hmatch.2⟩
    have hmem := List.mem_of_find?_eq_some h
    rwa [← hmatch.1]

theorem findEntry_eq_none_iff (pattern : CorePattern) :
    findEntry fs os pattern.path (expand pid comm termSig starOrNul pattern.mask) = none ↔
      ¬fs.Finds pid comm termSig os pattern := by
  unfold findEntry Dirs.Finds
  cases fs.resolve pattern.path with
  | none => simp
  | some dir => simp [List.find?_eq_none]

theorem finds_of_findEntry {pattern : CorePattern} {entry : DirEntry}
    (h : findEntry fs os pattern.path (expand pid comm termSig starOrNul pattern.mask) = some entry) :
    fs.Finds pid comm termSig os pattern := by
  by_contra hno
  rw [(findEntry_eq_none_iff fs pid comm termSig os pattern).mpr hno] at h
  cases h

/-- The search stops at the first pattern that finds something. -/
theorem searchFrom_front {patterns : List CorePattern} (rest : List CorePattern)
    (hlone : ∀ p ∈ patterns, loneEnd p.mask = false) :
    (∃ p entry, p ∈ patterns ∧ fs.FoundAt pid comm termSig os (patterns ++ rest) p ∧
        findEntry fs os p.path (expand pid comm termSig starOrNul p.mask) = some entry ∧
        searchFrom fs pid comm termSig os (patterns ++ rest) = .ok (p.path ++ entry.name)) ∨
      (∀ p ∈ patterns, ¬fs.Finds pid comm termSig os p) ∧
        searchFrom fs pid comm termSig os (patterns ++ rest) =
          searchFrom fs pid comm termSig os rest := by
  induction patterns with
  | nil => exact Or.inr ⟨by simp, rfl⟩
  | cons p patterns ih =>
    rw [List.forall_mem_cons] at hlone
    have hcons := searchFrom_cons fs pid comm termSig os (patterns ++ rest) hlone.1
    have hnone := findEntry_eq_none_iff fs pid comm termSig os p
    rw [List.cons_append]
    cases hfind : findEntry fs os p.path (expand pid comm termSig starOrNul p.mask) with
    | some entry =>
      rw [hfind] at hcons
      have hfinds := finds_of_findEntry fs pid comm termSig os hfind
      exact Or.inl ⟨p, entry, List.mem_cons_self, ⟨[], patterns ++ rest, rfl, by simp, hfinds⟩,
        hfind, hcons⟩
    | none =>
      rw [hfind] at hcons hnone
      have hno := hnone.mp rfl
      rcases ih hlone.2 with ⟨q, entry, hq, ⟨before, after, heq, hbefore, hfinds⟩, hentry, hsearch⟩ |
        ⟨hmiss, hsearch⟩
      · refine Or.inl ⟨q, entry, List.mem_cons_of_mem p hq, ⟨p :: before, after, ?_, ?_, hfinds⟩,
          hentry, hcons.trans hsearch⟩
        · rw [heq, List.cons_append]
        · exact List.forall_mem_cons.mpr ⟨hno, hbefore⟩
      · exact Or.inr ⟨List.forall_mem_cons.mpr ⟨hno, hmiss⟩, hcons.trans hsearch⟩

theorem systemdMask_front (hmatches : os.MatchesPlain) {u name : List Char} (hu : NUL ∉ u)
    (hname : NUL ∉ name)
    (h : os.matchesMask (expand pid comm termSig starOrNul systemdPattern.mask) name = true) :
    os.matchesMask (expand pid comm termSig starOrNul systemdPattern.mask) (u ++ name) = true := by
  have hmask : expand pid comm termSig starOrNul systemdPattern.mask =
      '*' :: ((toString pid).toList ++ ['*']) := by
    have htext : systemdPattern.mask = ['*', '%', 'p', '*'] := by decide
    rw [htext]
    simp [expand]
  have hplain : ∀ x : Char, x ≠ '*' → x.isDigit = false ∧ x ≠ '-' →
      x ∉ '*' :: ((toString pid).toList ++ ['*']) := by
    intro x hstar hx hmem
    simp only [List.mem_cons, List.mem_append, List.not_mem_nil, or_false] at hmem
    rcases hmem with hmem | hmem | hmem
    · exact hstar hmem
    · rcases toString_chars pid hmem with hdigit | hminus
      · rw [hx.1] at hdigit
        cases hdigit
      · exact hx.2 hminus
    · exact hstar hmem
  have hopen := hplain '[' (by decide) (by decide)
  have hnul := hplain NUL (by decide) (by decide)
  have hboth : NUL ∉ u ++ name := by
    rw [List.mem_append]
    exact fun hmem => hmem.elim hu hname
  rw [hmask] at h ⊢
  rw [hmatches _ _ hopen hnul hname] at h
  rw [hmatches _ _ hopen hnul hboth]
  exact Glob.matchTokens_front u h

/-- What is found in the last directory is misnamed, and denotes at most a namesake. -/
theorem systemd_denotes_iff (hmatches : os.MatchesPlain) {dir : D} {entry : DirEntry}
    (hname : '/' ∉ entry.name ∧ NUL ∉ entry.name)
    (hmatch : os.matchesMask (expand pid comm termSig starOrNul systemdPattern.mask) entry.name =
      true) :
    fs.Denotes os (systemdPattern.path ++ entry.name) dir
        (expand pid comm termSig starOrNul systemdPattern.mask) ↔
      fs.resolve "/var/lib/systemd/".toList = some dir ∧
        ⟨"coredump".toList ++ entry.name, true⟩ ∈ fs.entries dir := by
  have hbase : '/' ∉ "coredump".toList ++ entry.name := by
    rw [List.mem_append]
    exact fun h => h.elim (by decide) hname.1
  have hpath : systemdPattern.path ++ entry.name =
      "/var/lib/systemd".toList ++ '/' :: ("coredump".toList ++ entry.name) := by
    have hstring : systemdPattern.path = "/var/lib/systemd".toList ++ '/' :: "coredump".toList := by
      decide
    rw [hstring, List.append_assoc, List.cons_append]
  have hslash : "/var/lib/systemd".toList ++ ['/'] = "/var/lib/systemd/".toList := by decide
  have hsplit : splitSlash (systemdPattern.path ++ entry.name) =
      some ("/var/lib/systemd".toList, "coredump".toList ++ entry.name) := by
    rw [hpath]
    exact splitSlash_append hbase
  constructor
  · rintro ⟨name, ⟨front, hfront, hresolve⟩, hmem, -⟩
    rw [hsplit] at hfront
    cases hfront
    rw [hslash] at hresolve
    exact ⟨hresolve, hmem⟩
  · rintro ⟨hresolve, hmem⟩
    rw [← hslash] at hresolve
    exact ⟨_, ⟨_, hsplit, hresolve⟩, hmem,
      systemdMask_front pid comm termSig os hmatches (by decide) hname.2 hmatch⟩

theorem denotes_of_slash {pattern : CorePattern} {dir : D} {entry : DirEntry} {mask : List Char}
    (hslash : ∃ q, pattern.path = q ++ ['/']) (hname : '/' ∉ entry.name)
    (hdir : fs.resolve pattern.path = some dir) (hmem : ⟨entry.name, true⟩ ∈ fs.entries dir)
    (hmatch : os.matchesMask mask entry.name = true) :
    fs.Denotes os (pattern.path ++ entry.name) dir mask := by
  obtain ⟨q, hq⟩ := hslash
  rw [hq] at hdir ⊢
  exact ⟨entry.name, Dirs.names_append hname hdir, hmem, hmatch⟩

theorem resolveMask_of_ends {mask : List Char} (h : loneEnd mask = false) :
    resolveMask pid comm termSig mask = .ok (expand pid comm termSig starOrNul mask) := by
  rw [resolveMask_eq, h]
  rfl

/-- Where nothing else finds anything, a match is the last pattern's. -/
theorem foundAt_last {patterns : List CorePattern} {pattern last : CorePattern}
    (hmiss : ∀ p ∈ patterns, ¬fs.Finds pid comm termSig os p)
    (h : fs.FoundAt pid comm termSig os (patterns ++ [last]) pattern) : pattern = last := by
  obtain ⟨before, after, hsplit, -, hfinds⟩ := h
  have hin : pattern ∈ patterns ++ [last] := by
    rw [hsplit]
    simp
  rcases List.mem_append.mp hin with hin | hin
  · exact absurd hfinds (hmiss pattern hin)
  · exact List.mem_singleton.mp hin

/-- A match in the last directory is denoted by what is returned only if it has a namesake. -/
theorem last_denotes_iff (hmatches : os.MatchesPlain) {patterns : List CorePattern}
    {entry : DirEntry} (hnamed : fs.WellNamed)
    (hmiss : ∀ p ∈ patterns, ¬fs.Finds pid comm termSig os p)
    (hfind : findEntry fs os systemdPattern.path
      (expand pid comm termSig starOrNul systemdPattern.mask) = some entry) :
    (∃ pattern mask dir, fs.FoundAt pid comm termSig os (patterns ++ [systemdPattern]) pattern ∧
        resolveMask pid comm termSig pattern.mask = .ok mask ∧
        fs.resolve pattern.path = some dir ∧
        fs.Denotes os (systemdPattern.path ++ entry.name) dir mask) ↔
      fs.Namesake pid comm termSig os := by
  obtain ⟨dir, hdir, hmem, hmatch⟩ := findEntry_ok fs os hfind
  have hfinds := finds_of_findEntry fs pid comm termSig os hfind
  have hends : loneEnd systemdPattern.mask = false := by decide
  have hmaskOf := resolveMask_of_ends pid comm termSig hends
  have hentries : (fs.entries dir).find? (fun entry => entry.regular && os.matchesMask
      (expand pid comm termSig starOrNul systemdPattern.mask) entry.name) = some entry := by
    simpa only [findEntry, hdir] using hfind
  have hdenotes : fs.Denotes os (systemdPattern.path ++ entry.name) dir
      (expand pid comm termSig starOrNul systemdPattern.mask) ↔ _ :=
    systemd_denotes_iff fs pid comm termSig os hmatches (hnamed dir ⟨entry.name, true⟩ hmem) hmatch
  constructor
  · rintro ⟨pattern, mask, dir', hfound, hmask, hdir', hpath⟩
    have hpattern := foundAt_last fs pid comm termSig os hmiss hfound
    subst hpattern
    rw [hdir] at hdir'
    cases hdir'
    rw [hmaskOf] at hmask
    cases hmask
    obtain ⟨hparent, hfile⟩ := hdenotes.mp hpath
    exact ⟨dir, entry, hdir, hparent, hentries, hfile⟩
  · rintro ⟨dir', entry', hdir', hparent, hentries', hfile⟩
    rw [hdir] at hdir'
    cases hdir'
    rw [hentries] at hentries'
    cases hentries'
    exact ⟨systemdPattern, _, dir, ⟨_, [], rfl, hmiss, hfinds⟩, hmaskOf, hdir,
      hdenotes.mpr ⟨hparent, hfile⟩⟩

end

section

variable {D : Type} (fs : Dirs D) (pid : Pid) (comm : List Char) (termSig : Int) (os : Os)

/-- Whatever the search ends at, it has found in the directory of a pattern. -/
theorem searchFrom_found {patterns : List CorePattern} {path : List Char}
    (h : searchFrom fs pid comm termSig os patterns = .ok path) (hne : path ≠ []) :
    ∃ p ∈ patterns, ∃ mask dir name, resolveMask pid comm termSig p.mask = .ok mask ∧
      fs.resolve p.path = some dir ∧ ⟨name, true⟩ ∈ fs.entries dir ∧
      os.matchesMask mask name = true ∧ path = p.path ++ name := by
  induction patterns with
  | nil =>
    cases h
    exact absurd rfl hne
  | cons p patterns ih =>
    obtain ⟨mask, hmask, h⟩ := bind_eq_ok_iff.mp h
    split at h
    · rename_i entry hfind
      cases h
      obtain ⟨dir, hdir, hmem, hmatch⟩ := findEntry_ok fs os hfind
      exact ⟨p, List.mem_cons_self, mask, dir, entry.name, hmask, hdir, hmem, hmatch, rfl⟩
    · obtain ⟨q, hq, hfound⟩ := ih h
      exact ⟨q, List.mem_cons_of_mem p hq, hfound⟩

/-- What a look at the system gives for a core is what the search over its directories ends at. -/
def Dirs.Searched (pinfo : ProcInfo) : Prop :=
  recoverCoreDumpFile fs pinfo.pid pinfo.commandName.toList termSig os os.getCwd.toList =
    .ok (os.recoverCoreDumpFile pinfo.pid pinfo.commandName os.getCwd termSig).toList

/-- The storage gets nothing, or the path of a match in one of the directories. -/
theorem searchAndRegisterCoreDumpFile_found {Q : Type} [MaxOutFilesQueue Q] {c : Context Q}
    {pinfo : ProcInfo} (hsearched : fs.Searched termSig os pinfo) :
    c.searchAndRegisterCoreDumpFile os pinfo termSig = c ∨
      ∃ (p : CorePattern) (mask : List Char) (dir : D) (name : List Char),
        resolveMask pinfo.pid pinfo.commandName.toList termSig p.mask = .ok mask ∧
        fs.resolve p.path = some dir ∧ ⟨name, true⟩ ∈ fs.entries dir ∧
        os.matchesMask mask name = true ∧
        (c.searchAndRegisterCoreDumpFile os pinfo termSig).reports = c.reports ++
          [⟨none, getFileLength os (String.ofList (p.path ++ name)), String.ofList (p.path ++ name),
            pinfo⟩] := by
  rw [Context.searchAndRegisterCoreDumpFile]
  split
  · exact Or.inl rfl
  · rename_i hne
    have hpath : (os.recoverCoreDumpFile pinfo.pid pinfo.commandName os.getCwd termSig).toList ≠ [] :=
      fun hnil => hne (String.toList_eq_nil_iff.mp hnil)
    obtain ⟨p, _, mask, dir, name, hmask, hdir, hmem, hmatch, hfound⟩ :=
      searchFrom_found fs _ _ termSig os hsearched hpath
    refine Or.inr ⟨p, mask, dir, name, hmask, hdir, hmem, hmatch, ?_⟩
    rw [← hfound, String.ofList_toList]

end

/-- The path denotes a match, unless it is found in the last directory. -/
theorem recoverCoreDumpFile_denotes_iff {D : Type} {fs : Dirs D} {os : Os}
    (hmatches : os.MatchesPlain) (pid : Pid) (comm cwd : List Char) (termSig : Int) {first : CorePattern}
    (hfirst : first = defaultPattern (readFileSafe os CORE_PATTERN (-1))
      (readFileSafe os CORE_USES_PID (-1)) cwd)
    (hnamed : fs.WellNamed) :
    fs.ReturnsMatch pid comm termSig os cwd (searchPatterns first) ↔
      loneEnd first.mask = true ∨
        (∃ p ∈ (searchPatterns first).take 4, fs.Finds pid comm termSig os p) ∨
        ¬fs.Finds pid comm termSig os systemdPattern ∨ fs.Namesake pid comm termSig os := by
  have hrecover : recoverCoreDumpFile fs pid comm termSig os cwd =
      searchFrom fs pid comm termSig os (searchPatterns first) := by
    rw [hfirst]
    rfl
  unfold Dirs.ReturnsMatch
  rw [hrecover]
  cases hlone : loneEnd first.mask with
  | true =>
    have hfails : searchFrom fs pid comm termSig os (searchPatterns first) = .error .undefined := by
      rw [searchPatterns, searchFrom, resolveMask_eq, hlone]
      rfl
    simp [hfails]
  | false =>
    have hends : ∀ p ∈ (searchPatterns first).take 4, loneEnd p.mask = false := by
      intro p hp
      rcases mem_searchPatterns_take hp with rfl | ⟨hend, -⟩
      · exact hlone
      · exact hend
    have hall : (searchPatterns first).take 4 ++ [systemdPattern] = searchPatterns first := rfl
    have hsearch := searchFrom_front fs pid comm termSig os [systemdPattern] hends
    rw [hall] at hsearch
    rw [Bool.false_eq_true, false_or]
    rcases hsearch with ⟨p, entry, hp, hfound, hentry, hsearch⟩ | ⟨hmiss, hsearch⟩
    · obtain ⟨dir, hdir, hmem, hmatch⟩ := findEntry_ok fs os hentry
      refine iff_of_true ?_ (Or.inl ⟨p, hp, finds_of_findEntry fs pid comm termSig os hentry⟩)
      intro path hok _
      rw [hsearch] at hok
      cases hok
      have hslash : ∃ q, p.path = q ++ ['/'] := by
        rcases mem_searchPatterns_take hp with rfl | ⟨-, hslash⟩
        · exact ⟨_, by rw [hfirst]; rfl⟩
        · exact hslash
      exact ⟨p, _, dir, hfound, resolveMask_of_ends pid comm termSig (hends p hp), hdir,
        denotes_of_slash fs os hslash (hnamed dir ⟨entry.name, true⟩ hmem).1 hdir hmem hmatch⟩
    · have hnone : ¬∃ p ∈ (searchPatterns first).take 4, fs.Finds pid comm termSig os p := by
        rintro ⟨p, hp, hfinds⟩
        exact hmiss p hp hfinds
      have hlast : loneEnd systemdPattern.mask = false := by decide
      rw [or_iff_right hnone, hsearch, searchFrom_cons fs pid comm termSig os [] hlast]
      cases hfind : findEntry fs os systemdPattern.path
          (expand pid comm termSig starOrNul systemdPattern.mask) with
      | none =>
        have hno := (findEntry_eq_none_iff fs pid comm termSig os systemdPattern).mp hfind
        refine iff_of_true ?_ (Or.inl hno)
        intro path hok hne
        cases hok
        exact absurd rfl hne
      | some entry =>
        have hfinds := finds_of_findEntry fs pid comm termSig os hfind
        have hne : systemdPattern.path ++ entry.name ≠ [] :=
          fun h => absurd (List.append_eq_nil_iff.mp h).1 (by decide)
        rw [or_iff_right (not_not.mpr hfinds),
          ← last_denotes_iff fs pid comm termSig os hmatches hnamed hmiss hfind]
        constructor
        · intro h
          exact h _ rfl hne
        · rintro h path ⟨⟩ _
          exact h

/-- A core found in the working directory, where the pattern is `/tmp/core.%p`. -/
theorem recoverCoreDumpFile_denotes_tmp :
    (oneFile "/tmp/".toList "core.7".toList).ReturnsMatch 7 "sh".toList 11
      (coreOs ⟨"/tmp/core.%p", 0⟩) "/root".toList
      (searchPatterns (CoreSettings.firstPattern ⟨"/tmp/core.%p", 0⟩ "/root".toList)) := by
  refine (recoverCoreDumpFile_denotes_iff (coreOs_matches _) 7 "sh".toList "/root".toList 11 ?_ ?_).mpr
    (Or.inr (Or.inl ?_))
  · rw [readFileSafe_line (coreOs_shown _).corePattern, readFileSafe_line (coreOs_shown _).coreUsesPid,
      stripString_toString]
    rfl
  · intro _ entry hentry
    rw [List.mem_singleton.mp hentry]
    decide
  · exact ⟨_, List.mem_cons_self, (), by decide, _, List.mem_cons_self, rfl, by decide⟩

/-- What `systemd` keeps is found, but under a name that does not exist. -/
theorem recoverCoreDumpFile_misnames_systemd :
    recoverCoreDumpFile (oneFile "/var/lib/systemd/coredump".toList "core.sh.7".toList) 7
        "sh".toList 11 (coreOs ⟨"|/lib/systemd/systemd-coredump", 0⟩) "/tmp".toList =
      .ok "/var/lib/systemd/coredumpcore.sh.7".toList ∧
    ∀ dir mask, ¬(oneFile "/var/lib/systemd/coredump".toList "core.sh.7".toList).Denotes
      (coreOs ⟨"|/lib/systemd/systemd-coredump", 0⟩) "/var/lib/systemd/coredumpcore.sh.7".toList dir
      mask := by
  constructor
  · rw [recoverCoreDumpFile_eq _ _ _ _ _ (coreOs_shown _)]
    have hnone : ∀ p ∈ (searchPatterns (CoreSettings.firstPattern
        ⟨"|/lib/systemd/systemd-coredump", 0⟩ "/tmp".toList)).take 4,
        (oneFile "/var/lib/systemd/coredump".toList "core.sh.7".toList).resolve p.path = none := by
      decide
    have hall : (searchPatterns (CoreSettings.firstPattern
        ⟨"|/lib/systemd/systemd-coredump", 0⟩ "/tmp".toList)).take 4 ++ [systemdPattern] =
        searchPatterns (CoreSettings.firstPattern
          ⟨"|/lib/systemd/systemd-coredump", 0⟩ "/tmp".toList) := rfl
    have hends : ∀ p ∈ (searchPatterns (CoreSettings.firstPattern
        ⟨"|/lib/systemd/systemd-coredump", 0⟩ "/tmp".toList)).take 4, loneEnd p.mask = false := by
      decide
    have hsearch := searchFrom_front
      (oneFile "/var/lib/systemd/coredump".toList "core.sh.7".toList) 7 "sh".toList 11
      (coreOs ⟨"|/lib/systemd/systemd-coredump", 0⟩) [systemdPattern] hends
    rw [hall] at hsearch
    rcases hsearch with ⟨p, entry, hp, -, hentry, -⟩ | ⟨-, hsearch⟩
    · obtain ⟨dir, hdir, -⟩ := findEntry_ok _ _ hentry
      rw [hnone p hp] at hdir
      cases hdir
    · rw [hsearch, searchFrom_cons _ _ _ _ _ _ (by decide)]
      have hfind : findEntry (oneFile "/var/lib/systemd/coredump".toList "core.sh.7".toList)
          (coreOs ⟨"|/lib/systemd/systemd-coredump", 0⟩) systemdPattern.path
          (expand 7 "sh".toList 11 starOrNul systemdPattern.mask) =
            some ⟨"core.sh.7".toList, true⟩ := rfl
      rw [hfind]
      decide
  · rintro ⟨⟩ _ ⟨name, ⟨front, hsplit, hresolve⟩, -⟩
    have hfront : splitSlash "/var/lib/systemd/coredumpcore.sh.7".toList =
        some ("/var/lib/systemd".toList, "coredumpcore.sh.7".toList) := by decide
    rw [hfront] at hsplit
    cases hsplit
    exact absurd hresolve (by decide)

end Optrace
