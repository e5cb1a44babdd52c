import Mathlib.Data.List.Basic

/-!
# Option scanning

What the calls of `getopt_long` return one after the other, for an argument vector and a pair of
tables. Scanning ends at the first element that is no option, as the leading `+` of a short table
asks.
-/

set_option autoImplicit false

namespace Getopt

structure LongOption where
  name : String
  requiredArgument : Bool
  val : Char
  deriving DecidableEq

structure Tables where
  short : String
  long : List LongOption

/-- What a call returns: the value of an option, with its argument (empty if it takes none), or
`'?'`. -/
inductive Return where
  | option (val : Char) (optarg : String)
  | unknown
  deriving DecidableEq

/-- Whether a letter of the short table takes an argument, which the colon after it says. -/
def shortArgument (c : Char) : List Char → Option Bool
  | [] => none
  | ch :: rest => if ch = c ∧ c ≠ ':' then some (rest.head? == some ':') else shortArgument c rest

namespace Tables

def letters (t : Tables) : List Char :=
  match t.short.toList with
  | '+' :: rest => rest
  | rest => rest

/-- The entry of that name, or else the only one the name is the beginning of. -/
def findLong (t : Tables) (name : List Char) : Option LongOption :=
  match t.long.find? fun entry => entry.name.toList == name with
  | some entry => some entry
  | none =>
    match t.long.filter fun entry => name.isPrefixOf entry.name.toList with
    | [] => none
    | entry :: others =>
      if others.all fun other =>
          other.requiredArgument == entry.requiredArgument && other.val == entry.val then some entry
      else none

/-- The text behind the dashes of a long option, and whether the next element is its argument. -/
def longReturn (t : Tables) (text : List Char) (next : Option String) : Return × Bool :=
  match t.findLong (text.takeWhile fun ch => ch != '=') with
  | none => (.unknown, false)
  | some entry =>
    match entry.requiredArgument, text.dropWhile (fun ch => ch != '='), next with
    | false, [], _ => (.option entry.val "", false)
    | false, _ :: _, _ => (.unknown, false)
    | true, _ :: value, _ => (.option entry.val (String.ofList value), false)
    | true, [], some value => (.option entry.val value, true)
    | true, [], none => (.unknown, false)

/-- The letters behind one dash. -/
def cluster (t : Tables) (next : Option String) : List Char → List Return × Bool
  | [] => ([], false)
  | ch :: rest =>
    match shortArgument ch t.letters with
    | none =>
      let (rs, took) := t.cluster next rest
      (.unknown :: rs, took)
    | some false =>
      let (rs, took) := t.cluster next rest
      (.option ch "" :: rs, took)
    | some true =>
      match rest, next with
      | _ :: _, _ => ([.option ch (String.ofList rest)], false)
      | [], some value => ([.option ch value], true)
      | [], none => ([.unknown], false)

/-- What an element gives, if it is an option. -/
def element (t : Tables) (arg : List Char) (next : Option String) : Option (List Return × Bool) :=
  match arg with
  | '-' :: '-' :: text =>
    let (r, took) := t.longReturn text next
    some ([r], took)
  | '-' :: ch :: rest => some (t.cluster next (ch :: rest))
  | _ => none

/-- The returned values up to the end of the options, and the elements left then. -/
def returns (t : Tables) : List String → List Return × List String
  | [] => ([], [])
  | arg :: args =>
    if arg = "--" then ([], args)
    else
      match t.element arg.toList args.head?, args with
      | none, _ => ([], arg :: args)
      | some (rs, _), [] => (rs, [])
      | some (rs, true), _ :: args' =>
        let (rs', rest) := t.returns args'
        (rs ++ rs', rest)
      | some (rs, false), args' =>
        let (rs', rest) := t.returns args'
        (rs ++ rs', rest)

/-! ## One element -/

variable {t : Tables}

theorem returns_cons {arg : String} {args : List String} (rs : List Return) (hend : arg ≠ "--")
    (h : t.element arg.toList args.head? = some (rs, false)) :
    t.returns (arg :: args) = (rs ++ (t.returns args).1, (t.returns args).2) := by
  conv_lhs => unfold returns
  rw [if_neg hend]
  cases args with
  | nil =>
    simp only [h]
    simp [returns]
  | cons arg' args => simp only [h]

theorem returns_cons_took {arg value : String} {args : List String} (rs : List Return)
    (hend : arg ≠ "--") (h : t.element arg.toList (some value) = some (rs, true)) :
    t.returns (arg :: value :: args) = (rs ++ (t.returns args).1, (t.returns args).2) := by
  conv_lhs => unfold returns
  rw [if_neg hend]
  simp only [List.head?_cons, h]

theorem returns_end (args : List String) : t.returns ("--" :: args) = ([], args) := by
  unfold returns
  rw [if_pos rfl]

theorem returns_stop {arg : String} {args : List String} (hdash : arg.toList.head? ≠ some '-') :
    t.returns (arg :: args) = ([], arg :: args) := by
  have hend : arg ≠ "--" := by
    rintro rfl
    exact hdash (by decide)
  have helement : t.element arg.toList args.head? = none := by
    unfold element
    split
    · rename_i heq
      rw [heq] at hdash
      exact absurd rfl hdash
    · rename_i heq
      rw [heq] at hdash
      exact absurd rfl hdash
    · rfl
  unfold returns
  rw [if_neg hend]
  simp only [helement]

end Tables

/-! ## Options written out -/

/-- The elements that spell an option in its short or its long form, and what is returned for
them. -/
inductive Spells (t : Tables) : List String → Return → Prop where
  | short {c : Char} (hletter : shortArgument c t.letters = some false) (hdash : c ≠ '-') :
      Spells t [String.ofList ['-', c]] (.option c "")
  | shortSeparate {c : Char} (value : String) (hletter : shortArgument c t.letters = some true)
      (hdash : c ≠ '-') : Spells t [String.ofList ['-', c], value] (.option c value)
  | shortAttached {c : Char} (value : String) (hletter : shortArgument c t.letters = some true)
      (hdash : c ≠ '-') (hvalue : value ≠ "") :
      Spells t [String.ofList ('-' :: c :: value.toList)] (.option c value)
  | long {entry : LongOption} (hentry : t.findLong entry.name.toList = some entry)
      (hname : entry.name ≠ "" ∧ '=' ∉ entry.name.toList) (hargument : entry.requiredArgument = false) :
      Spells t ["--" ++ entry.name] (.option entry.val "")
  | longSeparate {entry : LongOption} (value : String)
      (hentry : t.findLong entry.name.toList = some entry)
      (hname : entry.name ≠ "" ∧ '=' ∉ entry.name.toList) (hargument : entry.requiredArgument = true) :
      Spells t ["--" ++ entry.name, value] (.option entry.val value)
  | longEquals {entry : LongOption} (value : String)
      (hentry : t.findLong entry.name.toList = some entry)
      (hname : entry.name ≠ "" ∧ '=' ∉ entry.name.toList) (hargument : entry.requiredArgument = true) :
      Spells t ["--" ++ entry.name ++ "=" ++ value] (.option entry.val value)

namespace Spells

variable {t : Tables} {words : List String} {r : Return}

theorem element_short {c : Char} {rest : List Char} (hdash : c ≠ '-') (next : Option String) :
    t.element ('-' :: c :: rest) next = some (t.cluster next (c :: rest)) := by
  unfold Tables.element
  split
  · rename_i heq
    cases heq
    exact absurd rfl hdash
  · rename_i heq
    cases heq
    rfl
  · rename_i hnone
    exact absurd rfl (hnone c rest)

theorem ne_dashes {text : List Char} (h : text ≠ ['-', '-']) : String.ofList text ≠ "--" := by
  intro heq
  have hlist := congrArg String.toList heq
  rw [String.toList_ofList] at hlist
  exact h hlist

theorem ne_end {arg name : String} {rest : List Char} (hname : name ≠ "")
    (hlist : arg.toList = '-' :: '-' :: (name.toList ++ rest)) : arg ≠ "--" := by
  rintro rfl
  have hempty : name.toList ++ rest = [] := by simpa using hlist.symm
  exact hname (String.toList_inj.mp (List.append_eq_nil_iff.mp hempty).1)

/-- The name in front of an equals sign, or of the end. -/
theorem takeWhile_name {name : List Char} (rest : List Char) (hname : '=' ∉ name)
    (hrest : ∀ ch ∈ rest.head?, ch = '=') :
    (name ++ rest).takeWhile (fun ch => ch != '=') = name ∧
      (name ++ rest).dropWhile (fun ch => ch != '=') = rest := by
  have hall : ∀ ch ∈ name, (ch != '=') = true := by
    intro ch hch
    rw [bne_iff_ne]
    rintro rfl
    exact hname hch
  rw [List.takeWhile_append_of_pos hall, List.dropWhile_append_of_pos hall]
  cases rest with
  | nil => simp
  | cons ch rest => simp [hrest ch rfl]

theorem returns_append (h : Spells t words r) (args : List String) :
    t.returns (words ++ args) = (r :: (t.returns args).1, (t.returns args).2) := by
  cases h with
  | @short c hletter hdash =>
    have hend : String.ofList ['-', c] ≠ "--" := ne_dashes fun h => hdash (by simpa using h)
    refine Tables.returns_cons [_] hend ?_
    rw [String.toList_ofList, element_short hdash]
    simp [Tables.cluster, hletter]
  | @shortSeparate c value hletter hdash =>
    have hend : String.ofList ['-', c] ≠ "--" := ne_dashes fun h => hdash (by simpa using h)
    refine Tables.returns_cons_took [_] hend ?_
    rw [String.toList_ofList, element_short hdash]
    simp [Tables.cluster, hletter]
  | @shortAttached c value hletter hdash hvalue =>
    have hend : String.ofList ('-' :: c :: value.toList) ≠ "--" :=
      ne_dashes fun h => hdash (by simp at h; exact h.1)
    refine Tables.returns_cons [_] hend ?_
    rw [String.toList_ofList, element_short hdash]
    cases htext : value.toList with
    | nil => exact absurd (String.toList_inj.mp htext) hvalue
    | cons ch rest =>
      have hofList : String.ofList (ch :: rest) = value := by rw [← htext, String.ofList_toList]
      simp [Tables.cluster, hletter, hofList]
  | @long entry hentry hname hargument =>
    have hlist : ("--" ++ entry.name).toList = '-' :: '-' :: (entry.name.toList ++ []) := by simp
    obtain ⟨htake, hdrop⟩ := takeWhile_name [] hname.2 (by simp)
    refine Tables.returns_cons [_] (ne_end hname.1 hlist) ?_
    rw [hlist, Tables.element, Tables.longReturn, htake, hdrop, hentry]
    simp [hargument]
  | @longSeparate entry value hentry hname hargument =>
    have hlist : ("--" ++ entry.name).toList = '-' :: '-' :: (entry.name.toList ++ []) := by simp
    obtain ⟨htake, hdrop⟩ := takeWhile_name [] hname.2 (by simp)
    refine Tables.returns_cons_took [_] (ne_end hname.1 hlist) ?_
    rw [hlist, Tables.element, Tables.longReturn, htake, hdrop, hentry]
    simp [hargument]
  | @longEquals entry value hentry hname hargument =>
    have hlist : ("--" ++ entry.name ++ "=" ++ value).toList =
        '-' :: '-' :: (entry.name.toList ++ '=' :: value.toList) := by simp
    obtain ⟨htake, hdrop⟩ := takeWhile_name ('=' :: value.toList) hname.2 (by simp)
    refine Tables.returns_cons [_] (ne_end hname.1 hlist) ?_
    rw [hlist, Tables.element, Tables.longReturn, htake, hdrop, hentry]
    simp [hargument]

end Spells

/-- A sequence of options written out, one after the other. -/
inductive SpellsAll (t : Tables) : List String → List Return → Prop where
  | nil : SpellsAll t [] []
  | cons {words words' : List String} {r : Return} {rs : List Return} (h : Spells t words r)
      (hs : SpellsAll t words' rs) : SpellsAll t (words ++ words') (r :: rs)

theorem SpellsAll.returns_append {t : Tables} {words : List String} {rs : List Return}
    (h : SpellsAll t words rs) (args : List String) :
    t.returns (words ++ args) = (rs ++ (t.returns args).1, (t.returns args).2) := by
  induction h with
  | nil => rfl
  | cons h _ ih => rw [List.append_assoc, h.returns_append, ih, List.cons_append]

/-- Up to the first element that does not begin with a dash all options are returned. -/
theorem SpellsAll.returns_eq {t : Tables} {words : List String} {rs : List Return}
    (h : SpellsAll t words rs) {arg : String} (hdash : arg.toList.head? ≠ some '-')
    (args : List String) : t.returns (words ++ arg :: args) = (rs, arg :: args) := by
  rw [h.returns_append, Tables.returns_stop hdash, List.append_nil]

end Getopt
