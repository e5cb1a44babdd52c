import Mathlib.Data.List.Infix

/-!
# File name patterns

Patterns of `*`, `?` and plain characters, as the shell has them.
-/

namespace Glob

set_option autoImplicit false

inductive Token where
  | char (c : Char)
  | one
  | star
  deriving DecidableEq

/-- What a character of a pattern without brackets stands for. -/
def plainToken (c : Char) : Token :=
  if c = '*' then .star else if c = '?' then .one else .char c

/-- The character is one the token stands for. -/
def Token.accepts (c : Char) : Token → Bool
  | .char d => c == d
  | _ => true

def matchTokens : List Token → List Char → Bool
  | [], s => s.isEmpty
  | .star :: ts, s => s.tails.any (matchTokens ts)
  | t :: ts, s =>
    match s with
    | [] => false
    | c :: s => t.accepts c && matchTokens ts s

/-- The pattern, of plain characters, `*` and `?`, matches the whole name. -/
def matchPlain (pattern name : List Char) : Bool := matchTokens (pattern.map plainToken) name

example : matchPlain "*.?pp".toList "cores.cpp".toList = true := by decide

theorem matchTokens_star {ts : List Token} {s t : List Char} (h : matchTokens ts t = true) :
    matchTokens (.star :: ts) (s ++ t) = true := by
  simp only [matchTokens, List.any_eq_true, List.mem_tails]
  exact ⟨t, List.suffix_append s t, h⟩

/-- What matches behind a leading `*` matches with more in front of it. -/
theorem matchTokens_front {ts : List Token} {s : List Char} (u : List Char)
    (h : matchTokens (.star :: ts) s = true) : matchTokens (.star :: ts) (u ++ s) = true := by
  simp only [matchTokens, List.any_eq_true, List.mem_tails] at h ⊢
  obtain ⟨t, ht, hmatch⟩ := h
  exact ⟨t, ht.trans (List.suffix_append u s), hmatch⟩

theorem matchTokens_plain (c : Char) {ts : List Token} {s : List Char}
    (h : matchTokens ts s = true) : matchTokens (plainToken c :: ts) (c :: s) = true := by
  unfold plainToken
  split
  · exact matchTokens_star (s := [c]) h
  · split
    · simpa [matchTokens, Token.accepts] using h
    · simpa [matchTokens, Token.accepts] using h

theorem matchTokens_self (u : List Char) {ts : List Token} {s : List Char}
    (h : matchTokens ts s = true) : matchTokens (u.map plainToken ++ ts) (u ++ s) = true := by
  induction u with
  | nil => exact h
  | cons c u ih => exact matchTokens_plain c ih

end Glob
