/-
Small search patterns.

A pattern is a sequence of letters whose case does not matter, runs of one or
more blanks, and edges of words. It is looked for at the front of a text or
anywhere in it.
-/
import Mathlib.Data.List.Basic

namespace Ruletka

inductive Piece where
  | letter (c : Char)
  | blanks
  | edge

abbrev Pattern : Type := List Piece

namespace Pattern

variable (blank : Char → Bool)

/-- The pieces of a word. -/
def word (s : String) : Pattern := s.toList.map .letter

/-- A letter, digit or underscore. -/
def isWordChar (c : Char) : Bool := c.isAlphanum || c = '_'

def sameLetter (a b : Char) : Bool := a.toLower = b.toLower

/-- The pattern fits a text from its front on; the character before it is
part of the question where an edge is. -/
def fits : Pattern → Option Char → List Char → Bool
  | [], _, _ => true
  | .letter c :: p, _, s =>
    match s with
    | [] => false
    | d :: s => sameLetter c d && fits p (some d) s
  | .edge :: p, before, s =>
    before.any isWordChar != s.head?.any isWordChar && fits p before s
  | .blanks :: p, _, s =>
    -- the run may stop at any of its blanks
    (List.range (s.takeWhile blank).length).any fun k => fits p s[k]? (s.drop (k + 1))

/-- At the front of a text. -/
def begins (p : Pattern) (s : List Char) : Bool := fits blank p none s

/-- From some place of a text on. -/
def occursAfter (p : Pattern) : Option Char → List Char → Bool
  | before, [] => fits blank p before []
  | before, c :: s => fits blank p before (c :: s) || occursAfter p (some c) s

def occurs (p : Pattern) (s : List Char) : Bool := occursAfter blank p none s

variable {blank} {p q : Pattern} {before : Option Char} {s : List Char}

/-- A longer pattern asks for more. -/
theorem fits_of_append (h : fits blank (p ++ q) before s = true) :
    fits blank p before s = true := by
  induction p generalizing before s with
  | nil => rfl
  | cons x p ih =>
    cases x with
    | letter c =>
        cases s with
        | nil => exact h
        | cons d s =>
            obtain ⟨hc, hp⟩ := Bool.and_eq_true_iff.mp h
            exact Bool.and_eq_true_iff.mpr ⟨hc, ih hp⟩
    | edge =>
        obtain ⟨hedge, hp⟩ := Bool.and_eq_true_iff.mp h
        exact Bool.and_eq_true_iff.mpr ⟨hedge, ih hp⟩
    | blanks =>
        obtain ⟨k, hk, hp⟩ := List.any_eq_true.mp h
        exact List.any_eq_true.mpr ⟨k, hk, ih hp⟩

/-- Two texts that begin with different letters are different. -/
theorem sameLetter_of_begins {a b : Char} (ha : begins blank (.letter a :: p) s = true)
    (hb : begins blank (.letter b :: q) s = true) : a.toLower = b.toLower := by
  cases s with
  | nil => cases ha
  | cons d s =>
    have ha' := (Bool.and_eq_true_iff.mp ha).1
    have hb' := (Bool.and_eq_true_iff.mp hb).1
    exact (of_decide_eq_true ha').trans (of_decide_eq_true hb').symm

end Pattern

end Ruletka
