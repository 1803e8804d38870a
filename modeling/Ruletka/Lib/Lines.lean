/-
Texts of lines that end with a carriage return and a line feed.

Splitting such a text at its line ends leaves an empty text behind the last
one, and joining gives the text back. A joined text that does not end with an
empty line is no text of lines.
-/
import Mathlib.Data.List.Basic

namespace Ruletka

namespace Lines

/-- Put a character in front of the first line. -/
def push (c : Char) : List (List Char) → List (List Char)
  | [] => [[c]]
  | l :: ls => (c :: l) :: ls

/-- The characters between line ends: a line feed, with the carriage return
before it if there is one. -/
def split : List Char → List (List Char)
  | [] => [[]]
  | c :: s =>
    if c = '\n' then [] :: split s
    else if c = '\r' ∧ s.head? = some '\n' then split s
    else push c (split s)

def crlf : List Char := ['\r', '\n']

def join (ls : List (List Char)) : List Char := crlf.intercalate ls

/-- The text of these lines, each with its end. -/
def text (ls : List (List Char)) : List Char := (ls.map (· ++ crlf)).flatten

/-- A line has no line feed in it, and is not empty. -/
def IsLine (l : List Char) : Prop := l ≠ [] ∧ '\n' ∉ l

variable {l s : List Char} {ls : List (List Char)}

theorem split_line (hl : '\n' ∉ l) : split (l ++ crlf ++ s) = l :: split s := by
  induction l with
  | nil => rfl
  | cons c l ih =>
    obtain ⟨hc, hl⟩ := not_or.mp fun h => hl (List.mem_cons.mpr h)
    -- what follows is a character of the line or a carriage return
    have hhead : (l ++ crlf ++ s).head? ≠ some '\n' := by
      cases l with
      | nil => exact fun h => absurd (Option.some.inj h) (by decide)
      | cons c' l => exact fun h => hl (List.mem_cons.mpr (.inl (Option.some.inj h).symm))
    rw [List.cons_append, List.cons_append, split, if_neg (Ne.symm hc),
      if_neg fun h => hhead h.2, ih hl]
    rfl

/-- **Splitting** a text of lines. -/
theorem split_text (hls : ∀ l ∈ ls, '\n' ∉ l) : split (text ls) = ls ++ [[]] := by
  induction ls with
  | nil => rfl
  | cons l ls ih =>
    have htext : text (l :: ls) = l ++ crlf ++ text ls := rfl
    rw [htext, split_line (hls l List.mem_cons_self),
      ih fun l' h => hls l' (List.mem_cons_of_mem _ h), List.cons_append]

/-- A text has its lines only. -/
theorem text_inj {ls' : List (List Char)} (hls : ∀ l ∈ ls, '\n' ∉ l) (hls' : ∀ l ∈ ls', '\n' ∉ l)
    (h : text ls = text ls') : ls = ls' := by
  have hsplit := split_text hls
  rw [h, split_text hls'] at hsplit
  exact (List.append_cancel_right hsplit).symm

theorem join_cons (hls : ls ≠ []) (l : List Char) : join (l :: ls) = l ++ crlf ++ join ls :=
  List.intercalate_cons_of_ne_nil hls

/-- **Joining** them again. -/
theorem join_append_nil (ls : List (List Char)) : join (ls ++ [[]]) = text ls := by
  induction ls with
  | nil => rfl
  | cons l ls ih =>
    rw [List.cons_append, join_cons (List.append_ne_nil_of_right_ne_nil _ (by simp)), ih]
    rfl

theorem text_eq_nil_iff : text ls = [] ↔ ls = [] := by
  cases ls with
  | nil => exact iff_of_true rfl rfl
  | cons l ls =>
    refine iff_of_false (fun h => ?_) (List.cons_ne_nil _ _)
    have hcrlf := (List.append_eq_nil_iff.mp (List.append_eq_nil_iff.mp h).1).2
    cases hcrlf

/-- A text of lines ends with a line feed. -/
theorem getLast?_text (hls : ls ≠ []) : (text ls).getLast? = some '\n' := by
  obtain ⟨ls, l, rfl⟩ := List.eq_nil_or_concat' ls |>.resolve_left hls
  have htext : text (ls ++ [l]) = text ls ++ l ++ ['\r'] ++ ['\n'] := by
    unfold text
    simp [crlf]
  rw [htext, List.getLast?_concat]

/-- A joined text ends with its last line. -/
theorem getLast?_join (ls : List (List Char)) (hl : l ≠ []) :
    (join (ls ++ [l])).getLast? = l.getLast? := by
  induction ls with
  | nil => exact congrArg List.getLast? List.intercalate_singleton
  | cons l' ls ih =>
    rw [List.cons_append, join_cons (List.append_ne_nil_of_right_ne_nil _ (by simp)),
      List.getLast?_append, ih, List.getLast?_eq_some_getLast hl]
    rfl

/-- What ends with a line that has no line end is no text of lines. -/
theorem join_ne_text (ls ls' : List (List Char)) (hl : IsLine l) :
    join (ls ++ [l]) ≠ text ls' := by
  intro h
  have hlast := getLast?_join ls hl.1
  rw [h, List.getLast?_eq_some_getLast hl.1] at hlast
  by_cases hls' : ls' = []
  · rw [hls'] at hlast
    cases hlast
  · rw [getLast?_text hls', Option.some_inj] at hlast
    exact hl.2 (hlast ▸ List.getLast_mem hl.1)

end Lines

end Ruletka
