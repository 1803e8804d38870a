/-
Text operations as Rust's `str` has them, over character lists.

`trim` strips Unicode white space at both ends, the ASCII case maps leave
every other character alone, and prefix and suffix tests compare whole
characters.
-/
import Mathlib.Data.String.Basic
import Mathlib.Data.List.DropRight
import Mathlib.Data.List.TakeWhile
import Mathlib.Data.List.Infix

namespace Ruletka.Text

/-- Unicode `White_Space`. -/
def isWhite (c : Char) : Bool :=
  let n := c.toNat
  (9 ≤ n && n ≤ 13) || n == 0x20 || n == 0x85 || n == 0xA0 || n == 0x1680
    || (0x2000 ≤ n && n ≤ 0x200A) || n == 0x2028 || n == 0x2029
    || n == 0x202F || n == 0x205F || n == 0x3000

/-- A text without the blanks at its ends. -/
def trimBy (blank : Char → Bool) (s : String) : String :=
  String.ofList ((s.toList.dropWhile blank).reverse.dropWhile blank).reverse

/-- `str::trim`. -/
def trim (s : String) : String :=
  String.ofList
    ((s.toList.dropWhile isWhite).reverse.dropWhile isWhite).reverse

/-- `chars().take(n)`. -/
def takeChars (n : Nat) (s : String) : String :=
  String.ofList (s.toList.take n)

/-- `to_ascii_uppercase`. -/
def upper (s : String) : String := String.ofList (s.toList.map Char.toUpper)

/-- `to_ascii_lowercase`. -/
def lower (s : String) : String := String.ofList (s.toList.map Char.toLower)

/-- `char::to_lowercase`, as far as a text in ASCII can tell: no other character
beyond ASCII becomes an ASCII letter. -/
def lowercaseOf (c : Char) : List Char :=
  match c.toNat with
  | 0x130 => ['i', Char.ofNat 0x307]
  | 0x212A => ['k']
  | _ => [c.toLower]

/-- `char::to_uppercase`, likewise. -/
def uppercaseOf (c : Char) : List Char :=
  match c.toNat with
  | 0xDF => ['S', 'S']
  | 0x131 => ['I']
  | 0x149 => [Char.ofNat 0x2BC, 'N']
  | 0x17F => ['S']
  | 0x1F0 => ['J', Char.ofNat 0x30C]
  | 0x1E96 => ['H', Char.ofNat 0x331]
  | 0x1E97 => ['T', Char.ofNat 0x308]
  | 0x1E98 => ['W', Char.ofNat 0x30A]
  | 0x1E99 => ['Y', Char.ofNat 0x30A]
  | 0x1E9A => ['A', Char.ofNat 0x2BE]
  | 0xFB00 => ['F', 'F']
  | 0xFB01 => ['F', 'I']
  | 0xFB02 => ['F', 'L']
  | 0xFB03 => ['F', 'F', 'I']
  | 0xFB04 => ['F', 'F', 'L']
  | 0xFB05 | 0xFB06 => ['S', 'T']
  | _ => [c.toUpper]

/-- `str::to_lowercase`. -/
def toLowercase (s : String) : String := String.ofList (s.toList.flatMap lowercaseOf)

/-- `str::to_uppercase`. -/
def toUppercase (s : String) : String := String.ofList (s.toList.flatMap uppercaseOf)

/-- `str::starts_with`. -/
def hasPrefix (s p : String) : Bool := p.toList.isPrefixOf s.toList

/-- `str::ends_with`. -/
def hasSuffix (s p : String) : Bool := p.toList.isSuffixOf s.toList

/-- `str::contains` for a text pattern. -/
def hasInfix (s p : String) : Bool :=
  s.toList.tails.any fun t => p.toList.isPrefixOf t

/-- `str::replace` of one character by nothing. -/
def without (c : Char) (s : String) : String :=
  String.ofList (s.toList.filter (· ≠ c))

/-- `&s[..n]`: nothing when byte `n` is inside of a character or past the end. -/
def sliceTo (s : String) (n : Nat) : Option String :=
  if String.Pos.Raw.isValid s ⟨n⟩ then some (String.Pos.Raw.extract s 0 ⟨n⟩) else none

/-- The lower-case hexadecimal digit of a nibble. -/
def hexDigit (n : Nat) : Char := "0123456789abcdef".toList.getD n '0'

-- ======================================================================= trimming

/-- Nothing is left of a text of white space, and only of that. -/
theorem trim_eq_empty_iff (s : String) : trim s = "" ↔ ∀ c ∈ s.toList, isWhite c := by
  rw [trim, ← String.toList_eq_nil_iff, String.toList_ofList, List.reverse_eq_nil_iff,
    List.dropWhile_eq_nil_iff]
  simp only [List.mem_reverse]
  constructor
  · intro h
    by_contra hs
    simp only [not_forall] at hs
    obtain ⟨c, hc, hw⟩ := hs
    have hne : s.toList.dropWhile isWhite ≠ [] := by
      rw [Ne, List.dropWhile_eq_nil_iff]
      exact fun hall => hw (hall c hc)
    exact absurd (h _ (List.head_mem hne)) (by simp [List.head_dropWhile_not isWhite hne])
  · intro h
    rw [List.dropWhile_eq_nil_iff.mpr h]
    simp

/-- A trimmed text has no margin. -/
theorem trimBy_trimBy (blank : Char → Bool) (s : String) :
    trimBy blank (trimBy blank s) = trimBy blank s := by
  have hback : ∀ l : List Char, (l.reverse.dropWhile blank).reverse = l.rdropWhile blank :=
    fun _ => rfl
  have hmid : ((s.toList.dropWhile blank).rdropWhile blank).dropWhile blank
      = (s.toList.dropWhile blank).rdropWhile blank := by
    rw [List.dropWhile_eq_self_iff]
    intro hpos
    have hpre := List.rdropWhile_prefix blank (s.toList.dropWhile blank)
    rw [hpre.getElem hpos]
    exact List.dropWhile_get_zero_not _ _ (hpos.trans_le hpre.length_le)
  unfold trimBy
  rw [String.toList_ofList, hback, hback, hmid, List.rdropWhile_idempotent]

theorem trim_trim (s : String) : trim (trim s) = trim s := trimBy_trimBy isWhite s

/-- Text in front of one that ends in something else loses its own margin. -/
theorem trim_append_of_text (t : String) {s : String} {b : Char} (hb : ¬ isWhite b)
    {body : List Char} (hs : s.toList = body ++ [b]) (ht : trim t ≠ "") :
    (trim (t ++ s)).toList = t.toList.dropWhile isWhite ++ s.toList := by
  have hne : ¬ (t.toList.dropWhile isWhite).isEmpty := by
    rw [List.isEmpty_iff, List.dropWhile_eq_nil_iff, ← trim_eq_empty_iff]
    exact ht
  have hback : (t.toList.dropWhile isWhite ++ s.toList).reverse.dropWhile isWhite
      = (t.toList.dropWhile isWhite ++ s.toList).reverse := by
    rw [hs, ← List.append_assoc, List.reverse_append, List.reverse_singleton,
      List.singleton_append, List.dropWhile_cons_of_neg hb]
  rw [trim, String.toList_append, String.toList_ofList, List.dropWhile_append, if_neg hne,
    hback, List.reverse_reverse]

/-- White space in front of a text that begins and ends in something else. -/
theorem trim_append_of_white {t s : String} (ht : ∀ c ∈ t.toList, isWhite c) {a b : Char}
    (ha : ¬ isWhite a) (hb : ¬ isWhite b) {body : List Char}
    (hs : s.toList = a :: (body ++ [b])) : trim (t ++ s) = s := by
  have hfront : (t.toList ++ a :: (body ++ [b])).dropWhile isWhite = a :: (body ++ [b]) := by
    rw [List.dropWhile_append_of_pos ht, List.dropWhile_cons_of_neg ha]
  have hback : (a :: (body ++ [b])).reverse.dropWhile isWhite
      = (a :: (body ++ [b])).reverse := by
    rw [List.reverse_cons, List.reverse_append, List.reverse_singleton, List.append_assoc,
      List.singleton_append, List.dropWhile_cons_of_neg hb]
  rw [trim, String.toList_append, hs, hfront, hback, List.reverse_reverse, ← hs,
    String.ofList_toList]

-- ======================================================================= parts

theorem hasInfix_iff (s p : String) : hasInfix s p = true ↔ p.toList <:+: s.toList := by
  unfold hasInfix
  rw [List.any_eq_true]
  constructor
  · intro h
    obtain ⟨t, ht, hp⟩ := h
    have hsuffix := (List.mem_tails _ _).mp ht
    exact List.infix_iff_prefix_suffix.mpr ⟨t, List.isPrefixOf_iff_prefix.mp hp, hsuffix⟩
  · intro h
    obtain ⟨t, hp, ht⟩ := List.infix_iff_prefix_suffix.mp h
    exact ⟨t, (List.mem_tails _ _).mpr ht, List.isPrefixOf_iff_prefix.mpr hp⟩

/-- A part without a character lies on one side of it. -/
theorem infix_append_cons_iff {a b p : List Char} {c : Char} (hc : c ∉ p) :
    p <:+: a ++ c :: b ↔ p <:+: a ∨ p <:+: b := by
  constructor
  · intro h
    obtain ⟨s, t, h⟩ := h
    obtain ⟨a', ha, -⟩ | ⟨l, hl, hb⟩ := List.append_eq_append_iff.mp h
    · exact .inl ⟨s, a', ha.symm⟩
    cases l with
    | nil => exact .inl ⟨s, [], by rw [List.append_nil, hl, List.append_nil]⟩
    | cons x l =>
        obtain ⟨rfl, hrest⟩ := List.cons.inj hb
        obtain ⟨m, -, hm⟩ | ⟨m, -, hm⟩ := List.append_eq_append_iff.mp hl
        · rw [hm] at hc
          exact absurd (List.mem_append_right m List.mem_cons_self) hc
        · cases m with
          | nil =>
              rw [← List.nil_append p, ← hm] at hc
              exact absurd List.mem_cons_self hc
          | cons y m =>
              obtain ⟨-, hm⟩ := List.cons.inj hm
              exact .inr ⟨m, t, by rw [hrest, hm, List.append_eq, List.append_eq]⟩
  · intro h
    obtain h | h := h
    · exact h.trans (List.prefix_append a (c :: b)).isInfix
    · exact h.trans ((List.suffix_cons c b).trans (List.suffix_append a (c :: b))).isInfix

/-- A part without a blank lies in one of the texts that blanks join. -/
theorem infix_map_intercalate_iff {f : Char → Char} (hf : f ' ' = ' ') {p : List Char}
    (hp : p ≠ []) (hblank : ' ' ∉ p) (texts : List (List Char)) :
    p <:+: ([' '].intercalate texts).map f ↔ ∃ s ∈ texts, p <:+: s.map f := by
  induction texts with
  | nil => simp [hp]
  | cons s texts ih =>
      cases texts with
      | nil => simp [List.intercalate_singleton]
      | cons s' texts =>
          rw [List.intercalate_cons_cons, List.append_assoc, List.map_append,
            List.singleton_append, List.map_cons, hf, infix_append_cons_iff hblank, ih,
            List.exists_mem_cons_iff _ s]

end Ruletka.Text
