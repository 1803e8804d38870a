/-
Explicit text stays explicit wherever it stands.

# Around it

The explicit rule looks at the tokens alone, and every detector in it looks
for some tokens behind each other. Text that is set off from a message puts
its tokens in front of the message's or behind them, and what is found among
these is found among all.

# Spelled out

A listed word is of one script, so no letter of it is mapped. Respelled, it
folds to a text in which letters stand several times, and is squeezed to what
the word itself is squeezed to.
-/
import Ruletka.Chat.Filter

namespace Ruletka

variable {T : CharTable}

namespace ChatFilter

-- ==================================================================== the tokens

/-- A character at which a text is cut into tokens. -/
def Separates (T : CharTable) (c : Char) : Prop := isTokenChar T (foldChar T c) = false

instance (T : CharTable) (c : Char) : Decidable (Separates T c) :=
  inferInstanceAs (Decidable (_ = _))

/-- A text in front ends, and a text behind begins, in such a character. -/
structure SetOff (T : CharTable) (before after : String) : Prop where
  before : ∀ c, before.toList.getLast? = some c → Separates T c
  after : ∀ c, after.toList.head? = some c → Separates T c

theorem split_cut (l r : Chars) {c : Char} (hc : isTokenChar T c = false) :
    split T (l ++ c :: r) = split T l ++ split T r := by
  have hsep : (!isTokenChar T c) = true := by simp [hc]
  rw [split, List.splitOnP_append_cons l r hsep, List.filter_append]
  rfl

theorem split_nil : split T [] = [] := by simp [split]

/-- A text of token characters is one token. -/
theorem split_token {l : Chars} (hne : l ≠ []) (hl : ∀ c ∈ l, isTokenChar T c = true) :
    split T l = [l] := by
  rw [split, List.splitOnP_eq_singleton fun c hc => by simp [hl c hc]]
  simp [hne]

theorem foldText_append (p s : String) : foldText T (p ++ s) = foldText T p ++ foldText T s := by
  rw [foldText, String.toList_append, List.map_append]
  rfl

/-- The tokens of a message that is set off stand in one piece among all. -/
theorem split_around {p s : String} (b : String) (hset : SetOff T p s) :
    split T (foldText T (p ++ b ++ s))
      = split T (foldText T p) ++ split T (foldText T b) ++ split T (foldText T s) := by
  have hfront : ∀ l : Chars, split T (foldText T p ++ l) = split T (foldText T p) ++ split T l := by
    intro l
    rcases List.eq_nil_or_concat p.toList with hp | ⟨q, c, hp⟩
    · simp [foldText, hp, split_nil]
    · have hc : isTokenChar T (foldChar T c) = false := hset.before c (by simp [hp])
      have hq : foldText T p = q.map (foldChar T) ++ [foldChar T c] := by
        simp [foldText, hp]
      rw [hq, List.append_assoc, List.singleton_append, split_cut _ _ hc, split_cut _ _ hc,
        split_nil, List.append_nil]
  have hback : ∀ l : Chars, split T (l ++ foldText T s) = split T l ++ split T (foldText T s) := by
    intro l
    cases hs : s.toList with
    | nil => simp [foldText, hs, split_nil]
    | cons c r =>
        have hc : isTokenChar T (foldChar T c) = false := hset.after c (by simp [hs])
        have hr : foldText T s = foldChar T c :: r.map (foldChar T) := by simp [foldText, hs]
        have halone := split_cut [] (r.map (foldChar T)) hc
        rw [split_nil, List.nil_append, List.nil_append] at halone
        rw [hr, split_cut _ _ hc, halone]
  rw [foldText_append, foldText_append, List.append_assoc, hfront, hback, List.append_assoc]

end ChatFilter

open ChatFilter

namespace ChatText

theorem toks_around {p s : String} (b : String) (hset : SetOff T p s) :
    (new T (p ++ b ++ s)).toks = (new T p).toks ++ (new T b).toks ++ (new T s).toks := by
  simp only [new, split_around b hset, List.map_append, List.filter_append]

-- ================================================================= the explicit rule

variable {t t' : ChatText}

/-- All tokens of one text stand in one piece among those of another. -/
def Within (t t' : ChatText) : Prop := t.toks <:+: t'.toks

theorem Within.anyEq (h : t.Within t') {words : List String} (hhit : t.anyEq T words = true) :
    t'.anyEq T words = true := by
  obtain ⟨w, hw, hhit⟩ := List.any_eq_true.mp hhit
  obtain ⟨tok, htok, heq⟩ := List.any_eq_true.mp hhit
  exact List.any_eq_true.mpr ⟨w, hw, List.any_eq_true.mpr ⟨tok, h.subset htok, heq⟩⟩

theorem Within.anyPrefix (h : t.Within t') {words : List String}
    (hhit : t.anyPrefix T words = true) : t'.anyPrefix T words = true := by
  obtain ⟨w, hw, hhit⟩ := List.any_eq_true.mp hhit
  obtain ⟨tok, htok, hpre⟩ := List.any_eq_true.mp hhit
  exact List.any_eq_true.mpr ⟨w, hw, List.any_eq_true.mpr ⟨tok, h.subset htok, hpre⟩⟩

theorem pairIn_append {a b : Chars} {l : List Chars} (front back : List Chars)
    (hhit : pairIn a b l = true) : pairIn a b (front ++ l ++ back) = true := by
  have hback : pairIn a b (l ++ back) = true := by
    induction l with
    | nil => cases hhit
    | cons x l ih =>
        cases l with
        | nil => cases hhit
        | cons y l =>
            rw [pairIn, Bool.or_eq_true] at hhit
            rw [List.cons_append, List.cons_append, pairIn, Bool.or_eq_true]
            exact hhit.imp id ih
  rw [List.append_assoc]
  induction front with
  | nil => exact hback
  | cons x front ih =>
      rw [List.cons_append]
      cases hrest : front ++ (l ++ back) with
      | nil =>
          rw [hrest] at ih
          cases ih
      | cons y rest =>
          rw [pairIn, Bool.or_eq_true, ← hrest]
          exact .inr ih

theorem Within.pair (h : t.Within t') {a b : String} (hhit : t.pair T a b = true) :
    t'.pair T a b = true := by
  obtain ⟨front, back, htoks⟩ := h
  rw [ChatText.pair, ← htoks]
  exact pairIn_append front back hhit

theorem nearIn_append {first later : Chars → Bool} {gap : Nat} {l : List Chars}
    (front back : List Chars) (hhit : nearIn first later gap l = true) :
    nearIn first later gap (front ++ l ++ back) = true := by
  have hback : nearIn first later gap (l ++ back) = true := by
    induction l with
    | nil => cases hhit
    | cons tok l ih =>
        rw [nearIn, Bool.or_eq_true, Bool.and_eq_true] at hhit
        rw [List.cons_append, nearIn, Bool.or_eq_true, Bool.and_eq_true]
        refine hhit.imp (And.imp_right fun hlater => ?_) ih
        obtain ⟨n, hn, hok⟩ := List.any_eq_true.mp hlater
        refine List.any_eq_true.mpr ⟨n, ?_, hok⟩
        rw [List.take_append]
        exact List.mem_append_left _ hn
  rw [List.append_assoc]
  induction front with
  | nil => exact hback
  | cons tok front ih =>
      rw [List.cons_append, nearIn, Bool.or_eq_true]
      exact .inr ih

theorem Within.near (h : t.Within t') {first thenPrefix thenEq : List String} {gap : Nat}
    (hhit : t.near T first thenPrefix thenEq gap = true) :
    t'.near T first thenPrefix thenEq gap = true := by
  obtain ⟨front, back, htoks⟩ := h
  rw [ChatText.near, ← htoks]
  exact nearIn_append front back hhit

/-- The three tests of the rule. -/
theorem explicitRule_isSome_iff (t : ChatText) :
    (t.explicitRule T).isSome = true
      ↔ (t.anyEq T explicitEq = true ∨ t.anyPrefix T explicitPrefix = true)
        ∨ t.near T showWords bodyPrefix bodyEq 3 = true
        ∨ ∃ p ∈ explicitPairs, t.pair T p.1 p.2 = true := by
  rw [explicitRule, ← Bool.or_eq_true, ← List.any_eq_true]
  split_ifs <;> simp_all

/-- What a text's tokens say is said by any text they stand in. -/
theorem Within.explicitRule (h : t.Within t') (hrule : (t.explicitRule T).isSome = true) :
    (t'.explicitRule T).isSome = true := by
  rw [explicitRule_isSome_iff] at hrule ⊢
  rcases hrule with (heq | hpre) | hnear | ⟨p, hp, hpair⟩
  · exact .inl (.inl (h.anyEq heq))
  · exact .inl (.inr (h.anyPrefix hpre))
  · exact .inr (.inl (h.near hnear))
  · exact .inr (.inr ⟨p, hp, h.pair hpair⟩)

end ChatText

/-- Not delivered for what it says. -/
def ChatVerdict.Flagged (v : ChatVerdict) : Prop :=
  v.category = some .explicit ∨ v.category = some .grooming

/-- An explicit message is flagged, whatever the age context. -/
theorem flagged_of_explicitRule {body : String}
    (h : ((ChatText.new T body).explicitRule T).isSome = true) (recent : Bool) :
    (classify T body recent).Flagged := by
  obtain ⟨rule, hrule⟩ := Option.isSome_iff_exists.mp h
  unfold classify
  dsimp only
  rw [hrule]
  split
  · exact .inr rfl
  · split
    · exact .inr rfl
    · exact .inl rfl

theorem flagged_around {p b s : String} (hset : SetOff T p s)
    (h : ((ChatText.new T b).explicitRule T).isSome = true) (recent : Bool) :
    (classify T (p ++ b ++ s) recent).Flagged := by
  have hwithin : (ChatText.new T b).Within (ChatText.new T (p ++ b ++ s)) :=
    ⟨_, _, (ChatText.toks_around b hset).symm⟩
  exact flagged_of_explicitRule (hwithin.explicitRule h) recent

-- ======================================================================= spellings

namespace ChatFilter

def latinLetters : Chars := "abcdefghijklmnopqrstuvwxyz".toList

def cyrillicLetters : Chars := "абвгдежзийклмнопрстуфхцчшщъыьэюя".toList

/-- The capital of a letter. -/
def capital (c : Char) : Char :=
  if c.toNat < 0x80 then c.toUpper else Char.ofNat (c.toNat - 0x20)

/-- The letter, its capital, and for a ye also a yo of either size. -/
def Respelled (c x : Char) : Prop := x = c ∨ x = capital c ∨ (c = 'е' ∧ (x = 'ё' ∨ x = 'Ё'))

instance (c x : Char) : Decidable (Respelled c x) :=
  inferInstanceAs (Decidable (_ ∨ _ ∨ _))

/-- Every letter of the word respelled once or more. -/
def Variant (w v : String) : Prop :=
  ∃ runs : List Chars, w.toList.Forall₂ (fun c run => run ≠ [] ∧ ∀ x ∈ run, Respelled c x) runs
    ∧ v.toList = runs.flatten

/-- Decided over the characters of the list, and not over all characters. -/
theorem forall_mem_of_all {p : Char → Prop} [DecidablePred p] {l : Chars}
    (h : l.all (fun c => decide (p c)) = true) : ∀ c ∈ l, p c := fun c hc =>
  of_decide_eq_true (List.all_eq_true.mp h c hc)

theorem run_of_all {c : Char} {run : Chars}
    (h : (!run.isEmpty && run.all fun x => decide (Respelled c x)) = true) :
    run ≠ [] ∧ ∀ x ∈ run, Respelled c x := by
  rw [Bool.and_eq_true] at h
  exact ⟨by simpa using h.1, forall_mem_of_all h.2⟩

/-- What the alphabets need of the tables and the folds. -/
structure Steady (c : Char) : Prop where
  lower : CharTable.plainLower c = some c
  ofCapital : CharTable.plainLower (capital c) = some c
  yo : c ≠ 'ё'
  mark : c ≠ '_' ∧ c ≠ '$' ∧ c ≠ '@'

theorem steady_latin : ∀ c ∈ latinLetters,
    Steady c ∧ c.isAlpha = true ∧ isCyr c = false ∧ cyrOrLeetToLat c = c := by
  have h : ∀ c ∈ latinLetters, (CharTable.plainLower c = some c
      ∧ CharTable.plainLower (capital c) = some c ∧ c ≠ 'ё' ∧ c ≠ '_' ∧ c ≠ '$' ∧ c ≠ '@')
      ∧ c.isAlpha = true ∧ isCyr c = false ∧ cyrOrLeetToLat c = c :=
    forall_mem_of_all (by decide +kernel)
  exact fun c hc => (h c hc).imp_left fun ⟨h₁, h₂, h₃, h₄⟩ => ⟨h₁, h₂, h₃, h₄⟩

theorem steady_cyrillic : ∀ c ∈ cyrillicLetters,
    Steady c ∧ c.isAlpha = false ∧ isCyr c = true ∧ latToCyr c = c := by
  have h : ∀ c ∈ cyrillicLetters, (CharTable.plainLower c = some c
      ∧ CharTable.plainLower (capital c) = some c ∧ c ≠ 'ё' ∧ c ≠ '_' ∧ c ≠ '$' ∧ c ≠ '@')
      ∧ c.isAlpha = false ∧ isCyr c = true ∧ latToCyr c = c :=
    forall_mem_of_all (by decide +kernel)
  exact fun c hc => (h c hc).imp_left fun ⟨h₁, h₂, h₃, h₄⟩ => ⟨h₁, h₂, h₃, h₄⟩

/-- A respelled letter folds to the letter. -/
theorem Steady.fold {c x : Char} (hc : Steady c) (hx : Respelled c x) : foldChar T x = c := by
  have hplain : ∀ y, CharTable.plainLower y = some c → foldChar T y = c := by
    intro y hy
    have hl : T.toLower y = c := by rw [CharTable.toLower, hy, Option.getD_some]
    rw [foldChar, hl]
    exact if_neg hc.yo
  rcases hx with rfl | rfl | ⟨rfl, hyo⟩
  · exact hplain _ hc.lower
  · exact hplain _ hc.ofCapital
  · have hlow : CharTable.plainLower x = some 'ё' := by rcases hyo with rfl | rfl <;> decide
    rw [foldChar, CharTable.toLower, hlow]
    rfl

/-- A letter is alphabetic, whatever the table. -/
theorem alphabetic_of_letter {c : Char} (h : c ∈ latinLetters ∨ c ∈ cyrillicLetters) :
    T.isAlphabetic c = true := by
  have hrange : ∀ c ∈ latinLetters ++ cyrillicLetters, (c.toNat < 0x80 ∧ c.isAlpha = true)
      ∨ (¬ c.toNat < 0x80 ∧ 0x400 ≤ c.toNat ∧ c.toNat ≤ 0x481) :=
    forall_mem_of_all (by decide +kernel)
  rw [CharTable.isAlphabetic]
  rcases hrange c (List.mem_append.mpr h) with ⟨hlow, halpha⟩ | ⟨hhigh, hcyr⟩
  · exact (if_pos hlow).trans halpha
  · exact (if_neg hhigh).trans (if_pos hcyr)

/-- Each element once or more. -/
inductive Stretched : Chars → Chars → Prop where
  | nil : Stretched [] []
  | cons {c : Char} {l l' : Chars} (n : Nat) (h : Stretched l l') :
      Stretched (c :: l) (c :: List.replicate n c ++ l')

theorem Stretched.mem_iff {l l' : Chars} (h : Stretched l l') (c : Char) : c ∈ l' ↔ c ∈ l := by
  induction h with
  | nil => exact Iff.rfl
  | cons n _ ih =>
      simp only [List.cons_append, List.mem_cons, List.mem_append, List.mem_replicate, ih]
      tauto

theorem squeeze_repeat {c : Char} (hletter : T.isAlphabetic c = true)
    (hmark : c ≠ '_' ∧ c ≠ '$' ∧ c ≠ '@') (n : Nat) (l : Chars) :
    squeeze T (some c) (List.replicate n c ++ l) = squeeze T (some c) l := by
  induction n with
  | zero => rfl
  | succ n ih =>
      rw [List.replicate_succ, List.cons_append, squeeze,
        if_neg (by simpa [not_or] using hmark), if_pos ⟨rfl, hletter⟩, ih]

/-- Repeating letters makes no difference to what they are squeezed to. -/
theorem Stretched.squeeze_eq {l l' : Chars} (h : Stretched l l')
    (hl : ∀ c ∈ l, T.isAlphabetic c = true ∧ c ≠ '_' ∧ c ≠ '$' ∧ c ≠ '@') (last : Option Char) :
    squeeze T last l' = squeeze T last l := by
  induction h generalizing last with
  | nil => rfl
  | @cons c l l' n _ ih =>
      obtain ⟨hletter, hmark⟩ := hl c List.mem_cons_self
      have hrest := fun last => ih (fun x hx => hl x (List.mem_cons_of_mem _ hx)) last
      have hnot : ¬ (c = '_' ∨ c = '$' ∨ c = '@') := by simpa [not_or] using hmark
      rw [List.cons_append, squeeze, squeeze, if_neg hnot, if_neg hnot]
      by_cases hlast : last = some c
      · subst hlast
        rw [if_pos ⟨rfl, hletter⟩, if_pos ⟨rfl, hletter⟩, squeeze_repeat hletter hmark, hrest]
      · rw [if_neg fun h => hlast h.1, if_neg fun h => hlast h.1, squeeze_repeat hletter hmark,
          hrest]

/-- Letters of one script. -/
def OneScript (l : Chars) : Prop :=
  l ≠ [] ∧ ((∀ c ∈ l, c ∈ latinLetters) ∨ ∀ c ∈ l, c ∈ cyrillicLetters)

theorem OneScript.letter {l : Chars} (h : OneScript l) {c : Char} (hc : c ∈ l) :
    c ∈ latinLetters ∨ c ∈ cyrillicLetters := h.2.imp (fun h => h c hc) fun h => h c hc

theorem OneScript.steady {l : Chars} (h : OneScript l) {c : Char} (hc : c ∈ l) : Steady c :=
  (h.letter hc).elim (fun h => (steady_latin c h).1) fun h => (steady_cyrillic c h).1

/-- No letter of one script is mapped. -/
theorem OneScript.foldToken_eq {l : Chars} (h : OneScript l) :
    foldToken T l = squeeze T none l := by
  have hmap : ∀ f : Char → Char, (∀ c ∈ l, f c = c) → l.map f = l := by
    intro f hf
    rw [List.map_congr_left hf, List.map_id']
  obtain ⟨hne, hlat | hcyr⟩ := h
  · have hnone : l.countP isCyr = 0 :=
      List.countP_eq_zero.mpr fun c hc => by simp [(steady_latin c (hlat c hc)).2.2.1]
    have hall : 0 < l.countP Char.isAlpha := by
      obtain ⟨c, r, rfl⟩ := List.exists_cons_of_ne_nil hne
      exact List.countP_pos_iff.mpr
        ⟨c, List.mem_cons_self, (steady_latin c (hlat c List.mem_cons_self)).2.1⟩
    rw [foldToken, hnone]
    simp only [Nat.lt_irrefl, false_and, if_false, if_pos hall]
    rw [hmap _ fun c hc => (steady_latin c (hlat c hc)).2.2.2]
  · have hnone : l.countP Char.isAlpha = 0 :=
      List.countP_eq_zero.mpr fun c hc => by simp [(steady_cyrillic c (hcyr c hc)).2.1]
    have hall : 0 < l.countP isCyr := by
      obtain ⟨c, r, rfl⟩ := List.exists_cons_of_ne_nil hne
      exact List.countP_pos_iff.mpr
        ⟨c, List.mem_cons_self, (steady_cyrillic c (hcyr c List.mem_cons_self)).2.2.1⟩
    rw [foldToken, hnone]
    simp only [hall, Nat.zero_le, and_self, if_true]
    rw [hmap _ fun c hc => (steady_cyrillic c (hcyr c hc)).2.2.2]

theorem OneScript.stretched {l l' : Chars} (h : OneScript l) (hl' : Stretched l l') :
    OneScript l' := by
  refine ⟨fun hnil => ?_, ?_⟩
  · obtain ⟨c, hc⟩ := List.exists_mem_of_ne_nil l h.1
    have := (hl'.mem_iff c).mpr hc
    rw [hnil] at this
    cases this
  · exact h.2.imp (fun hall c hc => hall c ((hl'.mem_iff c).mp hc))
      fun hall c hc => hall c ((hl'.mem_iff c).mp hc)

/-- The listed words are of one script each. -/
theorem oneScript_words : ∀ w ∈ explicitEq ++ explicitPrefix, OneScript w.toList := by
  have h : ∀ w ∈ explicitEq ++ explicitPrefix, w.toList ≠ []
      ∧ ((w.toList.all fun c => decide (c ∈ latinLetters)) = true
        ∨ (w.toList.all fun c => decide (c ∈ cyrillicLetters)) = true) := by decide +kernel
  intro w hw
  obtain ⟨hne, hall⟩ := h w hw
  exact ⟨hne, hall.imp (by simp [List.all_eq_true]) (by simp [List.all_eq_true])⟩

/-- A spelling of a word folds to the word with letters repeated. -/
theorem Variant.stretched {w v : String} (hw : OneScript w.toList) (h : Variant w v) :
    Stretched w.toList (foldText T v) := by
  obtain ⟨runs, hruns, hv⟩ := h
  rw [foldText, hv]
  have hsteady : ∀ c ∈ w.toList, Steady c := fun c hc => hw.steady hc
  generalize w.toList = l at hruns hsteady
  clear hv hw
  induction hruns with
  | nil => exact .nil
  | @cons c run l runs hrun _ ih =>
      have hc := hsteady c List.mem_cons_self
      have hfold : run.map (foldChar T) = c :: List.replicate (run.length - 1) c := by
        obtain ⟨x, r, rfl⟩ := List.exists_cons_of_ne_nil hrun.1
        rw [List.map_cons, hc.fold (hrun.2 x List.mem_cons_self), List.length_cons,
          Nat.add_sub_cancel]
        refine congrArg (c :: ·) (List.eq_replicate_iff.mpr ⟨List.length_map _, fun y hy => ?_⟩)
        obtain ⟨z, hz, rfl⟩ := List.mem_map.mp hy
        exact hc.fold (hrun.2 z (List.mem_cons_of_mem _ hz))
      rw [List.flatten_cons, List.map_append, hfold]
      exact .cons _ (ih fun x hx => hsteady x (List.mem_cons_of_mem _ hx))

end ChatFilter

/-- A spelling of a listed word is explicit. -/
theorem explicitRule_of_variant {w v : String} (hw : w ∈ explicitEq ++ explicitPrefix)
    (hv : Variant w v) : ((ChatText.new T v).explicitRule T).isSome = true := by
  have hone := oneScript_words w hw
  have hstretched : Stretched w.toList (foldText T v) := hv.stretched hone
  have hself : foldText T w = w.toList := by
    rw [foldText]
    conv_rhs => rw [← List.map_id' w.toList]
    exact List.map_congr_left fun c hc => (hone.steady hc).fold (.inl rfl)
  have hlike := hone.stretched hstretched
  have hfold : foldToken T (foldText T v) = foldWord T w := by
    rw [foldWord, hself, hone.foldToken_eq, hlike.foldToken_eq]
    exact hstretched.squeeze_eq (fun c hc => ⟨alphabetic_of_letter (hone.letter hc),
      (hone.steady hc).mark⟩) none
  have hsplit : split T (foldText T v) = [foldText T v] := by
    refine split_token hlike.1 fun c hc => ?_
    rw [isTokenChar, CharTable.isAlphanumeric, alphabetic_of_letter (hlike.letter hc)]
    rfl
  have hne : foldWord T w ≠ [] := by
    rw [foldWord, hself, hone.foldToken_eq]
    obtain ⟨c, r, hcr⟩ := List.exists_cons_of_ne_nil hone.1
    rw [hcr, squeeze, if_neg (by simpa [not_or] using
      (hone.steady (hcr ▸ List.mem_cons_self : c ∈ w.toList)).mark), if_neg (by simp)]
    exact List.cons_ne_nil _ _
  have htoks : (ChatText.new T v).toks = [foldWord T w] := by
    simp [ChatText.new, hsplit, hfold, hne]
  rw [ChatText.explicitRule_isSome_iff]
  rcases List.mem_append.mp hw with heq | hpre
  · refine .inl (.inl (List.any_eq_true.mpr ⟨w, heq, ?_⟩))
    simp [htoks]
  · refine .inl (.inr (List.any_eq_true.mpr ⟨w, hpre, ?_⟩))
    simp [htoks]

-- ==================================================================== the main result

/-- **Embedding**: a message that matches the explicit rule is flagged inside of any text
it is set off from, and so is a listed word in any spelling. -/
theorem embedding_flags (T : CharTable) :
    (∀ p b s recent, SetOff T p s → ((ChatText.new T b).explicitRule T).isSome = true →
      (classify T (p ++ b ++ s) recent).Flagged)
    ∧ ∀ w ∈ explicitEq ++ explicitPrefix, ∀ v p s recent, Variant w v → SetOff T p s →
      (classify T (p ++ v ++ s) recent).Flagged :=
  ⟨fun _ _ _ recent hset h => flagged_around hset h recent,
    fun _ hw _ _ _ recent hv hset => flagged_around hset (explicitRule_of_variant hw hv) recent⟩

/-- ASCII and Cyrillic letters and no others. -/
def bareTable : CharTable := ⟨id, fun _ => false, fun _ => false⟩

/-- A shouted and stretched word between a greeting and an exclamation mark. -/
theorem embedding_flags_shouted :
    (classify bareTable ("привет, " ++ "ПоРРн" ++ "!") true).Flagged :=
  (embedding_flags bareTable).2 "порн" (by decide) "ПоРРн" "привет, " "!" true
    ⟨[['П'], ['о'], ['Р', 'Р'], ['н']],
      .cons (run_of_all (by decide)) (.cons (run_of_all (by decide))
        (.cons (run_of_all (by decide)) (.cons (run_of_all (by decide)) .nil))), rfl⟩
    ⟨fun c hc => by cases hc; decide, fun c hc => by cases hc; decide⟩

end Ruletka
