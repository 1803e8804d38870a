/-
When a stretched token folds to what the token folds to.

Letters that are repeated are squeezed to one, but not before the script of
the token is chosen by counting them. While the choice stays, the fold stays.
Where the stretch tips the count, the token was mapped into one script and the
stretched one is mapped into the other, and the two agree on texts that the
maps leave alone: there are no letters and digits in them that stand for
others, and every `$`, which only one of the maps reads as a letter, is
swallowed by an `s` beside it.
-/
import Ruletka.Chat.Proofs.Filter

namespace Ruletka.ChatFilter

variable {T : CharTable} {raw raw' l l' : Chars} {c : Char} {last : Option Char}

-- ==================================================================== the stretch

/-- Every letter of a token once or more, and the rest as it is. -/
inductive Drawled (T : CharTable) : Chars → Chars → Prop where
  | nil : Drawled T [] []
  | cons {c : Char} {l l' : Chars} (n : Nat) (hn : n = 0 ∨ T.isAlphabetic c = true)
      (h : Drawled T l l') : Drawled T (c :: l) (c :: List.replicate n c ++ l')

theorem Drawled.mem_iff (h : Drawled T l l') (c : Char) : c ∈ l' ↔ c ∈ l := by
  induction h with
  | nil => exact Iff.rfl
  | cons n _ _ ih =>
      simp only [List.cons_append, List.mem_cons, List.mem_append, List.mem_replicate, ih]
      tauto

theorem Drawled.countP_pos_iff (h : Drawled T l l') (p : Char → Bool) :
    0 < l'.countP p ↔ 0 < l.countP p := by
  rw [List.countP_pos_iff, List.countP_pos_iff]
  simp only [h.mem_iff]

/-- The fold drops the character wherever it stands. -/
def isMark (c : Char) : Prop := c = '_' ∨ c = '$' ∨ c = '@'

instance (c : Char) : Decidable (isMark c) := inferInstanceAs (Decidable (_ ∨ _ ∨ _))

theorem not_isMark (hu : c ≠ '_') (hd : c ≠ '$') (hat : c ≠ '@') : ¬ isMark c := by
  intro h
  rcases h with h | h | h
  · exact hu h
  · exact hd h
  · exact hat h

theorem squeeze_mark (hc : isMark c) (l : Chars) : squeeze T last (c :: l) = squeeze T last l := by
  rw [squeeze, if_pos (show c = '_' ∨ c = '$' ∨ c = '@' from hc)]

theorem squeeze_again (hc : ¬ isMark c) (ha : T.isAlphabetic c = true) (l : Chars) :
    squeeze T (some c) (c :: l) = squeeze T (some c) l := by
  rw [squeeze, if_neg (show ¬ (c = '_' ∨ c = '$' ∨ c = '@') from hc), if_pos ⟨rfl, ha⟩]

theorem squeeze_new (hc : ¬ isMark c) (hnew : ¬ (last = some c ∧ T.isAlphabetic c = true))
    (l : Chars) : squeeze T last (c :: l) = c :: squeeze T (some c) l := by
  rw [squeeze, if_neg (show ¬ (c = '_' ∨ c = '$' ∨ c = '@') from hc), if_neg hnew]

/-- Past a character that is no mark only the character is remembered. -/
theorem squeeze_cons_cases (hc : ¬ isMark c) (last : Option Char) :
    (last = some c ∧ ∀ l, squeeze T last (c :: l) = squeeze T (some c) l)
      ∨ ∀ l, squeeze T last (c :: l) = c :: squeeze T (some c) l := by
  by_cases hnew : last = some c ∧ T.isAlphabetic c = true
  · obtain ⟨rfl, ha⟩ := hnew
    exact .inl ⟨rfl, fun l => squeeze_again hc ha l⟩
  · exact .inr fun l => squeeze_new hc hnew l

/-- A map that takes letters to letters hides a stretch. -/
theorem Drawled.squeeze_eq {m : Char → Char}
    (hm : ∀ c, T.isAlphabetic c = true → T.isAlphabetic (m c) = true ∧ ¬ isMark (m c))
    (h : Drawled T l l') (last : Option Char) :
    squeeze T last (l'.map m) = squeeze T last (l.map m) := by
  induction h generalizing last with
  | nil => rfl
  | @cons c l l' n hn _ ih =>
      have hrest : ∀ last, squeeze T last (m c :: (List.replicate n (m c) ++ l'.map m))
          = squeeze T last (m c :: l'.map m) := by
        intro last
        rcases hn with rfl | ha
        · rfl
        · obtain ⟨hletter, hmark⟩ := hm c ha
          have hrun := squeeze_repeat hletter (by simpa [isMark, not_or] using hmark) n (l'.map m)
          rcases @squeeze_cons_cases T (m c) hmark last with ⟨-, heq⟩ | heq
          · rw [heq, heq, hrun]
          · rw [heq, heq, hrun]
      rw [List.cons_append, List.map_cons, List.map_append, List.map_replicate, hrest,
        List.map_cons, squeeze, squeeze, ih, ih]

-- ======================================================================== the maps

/-- The characters that one of the maps changes, `$` aside. -/
def lookalikes : Chars := "abcehkmnoprtuxy0346@авекмнорстух157".toList

theorem maps_of_not_lookalike (hc : c ∉ lookalikes) :
    latToCyr c = c ∧ (c ≠ '$' → cyrOrLeetToLat c = c) := by
  constructor
  · unfold latToCyr
    split <;> first | rfl | exact absurd (by decide) hc
  · intro hd
    unfold cyrOrLeetToLat
    split <;> first | rfl | exact absurd rfl hd | exact absurd (by decide) hc

/-- What a map makes of a lookalike, the other one would change, or a map
makes of it what the other would. -/
theorem maps_apart (hc : c ∈ lookalikes) :
    (¬ isMark (latToCyr c) ∧ cyrOrLeetToLat (latToCyr c) ≠ latToCyr c)
      ∨ (¬ isMark (cyrOrLeetToLat c) ∧ latToCyr (cyrOrLeetToLat c) ≠ cyrOrLeetToLat c) :=
  forall_mem_of_all (p := fun c =>
    (¬ isMark (latToCyr c) ∧ cyrOrLeetToLat (latToCyr c) ≠ latToCyr c)
      ∨ (¬ isMark (cyrOrLeetToLat c) ∧ latToCyr (cyrOrLeetToLat c) ≠ cyrOrLeetToLat c))
    (l := lookalikes) (by decide +kernel) c hc

/-- A map changes nothing twice. -/
theorem map_twice (c : Char) : latToCyr (latToCyr c) = latToCyr c
    ∧ cyrOrLeetToLat (cyrOrLeetToLat c) = cyrOrLeetToLat c := by
  by_cases hc : c ∈ lookalikes
  · exact forall_mem_of_all (p := fun c => latToCyr (latToCyr c) = latToCyr c
      ∧ cyrOrLeetToLat (cyrOrLeetToLat c) = cyrOrLeetToLat c) (l := lookalikes)
      (by decide +kernel) c hc
  · obtain ⟨hf, hg⟩ := maps_of_not_lookalike hc
    refine ⟨by rw [hf, hf], ?_⟩
    by_cases hd : c = '$'
    · rw [hd]
      rfl
    · rw [hg hd, hg hd]

theorem not_mark_of_letter (hc : T.isAlphabetic c = true) : ¬ isMark c := by
  intro hmark
  rcases hmark with rfl | rfl | rfl
  · cases hc
  · cases hc
  · cases hc

/-- The maps take letters to letters. -/
theorem maps_letter (hc : T.isAlphabetic c = true) :
    (T.isAlphabetic (latToCyr c) = true ∧ ¬ isMark (latToCyr c))
      ∧ (T.isAlphabetic (cyrOrLeetToLat c) = true ∧ ¬ isMark (cyrOrLeetToLat c)) := by
  by_cases hlook : c ∈ lookalikes
  · have hrange : ∀ c ∈ lookalikes, c = '1' ∨ c = '5' ∨ c = '7' ∨ c = '6' ∨
        ((latToCyr c ∈ latinLetters ∨ latToCyr c ∈ cyrillicLetters)
          ∧ (cyrOrLeetToLat c ∈ latinLetters ∨ cyrOrLeetToLat c ∈ cyrillicLetters)) :=
      forall_mem_of_all (by decide +kernel)
    rcases hrange c hlook with rfl | rfl | rfl | rfl | ⟨hf, hg⟩
    · cases hc
    · cases hc
    · cases hc
    · cases hc
    · have hletter := fun x hx => @alphabetic_of_letter T x hx
      exact ⟨⟨hletter _ hf, not_mark_of_letter (hletter _ hf)⟩,
        hletter _ hg, not_mark_of_letter (hletter _ hg)⟩
  · obtain ⟨hf, hg⟩ := maps_of_not_lookalike hlook
    have hmark := not_mark_of_letter hc
    rw [hf, hg fun hd => hmark (.inr (.inl hd))]
    exact ⟨⟨hc, hmark⟩, hc, hmark⟩

-- ====================================================================== the script

/-- The letters of the token choose Cyrillic. -/
def InCyrillic (l : Chars) : Prop :=
  0 < l.countP isCyr ∧ l.countP Char.isAlpha ≤ l.countP isCyr

instance (l : Chars) : Decidable (InCyrillic l) := inferInstanceAs (Decidable (_ ∧ _))

theorem foldToken_cyrillic (h : InCyrillic l) : foldToken T l = squeeze T none (l.map latToCyr) := by
  unfold foldToken
  dsimp only
  rw [if_pos (by exact h)]

theorem foldToken_latin (h : ¬ InCyrillic l) (hlat : 0 < l.countP Char.isAlpha) :
    foldToken T l = squeeze T none (l.map cyrOrLeetToLat) := by
  unfold foldToken
  dsimp only
  rw [if_neg (by exact h), if_pos hlat]

theorem foldToken_plain (h : ¬ InCyrillic l) (hlat : ¬ 0 < l.countP Char.isAlpha) :
    foldToken T l = squeeze T none l := by
  unfold foldToken
  dsimp only
  rw [if_neg (by exact h), if_neg hlat]

/-- With the script the fold stays. -/
theorem Drawled.foldToken_eq (h : Drawled T l l') (hs : InCyrillic l' ↔ InCyrillic l) :
    foldToken T l' = foldToken T l := by
  have hf := h.squeeze_eq (fun c hc => (maps_letter hc).1) none
  have hg := h.squeeze_eq (fun c hc => (maps_letter hc).2) none
  have hid := h.squeeze_eq (m := id) (fun c hc => ⟨hc, not_mark_of_letter hc⟩) none
  rw [List.map_id, List.map_id] at hid
  by_cases hcyr : InCyrillic l
  · rw [foldToken_cyrillic hcyr, foldToken_cyrillic (hs.mpr hcyr), hf]
  have hcyr' : ¬ InCyrillic l' := fun h => hcyr (hs.mp h)
  by_cases hlat : 0 < l.countP Char.isAlpha
  · rw [foldToken_latin hcyr hlat, foldToken_latin hcyr' ((h.countP_pos_iff _).mpr hlat), hg]
  · have hlat' : ¬ 0 < l'.countP Char.isAlpha := fun h' => hlat ((h.countP_pos_iff _).mp h')
    rw [foldToken_plain hcyr hlat, foldToken_plain hcyr' hlat', hid]

/-- A tipped count stands between the two maps. -/
theorem Drawled.foldToken_eq_iff (h : Drawled T l l') (hs : ¬ (InCyrillic l' ↔ InCyrillic l)) :
    foldToken T l' = foldToken T l ↔
      squeeze T none (l.map latToCyr) = squeeze T none (l.map cyrOrLeetToLat) := by
  have hf := h.squeeze_eq (fun c hc => (maps_letter hc).1) none
  have hg := h.squeeze_eq (fun c hc => (maps_letter hc).2) none
  have hlatin : ∀ x : Chars, 0 < x.countP isCyr → ¬ InCyrillic x →
      foldToken T x = squeeze T none (x.map cyrOrLeetToLat) := by
    intro x hpos hx
    have hlt : x.countP isCyr < x.countP Char.isAlpha := not_le.mp fun hle => hx ⟨hpos, hle⟩
    exact foldToken_latin hx (hpos.trans hlt)
  by_cases hcyr : InCyrillic l
  · have hcyr' : ¬ InCyrillic l' := fun h => hs (iff_of_true h hcyr)
    rw [foldToken_cyrillic hcyr, hlatin l' ((h.countP_pos_iff _).mpr hcyr.1) hcyr', hg]
    exact eq_comm
  · have hcyr' : InCyrillic l' := by
      by_contra h
      exact hs (iff_of_false h hcyr)
    rw [foldToken_cyrillic hcyr', hlatin l ((h.countP_pos_iff _).mp hcyr'.1) hcyr, hf]

-- ============================================================= between the two maps

theorem mem_of_mem_squeeze (h : c ∈ squeeze T last l) : c ∈ l ∧ ¬ isMark c := by
  induction l generalizing last with
  | nil => cases h
  | cons x l ih =>
      have hlater : ∀ last, c ∈ squeeze T last l → c ∈ x :: l ∧ ¬ isMark c :=
        fun last h => ⟨List.mem_cons_of_mem _ (ih h).1, (ih h).2⟩
      by_cases hx : isMark x
      · rw [squeeze_mark hx] at h
        exact hlater _ h
      · rcases @squeeze_cons_cases T x hx last with ⟨-, heq⟩ | heq
        · rw [heq] at h
          exact hlater _ h
        · rw [heq] at h
          rcases List.mem_cons.mp h with rfl | h
          · exact ⟨List.mem_cons_self, hx⟩
          · exact hlater _ h

theorem mem_squeeze (hmem : c ∈ l) (hc : ¬ isMark c) (hlast : last ≠ some c) :
    c ∈ squeeze T last l := by
  induction l generalizing last with
  | nil => cases hmem
  | cons x l ih =>
      by_cases hxc : x = c
      · rw [hxc, squeeze_new hc fun h => hlast h.1]
        exact List.mem_cons_self
      have hmem' : c ∈ l := (List.mem_cons.mp hmem).resolve_left (Ne.symm hxc)
      by_cases hx : isMark x
      · rw [squeeze_mark hx]
        exact ih hmem' hlast
      · have hnext : some x ≠ some c := fun h => hxc (Option.some.inj h)
        rcases @squeeze_cons_cases T x hx last with ⟨-, heq⟩ | heq
        · rw [heq]
          exact ih hmem' hnext
        · rw [heq]
          exact List.mem_cons_of_mem _ (ih hmem' hnext)

/-- With a lookalike in it, a token is folded differently by the two maps. -/
theorem squeeze_ne_of_lookalike (hmem : c ∈ l) (hc : c ∈ lookalikes) :
    squeeze T none (l.map latToCyr) ≠ squeeze T none (l.map cyrOrLeetToLat) := by
  intro heq
  rcases maps_apart hc with ⟨hmark, hmoved⟩ | ⟨hmark, hmoved⟩
  · have hin : latToCyr c ∈ squeeze T none (l.map latToCyr) :=
      mem_squeeze (List.mem_map_of_mem hmem) hmark nofun
    rw [heq] at hin
    obtain ⟨d, -, hd⟩ := List.mem_map.mp (mem_of_mem_squeeze hin).1
    rw [← hd] at hmoved
    exact hmoved (map_twice d).2
  · have hin : cyrOrLeetToLat c ∈ squeeze T none (l.map cyrOrLeetToLat) :=
      mem_squeeze (List.mem_map_of_mem hmem) hmark nofun
    rw [← heq] at hin
    obtain ⟨d, -, hd⟩ := List.mem_map.mp (mem_of_mem_squeeze hin).1
    rw [← hd] at hmoved
    exact hmoved (map_twice d).1

-- ====================================================================== the dollars

/-- A dollar read as an `s`. -/
def dollarAsS (c : Char) : Char := if c = '$' then 's' else c

def isBlank (c : Char) : Bool := c = '$' || c = '_'

theorem not_isBlank (hu : c ≠ '_') (hd : c ≠ '$') : isBlank c = false := by
  unfold isBlank
  rw [decide_eq_false hd, decide_eq_false hu]
  rfl

/-- What comes first, dollars and underscores aside. -/
def firstOf (l : Chars) : Option Char := (l.dropWhile isBlank).head?

@[simp]
theorem firstOf_cons_of_blank (hc : isBlank c = true) (l : Chars) :
    firstOf (c :: l) = firstOf l := by
  unfold firstOf
  rw [List.dropWhile_cons_of_pos hc]

@[simp]
theorem firstOf_cons_of_not_blank (hc : isBlank c = false) (l : Chars) :
    firstOf (c :: l) = some c := by
  unfold firstOf
  rw [List.dropWhile_cons_of_neg (ne_true_of_eq_false hc)]
  rfl

theorem firstOf_append_of_blank {b : Chars} (hb : ∀ c ∈ b, isBlank c = true) (l : Chars) :
    firstOf (b ++ l) = firstOf l := by
  induction b with
  | nil => rfl
  | cons c b ih =>
      rw [List.cons_append, firstOf_cons_of_blank (hb c List.mem_cons_self),
        ih fun x hx => hb x (List.mem_cons_of_mem _ hx)]

/-- What stands in front of the blanks of a list does not depend on what
follows it. -/
theorem firstOf_append_congr {b : Chars} (hb : ¬ ∀ c ∈ b, isBlank c = true) (l l' : Chars) :
    firstOf (b ++ l) = firstOf (b ++ l') := by
  induction b with
  | nil => exact absurd (by simp) hb
  | cons c b ih =>
      rw [List.cons_append, List.cons_append]
      by_cases hc : isBlank c = true
      · rw [firstOf_cons_of_blank hc, firstOf_cons_of_blank hc]
        exact ih fun hall => hb (List.forall_mem_cons.mpr ⟨hc, hall⟩)
      · rw [firstOf_cons_of_not_blank (Bool.eq_false_of_not_eq_true hc),
          firstOf_cons_of_not_blank (Bool.eq_false_of_not_eq_true hc)]

/-- Every dollar has an `s` beside it, over dollars and underscores. -/
def DollarsSheltered (before l : Chars) : Prop :=
  ∀ b a, l = b ++ '$' :: a → firstOf (b.reverse ++ before) = some 's' ∨ firstOf a = some 's'

theorem dollarsSheltered_cons {before : Chars} : DollarsSheltered before (c :: l) ↔
    (c = '$' → firstOf before = some 's' ∨ firstOf l = some 's')
      ∧ DollarsSheltered (c :: before) l := by
  unfold DollarsSheltered
  constructor
  · intro h
    refine ⟨fun hc => h [] l (by rw [hc]; rfl), fun b a hl => ?_⟩
    have hcons := h (c :: b) a (by rw [hl]; rfl)
    rwa [List.reverse_cons, List.append_assoc] at hcons
  · intro ⟨hhead, htail⟩ b a hl
    cases b with
    | nil =>
        obtain ⟨rfl, rfl⟩ := List.cons.inj hl
        exact hhead rfl
    | cons x b =>
        obtain ⟨rfl, hl'⟩ := List.cons.inj hl
        rw [List.reverse_cons, List.append_assoc]
        exact htail b a hl'

/-- An `s` ahead shelters the dollars in front of it, whatever came before. -/
theorem dollarsSheltered_congr {before before' : Chars} (hs : firstOf l = some 's') :
    DollarsSheltered before l ↔ DollarsSheltered before' l := by
  unfold DollarsSheltered
  apply forall_congr'
  intro b
  apply forall₂_congr
  intro a hl
  by_cases hb : ∀ c ∈ b, isBlank c = true
  · have ha : firstOf a = some 's' := by
      rw [hl, firstOf_append_of_blank hb, firstOf_cons_of_blank rfl] at hs
      exact hs
    rw [ha]
    exact iff_of_true (.inr rfl) (.inr rfl)
  · have hb' : ¬ ∀ c ∈ b.reverse, isBlank c = true := fun h =>
      hb fun c hc => h c (List.mem_reverse.mpr hc)
    rw [firstOf_append_congr hb' before before']

variable (T) in
/-- Reading the dollars makes a text no shorter; one `s` of it may stand for
what was squeezed into it. -/
theorem length_squeeze_le (hl : '@' ∉ l) : ∀ last,
    (squeeze T last l).length ≤ (squeeze T last (l.map dollarAsS)).length
      ∧ (squeeze T last l).length ≤ (squeeze T (some 's') (l.map dollarAsS)).length + 1 := by
  induction l with
  | nil => exact fun last => ⟨le_rfl, Nat.zero_le _⟩
  | cons c l ih =>
      have hrest := ih fun h => hl (List.mem_cons_of_mem _ h)
      have hat : c ≠ '@' := fun h => hl (h ▸ List.mem_cons_self)
      intro last
      rw [List.map_cons]
      by_cases hd : c = '$'
      · rw [hd, squeeze_mark (.inr (.inl rfl))]
        show _ ≤ (squeeze T last ('s' :: _)).length ∧ _ ≤ (squeeze T (some 's') ('s' :: _)).length + 1
        have hs : ¬ isMark 's' := by decide
        rw [squeeze_again hs rfl]
        refine ⟨?_, (hrest last).2⟩
        rcases @squeeze_cons_cases T 's' hs last with ⟨rfl, heq⟩ | heq
        · rw [heq]
          exact (hrest _).1
        · rw [heq, List.length_cons]
          exact (hrest last).2
      · have hself : dollarAsS c = c := if_neg hd
        rw [hself]
        by_cases hu : c = '_'
        · rw [squeeze_mark (.inl hu), squeeze_mark (.inl hu), squeeze_mark (.inl hu)]
          exact hrest last
        have hc := not_isMark hu hd hat
        have hnext := (hrest (some c)).1
        have hmine : (squeeze T last (c :: l)).length ≤ (squeeze T (some c) l).length + 1 := by
          rcases @squeeze_cons_cases T c hc last with ⟨-, heq⟩ | heq
          · rw [heq]
            exact Nat.le_succ _
          · rw [heq, List.length_cons]
        constructor
        · rcases @squeeze_cons_cases T c hc last with ⟨-, heq⟩ | heq
          · rw [heq, heq]
            exact hnext
          · rw [heq, heq, List.length_cons, List.length_cons]
            exact Nat.succ_le_succ hnext
        · rcases @squeeze_cons_cases T c hc (some 's') with ⟨-, heq⟩ | heq
          · rw [heq]
            omega
          · rw [heq, List.length_cons]
            omega

/-- Behind a dollar with no `s` ahead there is more in the text that reads it. -/
theorem length_squeeze_lt (hl : '@' ∉ l) (hs : firstOf l ≠ some 's') (last : Option Char) :
    (squeeze T last l).length ≤ (squeeze T (some 's') (l.map dollarAsS)).length := by
  induction l generalizing last with
  | nil => exact Nat.zero_le _
  | cons c l ih =>
      have hrest : '@' ∉ l := fun h => hl (List.mem_cons_of_mem _ h)
      have hat : c ≠ '@' := fun h => hl (h ▸ List.mem_cons_self)
      rw [List.map_cons]
      by_cases hd : c = '$'
      · subst hd
        rw [firstOf_cons_of_blank rfl] at hs
        rw [squeeze_mark (.inr (.inl rfl))]
        show _ ≤ (squeeze T (some 's') ('s' :: _)).length
        rw [squeeze_again (by decide) rfl]
        exact ih hrest hs last
      have hself : dollarAsS c = c := if_neg hd
      rw [hself]
      by_cases hu : c = '_'
      · subst hu
        rw [firstOf_cons_of_blank rfl] at hs
        rw [squeeze_mark (.inl rfl), squeeze_mark (.inl rfl)]
        exact ih hrest hs last
      have hblank := not_isBlank hu hd
      rw [firstOf_cons_of_not_blank hblank] at hs
      have hc := not_isMark hu hd hat
      rw [squeeze_new hc (fun h => hs h.1.symm) (l.map dollarAsS), List.length_cons]
      have hnext := (length_squeeze_le T hrest (some c)).1
      rcases @squeeze_cons_cases T c hc last with ⟨-, heq⟩ | heq
      · rw [heq]
        omega
      · rw [heq, List.length_cons]
        omega

/-- With an `s` ahead, it is what comes next. -/
theorem squeeze_of_firstOf (hl : '@' ∉ l) (hs : firstOf l = some 's') (hlast : last ≠ some 's') :
    squeeze T last l = 's' :: squeeze T (some 's') l := by
  induction l with
  | nil => cases hs
  | cons c l ih =>
      have hrest : '@' ∉ l := fun h => hl (List.mem_cons_of_mem _ h)
      by_cases hb : isBlank c = true
      · have hmark : isMark c := by
          unfold isBlank at hb
          rw [Bool.or_eq_true, decide_eq_true_eq, decide_eq_true_eq] at hb
          exact hb.elim (fun h => .inr (.inl h)) .inl
        rw [firstOf_cons_of_blank hb] at hs
        rw [squeeze_mark hmark, squeeze_mark hmark]
        exact ih hrest hs
      · rw [firstOf_cons_of_not_blank (Bool.eq_false_of_not_eq_true hb)] at hs
        cases hs
        have hmark : ¬ isMark 's' := by decide
        rw [squeeze_new hmark fun h => hlast h.1, squeeze_again hmark rfl]

/-- The dollars make no difference when each is sheltered. -/
theorem squeeze_dollarAsS_iff (hl : '@' ∉ l) (before : Chars) :
    squeeze T (firstOf before) l = squeeze T (firstOf before) (l.map dollarAsS)
      ↔ DollarsSheltered before l := by
  induction l generalizing before with
  | nil => exact iff_of_true rfl fun b a h => by simp at h
  | cons c l ih =>
      have hrest : '@' ∉ l := fun h => hl (List.mem_cons_of_mem _ h)
      have hat : c ≠ '@' := fun h => hl (h ▸ List.mem_cons_self)
      rw [dollarsSheltered_cons, List.map_cons]
      by_cases hd : c = '$'
      · subst hd
        have hnext := ih hrest ('$' :: before)
        rw [firstOf_cons_of_blank rfl] at hnext
        rw [squeeze_mark (.inr (.inl rfl))]
        show squeeze T (firstOf before) l = squeeze T (firstOf before) ('s' :: _) ↔ _
        have hs : ¬ isMark 's' := by decide
        by_cases hbefore : firstOf before = some 's'
        · rw [hbefore] at hnext ⊢
          rw [squeeze_again hs rfl, hnext]
          exact (and_iff_right fun _ => .inl rfl).symm
        rw [squeeze_new hs fun h => hbefore h.1]
        by_cases hahead : firstOf l = some 's'
        · have hsame := ih hrest ['s']
          rw [firstOf_cons_of_not_blank rfl] at hsame
          rw [squeeze_of_firstOf hrest hahead hbefore, List.cons_inj_right, hsame,
            dollarsSheltered_congr hahead]
          exact (and_iff_right fun _ => .inr hahead).symm
        · refine iff_of_false (fun heq => ?_) fun h => (h.1 rfl).elim hbefore hahead
          have hlen := congrArg List.length heq
          have hle := @length_squeeze_lt T l hrest hahead (firstOf before)
          rw [List.length_cons] at hlen
          omega
      have hself : dollarAsS c = c := if_neg hd
      rw [hself, and_iff_right fun h => absurd h hd, ← ih hrest (c :: before)]
      by_cases hu : c = '_'
      · subst hu
        rw [squeeze_mark (.inl rfl), squeeze_mark (.inl rfl), firstOf_cons_of_blank rfl]
      have hblank := not_isBlank hu hd
      have hc := not_isMark hu hd hat
      rw [firstOf_cons_of_not_blank hblank]
      rcases @squeeze_cons_cases T c hc (firstOf before) with ⟨-, heq⟩ | heq
      · rw [heq, heq]
      · rw [heq, heq, List.cons_inj_right]

-- ==================================================================== the main result

/-- The token reads the same in both scripts: nothing in it is a lookalike,
and every `$` has an `s` beside it, over dollars and underscores. -/
def Unambiguous (raw : Chars) : Prop :=
  (∀ c ∈ raw, c ∉ lookalikes) ∧ DollarsSheltered [] raw

theorem squeeze_maps_eq_iff : squeeze T none (l.map latToCyr)
    = squeeze T none (l.map cyrOrLeetToLat) ↔ Unambiguous l := by
  by_cases hlook : ∀ c ∈ l, c ∉ lookalikes
  · have hf : l.map latToCyr = l := by
      rw [List.map_congr_left fun c hc => (maps_of_not_lookalike (hlook c hc)).1, List.map_id']
    have hg : l.map cyrOrLeetToLat = l.map dollarAsS := by
      apply List.map_congr_left
      intro c hc
      unfold dollarAsS
      by_cases hd : c = '$'
      · rw [if_pos hd, hd]
        rfl
      · rw [if_neg hd]
        exact (maps_of_not_lookalike (hlook c hc)).2 hd
    have hat : '@' ∉ l := fun h => hlook _ h (by decide)
    rw [hf, hg]
    exact (squeeze_dollarAsS_iff hat []).trans (and_iff_right hlook).symm
  · refine iff_of_false ?_ fun h => hlook h.1
    push Not at hlook
    obtain ⟨c, hc, hmem⟩ := hlook
    exact squeeze_ne_of_lookalike hc hmem

/-- **Stretching**: a token and the token with letters repeated fold to the
same text when the count of letters chooses the same script for both, or the
token reads the same in both scripts. -/
theorem stretch_invisible_iff (h : Drawled T raw raw') : foldToken T raw' = foldToken T raw ↔
    (InCyrillic raw' ↔ InCyrillic raw) ∨ Unambiguous raw := by
  by_cases hs : InCyrillic raw' ↔ InCyrillic raw
  · exact iff_of_true (h.foldToken_eq hs) (.inl hs)
  · rw [h.foldToken_eq_iff hs, squeeze_maps_eq_iff]
    exact (or_iff_right hs).symm

/-- One letter of either script, and one of the two repeated. -/
theorem stretch_changes_script : ∃ raw raw', Drawled bareTable raw raw'
    ∧ foldToken bareTable raw = "ав".toList ∧ foldToken bareTable raw' = "ab".toList :=
  ⟨['а', 'b'], ['а', 'b', 'b'], .cons 0 (.inl rfl) (.cons 1 (.inr (by decide)) .nil),
    by decide, by decide⟩

/-- A stretched word. -/
theorem stretch_invisible_word :
    foldToken bareTable "сееекс".toList = foldToken bareTable "секс".toList :=
  (@stretch_invisible_iff bareTable ['с', 'е', 'к', 'с'] _ (.cons 0 (.inl rfl)
    (.cons 2 (.inr (by decide)) (.cons 0 (.inl rfl) (.cons 0 (.inl rfl) .nil))))).mpr
    (.inl (by decide))

end Ruletka.ChatFilter
