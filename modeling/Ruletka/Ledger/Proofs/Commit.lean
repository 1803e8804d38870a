/-
What the hash of an event commits to.

# The join

The payload puts eleven fields behind each other with bars between them and
escapes nothing, so it is a list of pieces and the fields are one way to cut
that list. Three of the fields are numbers, one piece each. The fields in
front of `prev_hash` then take ten pieces if none of them has a bar, and a
second way to cut has to find its timestamp further right, among the pieces
of `prev_hash`.

# Replay

`replay_file` also wants the number and the previous hash that come next, and
a hash has no bar; what is left to move there are bars of the seven texts.
-/
import Ruletka.Ledger.Line
import Ruletka.Ledger.Proofs.Gifters
import Ruletka.Ledger.Proofs.Reload
import Ruletka.Lib.Sha256

namespace Ruletka.Ledger

open Text

-- ======================================================================== pieces

/-- A text cut at its bars. -/
def pieces (s : String) : List (List Char) := s.toList.splitOn '|'

theorem pieces_ne_nil (s : String) : pieces s ≠ [] := List.splitOn_ne_nil _ _

/-- A text without a bar is one piece. -/
theorem pieces_of_plain {s : String} (hs : '|' ∉ s.toList) : pieces s = [s.toList] :=
  List.splitOn_eq_singleton hs

theorem toList_bar (s t : String) : (s ++ "|" ++ t).toList = s.toList ++ '|' :: t.toList := by
  simp

theorem pieces_bar (s t : String) : pieces (s ++ "|" ++ t) = pieces s ++ pieces t := by
  rw [pieces, toList_bar, List.splitOn_append_cons_self]
  rfl

theorem eq_of_pieces {s t : String} (h : pieces s = pieces t) : s = t := by
  have hjoin := congrArg (List.intercalate ['|']) h
  rw [pieces, pieces, List.intercalate_splitOn, List.intercalate_splitOn] at hjoin
  exact String.toList_inj.mp hjoin

theorem plain_of_pieces {s : String} {p : List Char} (h : pieces s = [p]) :
    '|' ∉ s.toList := by
  intro hbar
  obtain ⟨a, b, hab⟩ := List.append_of_mem hbar
  have hs : s = String.ofList a ++ "|" ++ String.ofList b :=
    String.toList_inj.mp (by simp [hab])
  have hlen := congrArg List.length h
  rw [hs, pieces_bar, List.length_append, List.length_singleton] at hlen
  have ha := List.length_pos_iff.mpr (pieces_ne_nil (String.ofList a))
  have hb := List.length_pos_iff.mpr (pieces_ne_nil (String.ofList b))
  omega

/-- The text in front of a bar and the one behind it. -/
theorem exists_halves {s : String} (h : '|' ∈ s.toList) :
    ∃ a b : String, s = a ++ "|" ++ b ∧ a ≠ s ∧ b ≠ s := by
  obtain ⟨a, b, hab⟩ := List.append_of_mem h
  have hs : s = String.ofList a ++ "|" ++ String.ofList b :=
    String.toList_inj.mp (by simp [hab])
  refine ⟨.ofList a, .ofList b, hs, ?_, ?_⟩
  · intro heq
    have := congrArg (fun t => t.toList.length) heq
    simp [hab] at this
  · intro heq
    have := congrArg (fun t => t.toList.length) heq
    simp only [hab, String.toList_ofList, List.length_append, List.length_cons] at this
    omega

/-- Cut a text behind one of its pieces that is not the last. -/
theorem exists_cut {s : String} {p : List Char} (h : p ∈ (pieces s).dropLast) :
    ∃ u y : List Char, '|' :: s.toList = u ++ '|' :: (p ++ '|' :: y) := by
  obtain ⟨before, after, hpieces⟩ := List.append_of_mem h
  have hall := List.dropLast_append_getLast (pieces_ne_nil s)
  rw [hpieces, List.append_assoc, List.cons_append] at hall
  have hne : after ++ [(pieces s).getLast (pieces_ne_nil s)] ≠ [] := by simp
  generalize after ++ [(pieces s).getLast (pieces_ne_nil s)] = rest at hall hne
  refine ⟨before.flatMap ('|' :: ·), List.intercalate ['|'] rest, ?_⟩
  have hs : s.toList = List.intercalate ['|'] (before ++ p :: rest) := by
    rw [hall, pieces, List.intercalate_splitOn]
  have hjoin : ∀ l : List (List Char), '|' :: List.intercalate ['|'] (l ++ p :: rest)
      = l.flatMap ('|' :: ·) ++ '|' :: (p ++ '|' :: List.intercalate ['|'] rest) := by
    intro l
    induction l with
    | nil =>
        obtain ⟨q, qs, rfl⟩ := List.exists_cons_of_ne_nil hne
        simp [List.intercalate]
    | cons x l ih =>
        have hcons : List.intercalate ['|'] (x :: l ++ p :: rest)
            = x ++ '|' :: List.intercalate ['|'] (l ++ p :: rest) := by
          cases l <;> simp [List.intercalate]
        rw [hcons, ih]
        simp
  rw [hs]
  exact hjoin before

-- ======================================================================= numbers

theorem toList_number (n : UInt64) : (toString n).toList = Nat.toDigits 10 n.toNat :=
  Nat.toList_repr

/-- A number is written without a bar. -/
theorem plain_number (n : UInt64) : '|' ∉ (toString n).toList := by
  rw [toList_number]
  intro h
  exact absurd (Nat.isDigit_of_mem_toDigits (by decide) (by decide) h) (by decide)

theorem number_inj {m n : UInt64} (h : (toString m).toList = (toString n).toList) : m = n := by
  rw [toList_number, toList_number] at h
  have hval := congrArg (Nat.ofDigitChars 10 · 0) h
  simp only [Nat.ofDigitChars_ten_toDigits] at hval
  exact UInt64.toNat_inj.mp hval

theorem pieces_number (n : UInt64) : pieces (toString n) = [(toString n).toList] :=
  pieces_of_plain (plain_number n)

-- =================================================================== the condition

namespace StarEvent

/-- The texts of an event that others than the ledger choose. -/
def texts (ev : StarEvent) : List String :=
  [ev.id, ev.kind, ev.from, ev.to, ev.reason, ev.session, ev.opId]

/-- No bar in them. -/
def Barless (ev : StarEvent) : Prop := ∀ s ∈ ev.texts, '|' ∉ s.toList

/-- Nor a number between two bars, or in front of the first, of `prev_hash`. -/
structure Unsplit (ev : StarEvent) : Prop where
  barless : ev.Barless
  last : ∀ n : UInt64, (toString n).toList ∉ (pieces ev.prevHash).dropLast

/-- The same in all that is hashed. -/
structure SameFields (ev ev' : StarEvent) : Prop where
  seq : ev.seq = ev'.seq
  id : ev.id = ev'.id
  kind : ev.kind = ev'.kind
  «from» : ev.from = ev'.from
  «to» : ev.to = ev'.to
  amount : ev.amount = ev'.amount
  reason : ev.reason = ev'.reason
  session : ev.session = ev'.session
  opId : ev.opId = ev'.opId
  ts : ev.ts = ev'.ts
  prevHash : ev.prevHash = ev'.prevHash

/-- The text that is hashed. -/
def text (ev : StarEvent) : String :=
  payload ev.seq ev.id ev.kind ev.from ev.to ev.amount ev.reason ev.session ev.opId ev.ts
    ev.prevHash

theorem toList_text (ev : StarEvent) :
    ev.text.toList = (toString ev.seq).toList ++ '|' :: (ev.id.toList ++ '|' :: (ev.kind.toList
      ++ '|' :: (ev.from.toList ++ '|' :: (ev.to.toList ++ '|' :: ((toString ev.amount).toList
      ++ '|' :: (ev.reason.toList ++ '|' :: (ev.session.toList ++ '|' :: (ev.opId.toList
      ++ '|' :: ((toString ev.ts).toList ++ '|' :: ev.prevHash.toList))))))))) := by
  unfold text payload
  iterate 10 rw [toList_bar]
  simp only [List.append_assoc, List.cons_append]

/-- The pieces in front of the timestamp. -/
def front (ev : StarEvent) : List (List Char) :=
  (toString ev.seq).toList :: (pieces ev.id ++ pieces ev.kind ++ pieces ev.from ++ pieces ev.to
    ++ (toString ev.amount).toList :: (pieces ev.reason ++ pieces ev.session ++ pieces ev.opId))

theorem pieces_text (ev : StarEvent) :
    pieces ev.text = ev.front ++ (toString ev.ts).toList :: pieces ev.prevHash := by
  unfold text payload front
  iterate 10 rw [pieces_bar]
  rw [pieces_number ev.seq, pieces_number ev.amount, pieces_number ev.ts]
  simp only [List.append_assoc, List.nil_append, List.cons_append]

/-- Ten pieces at least, and ten exactly without bars. -/
theorem front_length (ev : StarEvent) : 9 ≤ ev.front.length ∧
    (ev.front.length = 9 → ev.Barless) := by
  have h : ∀ s : String, 1 ≤ (pieces s).length ∧
      ((pieces s).length = 1 → '|' ∉ s.toList) := by
    intro s
    refine ⟨List.length_pos_iff.mpr (pieces_ne_nil s), fun hone => ?_⟩
    obtain ⟨p, hp⟩ := List.length_eq_one_iff.mp hone
    exact plain_of_pieces hp
  have hlen : ev.front.length = 2 + (pieces ev.id).length + (pieces ev.kind).length
      + (pieces ev.from).length + (pieces ev.to).length + (pieces ev.reason).length
      + (pieces ev.session).length + (pieces ev.opId).length := by
    simp only [front, List.length_cons, List.length_append]
    omega
  obtain ⟨h₁, k₁⟩ := h ev.id
  obtain ⟨h₂, k₂⟩ := h ev.kind
  obtain ⟨h₃, k₃⟩ := h ev.from
  obtain ⟨h₄, k₄⟩ := h ev.to
  obtain ⟨h₅, k₅⟩ := h ev.reason
  obtain ⟨h₆, k₆⟩ := h ev.session
  obtain ⟨h₇, k₇⟩ := h ev.opId
  refine ⟨by omega, fun hnine => ?_⟩
  simp only [Barless, texts, List.forall_mem_cons, List.not_mem_nil, false_imp_iff, forall_const,
    and_true]
  exact ⟨k₁ (by omega), k₂ (by omega), k₃ (by omega), k₄ (by omega), k₅ (by omega),
    k₆ (by omega), k₇ (by omega)⟩

theorem Barless.front_eq {ev : StarEvent} (h : ev.Barless) :
    ev.front = [(toString ev.seq).toList, ev.id.toList, ev.kind.toList, ev.from.toList,
      ev.to.toList, (toString ev.amount).toList, ev.reason.toList, ev.session.toList,
      ev.opId.toList] := by
  simp only [Barless, texts, List.forall_mem_cons, List.not_mem_nil, false_imp_iff, forall_const,
    and_true] at h
  obtain ⟨h₁, h₂, h₃, h₄, h₅, h₆, h₇⟩ := h
  simp only [front, pieces_of_plain h₁, pieces_of_plain h₂, pieces_of_plain h₃,
    pieces_of_plain h₄, pieces_of_plain h₅, pieces_of_plain h₆, pieces_of_plain h₇,
    List.cons_append, List.nil_append]

/-- An event that is not split is the only one with its payload. -/
theorem Unsplit.unique {ev ev' : StarEvent} (h : ev.Unsplit) (htext : ev'.text = ev.text) :
    ev'.SameFields ev := by
  have hpieces := congrArg pieces htext
  rw [pieces_text, pieces_text] at hpieces
  obtain ⟨hnine, hplain⟩ := ev'.front_length
  have hfront : ev.front.length = 9 := by rw [h.barless.front_eq]; rfl
  rcases Nat.eq_or_lt_of_le hnine with heq | hlt
  · obtain ⟨hf, hrest⟩ := List.append_inj hpieces (heq.symm.trans hfront.symm)
    rw [(hplain heq.symm).front_eq, h.barless.front_eq] at hf
    simp only [List.cons.injEq, String.toList_inj, and_true] at hf hrest
    obtain ⟨hseq, hid, hkind, hfrom, hto, hamount, hreason, hsession, hop⟩ := hf
    exact ⟨number_inj (congrArg String.toList hseq), hid, hkind, hfrom, hto,
      number_inj (congrArg String.toList hamount), hreason, hsession, hop,
      number_inj (congrArg String.toList hrest.1), eq_of_pieces hrest.2⟩
  · -- the other timestamp is a piece of this `prev_hash`
    exfalso
    have hpre : ev.front ++ [(toString ev.ts).toList] <+: ev'.front := by
      have hmine : ev.front ++ [(toString ev.ts).toList] <+: pieces ev.text := by
        rw [pieces_text, List.append_cons _ _ (pieces ev.prevHash)]
        exact List.prefix_append _ _
      have hother : ev'.front <+: pieces ev.text := by
        rw [← htext, pieces_text]
        exact List.prefix_append _ _
      refine List.prefix_of_prefix_length_le hmine hother ?_
      rw [List.length_append, hfront]
      exact hlt
    obtain ⟨c, hc⟩ := hpre
    rw [← hc, List.append_cons ev.front _ (pieces ev.prevHash), List.append_assoc,
      List.append_cancel_left_eq] at hpieces
    refine h.last ev'.ts ?_
    rw [← hpieces, List.dropLast_append_of_ne_nil (List.cons_ne_nil _ _),
      List.dropLast_cons_of_ne_nil (pieces_ne_nil _)]
    simp

/-- A bar in one of the texts can be the one between it and its neighbour. -/
theorem exists_moved {ev : StarEvent} (h : ¬ ev.Barless) :
    ∃ ev' : StarEvent, ev'.text = ev.text ∧ ev'.seq = ev.seq ∧ ev'.prevHash = ev.prevHash
      ∧ ev'.hash = ev.hash ∧ ¬ ev'.SameFields ev := by
  obtain ⟨s, hs, hbar⟩ : ∃ s ∈ ev.texts, '|' ∈ s.toList := by
    simpa [Barless] using h
  obtain ⟨a, b, hab, ha, hb⟩ := exists_halves hbar
  simp only [texts, List.mem_cons, List.not_mem_nil, or_false] at hs
  rcases hs with rfl | rfl | rfl | rfl | rfl | rfl | rfl
  · refine ⟨{ ev with id := a, kind := b ++ "|" ++ ev.kind }, ?_, rfl, rfl, rfl,
      fun hsame => ha hsame.id⟩
    apply String.toList_inj.mp
    simp only [toList_text, hab, toList_bar, List.append_assoc, List.cons_append]
  · refine ⟨{ ev with kind := a, «from» := b ++ "|" ++ ev.from }, ?_, rfl, rfl, rfl,
      fun hsame => ha hsame.kind⟩
    apply String.toList_inj.mp
    simp only [toList_text, hab, toList_bar, List.append_assoc, List.cons_append]
  · refine ⟨{ ev with «from» := a, «to» := b ++ "|" ++ ev.to }, ?_, rfl, rfl, rfl,
      fun hsame => ha hsame.from⟩
    apply String.toList_inj.mp
    simp only [toList_text, hab, toList_bar, List.append_assoc, List.cons_append]
  · refine ⟨{ ev with «from» := ev.from ++ "|" ++ a, «to» := b }, ?_, rfl, rfl, rfl,
      fun hsame => hb hsame.to⟩
    apply String.toList_inj.mp
    simp only [toList_text, hab, toList_bar, List.append_assoc, List.cons_append]
  · refine ⟨{ ev with reason := a, session := b ++ "|" ++ ev.session }, ?_, rfl, rfl, rfl,
      fun hsame => ha hsame.reason⟩
    apply String.toList_inj.mp
    simp only [toList_text, hab, toList_bar, List.append_assoc, List.cons_append]
  · refine ⟨{ ev with session := a, opId := b ++ "|" ++ ev.opId }, ?_, rfl, rfl, rfl,
      fun hsame => ha hsame.session⟩
    apply String.toList_inj.mp
    simp only [toList_text, hab, toList_bar, List.append_assoc, List.cons_append]
  · refine ⟨{ ev with session := ev.session ++ "|" ++ a, opId := b }, ?_, rfl, rfl, rfl,
      fun hsame => hb hsame.opId⟩
    apply String.toList_inj.mp
    simp only [toList_text, hab, toList_bar, List.append_assoc, List.cons_append]

/-- A number inside of `prev_hash` can be the timestamp. -/
theorem exists_later {ev : StarEvent} {n : UInt64}
    (h : (toString n).toList ∈ (pieces ev.prevHash).dropLast) :
    ∃ ev' : StarEvent, ev'.text = ev.text ∧ ¬ ev'.SameFields ev := by
  obtain ⟨u, y, hcut⟩ := exists_cut h
  refine ⟨{ ev with opId := ev.opId ++ "|" ++ (toString ev.ts ++ String.ofList u), ts := n,
                     prevHash := String.ofList y }, ?_, fun hsame => ?_⟩
  · apply String.toList_inj.mp
    rw [toList_text, toList_text, toList_bar, String.toList_append, String.toList_ofList,
      String.toList_ofList, hcut]
    simp only [List.append_assoc, List.cons_append]
  · have hop := congrArg (fun t => t.toList.length) hsame.opId
    simp only [toList_bar, List.length_append, List.length_cons] at hop
    omega

/-- The hash commits to the fields of an event that is not split, and of no other. -/
theorem unique_iff (ev : StarEvent) :
    (∀ ev' : StarEvent, ev'.text = ev.text → ev'.SameFields ev) ↔ ev.Unsplit := by
  constructor
  · intro h
    refine ⟨?_, fun n hn => ?_⟩
    · by_contra hbar
      obtain ⟨ev', htext, -, -, -, hother⟩ := exists_moved hbar
      exact hother (h ev' htext)
    · obtain ⟨ev', htext, hother⟩ := exists_later hn
      exact hother (h ev' htext)
  · exact fun h ev' htext => h.unique htext

end StarEvent

-- ========================================================================== hash

theorem hexDigit_lt (i : Fin 16) : hexDigit i ≠ '|' ∧ ∀ j : Fin 16,
    hexDigit i = hexDigit j → i = j := by
  revert i
  decide

/-- A hash is written without a bar. -/
theorem plain_hexEncode (bytes : List UInt8) : '|' ∉ (hexEncode bytes).toList := by
  rw [hexEncode, String.toList_ofList]
  intro h
  obtain ⟨b, -, hb⟩ := List.mem_flatMap.mp h
  have hlt := b.toNat_lt
  simp only [List.mem_cons, List.not_mem_nil, or_false] at hb
  rcases hb with hb | hb
  · exact (hexDigit_lt ⟨b.toNat / 16, by omega⟩).1 hb.symm
  · exact (hexDigit_lt ⟨b.toNat % 16, by omega⟩).1 hb.symm

theorem hexEncode_injective : Function.Injective hexEncode := by
  intro bs bs' h
  rw [hexEncode, hexEncode, String.ofList_inj] at h
  induction bs generalizing bs' with
  | nil =>
      cases bs' with
      | nil => rfl
      | cons b bs' => simp at h
  | cons b bs ih =>
      cases bs' with
      | nil => simp at h
      | cons b' bs' =>
          simp only [List.flatMap_cons, List.cons_append, List.nil_append, List.cons.injEq] at h
          obtain ⟨hhigh, hlow, hrest⟩ := h
          have hb := b.toNat_lt
          have hb' := b'.toNat_lt
          have h₁ := (hexDigit_lt ⟨b.toNat / 16, by omega⟩).2 ⟨b'.toNat / 16, by omega⟩ hhigh
          have h₂ := (hexDigit_lt ⟨b.toNat % 16, by omega⟩).2 ⟨b'.toNat % 16, by omega⟩ hlow
          rw [Fin.mk.injEq] at h₁ h₂
          have heq : b = b' := UInt8.toNat_inj.mp (by omega)
          rw [heq, ih hrest]

variable {sha256 : String → List UInt8} {codec : LineCodec}

theorem recomputed_of_text {ev ev' : StarEvent} (h : ev'.text = ev.text) :
    ev'.recomputed sha256 = ev.recomputed sha256 :=
  congrArg (hexEncode ∘ sha256) h

/-- Equal hashes are hashes of equal texts. -/
theorem recomputed_inj (hsha : Function.Injective sha256) {ev ev' : StarEvent} :
    ev'.recomputed sha256 = ev.recomputed sha256 ↔ ev'.text = ev.text :=
  ⟨fun h => hsha (hexEncode_injective h), recomputed_of_text⟩

-- ======================================================================== replay

/-- Replay reads the whole file. -/
def LedgerFile.Accepted (sha256 : String → List UInt8) (codec : LineCodec) (f : LedgerFile) :
    Prop :=
  ∃ l, StarLedger.replayFile sha256 codec f = some (l, true)

/-- The line of one event rewritten as that of another with the same hash. -/
structure LedgerFile.Moved (codec : LineCodec) (f f' : LedgerFile) (ev ev' : StarEvent) :
    Prop where
  lines : ∃ before raw raw' after, f.all = before ++ raw :: after
    ∧ f'.all = before ++ raw' :: after
    ∧ StarLedger.readLine codec raw = .event ev ∧ StarLedger.readLine codec raw' = .event ev'
  hash : ev'.hash = ev.hash

namespace StarLedger

theorem follows_of_go {l l' : StarLedger} {ev : StarEvent} {raw : RawLine}
    (hread : readLine codec raw = .event ev) (h : replayLine sha256 codec l raw = .go l') :
    l.Follows sha256 ev ∧ l' = l.record ev := by
  rw [replayLine, hread] at h
  dsimp only at h
  split_ifs at h with hseq hprev hhash
  cases h
  exact ⟨⟨not_not.mp hseq, not_not.mp hprev, not_not.mp hhash⟩, rfl⟩

/-- What replay has read so far ends in a hash. -/
theorem plain_tip {raws : List RawLine} {l : StarLedger} {b : Bool}
    (h : scan (replayLine sha256 codec) .empty raws = some (l, b)) :
    '|' ∉ l.tipHash.toList := by
  refine scan_invariant (I := fun l => '|' ∉ l.tipHash.toList) ?_ (by decide) h
  intro l raw l' hl hgo
  cases hread : readLine codec raw with
  | unreadable =>
      rw [replayLine, hread] at hgo
      cases hgo
  | blank =>
      rw [replayLine, hread] at hgo
      cases hgo
      exact hl
  | corrupt =>
      rw [replayLine, hread] at hgo
      cases hgo
  | event ev =>
      obtain ⟨hfollows, rfl⟩ := follows_of_go hread hgo
      change '|' ∉ ev.hash.toList
      rw [← hfollows.hash]
      exact plain_hexEncode _

/-- Whether replay goes on depends on the number and the tip alone. -/
theorem through_of_same_tip {raws : List RawLine} {l l' r : StarLedger}
    (hseq : l'.seq = l.seq) (htip : l'.tipHash = l.tipHash)
    (h : scan (replayLine sha256 codec) l raws = some (r, true)) :
    ∃ r', scan (replayLine sha256 codec) l' raws = some (r', true) := by
  induction raws generalizing l l' with
  | nil => exact ⟨l', rfl⟩
  | cons raw raws ih =>
      rw [scan] at h ⊢
      cases hgo : replayLine sha256 codec l raw with
      | abort => rw [hgo] at h; cases h
      | halt => rw [hgo] at h; cases h
      | go l₁ =>
          rw [hgo] at h
          cases hread : readLine codec raw with
          | unreadable => rw [replayLine, hread] at hgo; cases hgo
          | corrupt => rw [replayLine, hread] at hgo; cases hgo
          | blank =>
              rw [replayLine, hread] at hgo
              cases hgo
              have hgo' : replayLine sha256 codec l' raw = .go l' := by rw [replayLine, hread]
              rw [hgo']
              exact ih hseq htip h
          | event ev =>
              obtain ⟨hfollows, rfl⟩ := follows_of_go hread hgo
              have hfollows' : l'.Follows sha256 ev :=
                ⟨by rw [hseq]; exact hfollows.seq, by rw [htip]; exact hfollows.prevHash,
                  hfollows.hash⟩
              rw [replayLine_of_follows hread hfollows']
              exact ih (l := l.record ev) rfl rfl h

/-- An accepted file, cut at one of its events. -/
theorem accepted_cut {f : LedgerFile} {before after : List RawLine} {raw : RawLine}
    {ev : StarEvent} (hall : f.all = before ++ raw :: after)
    (hread : readLine codec raw = .event ev) (h : f.Accepted sha256 codec) :
    ∃ l r, scan (replayLine sha256 codec) .empty before = some (l, true) ∧ l.Follows sha256 ev
      ∧ scan (replayLine sha256 codec) (l.record ev) after = some (r, true) := by
  obtain ⟨r, hr⟩ := h
  rw [replayFile, hall, scan_append] at hr
  split at hr
  · next l hbefore =>
    rw [scan] at hr
    cases hgo : replayLine sha256 codec l raw with
    | abort => rw [hgo] at hr; cases hr
    | halt => rw [hgo] at hr; cases hr
    | go l₁ =>
        rw [hgo] at hr
        obtain ⟨hfollows, rfl⟩ := follows_of_go hread hgo
        exact ⟨l, r, hbefore, hfollows, hr⟩
  · next hother =>
    exact absurd hr (hother r)

end StarLedger

namespace LedgerFile

/-- A file with one line in the place of another. -/
theorem exists_rewritten {f : LedgerFile} {before after : List RawLine} {raw : RawLine}
    (hall : f.all = before ++ raw :: after) (raw' : RawLine) :
    ∃ f' : LedgerFile, f'.all = before ++ raw' :: after := by
  have hne : before ++ raw' :: after ≠ [] := by simp
  have hlen := congrArg List.length hall
  simp only [all, List.length_append, List.length_cons, List.length_nil] at hlen
  refine ⟨⟨(before ++ raw' :: after).dropLast, (before ++ raw' :: after).getLast hne, ?_⟩,
    List.dropLast_append_getLast hne⟩
  have := f.fits
  rw [List.length_dropLast, List.length_append, List.length_cons]
  omega

/-- In an accepted file an event without bars cannot be rewritten, and one with
bars can. -/
theorem rewritable_iff (hsha : Function.Injective sha256) {f : LedgerFile}
    (hf : f.Accepted sha256 codec) {ev : StarEvent}
    (hev : ∃ raw ∈ f.all, StarLedger.readLine codec raw = .event ev) :
    (∀ f' ev', Moved codec f f' ev ev' → f'.Accepted sha256 codec → ev'.SameFields ev)
      ↔ ev.Barless := by
  constructor
  · intro h
    by_contra hbar
    obtain ⟨ev', htext, hseq, hprev, hhash, hother⟩ := StarEvent.exists_moved hbar
    obtain ⟨raw, hmem, hread⟩ := hev
    obtain ⟨before, after, hall⟩ := List.append_of_mem hmem
    obtain ⟨l, r, hbefore, hfollows, hafter⟩ := StarLedger.accepted_cut hall hread hf
    have hread' : StarLedger.readLine codec (rawOf (codec.print ev')) = .event ev' :=
      StarLedger.readLine_behind_blank codec (t := []) (fun _ hc => nomatch hc) ev'
    obtain ⟨f', hall'⟩ := exists_rewritten hall (rawOf (codec.print ev'))
    have hfollows' : l.Follows sha256 ev' :=
      ⟨hseq.trans hfollows.seq, hprev.trans hfollows.prevHash,
        ((recomputed_inj hsha).mpr htext).trans (hfollows.hash.trans hhash.symm)⟩
    refine hother (h f' ev' ⟨⟨before, raw, _, after, hall, hall', hread, hread'⟩, hhash⟩ ?_)
    obtain ⟨r', hr'⟩ : ∃ r', scan (StarLedger.replayLine sha256 codec) (l.record ev') after
        = some (r', true) :=
      StarLedger.through_of_same_tip (l := l.record ev) hseq hhash hafter
    refine ⟨r', ?_⟩
    rw [StarLedger.replayFile, hall', scan_append_of_through hbefore, scan,
      StarLedger.replayLine_of_follows hread' hfollows']
    exact hr'
  · rintro hplain f' ev' ⟨⟨before, raw, raw', after, hall, hall', hread, hread'⟩, hhash⟩ hf'
    obtain ⟨l, -, hbefore, hfollows, -⟩ := StarLedger.accepted_cut hall hread hf
    obtain ⟨l', -, hbefore', hfollows', -⟩ := StarLedger.accepted_cut hall' hread' hf'
    have hunsplit : ev.Unsplit := by
      refine ⟨hplain, fun n hn => ?_⟩
      rw [pieces_of_plain (hfollows.prevHash ▸ StarLedger.plain_tip hbefore)] at hn
      cases hn
    exact hunsplit.unique ((recomputed_inj hsha).mp
      (hfollows'.hash.trans (hhash.trans hfollows.hash.symm)))

end LedgerFile

-- ==================================================================== the main result

/-- The hash of an event commits to its fields when the event is not split, and only
then; and an accepted file with another event in the place of one, under the same
hash, is not accepted if the event has no bar, and only then. -/
theorem event_hash_commits_iff (sha256 : String → List UInt8) (codec : LineCodec)
    (hsha : Function.Injective sha256) :
    (∀ ev : StarEvent, (∀ ev' : StarEvent,
        ev'.recomputed sha256 = ev.recomputed sha256 → ev'.SameFields ev) ↔ ev.Unsplit)
      ∧ ∀ f : LedgerFile, f.Accepted sha256 codec → ∀ ev : StarEvent,
          (∃ raw ∈ f.all, StarLedger.readLine codec raw = .event ev) →
          ((∀ f' ev', LedgerFile.Moved codec f f' ev ev' → f'.Accepted sha256 codec →
              ev'.SameFields ev) ↔ ev.Barless) := by
  refine ⟨fun ev => ?_, fun f hf ev hev => LedgerFile.rewritable_iff hsha hf hev⟩
  rw [← StarEvent.unique_iff]
  exact forall_congr' fun ev' => imp_congr_left (recomputed_inj hsha)

/-- The event with the hash it should carry. -/
def StarEvent.sealed (sha256 : String → List UInt8) (ev : StarEvent) : StarEvent :=
  { ev with hash := ev.recomputed sha256 }

theorem StarEvent.recomputed_sealed (sha256 : String → List UInt8) (ev : StarEvent) :
    (ev.sealed sha256).recomputed sha256 = (ev.sealed sha256).hash := rfl

/-- A gift of `a|b` to `c`. -/
def barredGift : StarEvent := (rating "a|b" "c").sealed Sha256.sha256

/-- Its text cut elsewhere: a gift of `a` to `b|c`, under the same hash. -/
def movedGift : StarEvent := { barredGift with «from» := "a", «to» := "b|c" }

/-- The file of one gift. -/
def giftFile (ev : StarEvent) : LedgerFile := ⟨[rawOf ev.print], [], by simp⟩

theorem moved_gift_accepted :
    movedGift.recomputed Sha256.sha256 = barredGift.recomputed Sha256.sha256
      ∧ ¬ movedGift.SameFields barredGift
      ∧ LedgerFile.Moved compactCodec (giftFile barredGift) (giftFile movedGift) barredGift
          movedGift
      ∧ (giftFile barredGift).Accepted Sha256.sha256 compactCodec
      ∧ (giftFile movedGift).Accepted Sha256.sha256 compactCodec := by
  have hread : ∀ ev, StarLedger.readLine compactCodec (rawOf ev.print) = .event ev :=
    fun ev => StarLedger.readLine_behind_blank compactCodec (t := []) (fun _ hc => nomatch hc) ev
  have hblank : StarLedger.readLine compactCodec [] = .blank :=
    (StarLedger.readLine_eq_blank_iff compactCodec []).mpr fun _ hc => nomatch hc
  have haccept : ∀ ev, StarLedger.empty.Follows Sha256.sha256 ev →
      (giftFile ev).Accepted Sha256.sha256 compactCodec := by
    intro ev hev
    refine ⟨StarLedger.empty.record ev, ?_⟩
    rw [StarLedger.replayFile, giftFile, LedgerFile.all, List.singleton_append, scan,
      StarLedger.replayLine_of_follows (hread ev) hev]
    simp only [scan, StarLedger.replayLine, hblank]
  have htext : movedGift.text = barredGift.text := by decide
  have hsame : movedGift.recomputed Sha256.sha256 = barredGift.recomputed Sha256.sha256 :=
    recomputed_of_text htext
  have hall : ∀ ev, (giftFile ev).all = [] ++ rawOf ev.print :: [[]] := fun _ => rfl
  exact ⟨hsame, fun h => absurd h.to (by decide),
    ⟨⟨[], _, _, [[]], hall barredGift, hall movedGift, hread barredGift, hread movedGift⟩, rfl⟩,
    haccept _ ⟨rfl, rfl, StarEvent.recomputed_sealed _ _⟩,
    haccept _ ⟨rfl, rfl, hsame.trans (StarEvent.recomputed_sealed _ _)⟩⟩

/-- A hash without collisions that is SHA-256 on one text. -/
def idealSha (s₀ s : String) : List UInt8 :=
  if s = s₀ then Sha256.sha256 s else List.replicate 33 0 ++ s.toByteArray.data.toList

theorem idealSha_injective (s₀ : String) : Function.Injective (idealSha s₀) := by
  have hlen : ∀ s, (Sha256.sha256 s).length = 32 := fun s => by
    simp [Sha256.sha256, Sha256.digest, Sha256.beBytes]
  intro s t h
  unfold idealSha at h
  split_ifs at h with hs ht ht
  · exact hs.trans ht.symm
  · have := congrArg List.length h
    rw [hlen, List.length_append, List.length_replicate] at this
    omega
  · have := congrArg List.length h
    rw [hlen, List.length_append, List.length_replicate] at this
    omega
  · rw [List.append_cancel_left_eq] at h
    exact String.toByteArray_inj.mp (ByteArray.ext (Array.toList_inj.mp h))

/-- The hash of an event without bars commits to its fields. -/
theorem event_hash_commits_iff_plain :
    ((rating "a" "c").sealed (idealSha "1|u1|mint|a|c|1|mint:rate_partner|||1|")).SameFields
      (rating "a" "c") :=
  ((event_hash_commits_iff (idealSha "1|u1|mint|a|c|1|mint:rate_partner|||1|") compactCodec
    (idealSha_injective _)).1 _).mpr
    ⟨by unfold StarEvent.Barless; decide, fun n hn => by cases hn⟩ _ rfl

end Ruletka.Ledger
