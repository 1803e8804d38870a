/-
A group of four after one of them has left.

A 2v2 has two parties, so the leaver has a mate and faces a linked pair:
`leave_keep_remaining_pair` makes a 1v2 of the three. In a group that a
friend joined, the links are those of the trio before it and nobody is
linked to the friend. Whoever leaves with a link leaves two who are not
linked with each other, and one of them is idled; the friend leaves without
a link, and everybody is dropped.
-/
import Ruletka.Hub.Proofs.Leaves

namespace Ruletka

/-- How a group of four comes about. -/
inductive Quartet where
  /-- `start_party_vs_party` -/
  | versus
  /-- `start_four_person_join` -/
  | join
  deriving DecidableEq, Repr

namespace Lobby

variable {L : Lobby} {o : ConnId → IterOrder ConnId} {x m p q : ConnId}

/-- They are matched, each with exactly the others. -/
def Together (L : Lobby) (rest : Finset ConnId) : Prop :=
  ∀ y ∈ rest, L.phaseOf y = some .matched ∧ ∀ z, z ∈ L.peersOf y ↔ z ∈ rest ∧ z ≠ y

/-- One of them is out of the session, and is not to be matched again. -/
def Broken (L : Lobby) (rest : Finset ConnId) : Prop :=
  ∃ y ∈ rest, L.phaseOf y ≠ some .matched
    ∧ (L.phaseOf y ≠ some .waiting ∨ ∀ e ∈ L.queue, y ∉ queueEntryIds e)

theorem Faces.rotate {party : Option ConnId} (hf : L.Faces x [p, q, m] party) :
    L.Faces x [m, p, q] party := by
  obtain ⟨s, hs, hphase, hpeers, hparty⟩ := hf
  refine ⟨s, hs, hphase, fun y => (hpeers y).trans ?_, hparty⟩
  simp only [List.mem_cons, List.not_mem_nil, or_false]
  tauto

theorem partyLinked_of_faces {y : ConnId} {others others' : List ConnId}
    {party party' : Option ConnId} (hx : L.Faces x others party) (hy : L.Faces y others' party') :
    L.partyLinked x y = true ↔ party = some y ∨ party' = some x := by
  rw [partyLinked_iff, hx.partyWithOf, hy.partyWithOf]

-- ============================================================= the leaver has a mate

/-- A 1v2 seats its three members with each other. -/
theorem together_trio {rest : Finset ConnId} (hnd : [m, p, q].Nodup)
    (hrest : ∀ z, z ∈ rest ↔ z = m ∨ z = p ∨ z = q) (hm : L.has m = true)
    (hp : L.has p = true) (hq : L.has q = true) : (L.trio m p q).Together rest := by
  obtain ⟨sm, hsm⟩ := Option.isSome_iff_exists.mp hm
  obtain ⟨sp, hsp⟩ := Option.isSome_iff_exists.mp hp
  obtain ⟨sq, hsq⟩ := Option.isSome_iff_exists.mp hq
  simp only [List.nodup_cons, List.mem_cons, List.not_mem_nil, or_false, not_or] at hnd
  obtain ⟨⟨hmp, hmq⟩, hpq, -⟩ := hnd
  intro y hy
  unfold trio
  obtain rfl | rfl | rfl := (hrest y).mp hy
  · refine ⟨by simp [phaseOf, Seat.join, *], fun z => ?_⟩
    simp [peersOf, Seat.join, *]
    grind
  · refine ⟨by simp [phaseOf, Seat.join, *, Ne.symm hmp], fun z => ?_⟩
    simp [peersOf, Seat.join, *, Ne.symm hmp]
    grind
  · refine ⟨by simp [phaseOf, Seat.join, *, Ne.symm hmq, Ne.symm hpq], fun z => ?_⟩
    simp [peersOf, Seat.join, *, Ne.symm hmq, Ne.symm hpq]
    grind

/-- Whoever is idled stays idle when two others are collapsed. -/
theorem phaseOf_collapse_forceIdle (hq : L.has q = true) (hqm : q ≠ m) (hqp : q ≠ p) :
    ((L.forceIdle q).collapse m p).phaseOf q = some .idle := by
  obtain ⟨s, hs⟩ := Option.isSome_iff_exists.mp hq
  unfold collapse
  dsimp only
  unfold pair forceIdle
  split <;> simp [phaseOf, hs, hqm, hqp, Seat.free]

/-- With a linked pair the mate makes a 1v2. -/
theorem together_keepStrangers {rest : Finset ConnId} (hlink : L.partyLinked p q = true)
    (hnd : [m, p, q].Nodup) (hrest : ∀ z, z ∈ rest ↔ z = m ∨ z = p ∨ z = q)
    (hm : L.has m = true) (hp : L.has p = true) (hq : L.has q = true) :
    (L.keepStrangers m [p, q]).Together rest := by
  rw [keepStrangers, if_pos ⟨hlink, hp, hq, hm⟩]
  exact together_trio hnd hrest hm hp hq

/-- Of two who are not linked the second is idled. -/
theorem idle_keepStrangers (hlink : L.partyLinked p q = false) (hq : L.has q = true)
    (hqm : q ≠ m) (hqp : q ≠ p) : (L.keepStrangers m [p, q]).phaseOf q = some .idle := by
  have hnot : ¬ (L.partyLinked p q = true ∧ L.has p = true ∧ L.has q = true ∧ L.has m = true) :=
    fun h => Bool.false_ne_true (hlink.symm.trans h.1)
  rw [keepStrangers, if_neg hnot]
  exact phaseOf_collapse_forceIdle hq hqm hqp

/-- A leaver with a mate faces two others: a linked pair becomes a 1v2 with
the mate, and of two that are not linked one is idled. -/
theorem leaveKeep_faces {rest : Finset ConnId} (hf : L.Faces x [m, p, q] (some m))
    (hnd : [x, m, p, q].Nodup) (hrest : ∀ z, z ∈ rest ↔ z = m ∨ z = p ∨ z = q)
    (hm : L.has m = true) (hp : L.has p = true) (hq : L.has q = true) :
    (L.leaveKeep o x).2 = true
      ∧ (L.partyLinked p q = true → (L.leaveKeep o x).1.Together rest)
      ∧ (L.partyLinked p q = false → ∃ y ∈ rest, (L.leaveKeep o x).1.phaseOf y = some .idle) := by
  obtain ⟨s, hs, hphase, hpeers, hparty⟩ := hf
  have hleave : L.leaveKeep o x = (L.leaveMate o x m s.peers, true) := by
    rw [leaveKeep, hs]
    dsimp only
    rw [hparty]
    exact if_pos hm
  have hnd' : [m, p, q].Nodup := (List.nodup_cons.mp hnd).2
  have hpq : p ≠ q := by simp at hnd; tauto
  have hmp : m ≠ p := by simp at hnd; tauto
  have hmq : m ≠ q := by simp at hnd; tauto
  rw [hleave, leaveMate]
  -- the strangers come in one of two orders
  have hstrangers : L.strangers (o x) m s.peers = [p, q]
      ∨ L.strangers (o x) m s.peers = [q, p] := by
    refine SimpleHub.eq_pair_of_mem_iff (((o x).nodup_run _).filter _) hpq fun z => ?_
    simp only [strangers, List.mem_filter, IterOrder.mem_run, hpeers, List.mem_cons,
      List.not_mem_nil, or_false, Bool.and_eq_true, decide_eq_true_eq]
    constructor
    · rintro ⟨hz | hz, hzm, -⟩
      · exact absurd hz hzm
      · exact hz
    · rintro (rfl | rfl)
      · exact ⟨.inr (.inl rfl), hmp.symm, hp⟩
      · exact ⟨.inr (.inr rfl), hmq.symm, hq⟩
  have hlinked : ∀ l y z, y ≠ m → z ≠ m →
      ((L.pruneAll o x l).unmate m x).partyLinked y z = L.partyLinked y z := by
    intro l y z hy hz
    rw [partyLinked, partyLinked, partyWithOf_pruned l hy, partyWithOf_pruned l hz]
  have hsymm : L.partyLinked q p = L.partyLinked p q := by
    rw [partyLinked, partyLinked, Bool.or_comm]
  refine ⟨rfl, fun hlink => ?_, fun hlink => ?_⟩
  · obtain heq | heq := hstrangers
    · rw [heq]
      refine together_keepStrangers ?_ hnd' hrest ?_ ?_ ?_
      · rwa [hlinked _ _ _ hmp.symm hmq.symm]
      all_goals rwa [has_pruned]
    · rw [heq]
      refine together_keepStrangers ?_ (by simp [hmp, hmq, hpq.symm]) (fun z => ?_) ?_ ?_ ?_
      · rwa [hlinked _ _ _ hmq.symm hmp.symm, hsymm]
      · rw [hrest]
        tauto
      all_goals rwa [has_pruned]
  · obtain heq | heq := hstrangers
    · refine ⟨q, (hrest q).mpr (.inr (.inr rfl)), ?_⟩
      rw [heq]
      refine idle_keepStrangers ?_ ?_ hmq.symm hpq.symm
      · rwa [hlinked _ _ _ hmp.symm hmq.symm]
      · rwa [has_pruned]
    · refine ⟨p, (hrest p).mpr (.inr (.inl rfl)), ?_⟩
      rw [heq]
      refine idle_keepStrangers ?_ ?_ hmp.symm hpq
      · rwa [hlinked _ _ _ hmq.symm hmp.symm, hsymm]
      · rwa [has_pruned]

-- ========================================================= the leaver has no mate

/-- A rewrite that leaves a seat unmatched matches nobody. -/
theorem phaseOf_alter {f : Seat → Seat} (hf : ∀ s, (f s).phase ≠ .matched) {y : ConnId}
    (h : (L.alter p f).phaseOf y = some .matched) : L.phaseOf y = some .matched ∧ y ≠ p := by
  unfold phaseOf at h ⊢
  rw [seat_alter] at h
  split at h
  · rw [Option.map_map] at h
    obtain ⟨s, -, hs⟩ := Option.map_eq_some_iff.mp h
    exact absurd hs (hf s)
  · next hyp => exact ⟨h, hyp⟩

theorem unmatch_phase (s : Seat) : s.unmatch.phase ≠ .matched := by
  unfold Seat.unmatch
  dsimp only
  split
  · exact nofun
  · split <;> exact nofun

/-- Taking one client out of its match matches nobody. -/
theorem phaseOf_unmatchOne {y : ConnId} (h : (L.unmatchOne p).phaseOf y = some .matched) :
    L.phaseOf y = some .matched ∧ y ≠ p := by
  have hstep : ((L.drop p).alter p Seat.unmatch).phaseOf y = some .matched →
      L.phaseOf y = some .matched ∧ y ≠ p := phaseOf_alter (L := L.drop p) unmatch_phase
  unfold unmatchOne at h
  dsimp only at h
  split at h
  · split at h
    · unfold enqueueParty at h
      exact hstep (phaseOf_alter (by simp [Seat.huntWith])
        (phaseOf_alter (by simp [Seat.huntWith]) h).1).1
    · exact hstep h
  · exact hstep h

/-- Nor does releasing one of the peers of a leaver. -/
theorem phaseOf_releasePeer {y : ConnId} (h : (L.releasePeer x p).phaseOf y = some .matched) :
    L.phaseOf y = some .matched := by
  unfold releasePeer at h
  split at h
  · exact h
  · dsimp only at h
    split at h
    · unfold placeAlone enqueueSolo at h
      have hplaced := phaseOf_alter (L := (L.unmatchOne p).drop p) (f := Seat.alone)
        (by simp [Seat.alone]) h
      exact (phaseOf_unmatchOne hplaced.1).1
    · exact (phaseOf_unmatchOne h).1

/-- A peer that is neither friend nor mate of the leaver is not matched after it. -/
theorem phaseOf_releasePeer_self (hfriend : L.friendCallOf x = none)
    (hparty : L.partyWithOf x = none) :
    (L.releasePeer x p).phaseOf p ≠ some .matched := by
  intro h
  unfold releasePeer at h
  rw [hfriend, hparty, if_neg (by simp)] at h
  dsimp only at h
  split at h
  · unfold placeAlone enqueueSolo at h
    have hplaced := phaseOf_alter (L := (L.unmatchOne p).drop p) (f := Seat.alone)
      (by simp [Seat.alone]) h
    exact hplaced.2 rfl
  · exact (phaseOf_unmatchOne h).2 rfl

theorem phaseOf_foldl {g : Lobby → ConnId → Lobby} {y : ConnId}
    (hg : ∀ L p, (g L p).phaseOf y = some .matched → L.phaseOf y = some .matched)
    (l : List ConnId) (h : (l.foldl g L).phaseOf y = some .matched) :
    L.phaseOf y = some .matched := by
  induction l generalizing L with
  | nil => exact h
  | cons p l ih => exact hg L p (ih h)

/-- The first peer of a leaver without friend and mate is out of the session
when its match is cleared. -/
theorem clearMatch_breaks {others : List ConnId} (hf : L.Faces x others none)
    (hfriend : L.friendCallOf x = none) (hne : others ≠ []) :
    ∃ y ∈ others, (L.clearMatch (o x) x).phaseOf y ≠ some .matched := by
  obtain ⟨s, hs, hphase, hpeers, hparty⟩ := hf
  obtain ⟨z, hz⟩ := List.exists_mem_of_ne_nil others hne
  have hps : L.peersOf x = s.peers := by rw [peersOf, hs]; rfl
  unfold clearMatch
  rw [hps]
  cases hrun : (o x).run s.peers with
  | nil =>
      have hmem : z ∈ (o x).run s.peers := by
        rw [IterOrder.mem_run, hpeers]
        exact hz
      rw [hrun] at hmem
      cases hmem
  | cons y l =>
      have hy : y ∈ others := by
        rw [← hpeers, ← (o x).mem_run, hrun]
        exact List.mem_cons_self
      refine ⟨y, hy, fun hmatched => ?_⟩
      rw [List.foldl_cons] at hmatched
      have hfirst := phaseOf_foldl (fun L p => phaseOf_releasePeer) l hmatched
      refine phaseOf_releasePeer_self ?_ ?_ hfirst
      · simpa [friendCallOf, hs] using hfriend
      · simp [partyWithOf, hs, hparty]

/-- A member of a party whose mate is there searches with it. -/
structure Regrouped (L R : Lobby) (p q : ConnId) : Prop where
  others : ∀ y, y ≠ p → y ≠ q → R.seat y = L.seat y
  left : R.partyWithOf p = some q
  right : R.partyWithOf q = some p
  queue : ∀ e ∈ R.queue, (e ∈ L.queue ∧ p ∉ queueEntryIds e ∧ q ∉ queueEntryIds e)
    ∨ ∀ y, y ∈ queueEntryIds e ↔ y = p ∨ y = q

theorem regrouped_unmatchOne (hparty : L.partyWithOf p = some q) (hp : L.has p = true)
    (hq : L.has q = true) (hpq : p ≠ q) : L.Regrouped (L.unmatchOne p) p q := by
  obtain ⟨sp, hsp⟩ := Option.isSome_iff_exists.mp hp
  obtain ⟨sq, hsq⟩ := Option.isSome_iff_exists.mp hq
  unfold unmatchOne
  rw [hparty]
  dsimp only
  rw [if_pos ⟨hp, hq⟩]
  unfold enqueueParty
  refine ⟨fun y hyp hyq => ?_, ?_, ?_, fun e he => ?_⟩
  · simp [hyp, hyq]
  · simp [partyWithOf, hsp, hpq, Seat.huntWith]
  · simp [partyWithOf, hsq, hpq.symm, Seat.huntWith]
  · simp only [queue_alter, queue_push, queue_drop, List.mem_append, List.mem_filter,
      List.mem_singleton, decide_eq_true_eq] at he
    obtain ⟨⟨⟨he, hep⟩, -⟩, heq⟩ | rfl := he
    · exact .inl ⟨he, hep, heq⟩
    · refine .inr fun y => ?_
      split
      · simp [queueEntryIds]
      · simp [queueEntryIds, or_comm]

namespace Regrouped

variable {R : Lobby} (hr : L.Regrouped R p q)

include hr

theorem party_other {y : ConnId} (hyp : y ≠ p) (hyq : y ≠ q) :
    R.partyWithOf y = L.partyWithOf y := by
  rw [partyWithOf, partyWithOf, hr.others y hyp hyq]

theorem party_linked {y : ConnId} (hy : L.partyWithOf y = some p) (hyp : y ≠ p) :
    R.partyWithOf y = some p := by
  by_cases hyq : y = q
  · rw [hyq]
    exact hr.right
  · rw [hr.party_other hyp hyq, hy]

theorem has {y : ConnId} (hy : L.has y = true) : R.has y = true := by
  have hsome : ∀ z w, R.partyWithOf z = some w → R.has z = true := by
    intro z w hz
    obtain ⟨s, hs, -⟩ := Option.bind_eq_some_iff.mp hz
    rw [Lobby.has, hs]
    rfl
  by_cases hyp : y = p
  · exact hyp ▸ hsome p q hr.left
  by_cases hyq : y = q
  · exact hyq ▸ hsome q p hr.right
  rwa [Lobby.has, hr.others y hyp hyq]

/-- A third client has a slot with neither of them, so none with one it shares
with them. -/
theorem absent {y : ConnId} (hyp : y ≠ p) (hyq : y ≠ q)
    (hold : ∀ e ∈ L.queue, y ∈ queueEntryIds e → p ∈ queueEntryIds e ∨ q ∈ queueEntryIds e) :
    ∀ e ∈ R.queue, y ∉ queueEntryIds e := by
  intro e he hy
  obtain ⟨heL, hp, hq⟩ | hslot := hr.queue e he
  · exact (hold e heL hy).elim hp hq
  · exact ((hslot y).mp hy).elim hyp hyq

/-- One of the two has slots only with the other. -/
theorem only (y : ConnId) (hy : y = p ∨ y = q) :
    ∀ e ∈ R.queue, y ∈ queueEntryIds e → p ∈ queueEntryIds e ∧ q ∈ queueEntryIds e := by
  intro e he hye
  obtain ⟨-, hp, hq⟩ | hslot := hr.queue e he
  · obtain rfl | rfl := hy
    · exact absurd hye hp
    · exact absurd hye hq
  · exact ⟨(hslot p).mpr (.inl rfl), (hslot q).mpr (.inr rfl)⟩

end Regrouped

/-- Of three clients linked like a trio one is left without a slot when each
of them is unmatched in turn: the last to be grouped with the one they share
takes it along. -/
theorem left_out {a u w : ConnId} (hau : a ≠ u) (haw : a ≠ w) (huw : u ≠ w)
    (ha : L.partyWithOf a = some u ∨ L.partyWithOf a = some w) (hu : L.partyWithOf u = some a)
    (hw : L.partyWithOf w = some a) (hha : L.has a = true) (hhu : L.has u = true)
    (hhw : L.has w = true) {l : List ConnId} (hl : l = [a, u, w] ∨ l = [u, a, w] ∨ l = [u, w, a]) :
    (∀ e ∈ (l.foldl unmatchOne L).queue, u ∉ queueEntryIds e)
      ∧ ∀ y, y ≠ a → y ≠ u → y ≠ w → (l.foldl unmatchOne L).seat y = L.seat y := by
  obtain rfl | rfl | rfl := hl
  · obtain ⟨q, hq, haq, hhq⟩ : ∃ q, L.partyWithOf a = some q ∧ a ≠ q ∧ L.has q = true := by
      obtain ha | ha := ha
      · exact ⟨u, ha, hau, hhu⟩
      · exact ⟨w, ha, haw, hhw⟩
    have h₁ := regrouped_unmatchOne hq hha hhq haq
    have h₂ := regrouped_unmatchOne (h₁.party_linked hu hau.symm) (h₁.has hhu) (h₁.has hha)
      hau.symm
    have hw₂ := (h₂.party_other huw.symm haw.symm).trans (h₁.party_linked hw haw.symm)
    have h₃ := regrouped_unmatchOne hw₂ (h₂.has (h₁.has hhw)) (h₂.has (h₁.has hha)) haw.symm
    refine ⟨h₃.absent huw hau.symm fun e he hue => .inr (h₂.only u (.inl rfl) e he hue).2, ?_⟩
    intro y hya hyu hyw
    have hyq : y ≠ q := by
      obtain ha | ha := ha <;> cases hq.symm.trans ha
      · exact hyu
      · exact hyw
    exact (h₃.others y hyw hya).trans ((h₂.others y hyu hya).trans (h₁.others y hya hyq))
  · have h₁ := regrouped_unmatchOne hu hhu hha hau.symm
    have h₂ := regrouped_unmatchOne h₁.right (h₁.has hha) (h₁.has hhu) hau
    have hw₂ := (h₂.party_other haw.symm huw.symm).trans
      ((h₁.party_other huw.symm haw.symm).trans hw)
    have h₃ := regrouped_unmatchOne hw₂ (h₂.has (h₁.has hhw)) (h₂.has (h₁.has hha)) haw.symm
    refine ⟨h₃.absent huw hau.symm fun e he hue => .inr (h₂.only u (.inr rfl) e he hue).1, ?_⟩
    intro y hya hyu hyw
    exact (h₃.others y hyw hya).trans ((h₂.others y hya hyu).trans (h₁.others y hyu hya))
  · have h₁ := regrouped_unmatchOne hu hhu hha hau.symm
    have hw₁ := (h₁.party_other huw.symm haw.symm).trans hw
    have h₂ := regrouped_unmatchOne hw₁ (h₁.has hhw) (h₁.has hha) haw.symm
    have h₃ := regrouped_unmatchOne h₂.right (h₂.has (h₁.has hha)) (h₂.has (h₁.has hhw)) haw
    have hgone := h₂.absent huw hau.symm fun e he hue => .inr (h₁.only u (.inl rfl) e he hue).2
    refine ⟨h₃.absent hau.symm huw fun e he hue => absurd hue (hgone e he), ?_⟩
    intro y hya hyu hyw
    exact (h₃.others y hya hyw).trans ((h₂.others y hyw hya).trans (h₁.others y hyu hya))

theorem unmatched_foldl {l : List ConnId} {y : ConnId} (hy : y ∈ l) :
    (l.foldl unmatchOne L).phaseOf y ≠ some .matched := by
  induction l generalizing L with
  | nil => cases hy
  | cons p l ih =>
      rw [List.foldl_cons]
      obtain rfl | hy := List.mem_cons.mp hy
      · intro hmatched
        exact (phaseOf_unmatchOne
          (phaseOf_foldl (fun L p h => (phaseOf_unmatchOne h).1) l hmatched)).2 rfl
      · exact ih hy

/-- A leaver without a mate and with more than two peers keeps nobody together. -/
theorem leaveKeep_friend {s : Seat} (hs : L.seat x = some s) (hparty : s.partyWith = none)
    (hcard : s.peers.card ≠ 2) : L.leaveKeep o x = (L, false) := by
  rw [leaveKeep, hs]
  dsimp only
  rw [hparty]
  dsimp only
  rw [if_neg fun h => hcard h.1]

/-- The friend who joined leaves a group of four: one of the three is out of
the session, and in no slot. -/
theorem expel_breaks {a b c : ConnId} {rest : Finset ConnId} (hnd : [x, a, b, c].Nodup)
    (hrest : ∀ z, z ∈ rest ↔ z = a ∨ z = b ∨ z = c) {s : Seat} (hs : L.seat x = some s)
    (hpeers : s.peers = [a, b, c].toFinset) (hpartner : s.partner = some a)
    (hfriend : s.friendCall = none) (hparty : s.partyWith = none)
    (ha : L.Faces a [b, c, x] (some b)) (hb : L.Faces b [a, c, x] (some a))
    (hc : L.Faces c [a, b, x] (some a)) : (L.expel o x).Broken rest := by
  simp only [List.nodup_cons, List.mem_cons, List.not_mem_nil, or_false, not_or] at hnd
  obtain ⟨⟨hxa, hxb, hxc⟩, ⟨hab, hac⟩, hbc, -⟩ := hnd
  have hcard : s.peers.card = 3 := by
    rw [hpeers]
    simp [hab, hac, hbc]
  have hkeep : (L.drop x).leaveKeep o x = (L.drop x, false) :=
    leaveKeep_friend (L := L.drop x) hs hparty (by rw [hcard]; simp)
  have hrun := SimpleHub.eq_triple_of_mem_iff ((o x).nodup_run [a, b, c].toFinset) hab hac hbc
    fun p => by simp
  -- whichever order the set has, the second of b and c takes the shared mate along
  have hleft : ∃ u ∈ [b, c], (∀ e ∈ (((o x).run [a, b, c].toFinset).foldl unmatchOne
      (L.drop x)).queue, u ∉ queueEntryIds e)
      ∧ (((o x).run [a, b, c].toFinset).foldl unmatchOne (L.drop x)).seat x = L.seat x := by
    obtain hl | hl := hrun
    · have h := left_out (L := L.drop x) hab hac hbc (.inl ha.partyWithOf) hb.partyWithOf
        hc.partyWithOf ha.has hb.has hc.has hl
      exact ⟨b, by simp, h.1, h.2 x hxa hxb hxc⟩
    · have h := left_out (L := L.drop x) hac hab (Ne.symm hbc) (.inr ha.partyWithOf) hc.partyWithOf
        hb.partyWithOf ha.has hc.has hb.has hl
      exact ⟨c, by simp, h.1, h.2 x hxa hxc hxb⟩
  obtain ⟨u, hu, hnone, hseat⟩ := hleft
  have hux : u ≠ x := by
    rintro rfl
    simp [hxb, hxc] at hu
  have hexpel : L.expel o x
      = (((o x).run [a, b, c].toFinset).foldl unmatchOne (L.drop x)).leave x := by
    have hmem : a ∈ (((o x).run [a, b, c].toFinset).foldl unmatchOne (L.drop x)).peersOf x := by
      rw [peersOf, hseat, hs]
      simp [hpeers]
    rw [expel, hs]
    dsimp only
    rw [hkeep, if_neg (by simp), releaseOthers, hfriend, hparty, hpartner, hpeers]
    exact congrArg (Lobby.leave · x) (if_pos hmem)
  refine ⟨u, (hrest u).mpr ?_, ?_, .inr ?_⟩
  · simp only [List.mem_cons, List.not_mem_nil, or_false] at hu
    exact .inr hu
  · rw [hexpel, phaseOf, seat_leave, if_neg hux]
    exact unmatched_foldl (by
      rw [IterOrder.mem_run, List.mem_toFinset]
      exact List.mem_cons_of_mem _ hu)
  · rw [hexpel]
    exact hnone

end Lobby

namespace SimpleHub

variable {h : SimpleHub} {env : Env}

-- ============================================================================ groups

/-- A group of four starts. -/
def startQuartet (k : Quartet) (h : SimpleHub) (env : Env) (a b c d : ConnId) : SimpleHub :=
  match k with
  | .versus => h.startPartyVsParty env a b c d
  | .join => h.startFourPersonJoin env a b c d

/-- The four sit as the start of their group has seated them. -/
structure Standing (k : Quartet) (h : SimpleHub) (a b c d : ConnId) : Prop where
  distinct : [a, b, c, d].Nodup
  built : ∃ h₀ env₀, (∀ x ∈ [a, b, c, d], h₀.has x = true)
    ∧ ∀ x ∈ [a, b, c, d],
      h.lobby.seat x = (startQuartet k h₀ env₀ a b c d).lobby.seat x

/-- The members are matched, each with exactly the others. -/
def Together (h : SimpleHub) (rest : Finset ConnId) : Prop :=
  ∀ y ∈ rest, h.phaseOf y = some .matched ∧ ∀ z, z ∈ h.peersOf y ↔ z ∈ rest ∧ z ≠ y

theorem together_lobby {rest : Finset ConnId} : h.lobby.Together rest ↔ h.Together rest := by
  simp only [Lobby.Together, Together, phaseOf_lobby, peersOf_lobby]

/-- The seats of the four are joined as the start has joined them. -/
theorem Standing.seats {k : Quartet} {a b c d : ConnId} (hs : h.Standing k a b c d) :
    ∃ sa sb sc sd : Seat, match k with
      | .versus => h.lobby.seat a = some (sa.join [c, d, b] (some b))
          ∧ h.lobby.seat b = some (sb.join [c, d, a] (some a))
          ∧ h.lobby.seat c = some (sc.join [a, b, d] (some d))
          ∧ h.lobby.seat d = some (sd.join [a, b, c] (some c))
      | .join => h.lobby.seat a = some (sa.join [b, c, d] (some b))
          ∧ h.lobby.seat b = some (sb.join [a, c, d] (some a))
          ∧ h.lobby.seat c = some (sc.join [a, b, d] (some a))
          ∧ h.lobby.seat d = some { sd.join [a, b, c] none with friendCall := none } := by
  obtain ⟨hnd, h₀, env₀, hhas, hseat⟩ := hs
  simp only [List.mem_cons, List.not_mem_nil, or_false, forall_eq_or_imp, forall_eq] at hhas hseat
  simp only [List.nodup_cons, List.mem_cons, List.not_mem_nil, or_false, not_or] at hnd
  obtain ⟨⟨hab, hac, had⟩, ⟨hbc, hbd⟩, hcd, -⟩ := hnd
  obtain ⟨ha, hb, hc, hd⟩ := hhas
  obtain ⟨ca, hca⟩ := has_iff.mp ha
  obtain ⟨cb, hcb⟩ := has_iff.mp hb
  obtain ⟨cc, hcc⟩ := has_iff.mp hc
  obtain ⟨cd, hcd'⟩ := has_iff.mp hd
  refine ⟨ca.seat, cb.seat, cc.seat, cd.seat, ?_⟩
  cases k with
  | versus =>
      simp only [startQuartet, lobby_startPartyVsParty, Lobby.duo, Lobby.seat_alter] at hseat
      simpa [seat_lobby, hca, hcb, hcc, hcd', hab, hac, had, hbc, hbd, hcd, Ne.symm hab,
        Ne.symm hac, Ne.symm had, Ne.symm hbc, Ne.symm hbd, Ne.symm hcd] using hseat
  | join =>
      simp only [startQuartet, lobby_startFourPersonJoin, Lobby.join4, has_lobby, ha, hb, hc, hd,
        and_self, if_true, Lobby.seat_alter] at hseat
      simpa [seat_lobby, hca, hcb, hcc, hcd', hab, hac, had, hbc, hbd, hcd, Ne.symm hab,
        Ne.symm hac, Ne.symm had, Ne.symm hbc, Ne.symm hbd, Ne.symm hcd, Seat.join] using hseat

theorem Together.congr {L L' : Lobby} {rest : Finset ConnId} (ht : L.Together rest)
    (hseat : ∀ y ∈ rest, L'.seat y = L.seat y) : L'.Together rest := by
  intro y hy
  have hrow := ht y hy
  rwa [Lobby.phaseOf, Lobby.peersOf, hseat y hy]

/-- Matching leaves a session as it is. -/
theorem together_rematch {rest : Finset ConnId} (ht : h.lobby.Together rest) :
    (h.rematch env).Together rest := by
  refine together_lobby.mp (Together.congr ht fun y hy => ?_)
  have hphase := (ht y hy).1
  rw [seat_lobby, seat_lobby, get_rematch (untaken_of_phase (by rw [hphase]; exact nofun))]

/-- And it brings nobody back. -/
theorem broken_rematch {rest : Finset ConnId} (hb : h.lobby.Broken rest) :
    ¬ (h.rematch env).Together rest := by
  obtain ⟨y, hy, hphase, huntaken⟩ := hb
  rw [phaseOf_lobby] at hphase huntaken
  intro ht
  have hmatched := (ht y hy).1
  rw [phaseOf, get_rematch huntaken] at hmatched
  exact hphase hmatched

/-- The leave of a member with a mate. -/
theorem exit_mate {way : Exit} {x m p q : ConnId} {rest : Finset ConnId}
    (hf : h.lobby.Faces x [m, p, q] (some m)) (hnd : [x, m, p, q].Nodup)
    (hrest : ∀ z, z ∈ rest ↔ z = m ∨ z = p ∨ z = q) (hm : h.lobby.has m = true)
    (hp : h.lobby.has p = true) (hq : h.lobby.has q = true)
    (hsingle : way = .removal → h.Single env x) (n : Nat) :
    ∃ h', exit way h env n x = some h'
      ∧ (h'.Together rest ↔ h.lobby.partyLinked p q = true) := by
  have hxrest : x ∉ rest := by
    rw [hrest]
    simp only [List.nodup_cons, List.mem_cons, List.not_mem_nil, or_false, not_or] at hnd
    tauto
  have hother : ∀ y ∈ rest, y ≠ x := fun y hy hyx => hxrest (hyx ▸ hy)
  cases way with
  | stop =>
      obtain ⟨htrue, hlink, hbreak⟩ :=
        Lobby.leaveKeep_faces (o := env.peerOrder) hf hnd hrest hm hp hq
      obtain ⟨k, hexit, hlobby⟩ := stop_mate hf htrue n
      refine ⟨_, hexit, ?_⟩
      rw [← together_lobby]
      have hseat : ∀ y ∈ rest, (k.stopKept env x).lobby.seat y
          = (h.lobby.leaveKeep env.peerOrder x).1.seat y := fun y hy => by
        rw [seat_stopKept (hother y hy), hlobby]
      constructor
      · intro ht
        by_contra hnot
        obtain ⟨y, hy, hidle⟩ := hbreak (by rwa [Bool.not_eq_true] at hnot)
        have hmatched := (Together.congr ht fun z hz => (hseat z hz).symm) y hy
        rw [hidle] at hmatched
        cases hmatched.1
      · exact fun hl => Together.congr (hlink hl) hseat
  | removal =>
      obtain ⟨htrue, hlink, hbreak⟩ := Lobby.leaveKeep_faces (L := h.lobby.drop x)
        (o := env.peerOrder) hf hnd hrest hm hp hq
      obtain ⟨hexit, hall⟩ := removal_mate hf htrue (hsingle rfl) n
      refine ⟨_, hexit, ?_⟩
      have hseat : ∀ y ∈ rest, (h.expel env x).lobby.seat y
          = ((h.lobby.drop x).leaveKeep env.peerOrder x).1.seat y := by
        intro y hy
        rw [hall, if_neg (hother y hy)]
      constructor
      · intro ht
        by_contra hnot
        obtain ⟨y, hy, hidle⟩ := hbreak (by rwa [Bool.not_eq_true] at hnot)
        have hphase : (h.expel env x).lobby.phaseOf y = some .idle := by
          rw [Lobby.phaseOf, hseat y hy]
          exact hidle
        refine broken_rematch ⟨y, hy, ?_, .inl ?_⟩ ht
        · rw [hphase]
          rintro ⟨⟩
        · rw [hphase]
          rintro ⟨⟩
      · exact fun hl => together_rematch (Together.congr (hlink hl) hseat)

theorem phaseOf_stopAlone {x y : ConnId} (hparty : h.partyWithOf x = none) (hy : y ≠ x) :
    (h.stopAlone env x).lobby.phaseOf y
      = (h.lobby.clearMatch (env.peerOrder x) x).phaseOf y := by
  unfold stopAlone
  rw [hparty, lobby_broadcastLobbyInfo, lobby_status, Lobby.phaseOf, seat_lobby, get_modify,
    if_neg hy, ← seat_lobby, onSome, lobby_clearMatchStateWithPartnerMsg]
  rfl

/-- The leave of the friend who joined. -/
theorem exit_friend {way : Exit} {x a b c : ConnId} {rest : Finset ConnId} {s : Seat}
    (hnd : [x, a, b, c].Nodup) (hrest : ∀ z, z ∈ rest ↔ z = a ∨ z = b ∨ z = c)
    (hs : h.lobby.seat x = some (s.join [a, b, c] none)) (hfriend : s.friendCall = none)
    (ha : h.lobby.Faces a [b, c, x] (some b)) (hb : h.lobby.Faces b [a, c, x] (some a))
    (hc : h.lobby.Faces c [a, b, x] (some a)) (hsingle : way = .removal → h.Single env x)
    {n : Nat} {h' : SimpleHub} (hexit : exit way h env n x = some h') : ¬ h'.Together rest := by
  have hcard : (s.join [a, b, c] none).peers.card = 3 := by
    simp only [List.nodup_cons, List.mem_cons, List.not_mem_nil, or_false, not_or] at hnd
    obtain ⟨-, ⟨hab, hac⟩, hbc, -⟩ := hnd
    simp [Seat.join, hab, hac, hbc]
  have hthird : ∀ L : Lobby, L.seat x = h.lobby.seat x → ¬ L.LinkedThird x := by
    rintro L hL ⟨s', hs', -, -, htwo, -⟩
    rw [hL, hs] at hs'
    cases hs'
    rw [hcard] at htwo
    cases htwo
  have hface : h.lobby.Faces x [a, b, c] none := Lobby.faces_of_join hs
  have hcall : h.lobby.friendCallOf x = none := by
    rw [Lobby.friendCallOf, hs]
    exact hfriend
  cases way with
  | stop =>
      obtain ⟨r, hr, hlobby, hkept⟩ := leaveKeepRemainingPair_lobby (h := h.cancelFindThird x)
        env (hthird _ (by rw [lobby_cancelFindThird])) (tryMatch env (n + 1))
        "partner left — still chatting"
      have hkeep := Lobby.leaveKeep_friend (o := env.peerOrder) hs rfl (by rw [hcard]; simp)
      rw [lobby_cancelFindThird, hkeep] at hlobby hkept
      obtain ⟨k, kept⟩ := r
      obtain rfl : kept = false := hkept
      unfold exit stopMatchmaking at hexit
      rw [hr, Option.bind_eq_bind, Option.bind_some] at hexit
      have hnocall : k.friendCallOf x = none := by
        rw [← friendCallOf_lobby, show k.lobby = h.lobby from hlobby]
        exact hcall
      have hnoparty : k.partyWithOf x = none := by
        rw [← partyWithOf_lobby, show k.lobby = h.lobby from hlobby]
        exact hface.partyWithOf
      simp only [Bool.false_eq_true, if_false, hnocall, Option.isSome_none,
        Option.some.injEq] at hexit
      subst hexit
      obtain ⟨y, hy, hphase⟩ := Lobby.clearMatch_breaks (o := env.peerOrder) hface hcall
        (List.cons_ne_nil _ _)
      have hyx : y ≠ x := by
        rintro rfl
        exact (List.nodup_cons.mp hnd).1 hy
      intro ht
      have hmatched := (ht y ((hrest y).mpr (by simpa using hy))).1
      rw [← phaseOf_lobby, phaseOf_stopAlone hnoparty hyx, show k.lobby = h.lobby from hlobby]
        at hmatched
      exact hphase hmatched
  | removal =>
      obtain ⟨cl, hcl, hseat⟩ := Option.map_eq_some_iff.mp hs
      have hpeers : cl.sessionPeers = (s.join [a, b, c] none).peers := congrArg Seat.peers hseat
      have hgone := (hsingle rfl).gone hcl (.inr (by rw [hpeers, hcard]; decide))
      have hfalse : h.linkedThird x = false := by
        rw [← Bool.not_eq_true, linkedThird_iff]
        exact hthird _ rfl
      have hleft : exit .removal h env n x = some ((h.expel env x).rematch env) :=
        removeClient_gone hgone hfalse (hsingle rfl).others n
      cases hleft.symm.trans hexit
      refine broken_rematch ?_
      rw [lobby_expel]
      exact Lobby.expel_breaks hnd hrest hs rfl rfl hfriend rfl ha hb hc

/-- A member leaves a group of four and nobody leaves with it: the other
three stay together exactly when the group is a 2v2. -/
theorem quartet_survives_iff {k : Quartet} {a b c d x : ConnId} {way : Exit}
    (hs : h.Standing k a b c d) (hx : x ∈ [a, b, c, d])
    (hsingle : way = .removal → h.Single env x) (n : Nat) :
    (∃ h', exit way h env n x = some h' ∧ h'.Together (({a, b, c, d} : Finset ConnId).erase x))
      ↔ k = .versus := by
  have hnd := hs.distinct
  simp only [List.nodup_cons, List.mem_cons, List.not_mem_nil, or_false, not_or] at hnd
  obtain ⟨⟨hab, hac, had⟩, ⟨hbc, hbd⟩, hcd, -⟩ := hnd
  simp only [List.mem_cons, List.not_mem_nil, or_false] at hx
  obtain ⟨sa, sb, sc, sd, hseats⟩ := hs.seats
  cases k with
  | versus =>
      obtain ⟨ha, hb, hc, hd⟩ := hseats
      have fa := (Lobby.faces_of_join ha).rotate
      have fb := (Lobby.faces_of_join hb).rotate
      have fc := (Lobby.faces_of_join hc).rotate
      have fd := (Lobby.faces_of_join hd).rotate
      have hlast : ∀ {p q : ConnId} {others : List ConnId}, h.lobby.Faces p others (some q) →
          (∃ h', exit way h env n x = some h'
            ∧ (h'.Together (({a, b, c, d} : Finset ConnId).erase x)
              ↔ h.lobby.partyLinked p q = true)) →
          ∃ h', exit way h env n x = some h'
            ∧ h'.Together (({a, b, c, d} : Finset ConnId).erase x) := by
        rintro p q others hp ⟨h', hexit, hiff⟩
        exact ⟨h', hexit, hiff.mpr (Lobby.partyLinked_iff.mpr (.inl hp.partyWithOf))⟩
      refine iff_of_true ?_ rfl
      obtain rfl | rfl | rfl | rfl := hx
      · exact hlast fc (exit_mate fa (by grind) (by grind) fb.has fc.has fd.has hsingle n)
      · exact hlast fc (exit_mate fb (by grind) (by grind) fa.has fc.has fd.has hsingle n)
      · exact hlast fa (exit_mate fc (by grind) (by grind) fd.has fa.has fb.has hsingle n)
      · exact hlast fa (exit_mate fd (by grind) (by grind) fc.has fa.has fb.has hsingle n)
  | join =>
      obtain ⟨ha, hb, hc, hd⟩ := hseats
      have fa := Lobby.faces_of_join ha
      have fb := Lobby.faces_of_join hb
      have fc := Lobby.faces_of_join hc
      have fd : h.lobby.Faces d [a, b, c] none :=
        Lobby.faces_of_join (s := { sd with friendCall := none }) hd
      have hlast : ∀ {p q : ConnId}, ¬ h.lobby.partyLinked p q = true →
          (∃ h', exit way h env n x = some h'
            ∧ (h'.Together (({a, b, c, d} : Finset ConnId).erase x)
              ↔ h.lobby.partyLinked p q = true)) →
          ¬ ∃ h', exit way h env n x = some h'
            ∧ h'.Together (({a, b, c, d} : Finset ConnId).erase x) := by
        rintro p q hlink ⟨h₁, hexit, hiff⟩ ⟨h₂, hexit', htogether⟩
        cases hexit.symm.trans hexit'
        exact hlink (hiff.mp htogether)
      have hcd' : ¬ h.lobby.partyLinked c d = true := by
        rw [Lobby.partyLinked_of_faces fc fd]
        simp [had]
      have hbd' : ¬ h.lobby.partyLinked b d = true := by
        rw [Lobby.partyLinked_of_faces fb fd]
        simp [had]
      refine iff_of_false ?_ nofun
      obtain rfl | rfl | rfl | rfl := hx
      · exact hlast hcd' (exit_mate fa (by grind) (by grind) fb.has fc.has fd.has hsingle n)
      · exact hlast hcd' (exit_mate fb (by grind) (by grind) fa.has fc.has fd.has hsingle n)
      · exact hlast hbd' (exit_mate fc (by grind) (by grind) fa.has fb.has fd.has hsingle n)
      · rintro ⟨h', hexit, htogether⟩
        exact exit_friend (s := { sd with friendCall := none }) (by grind) (by grind) hd rfl fa fb
          fc hsingle hexit htogether

/-- The four sit as if the group had just started. -/
def standing (k : Quartet) (h : SimpleHub) (env : Env) (a b c d : ConnId) : Bool :=
  [a, b, c, d].all fun x =>
    h.has x && decide (h.lobby.seat x = (startQuartet k h env a b c d).lobby.seat x)

theorem standing_of_check {k : Quartet} {a b c d : ConnId} (hnd : [a, b, c, d].Nodup)
    (hs : standing k h env a b c d = true) : h.Standing k a b c d := by
  simp only [standing, List.all_eq_true, Bool.and_eq_true, decide_eq_true_eq] at hs
  exact ⟨hnd, h, env, fun x hx => (hs x hx).1, fun x hx => (hs x hx).2⟩

/-- Two pairs of strangers hunt for a third and find each other. -/
def twoPairs : List Input := script
  [(0, .connect 1 ""), (0, .connect 2 ""), (0, .connect 3 ""), (0, .connect 4 ""),
    (1, .frame 1 (.spin "")), (1, .frame 2 (.spin "")), (1, .frame 3 (.spin "")),
    (1, .frame 4 (.spin "")), (2, .frame 1 .findThirdInvite),
    (2, .frame 2 (.findThirdRespond true)), (3, .frame 3 .findThirdInvite),
    (3, .frame 4 (.findThirdRespond true))]

/-- One socket of a 2v2 closes. -/
theorem quartet_survives_iff_pairs : ∃ w, (hubMachine plainSys).Reach w
    ∧ ∃ h', exit .removal w.hub (plainEnv 4) 0 1 = some h' ∧ h'.Together {2, 3, 4} := by
  obtain ⟨w, hw, hp⟩ := @reach_of_replay plainSys 2 twoPairs
    (fun w => standing .versus w.hub (plainEnv 3) 1 2 3 4
      && decide (w.hub.expired (plainEnv 4) = ∅ ∧ (w.hub.get 1).bind (·.wsHoldUntil) = none))
    (by decide +kernel)
  rw [Bool.and_eq_true, decide_eq_true_eq] at hp
  obtain ⟨hstanding, hexp, hhold⟩ := hp
  exact ⟨w, hw, (quartet_survives_iff (standing_of_check (by decide) hstanding)
    List.mem_cons_self (fun _ => single_of_unheld hhold hexp) 0).mpr rfl⟩

/-- A friend joins the call of a trio. -/
def friendJoined : List Input := script
  [(0, .connect 1 ""), (0, .connect 2 ""), (0, .connect 3 ""), (0, .connect 4 ""),
    (1, .frame 1 (.hello ⟨"A", "", "any", "", [], false, ""⟩)),
    (1, .frame 4 (.hello ⟨"D", "", "any", "", [], false, ""⟩)),
    (1, .frame 1 (.addFriend "CD")), (1, .frame 4 (.acceptFriend "A")),
    (2, .frame 1 (.spin "")), (2, .frame 2 (.spin "")),
    (3, .frame 1 .findThirdInvite), (3, .frame 2 (.findThirdRespond true)),
    (4, .frame 3 (.spin "")),
    (5, .frame 1 (.callFriend "D" true)), (5, .frame 4 (.callRespond "A" true))]

/-- The friend stops, and the three are dropped with it. -/
theorem joined_four_dropped : ∃ w, (hubMachine plainSys).Reach w
    ∧ w.hub.Standing .join 1 2 3 4
    ∧ ∃ h', exit .stop w.hub (plainEnv 6) 0 4 = some h'
      ∧ (∀ x ∈ [1, 2, 3], h'.phaseOf x ≠ some .matched) ∧ ¬ h'.Together {1, 2, 3} := by
  obtain ⟨w, hw, hp⟩ := @reach_of_replay plainSys 2 friendJoined
    (fun w => standing .join w.hub (plainEnv 5) 1 2 3 4
      && (exit .stop w.hub (plainEnv 6) 0 4).any fun h' =>
        [1, 2, 3].all fun x => h'.phaseOf x ≠ some .matched) (by decide +kernel)
  rw [Bool.and_eq_true, Option.any_eq_true] at hp
  obtain ⟨hstanding, h', hexit, hphase⟩ := hp
  have hphase : ∀ x ∈ [1, 2, 3], h'.phaseOf x ≠ some .matched := by
    simpa only [List.all_eq_true, decide_eq_true_eq] using hphase
  refine ⟨w, hw, standing_of_check (by decide) hstanding, h', hexit, hphase, fun ht => ?_⟩
  exact hphase 1 (by simp) (ht 1 (by simp)).1

end SimpleHub

end Ruletka
