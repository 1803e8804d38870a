/-
A trio after one of its three has left.

A trio is a pair, linked both ways, and a third. When one of the pair
leaves, its mate and the third become a plain match. When the third leaves,
the pair is back in the queue as one slot, and `try_match` runs at once: the
pair may be matched onward. `Pending` is what holds of it from the moment it
is queued, and every turn of the loop keeps it. The friend calls of the pair
are left as they are, also one with the third.

`try_match` also sweeps the holds that ran out, and it does so while the
third is still there. If the third's own hold is among them, its removal
starts over inside itself and never comes back.
-/
import Ruletka.Hub.Proofs.Leaves

namespace Ruletka

/-- One of the four pointers names it. -/
def Seat.Names (s : Seat) (y : ConnId) : Prop :=
  s.partner = some y ∨ y ∈ s.peers ∨ s.friendCall = some y ∨ s.partyWith = some y

/-- None of them names it, but perhaps the friend call, which is this one. -/
def Seat.Only (s : Seat) (y : ConnId) (call : Option ConnId) : Prop :=
  s.friendCall = call ∧ s.partner ≠ some y ∧ y ∉ s.peers ∧ s.partyWith ≠ some y

theorem Seat.Only.names_iff {s : Seat} {y : ConnId} {call : Option ConnId}
    (h : s.Only y call) : s.Names y ↔ call = some y := by
  obtain ⟨rfl, hpartner, hpeers, hparty⟩ := h
  simp [Seat.Names, hpartner, hpeers, hparty]

namespace Lobby

variable {L : Lobby} {o : ConnId → IterOrder ConnId} {x a b m p q : ConnId}
  {ca cb : Option ConnId}

/-- A pair linked both ways and a third, matched with each other. -/
structure Trio (L : Lobby) (third a b : ConnId) : Prop where
  distinct : [third, a, b].Nodup
  lone : L.Faces third [a, b] none
  left : L.Faces a [b, third] (some b)
  right : L.Faces b [a, third] (some a)

theorem Faces.swap {party : Option ConnId} (hf : L.Faces x [p, q] party) :
    L.Faces x [q, p] party := by
  obtain ⟨s, hs, hphase, hpeers, hparty⟩ := hf
  refine ⟨s, hs, hphase, fun y => (hpeers y).trans ?_, hparty⟩
  simp only [List.mem_cons, List.not_mem_nil, or_false]
  exact or_comm

theorem Trio.symm {third : ConnId} (ht : L.Trio third a b) : L.Trio third b a := by
  have hnd := ht.distinct
  exact ⟨by grind, ht.lone.swap, ht.right, ht.left⟩

/-- The slots that name one of two. -/
def slotsOf (q : List QueueEntry) (a b : ConnId) : List QueueEntry :=
  q.filter fun e => a ∈ queueEntryIds e ∨ b ∈ queueEntryIds e

/-- A filter of the queue that keeps the slot of the two. -/
theorem slotsOf_filter {keep : QueueEntry → Bool} {queue : List QueueEntry} {e : QueueEntry}
    (hq : slotsOf queue a b = [e]) (he : keep e = true) :
    slotsOf (queue.filter keep) a b = [e] := by
  unfold slotsOf at hq ⊢
  rw [List.filter_filter]
  simp only [Bool.and_comm]
  rw [← List.filter_filter, hq, List.filter_singleton, he]
  rfl

/-- The two hunt in one slot of the queue, with these friend calls. -/
def Hunting (L : Lobby) (a b : ConnId) (ca cb : Option ConnId) : Prop :=
  ∃ ta tb e, L.seat a = some (Seat.huntWith ta b) ∧ L.seat b = some (Seat.huntWith tb a)
    ∧ ta.friendCall = ca ∧ tb.friendCall = cb
    ∧ (e = .party a b ∨ e = .party b a)
    ∧ slotsOf L.queue a b = [e]

/-- The two are matched, as a party, in a session without `x`. -/
def Onward (L : Lobby) (x a b : ConnId) (ca cb : Option ConnId) : Prop :=
  ∃ sa sb, L.seat a = some sa ∧ L.seat b = some sb ∧ sa.phase = .matched
    ∧ sb.phase = .matched ∧ b ∈ sa.peers ∧ a ∈ sb.peers ∧ sa.partyWith = some b
    ∧ sb.partyWith = some a ∧ sa.Only x ca ∧ sb.Only x cb

/-- The two hunt together or have gone on together, and `x` is not to be
matched. -/
structure Pending (L : Lobby) (x a b : ConnId) (ca cb : Option ConnId) : Prop where
  left : x ≠ a
  right : x ≠ b
  distinct : a ≠ b
  gone : L.phaseOf x ≠ some .waiting
  pair : L.Hunting a b ca cb ∨ L.Onward x a b ca cb

theorem Hunting.symm (h : L.Hunting a b ca cb) : L.Hunting b a cb ca := by
  obtain ⟨ta, tb, e, ha, hb, hfa, hfb, he, hq⟩ := h
  refine ⟨tb, ta, e, hb, ha, hfb, hfa, he.symm, ?_⟩
  rw [← hq]
  unfold slotsOf
  simp only [or_comm]

theorem Onward.symm (h : L.Onward x a b ca cb) : L.Onward x b a cb ca := by
  obtain ⟨sa, sb, ha, hb, hpa, hpb, hba, hab, hwa, hwb, hna, hnb⟩ := h
  exact ⟨sb, sa, hb, ha, hpb, hpa, hab, hba, hwb, hwa, hnb, hna⟩

theorem Hunting.congr {L' : Lobby} (h : L.Hunting a b ca cb) (ha : L'.seat a = L.seat a)
    (hb : L'.seat b = L.seat b)
    (hq : slotsOf L'.queue a b = slotsOf L.queue a b) : L'.Hunting a b ca cb := by
  obtain ⟨ta, tb, e, hsa, hsb, hfa, hfb, he, hslot⟩ := h
  exact ⟨ta, tb, e, ha.trans hsa, hb.trans hsb, hfa, hfb, he, hq.trans hslot⟩

theorem Onward.congr {L' : Lobby} (h : L.Onward x a b ca cb) (ha : L'.seat a = L.seat a)
    (hb : L'.seat b = L.seat b) : L'.Onward x a b ca cb := by
  obtain ⟨sa, sb, hsa, hsb, hrest⟩ := h
  exact ⟨sa, sb, ha.trans hsa, hb.trans hsb, hrest⟩

-- ===================================================================== going onward

/-- The third of a 1v2 with the pair is somebody else. -/
theorem onward_trio {z : ConnId} {sa sb : Seat} (ha : L.seat a = some sa)
    (hb : L.seat b = some sb) (hab : a ≠ b) (hza : z ≠ a) (hzb : z ≠ b) (hxa : x ≠ a)
    (hxb : x ≠ b) (hxz : x ≠ z) (hfa : sa.friendCall = ca) (hfb : sb.friendCall = cb) :
    (L.trio z a b).Onward x a b ca cb := by
  have hsa : (L.trio z a b).seat a = some (sa.join [z, b] (some b)) := by
    simp [trio, ha, hab, hza.symm]
  have hsb : (L.trio z a b).seat b = some (sb.join [z, a] (some a)) := by
    simp [trio, hb, hab.symm, hzb.symm]
  refine ⟨_, _, hsa, hsb, rfl, rfl, by simp [Seat.join], by simp [Seat.join], rfl, rfl, ?_, ?_⟩
  · simp [Seat.Only, Seat.join, hxz, hxz.symm, hxb, hxb.symm, hfa]
  · simp [Seat.Only, Seat.join, hxz, hxz.symm, hxa, hxa.symm, hfb]

/-- The other party of a 2v2 with the pair is two other clients. -/
theorem onward_duo {z w : ConnId} {sa sb : Seat} (ha : L.seat a = some sa)
    (hb : L.seat b = some sb) (hab : a ≠ b) (hza : z ≠ a) (hzb : z ≠ b) (hwa : w ≠ a)
    (hwb : w ≠ b) (hxa : x ≠ a) (hxb : x ≠ b) (hxz : x ≠ z) (hxw : x ≠ w)
    (hfa : sa.friendCall = ca) (hfb : sb.friendCall = cb) :
    (L.duo a b z w).Onward x a b ca cb ∧ (L.duo z w a b).Onward x a b ca cb := by
  have names : ∀ (t : Seat) (y : ConnId) (call : Option ConnId), x ≠ y → t.friendCall = call →
      (t.join [z, w, y] (some y)).Only x call := by
    intro t y call hxy hf
    simp [Seat.Only, Seat.join, hxz, hxz.symm, hxw, hxy, hxy.symm, hf]
  have hsa : (L.duo a b z w).seat a = some (sa.join [z, w, b] (some b)) := by
    simp [duo, ha, hab, hza.symm, hwa.symm]
  have hsb : (L.duo a b z w).seat b = some (sb.join [z, w, a] (some a)) := by
    simp [duo, hb, hab.symm, hzb.symm, hwb.symm]
  have hsa' : (L.duo z w a b).seat a = some (sa.join [z, w, b] (some b)) := by
    simp [duo, ha, hab, hza.symm, hwa.symm]
  have hsb' : (L.duo z w a b).seat b = some (sb.join [z, w, a] (some a)) := by
    simp [duo, hb, hab.symm, hzb.symm, hwb.symm]
  constructor
  · exact ⟨_, _, hsa, hsb, rfl, rfl, by simp [Seat.join], by simp [Seat.join], rfl, rfl,
      names sa b ca hxb hfa, names sb a cb hxa hfb⟩
  · exact ⟨_, _, hsa', hsb', rfl, rfl, by simp [Seat.join], by simp [Seat.join], rfl, rfl,
      names sa b ca hxb hfa, names sb a cb hxa hfb⟩

-- ================================================================= one of the pair

/-- A mate and one stranger become a plain match. -/
theorem seat_collapse {sp sq : Seat} (hp : L.seat p = some sp) (hq : L.seat q = some sq)
    (hpq : p ≠ q) : (L.collapse p q).seat p = some (Seat.free.pairWith q)
      ∧ (L.collapse p q).seat q = some (Seat.free.pairWith p) := by
  unfold collapse
  dsimp only
  unfold pair
  rw [if_pos (by simp [phaseOf, hp, hq, hpq, hpq.symm])]
  constructor
  · simp [hp, hpq, Seat.pairWith, Seat.free]
  · simp [hq, hpq.symm, Seat.pairWith, Seat.free]

/-- One of the pair leaves: its mate and the third are a plain match. -/
theorem leaveKeep_member (hf : L.Faces x [m, q] (some m)) (hnd : [x, m, q].Nodup)
    (hm : L.has m = true) (hq : L.has q = true) :
    (L.leaveKeep o x).2 = true
      ∧ (L.leaveKeep o x).1.seat m = some (Seat.free.pairWith q)
      ∧ (L.leaveKeep o x).1.seat q = some (Seat.free.pairWith m) := by
  obtain ⟨s, hs, hphase, hpeers, hparty⟩ := hf
  simp only [List.nodup_cons, List.mem_cons, List.not_mem_nil, or_false, not_or] at hnd
  obtain ⟨-, hmq, -⟩ := hnd
  have hleave : L.leaveKeep o x = (L.leaveMate o x m s.peers, true) := by
    rw [leaveKeep, hs]
    dsimp only
    rw [hparty]
    exact if_pos hm
  have hstrangers : L.strangers (o x) m s.peers = [q] := by
    refine List.perm_singleton.mp ((List.perm_ext_iff_of_nodup
      (((o x).nodup_run _).filter _) (List.nodup_singleton q)).mpr fun z => ?_)
    simp only [List.mem_filter, IterOrder.mem_run, hpeers, List.mem_cons, List.not_mem_nil,
      or_false, Bool.and_eq_true, decide_eq_true_eq]
    constructor
    · rintro ⟨hz | hz, hzm, -⟩
      · exact absurd hz hzm
      · exact hz
    · rintro rfl
      exact ⟨.inr rfl, Ne.symm hmq, hq⟩
  rw [hleave, leaveMate, hstrangers, keepStrangers]
  refine ⟨rfl, ?_⟩
  obtain ⟨sm, hsm⟩ := Option.isSome_iff_exists.mp ((has_pruned (L := L) (o := o) (x := x) (m := m)
    ([q] ++ [m]) m).trans hm)
  obtain ⟨sq, hsq⟩ := Option.isSome_iff_exists.mp ((has_pruned (L := L) (o := o) (x := x) (m := m)
    ([q] ++ [m]) q).trans hq)
  exact seat_collapse hsm hsq hmq

-- ======================================================================= what is kept

/-- The two who stay name each other and not the leaver, and they are a plain
match, or hunt in one slot, or are matched onward as a party; the leaver, if
it is still there, names neither. -/
structure PairKept (L : Lobby) (x p q : ConnId) : Prop where
  seats : ∃ sp sq, L.seat p = some sp ∧ L.seat q = some sq ∧ ¬ sp.Names x ∧ ¬ sq.Names x
    ∧ q ∈ sp.peers ∧ p ∈ sq.peers
    ∧ ((sp.phase = .matched ∧ sq.phase = .matched ∧ sp.peers = {q} ∧ sq.peers = {p})
      ∨ (sp.phase = .waiting ∧ sq.phase = .waiting
        ∧ (.party p q ∈ L.queue ∨ .party q p ∈ L.queue))
      ∨ (sp.phase = .matched ∧ sq.phase = .matched ∧ sp.partyWith = some q
        ∧ sq.partyWith = some p))
  leaver : ∀ sx, L.seat x = some sx → ¬ sx.Names p ∧ ¬ sx.Names q

theorem PairKept.symm (h : L.PairKept x p q) : L.PairKept x q p := by
  obtain ⟨⟨sp, sq, hp, hq, hnp, hnq, hqp, hpq, hway⟩, hleaver⟩ := h
  refine ⟨⟨sq, sp, hq, hp, hnq, hnp, hpq, hqp, ?_⟩, fun sx hx => (hleaver sx hx).symm⟩
  obtain ⟨h₁, h₂, h₃, h₄⟩ | ⟨h₁, h₂, h₃⟩ | ⟨h₁, h₂, h₃, h₄⟩ := hway
  · exact .inl ⟨h₂, h₁, h₄, h₃⟩
  · exact .inr (.inl ⟨h₂, h₁, h₃.symm⟩)
  · exact .inr (.inr ⟨h₂, h₁, h₄, h₃⟩)

/-- Nobody, or somebody without a session. -/
def Off (L : Lobby) (x : ConnId) : Prop := ∀ sx, L.seat x = some sx → sx = .free

theorem Off.names (h : L.Off x) (p : ConnId) : ∀ sx, L.seat x = some sx → ¬ sx.Names p := by
  intro sx hx
  rw [h sx hx]
  simp [Seat.Names, Seat.free]

theorem pairKept_of_match (hp : L.seat p = some (Seat.free.pairWith q))
    (hq : L.seat q = some (Seat.free.pairWith p)) (hxp : x ≠ p) (hxq : x ≠ q)
    (hoff : L.Off x) : L.PairKept x p q := by
  refine ⟨⟨_, _, hp, hq, ?_, ?_, ?_, ?_, .inl ⟨rfl, rfl, rfl, rfl⟩⟩,
    fun sx hx => ⟨hoff.names p sx hx, hoff.names q sx hx⟩⟩
  · simp [Seat.Names, Seat.pairWith, Seat.free, hxq, hxq.symm]
  · simp [Seat.Names, Seat.pairWith, Seat.free, hxp, hxp.symm]
  · exact Finset.mem_singleton_self q
  · exact Finset.mem_singleton_self p

/-- The two as `Pending` has them, but for the friend calls. -/
theorem Pending.seats (h : L.Pending x a b ca cb) :
    ∃ sa sb, L.seat a = some sa ∧ L.seat b = some sb ∧ sa.Only x ca ∧ sb.Only x cb
      ∧ b ∈ sa.peers ∧ a ∈ sb.peers
      ∧ ((sa.phase = .waiting ∧ sb.phase = .waiting
          ∧ (.party a b ∈ L.queue ∨ .party b a ∈ L.queue))
        ∨ (sa.phase = .matched ∧ sb.phase = .matched ∧ sa.partyWith = some b
          ∧ sb.partyWith = some a)) := by
  obtain ⟨hxa, hxb, hab, -, hhunt | honward⟩ := h
  · obtain ⟨ta, tb, e, ha, hb, hfa, hfb, he, hq⟩ := hhunt
    refine ⟨_, _, ha, hb, ?_, ?_, ?_, ?_, .inl ⟨rfl, rfl, ?_⟩⟩
    · simp [Seat.Only, Seat.huntWith, hxb, hxb.symm, hfa]
    · simp [Seat.Only, Seat.huntWith, hxa, hxa.symm, hfb]
    · exact Finset.mem_singleton_self b
    · exact Finset.mem_singleton_self a
    · have hmem : e ∈ L.queue := by
        refine List.mem_of_mem_filter (p := fun e => a ∈ queueEntryIds e ∨ b ∈ queueEntryIds e) ?_
        unfold slotsOf at hq
        rw [hq]
        exact List.mem_singleton_self e
      obtain rfl | rfl := he
      · exact .inl hmem
      · exact .inr hmem
  · obtain ⟨sa, sb, ha, hb, hpa, hpb, hba, hab', hwa, hwb, hna, hnb⟩ := honward
    exact ⟨sa, sb, ha, hb, hna, hnb, hba, hab', .inr ⟨hpa, hpb, hwa, hwb⟩⟩

/-- They are kept together unless one of them is in a friend call with the
leaver. -/
theorem pairKept_iff_of_pending (h : L.Pending x a b ca cb) (hoff : L.Off x) :
    L.PairKept x a b ↔ ca ≠ some x ∧ cb ≠ some x := by
  obtain ⟨sa, sb, ha, hb, hna, hnb, hba, hab, hway⟩ := h.seats
  constructor
  · rintro ⟨⟨sp, sq, hp, hq, hnp, hnq, -⟩, -⟩
    cases ha.symm.trans hp
    cases hb.symm.trans hq
    exact ⟨fun hc => hnp (hna.names_iff.mpr hc), fun hc => hnq (hnb.names_iff.mpr hc)⟩
  · rintro ⟨hca, hcb⟩
    exact ⟨⟨sa, sb, ha, hb, fun hn => hca (hna.names_iff.mp hn),
      fun hn => hcb (hnb.names_iff.mp hn), hba, hab, .inr hway⟩,
      fun sx hx => ⟨hoff.names a sx hx, hoff.names b sx hx⟩⟩

/-- The pair of a trio, queued again. -/
theorem pending_huntAgain {sa sb : Seat} (ha : L.seat a = some sa) (hb : L.seat b = some sb)
    (hxa : x ≠ a) (hxb : x ≠ b) (hab : a ≠ b) (hfa : sa.friendCall = ca)
    (hfb : sb.friendCall = cb) (hx : L.phaseOf x ≠ some .waiting) :
    (L.huntAgain x a b).Pending x a b ca cb := by
  have hseat : (L.huntAgain x a b).seat x = L.seat x := by
    simp [huntAgain, enqueueParty, hxa, hxb]
  refine ⟨hxa, hxb, hab, by rwa [phaseOf, hseat], .inl ?_⟩
  refine ⟨{ sa with peers := sa.peers.erase x, partner := sa.partyWith, phase := .waiting },
    { sb with peers := sb.peers.erase x, partner := sb.partyWith, phase := .waiting },
    if a < b then .party a b else .party b a, ?_, ?_, hfa, hfb, ?_, ?_⟩
  · simp [huntAgain, enqueueParty, ha, hab]
  · simp [huntAgain, enqueueParty, hb, hab.symm]
  · split
    · exact .inl rfl
    · exact .inr rfl
  · have hnone : ((L.queue.filter fun e => a ∉ queueEntryIds e).filter
        fun e => b ∉ queueEntryIds e).filter
          (fun e => a ∈ queueEntryIds e ∨ b ∈ queueEntryIds e) = [] := by
      rw [List.filter_eq_nil_iff]
      intro e he
      simp only [List.mem_filter, decide_eq_true_eq] at he
      simp [he.1.2, he.2]
    have hslot : a ∈ queueEntryIds (if a < b then .party a b else .party b a) := by
      split <;> simp [queueEntryIds]
    have hqueue : (L.huntAgain x a b).queue = (L.queue.filter fun e => a ∉ queueEntryIds e).filter
        (fun e => b ∉ queueEntryIds e) ++ [if a < b then .party a b else .party b a] := rfl
    rw [hqueue, slotsOf, List.filter_append, hnone, List.nil_append, List.filter_singleton]
    simp [hslot]

theorem Pending.symm (h : L.Pending x a b ca cb) : L.Pending x b a cb ca :=
  ⟨h.right, h.left, h.distinct.symm, h.gone, h.pair.imp Hunting.symm Onward.symm⟩

/-- What becomes of the leaver is nothing to the two. -/
theorem Pending.out {L' : Lobby} (h : L.Pending x a b ca cb) (hx : L'.phaseOf x ≠ some .waiting)
    (hseat : ∀ y, y ≠ x → L'.seat y = L.seat y)
    (hq : L'.queue = L.queue ∨ L'.queue = L.queue.filter fun e => x ∉ queueEntryIds e) :
    L'.Pending x a b ca cb := by
  have ha := hseat a h.left.symm
  have hb := hseat b h.right.symm
  refine ⟨h.left, h.right, h.distinct, hx, h.pair.imp (fun hh => ?_) fun ho => ho.congr ha hb⟩
  refine hh.congr ha hb ?_
  obtain hq | hq := hq
  · rw [hq]
  · obtain ⟨ta, tb, e, -, -, -, -, he, hslots⟩ := hh
    have hout : x ∉ queueEntryIds e := by
      obtain rfl | rfl := he
      · simp [queueEntryIds, h.left, h.right]
      · simp [queueEntryIds, h.left, h.right]
    rw [hslots, hq]
    exact slotsOf_filter hslots (decide_eq_true hout)

/-- The third of a trio is linked to it. -/
theorem Trio.linkedThird (ht : L.Trio x a b) : L.LinkedThird x := by
  obtain ⟨hnd, ⟨s, hs, hphase, hpeers, hparty⟩, hl, hr⟩ := ht
  have hab : a ≠ b := by grind
  have hset : s.peers = {a, b} := by
    ext y
    simp [hpeers]
  refine ⟨s, hs, hphase, hparty, by rw [hset, Finset.card_pair hab], ?_, a, by simp [hset], b,
    by simp [hset], hab, partyLinked_iff.mpr (.inl hl.partyWithOf)⟩
  intro y hy
  rw [hset, Finset.mem_insert, Finset.mem_singleton] at hy
  obtain rfl | rfl := hy
  · exact hl.has
  · exact hr.has

/-- And stays so when the pair is queued again. -/
theorem Trio.linkedThird_huntAgain (ht : L.Trio x a b) : (L.huntAgain x a b).LinkedThird x := by
  obtain ⟨hnd, ⟨s, hs, hphase, hpeers, hparty⟩, ⟨sa, hsa, -⟩, sb, hsb, -⟩ := ht
  have hab : a ≠ b := by grind
  have hxa : x ≠ a := by grind
  have hxb : x ≠ b := by grind
  have hset : s.peers = {a, b} := by
    ext y
    simp [hpeers]
  refine ⟨s, by simp [huntAgain, enqueueParty, hxa, hxb, hs], hphase, hparty,
    by rw [hset, Finset.card_pair hab], ?_, a, by simp [hset], b, by simp [hset], hab, ?_⟩
  · intro y hy
    rw [hset, Finset.mem_insert, Finset.mem_singleton] at hy
    obtain rfl | rfl := hy
    · simp [has, huntAgain, enqueueParty, hsa, hab]
    · simp [has, huntAgain, enqueueParty, hsb, hab.symm]
  · simp [partyLinked, partyWithOf, huntAgain, enqueueParty, hsa, hab, Seat.huntWith]

/-- The pair of a trio hunts on. -/
theorem Trio.pending (ht : L.Trio x a b) :
    (L.huntAgain x a b).Pending x a b (L.friendCallOf a) (L.friendCallOf b) := by
  obtain ⟨hnd, ⟨s, hs, hphase, -⟩, ⟨sa, hsa, -⟩, sb, hsb, -⟩ := ht
  refine pending_huntAgain hsa hsb (by grind) (by grind) (by grind) ?_ ?_ ?_
  · simp [friendCallOf, hsa]
  · simp [friendCallOf, hsb]
  · simp [phaseOf, hs, hphase]

end Lobby

namespace SimpleHub

variable {h : SimpleHub} {env : Env} {x a b : ConnId} {ca cb : Option ConnId}

-- ========================================================================= the loop

theorem lobby_pairTrio (env : Env) {z : ConnId} (hab : h.AllWaiting [a, b]) :
    (h.pairEntries env (.solo z) (.party a b)).lobby = h.lobby.trio z a b := by
  rw [pairEntries, partyAlreadyIn1v2_of_waiting hab, if_neg Bool.false_ne_true]
  simp

theorem lobby_pairDuo {z w : ConnId} :
    (h.pairEntries env (.party a b) (.party z w)).lobby = h.lobby.duo a b z w := by
  rw [pairEntries]
  simp

/-- The slot of the pair is taken. -/
theorem onward_pairEntries {second : QueueEntry} {sa sb : Seat}
    (ha : h.lobby.seat a = some sa) (hb : h.lobby.seat b = some sb) (hab : a ≠ b) (hxa : x ≠ a)
    (hxb : x ≠ b) (hfa : sa.friendCall = ca) (hfb : sb.friendCall = cb)
    (hw : h.AllWaiting [a, b]) (hshape : queueShapeOk (.party a b) second = true)
    (hna : a ∉ queueEntryIds second) (hnb : b ∉ queueEntryIds second)
    (hnx : x ∉ queueEntryIds second) :
    (h.pairEntries env (.party a b) second).lobby.Onward x a b ca cb
      ∧ (h.pairEntries env second (.party a b)).lobby.Onward x a b ca cb := by
  cases second with
  | solo z =>
      simp only [queueEntryIds, List.mem_singleton] at hna hnb hnx
      have honward := Lobby.onward_trio ha hb hab (Ne.symm hna) (Ne.symm hnb) hxa hxb hnx hfa hfb
      rw [← lobby_pairTrio env hw] at honward
      exact ⟨honward, honward⟩
  | party z w =>
      simp only [queueEntryIds, List.mem_cons, List.not_mem_nil, or_false, not_or] at hna hnb hnx
      rw [lobby_pairDuo, lobby_pairDuo]
      exact Lobby.onward_duo ha hb hab (Ne.symm hna.1) (Ne.symm hnb.1) (Ne.symm hna.2)
        (Ne.symm hnb.2) hxa hxb hnx.1 hnx.2 hfa hfb
  | party3 _ _ _ => cases hshape

/-- A pairing takes the slot of the pair, or leaves it alone. -/
theorem pending_pairing {first second : QueueEntry} {q : List QueueEntry}
    (hh : h.lobby.Hunting a b ca cb) (hgone : h.phaseOf x ≠ some .waiting) (hxa : x ≠ a)
    (hxb : x ≠ b) (hab : a ≠ b) (hperm : (first :: second :: q).Perm h.queue)
    (hm : h.Matchable env first second) :
    ((h.setQueue q).pairEntries env first second).lobby.Hunting a b ca cb
      ∨ ((h.setQueue q).pairEntries env first second).lobby.Onward x a b ca cb := by
  have hfirst := queueEntryWaitingOk_iff.mp hm.left.waiting
  have hsecond := queueEntryWaitingOk_iff.mp hm.right.waiting
  have hshape := (entriesCompatible_iff.mp hm.compatible).1
  have taken : ∀ {a b : ConnId} {ca cb : Option ConnId} {e f : QueueEntry},
      h.lobby.Hunting a b ca cb → x ≠ a → x ≠ b →
      a ≠ b → e = .party a b → queueShapeOk e f = true → h.AllWaiting (queueEntryIds e) →
      h.AllWaiting (queueEntryIds f) → ¬ (a ∈ queueEntryIds f ∨ b ∈ queueEntryIds f) →
      ((h.setQueue q).pairEntries env e f).lobby.Onward x a b ca cb
        ∧ ((h.setQueue q).pairEntries env f e).lobby.Onward x a b ca cb := by
    rintro a b ca cb e f ⟨ta, tb, -, ha, hb, hfa, hfb, -⟩ hxa hxb hab rfl hsh he hf hnot
    rw [not_or] at hnot
    exact onward_pairEntries (h := h.setQueue q) ha hb hab hxa hxb hfa hfb he hsh hnot.1 hnot.2
      fun hx => hgone (hf x hx)
  have taken' : ∀ {e f : QueueEntry}, (e = .party a b ∨ e = .party b a) →
      queueShapeOk e f = true → h.AllWaiting (queueEntryIds e) →
      h.AllWaiting (queueEntryIds f) → ¬ (a ∈ queueEntryIds f ∨ b ∈ queueEntryIds f) →
      ((h.setQueue q).pairEntries env e f).lobby.Onward x a b ca cb
        ∧ ((h.setQueue q).pairEntries env f e).lobby.Onward x a b ca cb := by
    rintro e f (he | he) hsh hwe hwf hnot
    · exact taken hh hxa hxb hab he hsh hwe hwf hnot
    · have hboth := taken hh.symm hxb hxa hab.symm he hsh hwe hwf fun hor => hnot hor.symm
      exact ⟨hboth.1.symm, hboth.2.symm⟩
  obtain ⟨ta, tb, e, ha, hb, hfa, hfb, he, hq⟩ := id hh
  have hslots : Lobby.slotsOf (first :: second :: q) a b = [e] := by
    refine List.perm_singleton.mp ?_
    rw [← hq]
    exact hperm.filter _
  unfold Lobby.slotsOf at hslots
  rw [List.filter_cons] at hslots
  split at hslots
  · -- the slot of the pair was popped
    obtain ⟨rfl, hrest⟩ := List.cons_eq_cons.mp hslots
    have hnot := List.filter_eq_nil_iff.mp hrest second List.mem_cons_self
    rw [decide_eq_true_eq] at hnot
    exact .inr (taken' he hshape hfirst hsecond hnot).1
  · next hnotfirst =>
    rw [decide_eq_true_eq] at hnotfirst
    rw [List.filter_cons] at hslots
    split at hslots
    · -- it was found by the scan
      obtain ⟨rfl, -⟩ := List.cons_eq_cons.mp hslots
      rw [queueShapeOk_comm] at hshape
      exact .inr (taken' he hshape hsecond hfirst hnotfirst).2
    · next hnotsecond =>
      rw [decide_eq_true_eq] at hnotsecond
      rw [not_or] at hnotfirst hnotsecond
      have hlinks := links_of_matchable (q := q) hm
      obtain ⟨sid, hseated⟩ := hlinks.seated
      obtain ⟨keep, hqueue, hkeep⟩ := hlinks.queue
      have hna : a ∉ queueEntryIds first ++ queueEntryIds second := by
        rw [List.mem_append, not_or]
        exact ⟨hnotfirst.1, hnotsecond.1⟩
      have hnb : b ∉ queueEntryIds first ++ queueEntryIds second := by
        rw [List.mem_append, not_or]
        exact ⟨hnotfirst.2, hnotsecond.2⟩
      refine .inl ⟨ta, tb, e, ?_, ?_, hfa, hfb, he, ?_⟩
      · rw [seat_lobby, hseated.others a hna]
        exact ha
      · rw [seat_lobby, hseated.others b hnb]
        exact hb
      · have hids : ∀ y ∈ queueEntryIds e, y ∉ queueEntryIds first ++ queueEntryIds second := by
          intro y hy
          obtain rfl | rfl := he
          · simp only [queueEntryIds, List.mem_cons, List.not_mem_nil, or_false] at hy
            obtain rfl | rfl := hy
            · exact hna
            · exact hnb
          · simp only [queueEntryIds, List.mem_cons, List.not_mem_nil, or_false] at hy
            obtain rfl | rfl := hy
            · exact hnb
            · exact hna
        rw [queue_lobby, hqueue, queue_setQueue]
        exact Lobby.slotsOf_filter hslots (hkeep e hids)

/-- The loop keeps the pair together. -/
theorem MatchRun.pending {log : List Pairing} {h' : SimpleHub} (hrun : MatchRun env h log h')
    (hp : h.lobby.Pending x a b ca cb) : h'.lobby.Pending x a b ca cb := by
  induction hrun with
  | stop => exact hp
  | @drop h h' first rest log hq hdead hrun ih =>
      refine ih ⟨hp.left, hp.right, hp.distinct, hp.gone,
        hp.pair.imp (fun hh => hh.congr rfl rfl ?_) fun ho => ho.congr rfl rfl⟩
      obtain ⟨ta, tb, e, ha, hb, hfa, hfb, he, hslots⟩ := hh
      rw [queue_lobby, queue_lobby, hq, queue_setQueue]
      rw [queue_lobby, hq] at hslots
      unfold Lobby.slotsOf at hslots ⊢
      rw [List.filter_cons] at hslots ⊢
      split at hslots
      · -- a slot of waiting clients is not dead
        obtain ⟨rfl, -⟩ := List.cons_eq_cons.mp hslots
        have hpa : h.phaseOf a = some .waiting := by
          rw [← phaseOf_lobby, Lobby.phaseOf, ha]
          rfl
        have hpb : h.phaseOf b = some .waiting := by
          rw [← phaseOf_lobby, Lobby.phaseOf, hb]
          rfl
        obtain rfl | rfl := he
        · simp [QueueEntry.IsParty3, queueEntryWaitingOk, queueEntryIds, hpa, hpb] at hdead
        · simp [QueueEntry.IsParty3, queueEntryWaitingOk, queueEntryIds, hpa, hpb] at hdead
      · next hnot => rw [if_neg hnot]
  | @rotate h h' first rest log hq hrun ih =>
      refine ih ⟨hp.left, hp.right, hp.distinct, hp.gone,
        hp.pair.imp (fun hh => ?_) fun ho => ho.congr rfl rfl⟩
      obtain ⟨ta, tb, e, ha, hb, hfa, hfb, he, hslots⟩ := hh
      refine ⟨ta, tb, e, ha, hb, hfa, hfb, he, List.perm_singleton.mp ?_⟩
      rw [← hslots, queue_lobby, queue_lobby, hq, queue_setQueue]
      exact (@List.perm_append_comm _ rest [first]).filter _
  | @pair h k h' first second rest i log hq hi hm hk hrun ih =>
      have hgone : h.phaseOf x ≠ some .waiting := by
        rw [← phaseOf_lobby]
        exact hp.gone
      have hperm : (first :: second :: rest.eraseIdx i).Perm h.queue := by
        obtain ⟨hlt, hget⟩ := List.getElem?_eq_some_iff.mp hi
        rw [hq, ← hget]
        exact (List.getElem_cons_eraseIdx_perm hlt).cons first
      have hlinks := links_of_matchable (q := rest.eraseIdx i) hm
      rw [← hk] at hlinks
      obtain ⟨sid, hseated⟩ := hlinks.seated
      have hsame : ∀ y, h.phaseOf y ≠ some .waiting → k.lobby.seat y = h.lobby.seat y := by
        intro y hy
        have hout : y ∉ queueEntryIds first ++ queueEntryIds second := by
          rw [List.mem_append, not_or]
          exact ⟨fun hmem => hy (queueEntryWaitingOk_iff.mp hm.left.waiting y hmem),
            fun hmem => hy (queueEntryWaitingOk_iff.mp hm.right.waiting y hmem)⟩
        rw [seat_lobby, seat_lobby, hseated.others y hout]
        rfl
      refine ih ⟨hp.left, hp.right, hp.distinct, ?_, ?_⟩
      · rw [Lobby.phaseOf, hsame x hgone]
        exact hp.gone
      · obtain hh | ho := hp.pair
        · rw [hk]
          exact pending_pairing hh hgone hp.left hp.right hp.distinct hperm hm
        · refine .inr (ho.congr ?_ ?_)
          · obtain ⟨sa, sb, ha, -, hpa, -⟩ := ho
            refine hsame a ?_
            rw [← phaseOf_lobby, Lobby.phaseOf, ha, Option.map_some, hpa]
            rintro ⟨⟩
          · obtain ⟨sa, sb, -, hb, -, hpb, -⟩ := ho
            refine hsame b ?_
            rw [← phaseOf_lobby, Lobby.phaseOf, hb, Option.map_some, hpb]
            rintro ⟨⟩

theorem pending_rematch (hp : h.lobby.Pending x a b ca cb) :
    (h.rematch env).lobby.Pending x a b ca cb := by
  obtain ⟨log, hrun⟩ := matchLoop_run env (max (h.queue.length * 4) 8) h
  exact hrun.pending hp

-- ============================================================== the third leaves

theorem trio_withdraw (ht : h.lobby.Trio x a b) : (h.withdraw x).lobby.Trio x a b := by
  rw [lobby_withdraw]
  exact ⟨ht.distinct, ht.lone, ht.left, ht.right⟩

/-- The pair is queued again. -/
theorem huntAgain_third (env : Env) (ht : h.lobby.Trio x a b) :
    (h.huntAgain env x a b).lobby.Pending x a b (h.friendCallOf a) (h.friendCallOf b)
      ∧ (h.huntAgain env x a b).linkedThird x = true
      ∧ (h.huntAgain env x a b).peersOf x = h.peersOf x := by
  refine ⟨?_, ?_, ?_⟩
  · rw [lobby_huntAgain, ← friendCallOf_lobby, ← friendCallOf_lobby]
    exact ht.pending
  · rw [linkedThird_iff, lobby_huntAgain]
    exact ht.linkedThird_huntAgain
  · have hxa : x ≠ a := by grind [ht.distinct]
    have hxb : x ≠ b := by grind [ht.distinct]
    rw [← peersOf_lobby, ← peersOf_lobby, lobby_huntAgain]
    simp [Lobby.peersOf, Lobby.huntAgain, Lobby.enqueueParty, hxa, hxb]

/-- The third leaves: its pair is queued again, and `try_match` takes over. -/
theorem leaveKeepRemainingPair_third (env : Env) (ht : h.lobby.Trio x a b) (d : String) :
    ∃ k, (∀ tm, h.leaveKeepRemainingPair env tm x d = (tm k).bind fun h' => some (h', true))
      ∧ k.lobby.Pending x a b (h.friendCallOf a) (h.friendCallOf b)
      ∧ k.linkedThird x = true ∧ k.peersOf x = h.peersOf x
      ∧ k.expired env = h.expired env := by
  obtain ⟨c, p, q, hc, hpeers, hpq, -, -, -, -, -, hleave⟩ :=
    @leaveKeepRemainingPair_hunt h env x (linkedThird_iff.mpr ht.linkedThird) d
  refine ⟨h.huntAgain env x p q, hleave, ?_⟩
  have hexp : (h.huntAgain env x p q).expired env = h.expired env :=
    expired_congr (books_huntAgain h env x p q)
  -- the set has the two in one order or the other
  obtain ⟨s, hs, -, hmem, -⟩ := ht.lone
  have hseat : s.peers = {p, q} := by
    rw [seat_lobby, hc] at hs
    cases hs
    exact hpeers
  have hp : p = a ∨ p = b := by simpa [hseat] using hmem p
  have hq : q = a ∨ q = b := by simpa [hseat] using hmem q
  obtain ⟨rfl, rfl⟩ | ⟨rfl, rfl⟩ : (p = a ∧ q = b) ∨ (p = b ∧ q = a) := by
    obtain rfl | rfl := hp
    · exact .inl ⟨rfl, hq.resolve_left (Ne.symm hpq)⟩
    · exact .inr ⟨rfl, hq.resolve_right (Ne.symm hpq)⟩
  · obtain ⟨hpend, hthird, hsame⟩ := huntAgain_third env ht
    exact ⟨hpend, hthird, hsame, hexp⟩
  · obtain ⟨hpend, hthird, hsame⟩ := huntAgain_third env ht.symm
    exact ⟨hpend.symm, hthird, hsame, hexp⟩

/-- With no hold run out the pair goes on; the leaver is not to be matched. -/
theorem third_goes (env : Env) (ht : h.lobby.Trio x a b) (hnone : h.expired env = ∅) (n : Nat)
    (d : String) :
    ∃ k, h.leaveKeepRemainingPair env (tryMatch env (n + 1)) x d = some (k, true)
      ∧ k.lobby.Pending x a b (h.friendCallOf a) (h.friendCallOf b) ∧ k.expired env = ∅ := by
  obtain ⟨k, hleave, hpend, -, -, hexp⟩ := leaveKeepRemainingPair_third env ht d
  rw [hnone] at hexp
  refine ⟨k.rematch env, ?_, pending_rematch hpend, ?_⟩
  · rw [hleave, tryMatch_eq_rematch hexp n]
    rfl
  · rw [expired_congr (books_rematch k env), hexp]

/-- With its own hold run out it never comes back. -/
theorem third_stuck (env : Env) (ht : h.lobby.Trio x a b) (hexp : h.expired env = {x}) (n : Nat)
    (d : String) : h.leaveKeepRemainingPair env (tryMatch env n) x d = none := by
  obtain ⟨k, hleave, -, hthird, hpeers, hsame⟩ := leaveKeepRemainingPair_third env ht d
  rw [hexp] at hsame
  have hself : x ∉ k.peersOf x := by
    obtain ⟨s, hs, -, hmem, -⟩ := ht.lone
    rw [hpeers, ← peersOf_lobby, Lobby.peersOf, hs, Option.map_some, Option.getD_some, hmem]
    exact (List.nodup_cons.mp ht.distinct).1
  have hrun : env.mapOrder.run (k.expired env) = [x] := by
    rw [hsame]
    exact List.perm_singleton.mp ((List.perm_ext_iff_of_nodup (env.mapOrder.nodup_run _)
      (List.nodup_singleton x)).mpr fun y => by simp)
  rw [hleave, tryMatch_eq_none hself hrun hthird n]
  rfl

/-- Who stopped has no session. -/
theorem off_stopKept {k : SimpleHub} : (k.stopKept env x).lobby.Off x := by
  intro sx hx
  rw [lobby_stopKept, Lobby.seat_drop, Lobby.seat_alter, if_pos rfl] at hx
  obtain ⟨-, -, rfl⟩ := Option.map_eq_some_iff.mp hx
  rfl

/-- A third whose own hold has run out leaves. -/
theorem exit_third_stuck {way : Exit} (ht : h.lobby.Trio x a b) (hexp : h.expired env = {x})
    (n : Nat) : exit way h env n x = none := by
  cases way with
  | stop =>
      have ht' : (h.cancelFindThird x).lobby.Trio x a b := by rwa [lobby_cancelFindThird]
      have hleave := third_stuck env ht'
        (by rw [expired_congr (books_cancelFindThird h x), hexp]) (n + 1)
        "partner left — still chatting"
      unfold exit stopMatchmaking
      rw [hleave]
      rfl
  | removal =>
      have hx : x ∈ h.expired env := by rw [hexp]; exact Finset.mem_singleton_self x
      obtain ⟨c, hc, -⟩ := mem_expired.mp hx
      have hleave := third_stuck env (trio_withdraw ht)
        (by rw [expired_congr (books_withdraw x), hexp]) (n + 1)
        "partner left — still chatting"
      unfold exit removeClient
      rw [shouldKeepWsHold_expired hx]
      simp only [get_withdraw, hc, Bool.false_eq_true, if_false]
      rw [hleave]
      rfl

/-- A third leaves while no hold has run out: the other two are kept together
unless one of them is in a friend call with it. -/
theorem exit_third {way : Exit} (ht : h.lobby.Trio x a b) (hnone : h.expired env = ∅)
    (hsingle : way = .removal → h.Single env x) (n : Nat) :
    ∃ h', exit way h env n x = some h'
      ∧ (h'.lobby.PairKept x a b ↔ h.friendCallOf a ≠ some x ∧ h.friendCallOf b ≠ some x) := by
  cases way with
  | stop =>
      have ht' : (h.cancelFindThird x).lobby.Trio x a b := by rwa [lobby_cancelFindThird]
      obtain ⟨k, hleave, hpend, -⟩ := third_goes env ht'
        (by rw [expired_congr (books_cancelFindThird h x), hnone]) n "partner left — still chatting"
      have hcall : ∀ y, (h.cancelFindThird x).friendCallOf y = h.friendCallOf y := fun y => by
        rw [← friendCallOf_lobby, lobby_cancelFindThird, friendCallOf_lobby]
      rw [hcall, hcall] at hpend
      refine ⟨k.stopKept env x, ?_, ?_⟩
      · unfold exit stopMatchmaking
        rw [hleave]
        rfl
      · refine Lobby.pairKept_iff_of_pending
          (hpend.out ?_ (fun y hy => seat_stopKept hy) (.inr ?_)) off_stopKept
        · intro hwait
          obtain ⟨sx, hx, hphase⟩ := Option.map_eq_some_iff.mp hwait
          rw [off_stopKept sx hx] at hphase
          cases hphase
        · rw [lobby_stopKept]
          rfl
  | removal =>
      obtain ⟨s, hs, -, hmem, -⟩ := ht.lone
      obtain ⟨c, hc, rfl⟩ := Option.map_eq_some_iff.mp hs
      have hcard : c.sessionPeers.card = 2 := by
        have hset : c.sessionPeers = {a, b} := by
          ext y
          exact (hmem y).trans (by simp)
        rw [hset, Finset.card_pair (by grind [ht.distinct])]
      have hgone := (hsingle rfl).gone hc (.inr (by rw [hcard]; decide))
      obtain ⟨k, hleave, hpend, hexp⟩ := third_goes env (trio_withdraw ht)
        (by rw [expired_congr (books_withdraw x), hnone]) n "partner left — still chatting"
      have hcall : ∀ y, (h.withdraw x).friendCallOf y = h.friendCallOf y := fun y => by
        rw [friendCallOf, get_withdraw, friendCallOf]
      rw [hcall, hcall] at hpend
      have hseat : ∀ y, (k.forgetClient env x c true).lobby.seat y
          = if y = x then none else k.lobby.seat y := by
        intro y
        rw [lobby_forgetClient, if_pos rfl, Lobby.seat_leave]
        split
        · rfl
        · next hy => rw [Lobby.seat_alter, if_neg hy]
      have hleft : (k.forgetClient env x c true).lobby.phaseOf x ≠ some .waiting := by
        rw [Lobby.phaseOf, hseat, if_pos rfl]
        rintro ⟨⟩
      refine ⟨(k.forgetClient env x c true).rematch env, ?_, ?_⟩
      · unfold exit removeClient
        rw [hgone.shouldKeepWsHold]
        simp only [get_withdraw, hgone.get, Bool.false_eq_true, if_false]
        rw [hleave, ← tryMatch_eq_rematch
          (expired_erase hexp (books_forgetClient x c true)) n]
        rfl
      · refine Lobby.pairKept_iff_of_pending
          (pending_rematch (hpend.out hleft (fun y hy => ?_) (.inl ?_))) fun sx hx => ?_
        · rw [hseat, if_neg hy]
        · rw [lobby_forgetClient]
          rfl
        · rw [seat_lobby, get_rematch (untaken_of_phase hleft), ← seat_lobby, hseat,
            if_pos rfl] at hx
          cases hx

-- ================================================================= one of the pair

/-- One of the pair leaves: the other and the third are a plain match. -/
theorem exit_member {way : Exit} {m q : ConnId} (hf : h.lobby.Faces x [m, q] (some m))
    (hnd : [x, m, q].Nodup) (hm : h.lobby.has m = true) (hq : h.lobby.has q = true)
    (hsingle : way = .removal → h.Single env x) (n : Nat) :
    ∃ h', exit way h env n x = some h' ∧ h'.lobby.PairKept x m q := by
  have hxm : x ≠ m := by grind
  have hxq : x ≠ q := by grind
  cases way with
  | stop =>
      obtain ⟨htrue, hpm, hpq⟩ := Lobby.leaveKeep_member (o := env.peerOrder) hf hnd hm hq
      obtain ⟨k, hexit, hlobby⟩ := stop_mate hf htrue n
      refine ⟨_, hexit, Lobby.pairKept_of_match ?_ ?_ hxm hxq off_stopKept⟩
      · rw [seat_stopKept hxm.symm, hlobby, hpm]
      · rw [seat_stopKept hxq.symm, hlobby, hpq]
  | removal =>
      obtain ⟨htrue, hpm, hpq⟩ := Lobby.leaveKeep_member (L := h.lobby.drop x)
        (o := env.peerOrder) hf hnd hm hq
      obtain ⟨hexit, hseat⟩ := removal_mate hf htrue (hsingle rfl) n
      -- nobody of the three waits
      have hkeep : ∀ y, (h.expel env x).lobby.phaseOf y ≠ some .waiting →
          ((h.expel env x).rematch env).lobby.seat y = (h.expel env x).lobby.seat y := by
        intro y hy
        rw [seat_lobby, seat_lobby, get_rematch (untaken_of_phase hy)]
      have hm' : (h.expel env x).lobby.seat m = some (Seat.free.pairWith q) := by
        rw [hseat, if_neg hxm.symm, hpm]
      have hq' : (h.expel env x).lobby.seat q = some (Seat.free.pairWith m) := by
        rw [hseat, if_neg hxq.symm, hpq]
      have hx' : (h.expel env x).lobby.seat x = none := by rw [hseat, if_pos rfl]
      refine ⟨_, hexit, Lobby.pairKept_of_match ?_ ?_ hxm hxq fun sx hx => ?_⟩
      · rw [hkeep m (by rw [Lobby.phaseOf, hm']; rintro ⟨⟩), hm']
      · rw [hkeep q (by rw [Lobby.phaseOf, hq']; rintro ⟨⟩), hq']
      · rw [hkeep x (by rw [Lobby.phaseOf, hx']; rintro ⟨⟩), hx'] at hx
        cases hx

-- ============================================================================= trios

/-- A 1v2 seats a trio: the third is the solo client. -/
theorem trio_startPartyVsSolo {third : ConnId} (hnd : [third, a, b].Nodup)
    (hhas : ∀ y ∈ [third, a, b], h.has y = true) :
    (h.startPartyVsSolo env third a b).lobby.Trio third a b := by
  simp only [List.mem_cons, List.not_mem_nil, or_false, forall_eq_or_imp, forall_eq, has_iff]
    at hhas
  obtain ⟨⟨ct, hct⟩, ⟨ca, hca⟩, cb, hcb⟩ := hhas
  have hta : third ≠ a := by grind
  have htb : third ≠ b := by grind
  have hab : a ≠ b := by grind
  rw [lobby_startPartyVsSolo]
  refine ⟨hnd, Lobby.faces_of_join (s := ct.seat) ?_,
    (Lobby.faces_of_join (s := ca.seat) ?_).swap, (Lobby.faces_of_join (s := cb.seat) ?_).swap⟩
  · simp [Lobby.trio, hct, hta, htb]
  · simp [Lobby.trio, hca, hab, hta.symm]
  · simp [Lobby.trio, hcb, hab.symm, htb.symm]

/-- A friend who joins a call of two is the third of a trio. -/
theorem trio_startThreePersonJoin {third : ConnId} (hnd : [third, a, b].Nodup)
    (hhas : ∀ y ∈ [third, a, b], h.has y = true) :
    (h.startThreePersonJoin env a b third).lobby.Trio third a b := by
  simp only [List.mem_cons, List.not_mem_nil, or_false, forall_eq_or_imp, forall_eq, has_iff]
    at hhas
  obtain ⟨⟨ct, hct⟩, ⟨ca, hca⟩, cb, hcb⟩ := hhas
  have hta : third ≠ a := by grind
  have htb : third ≠ b := by grind
  have hab : a ≠ b := by grind
  rw [lobby_startThreePersonJoin]
  refine ⟨hnd, Lobby.faces_of_join (s := { ct.seat with friendCall := none }) ?_,
    Lobby.faces_of_join (s := ca.seat) ?_, Lobby.faces_of_join (s := cb.seat) ?_⟩
  · simp [Lobby.join3, hct, hta, htb, Seat.join]
  · simp [Lobby.join3, hca, hab, hta.symm, Seat.join]
  · simp [Lobby.join3, hcb, hab.symm, htb.symm, Seat.join]

/-- One of a trio leaves and nobody leaves with it: the other two stay
together exactly when the leaver is not a third whose own hold has run out or
who is in a friend call with one of them. -/
theorem trio_leave_iff {third : ConnId} {way : Exit} (ht : h.lobby.Trio third a b)
    (hx : x ∈ [third, a, b]) (hothers : ∀ y ∈ h.expired env, y = x)
    (hsingle : way = .removal → h.Single env x) (n : Nat) :
    (∃ h', exit way h env n x = some h'
      ∧ ∀ p ∈ [third, a, b], ∀ q ∈ [third, a, b], p ≠ x → q ≠ x → p ≠ q →
        h'.lobby.PairKept x p q)
      ↔ ¬ (x = third ∧ (x ∈ h.expired env ∨ h.friendCallOf a = some x
        ∨ h.friendCallOf b = some x)) := by
  have hnd := ht.distinct
  have hta : third ≠ a := by grind
  have htb : third ≠ b := by grind
  have hab : a ≠ b := by grind
  -- the two who stay, in either order
  have both : ∀ {m q : ConnId}, (∀ p ∈ [third, a, b], p ≠ x → p = m ∨ p = q) →
      (∃ h', exit way h env n x = some h' ∧ h'.lobby.PairKept x m q) →
      ∃ h', exit way h env n x = some h'
        ∧ ∀ p ∈ [third, a, b], ∀ q ∈ [third, a, b], p ≠ x → q ≠ x → p ≠ q →
          h'.lobby.PairKept x p q := by
    rintro m q hmq ⟨h', hexit, hkept⟩
    refine ⟨h', hexit, fun p hp p' hp' hpx hpx' hpp => ?_⟩
    obtain rfl | rfl := hmq p hp hpx
    · obtain rfl | rfl := hmq p' hp' hpx'
      · exact absurd rfl hpp
      · exact hkept
    · obtain rfl | rfl := hmq p' hp' hpx'
      · exact hkept.symm
      · exact absurd rfl hpp
  simp only [List.mem_cons, List.not_mem_nil, or_false] at hx
  obtain rfl | rfl | rfl := hx
  · by_cases hexp : x ∈ h.expired env
    · refine iff_of_false ?_ fun hnot => hnot ⟨rfl, .inl hexp⟩
      rintro ⟨h', hexit, -⟩
      rw [exit_third_stuck ht
        (Finset.eq_singleton_iff_unique_mem.mpr ⟨hexp, hothers⟩) n] at hexit
      cases hexit
    · have hnone : h.expired env = ∅ :=
        Finset.eq_empty_of_forall_notMem fun y hy => hexp (hothers y hy ▸ hy)
      obtain ⟨k, hk, hiff⟩ := exit_third ht hnone hsingle n
      have hcalls : ¬ (x = x ∧ (x ∈ h.expired env ∨ h.friendCallOf a = some x
            ∨ h.friendCallOf b = some x))
          ↔ h.friendCallOf a ≠ some x ∧ h.friendCallOf b ≠ some x := by
        simp only [hexp, false_or, true_and, not_or, ne_eq]
      rw [hcalls, ← hiff]
      constructor
      · rintro ⟨h', hexit, hkept⟩
        cases hk.symm.trans hexit
        exact hkept a (by simp) b (by simp) hta.symm htb.symm hab
      · exact fun hkept => both (by grind) ⟨k, hk, hkept⟩
  · refine iff_of_true (both (by grind)
      (exit_member ht.left (by grind) ht.right.has ht.lone.has hsingle n)) ?_
    exact fun hnot => hta hnot.1.symm
  · refine iff_of_true (both (by grind)
      (exit_member ht.right (by grind) ht.left.has ht.lone.has hsingle n)) ?_
    exact fun hnot => htb hnot.1.symm

/-- Its seat faces these others on the side of this one. -/
def faces (h : SimpleHub) (x : ConnId) (others : List ConnId) (party : Option ConnId) : Bool :=
  (h.lobby.seat x).any fun s =>
    decide (s.phase = .matched ∧ s.peers = others.toFinset ∧ s.partyWith = party)

/-- The three sit as a trio. -/
def trio (h : SimpleHub) (third a b : ConnId) : Bool :=
  h.faces third [a, b] none && h.faces a [b, third] (some b) && h.faces b [a, third] (some a)

theorem faces_of_check {others : List ConnId} {party : Option ConnId}
    (hf : h.faces x others party = true) : h.lobby.Faces x others party := by
  obtain ⟨s, hs, hs'⟩ := (Option.any_eq_true _ _).mp hf
  obtain ⟨hphase, hpeers, hparty⟩ := of_decide_eq_true hs'
  exact ⟨s, hs, hphase, fun y => by rw [hpeers, List.mem_toFinset], hparty⟩

theorem trio_of_check {third : ConnId} (hnd : [third, a, b].Nodup)
    (ht : h.trio third a b = true) : h.lobby.Trio third a b := by
  simp only [trio, Bool.and_eq_true] at ht
  obtain ⟨⟨hthird, ha⟩, hb⟩ := ht
  exact ⟨hnd, faces_of_check hthird, faces_of_check ha, faces_of_check hb⟩

/-- A pair of strangers hunts for a third and finds one. -/
def thirdFound : List Input := script
  [(0, .connect 1 ""), (0, .connect 2 ""), (0, .connect 3 ""), (1, .frame 1 (.spin "")),
    (1, .frame 2 (.spin "")), (2, .frame 1 .findThirdInvite),
    (2, .frame 2 (.findThirdRespond true)), (3, .frame 3 (.spin ""))]

/-- The third closes its socket, and the pair hunts on. -/
theorem trio_leave_iff_found : ∃ w, (hubMachine plainSys).Reach w
    ∧ ∃ h', exit .removal w.hub (plainEnv 4) 0 3 = some h' ∧ h'.lobby.PairKept 3 1 2 := by
  obtain ⟨w, hw, hp⟩ := @reach_of_replay plainSys 2 thirdFound
    (fun w => w.hub.trio 3 1 2
      && decide (w.hub.expired (plainEnv 4) = ∅ ∧ (w.hub.get 3).bind (·.wsHoldUntil) = none
        ∧ w.hub.friendCallOf 1 = none ∧ w.hub.friendCallOf 2 = none)) (by decide +kernel)
  rw [Bool.and_eq_true, decide_eq_true_eq] at hp
  obtain ⟨htrio, hexp, hhold, hcall, hcall'⟩ := hp
  have hsingle := single_of_unheld hhold hexp
  have hnot : ¬ ((3 : ConnId) = 3 ∧ (3 ∈ w.hub.expired (plainEnv 4)
      ∨ w.hub.friendCallOf 1 = some 3 ∨ w.hub.friendCallOf 2 = some 3)) := by
    rw [hexp, hcall, hcall']
    simp
  obtain ⟨h', hexit, hkept⟩ := (trio_leave_iff (trio_of_check (by decide) htrio)
    List.mem_cons_self hsingle.others (fun _ : Exit.removal = .removal => hsingle) 0).mpr hnot
  exact ⟨w, hw, h', hexit, hkept 1 (by decide) 2 (by decide) (by decide) (by decide) (by decide)⟩

/-- A held third is removed when its hold has run out, and the removal starts
over inside itself. -/
theorem held_third_keeps_nobody : ∃ w, (hubMachine plainSys).Reach w
    ∧ w.hub.lobby.Trio 1 3 4 ∧ w.hub.Single (plainEnv 48000) 1
    ∧ ∀ n, exit .removal w.hub (plainEnv 48000) n 1 = none := by
  obtain ⟨w, hw, hp⟩ := @reach_of_replay plainSys 2 stuckRun
    (fun w => w.hub.trio 1 3 4
      && decide (w.hub.expired (plainEnv 48000) = {1})
      && (w.hub.get 1).any fun c => c.wsHoldUntil.any fun t => decide (t ≤ 48000))
    (by decide +kernel)
  simp only [Bool.and_eq_true, decide_eq_true_eq] at hp
  obtain ⟨⟨htrio, hexp⟩, hhold⟩ := hp
  have ht := trio_of_check (by decide) htrio
  refine ⟨w, hw, ht, ⟨fun c t hc hct => ?_, fun y hy => ?_⟩, exit_third_stuck ht hexp⟩
  · rw [hc, Option.any_some, hct, Option.any_some] at hhold
    exact of_decide_eq_true hhold
  · rw [hexp] at hy
    exact Finset.mem_singleton.mp hy

end SimpleHub

end Ruletka
