/-
What every seat keeps.

A seat has at most three peers, its partner is one of them, and it has a
partner as soon as it has peers; a matched seat without a partner belongs to
a session with another hub. The queue has no slot of three. These hold in
every lobby. That nobody points at itself, and that no connection is queued
twice, holds as long as no friend call of a connection with itself comes up:
`Bounds.loops` is the proposition that one may have. What is known besides of
the sessions with other hubs is a parameter that only has to survive their
end.

One lemma for each operation of the lobby. Operations that rewrite a seat
entirely also take it off the list of seats excused from the last condition.
-/
import Ruletka.Hub.Proofs.Lobby
import Ruletka.Hub.Proofs.Matcher

namespace Ruletka

/-- The sessions with other hubs, and what waits to be sent to them. -/
structure FedBooks where
  sessions : Table SessionId FedSession
  byClient : Table ConnId SessionId
  outbox : List FedOutbound

namespace FedBooks

variable (b : FedBooks)

/-- A connection goes off the books. -/
def clear (x : ConnId) : FedBooks :=
  match b.byClient.get? x with
  | none => b
  | some sid => { b with byClient := b.byClient.del x, sessions := b.sessions.del sid }

/-- A connection is matched with another hub. -/
def enter (x : ConnId) (sid : SessionId) (sess : FedSession) : FedBooks :=
  { b with sessions := b.sessions.set sid sess, byClient := b.byClient.set x sid }

/-- A relay is queued. -/
def push (o : FedOutbound) : FedBooks := { b with outbox := b.outbox ++ [o] }

/-- A relay of a connection in the session that the books have for it. -/
structure Relays (x : ConnId) (sess : FedSession) (o : FedOutbound) : Prop where
  session : b.byClient.get? x = some o.sessionId
  known : b.sessions.get? o.sessionId = some sess
  base : o.baseUrl = sess.remoteBaseUrl
  fromPeer : o.fromPeer = federatedPeerId o.sessionId sess.localPeerId

end FedBooks

/-- How far a run may go: whether a connection may point at itself, which
friend calls there may be, and what is known of the federation books. Nothing
but a match with another hub puts a session on the books. -/
structure Bounds where
  loops : Prop
  calls : ConnId → ConnId → Prop
  fed : FedBooks → Prop
  loops_of_calls : ∀ x, calls x x → loops
  fed_clear : ∀ b x, fed b → fed (b.clear x)
  fed_push : ∀ b x sess o, b.Relays x sess o → fed b → fed (b.push o)

/-- A seat in order; `abroad` excuses a matched seat without a partner. -/
structure Seat.Sane (B : Bounds) (abroad : Prop) (x : ConnId) (s : Seat) : Prop where
  peers : x ∈ s.peers → B.loops
  mate : s.partyWith = some x → B.loops
  calls : ∀ f, s.friendCall = some f → B.calls x f
  partner : ∀ p, s.partner = some p → p ∈ s.peers
  alone : s.partner = none → s.peers = ∅
  few : s.peers.card ≤ 3
  faced : s.phase = .matched → s.partner = none → abroad

/-- No slot of three, and no connection in two places. -/
structure Slots (loops : Prop) (q : List QueueEntry) : Prop where
  shapes : ∀ e ∈ q, ¬ e.IsParty3
  nodup : ¬ loops → (q.flatMap queueEntryIds).Nodup

/-- A lobby in order. -/
structure Lobby.Sane (B : Bounds) (abroad : ConnId → Prop) (L : Lobby) : Prop where
  seats : ∀ x s, L.seat x = some s → s.Sane B (abroad x) x
  slots : Slots B.loops L.queue

/-- These seats need no excuse any more. -/
def Cleared (A : ConnId → Prop) (l : List ConnId) (x : ConnId) : Prop := A x ∧ x ∉ l

variable {B : Bounds} {A A' : ConnId → Prop} {x : ConnId}

-- ==================================================================== the slots

namespace Slots

variable {loops : Prop} {q q' : List QueueEntry}

theorem sublist (hq : Slots loops q) (hs : q'.Sublist q) : Slots loops q' where
  shapes e he := hq.shapes e (hs.subset he)
  nodup hn := (hq.nodup hn).sublist (hs.flatMap queueEntryIds)

theorem perm (hq : Slots loops q) (hp : q.Perm q') : Slots loops q' where
  shapes e he := hq.shapes e (hp.mem_iff.mpr he)
  nodup hn := (hp.flatMap_right queueEntryIds).nodup_iff.mp (hq.nodup hn)

/-- A slot of one or two new members joins the queue. -/
theorem push {e : QueueEntry} (hq : Slots loops q) (he : ¬ e.IsParty3)
    (hids : ¬ loops → (queueEntryIds e).Nodup)
    (hnew : ∀ x ∈ queueEntryIds e, ∀ f ∈ q, x ∉ queueEntryIds f) : Slots loops (q ++ [e]) where
  shapes f hf := by
    rcases List.mem_append.mp hf with hf | hf
    · exact hq.shapes f hf
    · rw [List.mem_singleton.mp hf]
      exact he
  nodup hn := by
    rw [List.flatMap_append, List.flatMap_singleton]
    refine (hq.nodup hn).append (hids hn) fun x hx hxe => ?_
    obtain ⟨f, hf, hxf⟩ := List.mem_flatMap.mp hx
    exact hnew x hxe f hf hxf

/-- Members of two slots of the queue differ. -/
theorem pair {first second : QueueEntry} {rest : List QueueEntry}
    (hq : Slots loops (first :: rest)) (hs : second ∈ rest) (hn : ¬ loops) :
    (queueEntryIds first ++ queueEntryIds second).Nodup := by
  have hsub : [first, second].Sublist (first :: rest) :=
    (List.singleton_sublist.mpr hs).cons_cons first
  have hnd := (hq.nodup hn).sublist (hsub.flatMap queueEntryIds)
  simpa using hnd

end Slots

-- ==================================================================== the seats

namespace Seat.Sane

variable {a a' : Prop} {s : Seat}

theorem mono (hs : s.Sane B a x) (ha : a → a') : s.Sane B a' x :=
  { hs with faced := fun hm hp => ha (hs.faced hm hp) }

/-- The phase of a seat changes; nothing else does. -/
theorem rephase (hs : s.Sane B a x) {p : Phase} (hp : p = .matched → s.partner = none → a') :
    ({ s with phase := p } : Seat).Sane B a' x :=
  { hs with faced := hp }

theorem free : Seat.free.Sane B a x where
  peers := by simp [Seat.free]
  mate := by simp [Seat.free]
  calls := by simp [Seat.free]
  partner := by simp [Seat.free]
  alone _ := rfl
  few := by simp [Seat.free]
  faced := by simp [Seat.free]

/-- A seat with nobody in front of it that is not matched. -/
theorem empty {p : Phase} {f m : Option ConnId} (hs : s.Sane B a x)
    (hp : p ≠ .matched) (hf : f = s.friendCall ∨ f = none)
    (hm : m = s.partyWith ∨ m = none) : (⟨p, none, ∅, f, m⟩ : Seat).Sane B a' x where
  peers := by simp
  mate h := by
    rcases hm with rfl | rfl
    · exact hs.mate h
    · cases h
  calls g hg := by
    rcases hf with rfl | rfl
    · exact hs.calls g hg
    · cases hg
  partner := by simp
  alone _ := rfl
  few := by simp
  faced h := absurd h hp

/-- A seat facing others, the first of them its partner. -/
theorem facing {p : Phase} {m : Option ConnId} {f : Option ConnId} {first : ConnId}
    {peers : Finset ConnId} (hfirst : first ∈ peers) (hfew : peers.card ≤ 3)
    (hself : x ∈ peers → B.loops) (hmate : m = some x → B.loops)
    (hcalls : ∀ g, f = some g → B.calls x g) :
    (⟨p, some first, peers, f, m⟩ : Seat).Sane B a x where
  peers := hself
  mate := hmate
  calls := hcalls
  partner q hq := by
    cases hq
    exact hfirst
  alone h := by cases h
  few := hfew
  faced _ h := by cases h

theorem pairWith {them : ConnId} (hs : s.Sane B a x) (hne : x = them → B.loops) :
    (s.pairWith them).Sane B a' x :=
  facing (Finset.mem_singleton_self them) (by simp)
    (fun h => hne (Finset.mem_singleton.mp h)) hs.mate hs.calls

theorem huntWith {mate : ConnId} (hs : s.Sane B a x) (hne : x = mate → B.loops) :
    (s.huntWith mate).Sane B a' x :=
  facing (Finset.mem_singleton_self mate) (by simp)
    (fun h => hne (Finset.mem_singleton.mp h))
    (fun h => hne (Option.some.inj h).symm) hs.calls

theorem callWith {friend : ConnId} (hcall : B.calls x friend) :
    (s.callWith friend).Sane B a' x := by
  have hself : x = friend → B.loops := by
    rintro rfl
    exact B.loops_of_calls x hcall
  refine facing (Finset.mem_singleton_self friend) (by simp)
    (fun h => hself (Finset.mem_singleton.mp h)) (fun h => by cases h) fun g hg => ?_
  cases hg
  exact hcall

/-- Entering a session of at most four. -/
theorem join {first : ConnId} {rest : List ConnId} {party f : Option ConnId}
    (hs : s.Sane B a x) (hlen : rest.length ≤ 2) (hself : x ∈ first :: rest → B.loops)
    (hparty : party = some x → B.loops) (hf : f = s.friendCall ∨ f = none) :
    ({ s.join (first :: rest) party with friendCall := f } : Seat).Sane B a' x := by
  refine facing (List.mem_toFinset.mpr List.mem_cons_self) ?_
    (fun h => hself (List.mem_toFinset.mp h)) hparty fun g hg => ?_
  · refine le_trans (List.toFinset_card_le (first :: rest)) ?_
    rw [List.length_cons]
    omega
  · rcases hf with rfl | rfl
    · exact hs.calls g hg
    · cases hg

theorem unmatch (hs : s.Sane B a x) : s.unmatch.Sane B a' x := by
  refine hs.empty ?_ (.inl rfl) (.inl rfl)
  split
  · simp
  · split
    · simp
    · simp

theorem alone_seat (hs : s.Sane B a x) : s.alone.Sane B a' x :=
  hs.empty (by simp) (.inl rfl) (.inr rfl)

/-- Forgetting the leaver may leave nobody: the seat is excused until it is
rewritten. -/
theorem prune (hs : s.Sane B a x) (o : IterOrder ConnId) (leaving : ConnId) :
    (s.prune o leaving).Sane B True x where
  peers h := hs.peers (Finset.mem_of_mem_erase h)
  mate := hs.mate
  calls f hf := by
    change (if s.friendCall = some leaving then none else s.friendCall) = some f at hf
    split at hf
    · cases hf
    · exact hs.calls f hf
  partner p hp := by
    change (if s.partner = some leaving then (o.run (s.peers.erase leaving)).head?
      else s.partner) = some p at hp
    split at hp
    · exact (o.mem_run _ p).mp (List.mem_of_head? hp)
    · next hne =>
      refine Finset.mem_erase.mpr ⟨?_, hs.partner p hp⟩
      rintro rfl
      exact hne hp
  alone h := by
    change (if s.partner = some leaving then (o.run (s.peers.erase leaving)).head?
      else s.partner) = none at h
    change s.peers.erase leaving = ∅
    split at h
    · rw [List.head?_eq_none_iff] at h
      ext y
      rw [← o.mem_run, h]
      simp
    · rw [hs.alone h]
      rfl
  few := le_trans (Finset.card_le_card (Finset.erase_subset _ _)) hs.few
  faced _ _ := trivial

/-- A pointer that is dropped or kept. -/
theorem kept_or_none {p : Prop} [Decidable p] {f : Option ConnId} :
    (if p then none else f) = f ∨ (if p then none else f) = none := by
  split
  · exact .inr rfl
  · exact .inl rfl

/-- Some of the pointers of a seat outside the session are dropped. -/
theorem loosen {m f : Option ConnId} (hs : s.Sane B a x)
    (hm : m = s.partyWith ∨ m = none) (hf : f = s.friendCall ∨ f = none) {p : Phase}
    (hp : p = .matched → s.partner = none → a') :
    ({ s with partyWith := m, friendCall := f, phase := p } : Seat).Sane B a' x :=
  { peers := hs.peers
    mate := fun h => by
      rcases hm with rfl | rfl
      · exact hs.mate h
      · cases h
    calls := fun g hg => by
      rcases hf with rfl | rfl
      · exact hs.calls g hg
      · cases hg
    partner := hs.partner
    alone := hs.alone
    few := hs.few
    faced := hp }

end Seat.Sane

open Seat.Sane (kept_or_none)

-- ================================================================= the primitives

namespace Lobby.Sane

variable {L : Lobby} {a b : ConnId}

theorem mono (hL : L.Sane B A) (hA : ∀ x, A x → A' x) : L.Sane B A' where
  seats x s hs := (hL.seats x s hs).mono (hA x)
  slots := hL.slots

/-- One seat is rewritten; the others are excused as before. -/
theorem alter {f : Seat → Seat} (hL : L.Sane B A)
    (hf : ∀ s, L.seat x = some s → s.Sane B (A x) x → (f s).Sane B (A' x) x)
    (hA : ∀ y, y ≠ x → A y → A' y) : (L.alter x f).Sane B A' where
  seats y s hs := by
    rw [seat_alter] at hs
    split at hs
    · next hy =>
      subst hy
      obtain ⟨s', hs', rfl⟩ := Option.map_eq_some_iff.mp hs
      exact hf s' hs' (hL.seats y s' hs')
    · next hy => exact (hL.seats y s hs).mono (hA y hy)
  slots := hL.slots

/-- A write that needs nothing but a seat in order. -/
theorem alter_any {f : Seat → Seat} (hL : L.Sane B A)
    (hf : ∀ s : Seat, s.Sane B (A x) x → (f s).Sane B (A x) x) : (L.alter x f).Sane B A :=
  hL.alter (fun s _ hs => hf s hs) fun _ _ h => h

theorem drop (hL : L.Sane B A) (y : ConnId) : (L.drop y).Sane B A where
  seats := hL.seats
  slots := hL.slots.sublist List.filter_sublist

/-- A seat is gone, and needs no excuse any more. -/
theorem leave (hL : L.Sane B A) (hA : ∀ y, y ≠ x → A y → A' y) : (L.leave x).Sane B A' where
  seats y s hs := by
    rw [seat_leave] at hs
    split at hs
    · cases hs
    · next hy => exact (hL.seats y s hs).mono (hA y hy)
  slots := hL.slots

theorem not_mem_drop {e : QueueEntry} (he : e ∈ (L.drop x).queue) : x ∉ queueEntryIds e := by
  rw [queue_drop] at he
  simpa using (List.mem_filter.mp he).2

-- ================================================================= the operations

theorem enqueueSolo (hL : L.Sane B A) (y : ConnId) : (L.enqueueSolo y).Sane B A where
  seats := hL.seats
  slots := by
    refine (hL.drop y).slots.push id (fun _ => List.nodup_singleton y) fun z hz e he => ?_
    rw [List.mem_singleton.mp hz]
    exact not_mem_drop he

/-- A seat is rewritten entirely. -/
theorem alter_cleared {f : Seat → Seat} {l : List ConnId} (hL : L.Sane B (Cleared A l))
    (hf : ∀ s : Seat, s.Sane B (Cleared A l x) x → (f s).Sane B False x) :
    (L.alter x f).Sane B (Cleared A (x :: l)) := by
  refine hL.alter (fun s _ hs => (hf s hs).mono False.elim) fun y hy h => ⟨h.1, fun hm => ?_⟩
  rcases List.mem_cons.mp hm with rfl | hm
  · exact hy rfl
  · exact h.2 hm

theorem cleared (hL : L.Sane B A) : L.Sane B (Cleared A []) :=
  hL.mono fun _ h => ⟨h, List.not_mem_nil⟩

theorem of_cleared {l : List ConnId} (hL : L.Sane B (Cleared A l)) : L.Sane B A :=
  hL.mono fun _ h => h.1

theorem enqueueParty (hL : L.Sane B A) (hab : a = b → B.loops) :
    (L.enqueueParty a b).Sane B (Cleared A [b, a]) := by
  have hslots : Slots B.loops (((L.drop a).drop b).push
      (if a < b then QueueEntry.party a b else .party b a)).queue := by
    have hids : ∀ z ∈ queueEntryIds (if a < b then QueueEntry.party a b else .party b a),
        z = a ∨ z = b := by
      intro z hz
      split at hz
      · simpa [queueEntryIds] using hz
      · simpa [queueEntryIds, or_comm] using hz
    refine ((hL.drop a).drop b).slots.push ?_ ?_ fun z hz e he => ?_
    · split
      · exact id
      · exact id
    · intro hn
      have hne : a ≠ b := fun h => hn (hab h)
      split
      · simpa [queueEntryIds] using hne
      · simpa [queueEntryIds] using hne.symm
    · rcases hids z hz with rfl | rfl
      · exact not_mem_drop (L := L) (List.mem_of_mem_filter he)
      · exact not_mem_drop he
  have hpush : (((L.drop a).drop b).push
      (if a < b then QueueEntry.party a b else .party b a)).Sane B A := ⟨hL.seats, hslots⟩
  exact (hpush.cleared.alter_cleared fun s hs => hs.huntWith hab).alter_cleared
    fun s hs => hs.huntWith fun h => hab h.symm

/-- Two waiting seats become a pair; two that do not both wait stay. -/
theorem pair (hL : L.Sane B A) (hab : a = b → B.loops) : (L.pair a b).Sane B A := by
  unfold Lobby.pair
  split
  · refine (((hL.drop a).drop b).alter_any ?_).alter_any ?_
    · exact fun s hs => hs.pairWith hab
    · exact fun s hs => hs.pairWith fun h => hab h.symm
  · exact hL

theorem call (hL : L.Sane B A) (hab : B.calls a b) (hba : B.calls b a) :
    (L.call a b).Sane B A :=
  (hL.alter_any fun _ _ => .callWith hab).alter_any fun _ _ => .callWith hba

/-- The members of a new session are distinct, as far as it matters. -/
def Unrepeated (B : Bounds) (l : List ConnId) : Prop := ¬ B.loops → l.Nodup

theorem Unrepeated.refutes {l : List ConnId} {p : Prop} (hd : Unrepeated B l) (h : l.Nodup → ¬ p)
    (hp : p) : B.loops := by
  by_contra hn
  exact h (hd hn) hp

theorem trio {s : ConnId} (hL : L.Sane B A) (hd : Unrepeated B [s, a, b]) :
    (L.trio s a b).Sane B (Cleared A [b, a, s]) := by
  have hdrop := (((hL.drop s).drop a).drop b).cleared
  refine ((hdrop.alter_cleared fun q hq => ?_).alter_cleared fun q hq => ?_).alter_cleared
    fun q hq => ?_
  · exact hq.join (by simp) (hd.refutes (by grind)) (by simp) (.inl rfl)
  · exact hq.join (by simp) (hd.refutes (by grind)) (hd.refutes (by grind)) (.inl rfl)
  · exact hq.join (by simp) (hd.refutes (by grind)) (hd.refutes (by grind)) (.inl rfl)

theorem duo {a1 a2 b1 b2 : ConnId} (hL : L.Sane B A) (hd : Unrepeated B [a1, a2, b1, b2]) :
    (L.duo a1 a2 b1 b2).Sane B A := by
  refine (((hL.alter_any fun q hq => ?_).alter_any fun q hq => ?_).alter_any fun q hq =>
    ?_).alter_any fun q hq => ?_
  · exact hq.join (by simp) (hd.refutes (by grind)) (hd.refutes (by grind)) (.inl rfl)
  · exact hq.join (by simp) (hd.refutes (by grind)) (hd.refutes (by grind)) (.inl rfl)
  · exact hq.join (by simp) (hd.refutes (by grind)) (hd.refutes (by grind)) (.inl rfl)
  · exact hq.join (by simp) (hd.refutes (by grind)) (hd.refutes (by grind)) (.inl rfl)

theorem join3 {c : ConnId} (hL : L.Sane B A) (hd : Unrepeated B [a, b, c]) :
    (L.join3 a b c).Sane B A := by
  refine ((hL.alter_any fun q hq => ?_).alter_any fun q hq => ?_).alter_any fun q hq => ?_
  · exact hq.join (by simp) (hd.refutes (by grind)) (hd.refutes (by grind)) kept_or_none
  · exact hq.join (by simp) (hd.refutes (by grind)) (hd.refutes (by grind)) kept_or_none
  · exact hq.join (by simp) (hd.refutes (by grind)) (by simp) kept_or_none

theorem join4 {c d : ConnId} (hL : L.Sane B A) (hd : Unrepeated B [a, b, c, d]) :
    (L.join4 a b c d).Sane B A := by
  unfold Lobby.join4
  dsimp only
  split
  case isFalse => exact hL
  refine (((hL.alter_any fun q hq => ?_).alter_any fun q hq => ?_).alter_any fun q hq =>
    ?_).alter_any fun q hq => ?_
  · exact hq.join (by simp) (hd.refutes (by grind)) (hd.refutes (by grind)) kept_or_none
  · exact hq.join (by simp) (hd.refutes (by grind)) (hd.refutes (by grind)) kept_or_none
  · exact hq.join (by simp) (hd.refutes (by grind)) (hd.refutes (by grind)) kept_or_none
  · exact hq.join (by simp) (hd.refutes (by grind)) (by simp) kept_or_none

-- ================================================================= leaving

/-- A connection without a mate of itself. -/
theorem mate_ne (hL : L.Sane B A) {p : ConnId} (hp : L.partyWithOf a = some p) :
    a = p → B.loops := by
  rintro rfl
  obtain ⟨s, hs, hm⟩ := Option.bind_eq_some_iff.mp hp
  exact (hL.seats a s hs).mate hm

theorem unmatchOne (hL : L.Sane B A) (y : ConnId) :
    (L.unmatchOne y).Sane B (Cleared A [y]) := by
  have hout : ((L.drop y).alter y Seat.unmatch).Sane B (Cleared A [y]) :=
    (hL.drop y).cleared.alter_cleared fun s hs => hs.unmatch
  unfold Lobby.unmatchOne
  dsimp only
  cases hp : L.partyWithOf y with
  | none => exact hout
  | some p =>
      dsimp only
      split
      · exact (hout.enqueueParty (hL.mate_ne hp)).of_cleared
      · exact hout

theorem forceIdle (hL : L.Sane B A) (y : ConnId) : (L.forceIdle y).Sane B (Cleared A [y]) :=
  (hL.drop y).cleared.alter_cleared fun _ _ => .free

theorem hangUp (hL : L.Sane B A) (y : ConnId) : (L.hangUp y).Sane B (Cleared A [y]) :=
  (hL.cleared.alter_cleared fun _ _ => .free).drop y

theorem endFriendCall (hL : L.Sane B A) (y : ConnId) : (L.endFriendCall y).Sane B A := by
  unfold Lobby.endFriendCall
  split
  · exact ((hL.hangUp y).hangUp _).of_cleared.of_cleared
  · exact (hL.hangUp y).of_cleared

/-- Both seats are rewritten, whether or not both are there to be paired. -/
theorem collapse (hL : L.Sane B A) (hab : a = b → B.loops) :
    (L.collapse a b).Sane B (Cleared A [b, a]) := by
  have hreset : ∀ y, ({ Seat.free with phase := .waiting } : Seat).Sane B False y := fun y =>
    (Seat.Sane.free (a := False)).rephase (by simp)
  refine Sane.pair (.alter_cleared (.alter_cleared ((hL.drop a).drop b).cleared ?_) ?_) hab
  · exact fun _ _ => hreset a
  · exact fun _ _ => hreset b

theorem unmate (hL : L.Sane B A) (m y : ConnId) : (L.unmate m y).Sane B A :=
  hL.alter_any fun _ hs => hs.loosen kept_or_none kept_or_none hs.faced

theorem pruneAll (o : ConnId → IterOrder ConnId) (y : ConnId) (l : List ConnId) :
    ∀ {L : Lobby} {A : ConnId → Prop}, L.Sane B A →
      (L.pruneAll o y l).Sane B fun z => A z ∨ z ∈ l := by
  induction l with
  | nil => exact fun hL => hL.mono fun _ h => .inl h
  | cons p l ih =>
      intro L A hL
      have hp : (L.alter p (·.prune (o p) y)).Sane B fun z => A z ∨ z = p :=
        hL.alter (fun s _ hs => (hs.prune (o p) y).mono fun _ => .inr rfl) fun _ _ h => .inl h
      refine (ih hp).mono fun z hz => ?_
      rcases hz with (hz | rfl) | hz
      · exact .inl hz
      · exact .inr List.mem_cons_self
      · exact .inr (List.mem_cons_of_mem _ hz)

theorem idleAll (l : List ConnId) :
    ∀ {L : Lobby} {A : ConnId → Prop}, L.Sane B A →
      (l.foldl Lobby.forceIdle L).Sane B (Cleared A l) := by
  induction l with
  | nil => exact fun hL => hL.cleared
  | cons p l ih =>
      intro L A hL
      refine (ih (hL.forceIdle p)).mono fun z hz => ⟨hz.1.1, fun hm => ?_⟩
      rcases List.mem_cons.mp hm with rfl | hm
      · exact hz.1.2 List.mem_cons_self
      · exact hz.2 hm

/-- Everybody left of a party session is rewritten. -/
theorem keepStrangers {m : ConnId} {l : List ConnId} (hnd : (m :: l).Nodup)
    (hL : L.Sane B fun y => A y ∨ y ∈ m :: l) : (L.keepStrangers m l).Sane B A := by
  have hm : ∀ y ∈ l, m = y → B.loops := by
    rintro y hy rfl
    exact absurd hy (List.nodup_cons.mp hnd).1
  unfold Lobby.keepStrangers
  split
  · have hempty : ∀ s : Seat, s.Sane B (Cleared (fun y => A y ∨ y ∈ [m]) [] m) m →
        ({ Seat.free with friendCall := s.friendCall } : Seat).Sane B False m :=
      fun s hs => hs.empty (by simp [Seat.free]) (.inl rfl) (.inr rfl)
    refine ((hL.cleared.alter_cleared hempty).drop m).mono fun y hy => ?_
    exact hy.1.resolve_right hy.2
  · next s =>
    refine (hL.collapse (hm s List.mem_cons_self)).mono fun y hy => hy.1.resolve_right ?_
    simpa [or_comm] using hy.2
  · next o0 o1 extra =>
    split
    · have hd : Unrepeated B [m, o0, o1] := fun _ => hnd.sublist (by simp)
      refine ((hL.idleAll extra).trio hd).mono fun y hy => hy.1.1.resolve_right ?_
      have h1 := hy.1.2
      have h2 := hy.2
      simp only [List.mem_cons, List.not_mem_nil, or_false, not_or] at h2 ⊢
      exact ⟨h2.2.2, h2.2.1, h2.1, h1⟩
    · refine ((hL.idleAll (o1 :: extra)).collapse (hm o0 List.mem_cons_self)).mono fun y hy =>
        hy.1.1.resolve_right ?_
      have h1 := hy.1.2
      have h2 := hy.2
      simp only [List.mem_cons, List.not_mem_nil, or_false, not_or] at h1 h2 ⊢
      exact ⟨h2.2, h2.1, h1.1, h1.2⟩

theorem leaveMate (o : ConnId → IterOrder ConnId) (hL : L.Sane B A) (y m : ConnId)
    (ps : Finset ConnId) : (L.leaveMate o y m ps).Sane B A := by
  have hnd : (m :: L.strangers (o y) m ps).Nodup := by
    refine List.nodup_cons.mpr ⟨?_, ((o y).nodup_run ps).filter _⟩
    simp [Lobby.strangers]
  refine Sane.keepStrangers hnd (((hL.pruneAll o y _).unmate m y).mono fun z hz => ?_)
  rcases hz with hz | hz
  · exact .inl hz
  · exact .inr (by simpa [or_comm] using hz)

/-- What the search writes into the two seats, the party slot overwrites. -/
theorem huntAgain_eq (y a b : ConnId) : L.huntAgain y a b = L.enqueueParty a b := by
  refine ext_seat (fun z => ?_) rfl
  simp only [Lobby.huntAgain, Lobby.enqueueParty, seat_alter, seat_push, seat_drop]
  by_cases hza : z = a
  · by_cases hzb : z = b
    · simp only [hza, ← hzb, if_true, Option.map_map]
      rfl
    · simp only [hza, if_true, if_neg (hza ▸ hzb), Option.map_map]
      rfl
  · by_cases hzb : z = b
    · simp only [hzb, if_true, if_neg (hzb ▸ hza), Option.map_map]
      rfl
    · simp only [if_neg hza, if_neg hzb]

/-- A searching mate of a leaver goes idle. -/
theorem dissolve (hL : L.Sane B A) (y m : ConnId) : (L.dissolve y m).Sane B A := by
  refine (hL.alter_any fun s hs => hs.loosen (.inr rfl) kept_or_none fun hm => ?_).drop m
  split at hm
  · cases hm
  · exact hs.faced hm

theorem placeAlone (hL : L.Sane B A) (y : ConnId) : (L.placeAlone y).Sane B (Cleared A [y]) :=
  (((hL.drop y).cleared.alter_cleared fun _ hs => hs.alone_seat)).enqueueSolo y

theorem placeAll (l : List ConnId) :
    ∀ {L : Lobby}, L.Sane B A → (l.foldl Lobby.placeAlone L).Sane B A := by
  induction l with
  | nil => exact id
  | cons p l ih => exact fun hL => ih (hL.placeAlone p).of_cleared

/-- A friend mate stays in front of its friend while the party searches. -/
theorem requeueSide (o : IterOrder ConnId) (hL : L.Sane B A) (y : ConnId) :
    (L.requeueSide o y).Sane B A := by
  refine (hL.placeAll _).alter_any fun s hs => ?_
  obtain ⟨phase, partner, peers, friendCall, mate⟩ := s
  cases friendCall with
  | none => exact hs
  | some f =>
      refine Seat.Sane.facing (Finset.mem_singleton_self f) (by simp) (fun h => ?_) hs.mate
        hs.calls
      obtain rfl := Finset.mem_singleton.mp h
      exact B.loops_of_calls _ (hs.calls _ rfl)

/-- The partner of an adoption points at the new connection where it pointed at
the old one. -/
theorem repoint {s : Seat} {a : Prop} {old new : ConnId} (hs : s.Sane B a x) (hne : x ≠ new)
    (hcalls : B.calls x old → B.calls x new) :
    ({ s with
      partner := if s.partner = some old then some new else s.partner
      peers := if old ∈ s.peers then insert new (s.peers.erase old) else s.peers
      friendCall := if s.friendCall = some old then some new else s.friendCall } :
        Seat).Sane B a x where
  peers h := by
    dsimp only at h
    split at h
    · rcases Finset.mem_insert.mp h with h | h
      · exact absurd h hne
      · exact hs.peers (Finset.mem_of_mem_erase h)
    · exact hs.peers h
  mate := hs.mate
  calls f hf := by
    dsimp only at hf
    split at hf
    · next hold =>
      cases hf
      exact hcalls (hs.calls old hold)
    · exact hs.calls f hf
  partner p hp := by
    dsimp only at hp ⊢
    split at hp
    · next hold =>
      cases hp
      rw [if_pos (hs.partner old hold)]
      exact Finset.mem_insert_self _ _
    · next hold =>
      have hmem := hs.partner p hp
      split
      · refine Finset.mem_insert_of_mem (Finset.mem_erase.mpr ⟨?_, hmem⟩)
        rintro rfl
        exact hold hp
      · exact hmem
  alone h := by
    dsimp only at h ⊢
    split at h
    · cases h
    · rw [hs.alone h]
      simp
  few := by
    dsimp only
    split
    · next hold =>
      refine le_trans (Finset.card_insert_le _ _) ?_
      rw [Finset.card_erase_add_one hold]
      exact hs.few
    · exact hs.few
  faced hm h := by
    dsimp only at h
    split at h
    · cases h
    · exact hs.faced hm h

/-- A held seat moves to a new connection. -/
theorem adopt (hL : L.Sane B A) {old new partner : ConnId} {held : Seat}
    (hheld : held.Sane B (A old) old) (hpartner : held.partner = some partner)
    (hne : partner ≠ new) (hcalls : B.calls partner old → B.calls partner new)
    (hheir : ∀ f, held.friendCall = some f → B.calls new f) :
    (L.adopt old new partner held).Sane B A := by
  refine ((hL.alter_any fun s hs => repoint hs hne hcalls).alter_any fun s hs => ?_).alter_any
    fun _ _ => .free
  refine Seat.Sane.facing (Finset.mem_erase.mpr ⟨hne, hheld.partner partner hpartner⟩)
    (le_trans (Finset.card_le_card (Finset.erase_subset _ _)) hheld.few) (fun h => ?_) hs.mate
    hheir
  exact absurd h (Finset.notMem_erase new _)

/-- A federated match has nobody of this hub in it, and needs the excuse. -/
theorem federate (hL : L.Sane B A) {y : ConnId} (hy : A' y) (hA : ∀ z, A z → A' z) :
    (L.federate y).Sane B A' := by
  refine (hL.drop y).alter (fun s _ hs => ?_) fun z _ hz => hA z hz
  exact { peers := by simp
          mate := by simp
          calls := by simp
          partner := by simp
          alone := fun _ => rfl
          few := by simp
          faced := fun _ _ => hy }

end Lobby.Sane

end Ruletka
