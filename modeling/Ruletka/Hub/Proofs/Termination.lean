/-
When the hub comes back.

`try_match` sweeps expired holds, a removal in the sweep may call
`try_match`, and that call sweeps again. The measure is the number of
expired connections: each removal erases one before it recurses, except the
removal of a linked third (`linkedThird`), which recurses first.

So the question is whether the sweep can meet a linked third. A removal can
make one: when one of two party members leaves a 2v2, the other alone faces
the remaining pair. `handsOver` is that case with an expired mate. Every
other rewrite of a seat leaves it tame (`Seat.Tame`), and `Calm` carries
that across a removal.
-/
import Ruletka.Hub.Run
import Ruletka.Hub.Proofs.Handlers
import Ruletka.Hub.Proofs.Lobby

namespace Ruletka

/-- The seat is neither the third of a trio nor the party half of a 2v2. -/
def Seat.Tame (s : Seat) : Prop :=
  ¬ (s.phase = .matched ∧ s.partyWith = none ∧ s.peers.card = 2)
    ∧ ∀ m, s.partyWith = some m → (s.peers.erase m).card ≤ 1

theorem Seat.Tame.of_card {s : Seat} (hs : s.peers.card ≤ 1) : s.Tame :=
  ⟨fun h => by rw [h.2.2] at hs; omega,
    fun m _ => (Finset.card_le_card (Finset.erase_subset m _)).trans hs⟩

namespace Lobby

variable {L L₁ : Lobby}

theorem partyLinked_iff {a b : ConnId} :
    L.partyLinked a b = true ↔ L.partyWithOf a = some b ∨ L.partyWithOf b = some a := by
  simp [partyLinked]

theorem partyLinked_symm {a b : ConnId} (h : L.partyLinked a b = true) :
    L.partyLinked b a = true := by
  rw [partyLinked_iff] at h ⊢
  exact h.symm

/-- The third of a linked pair that is there. -/
def LinkedThird (L : Lobby) (x : ConnId) : Prop :=
  ∃ s, L.seat x = some s ∧ s.phase = .matched ∧ s.partyWith = none ∧ s.peers.card = 2
    ∧ (∀ a ∈ s.peers, L.has a = true)
    ∧ ∃ a ∈ s.peers, ∃ b ∈ s.peers, a ≠ b ∧ L.partyLinked a b = true

/-- A party member in a 2v2 whose mate is among `E`: on its leaving the
mate becomes a linked third. -/
def HandsOver (L : Lobby) (E : Finset ConnId) (x : ConnId) : Prop :=
  ∃ s m, L.seat x = some s ∧ s.partyWith = some m ∧ m ∈ E
    ∧ ∃ a ∈ s.peers, ∃ b ∈ s.peers, a ≠ b ∧ a ≠ m ∧ b ≠ m
      ∧ L.has a = true ∧ L.has b = true ∧ L.partyLinked a b = true

-- ==================================================================== calm

/-- From `L` to `L'` nobody came, no party was formed, and every rewritten
seat of `E` is tame. -/
structure Calm (E : Finset ConnId) (L L' : Lobby) : Prop where
  shrinks : ∀ y, L'.has y = true → L.has y = true
  links : ∀ a b, L'.partyWithOf a = some b → L.partyLinked a b = true
  seats : ∀ z ∈ E, ∀ s', L'.seat z = some s' → s'.Tame ∨ ∃ s, L.seat z = some s
    ∧ s'.phase = s.phase ∧ s'.partyWith = s.partyWith ∧ s'.peers = s.peers

namespace Calm

variable {E : Finset ConnId}

theorem of_seat (hs : ∀ y, L₁.seat y = L.seat y) : Calm E L L₁ where
  shrinks y hy := by
    rw [has, hs] at hy
    exact hy
  links a b hab := by
    rw [partyWithOf, hs] at hab
    exact partyLinked_iff.mpr (Or.inl hab)
  seats z _ s' hs' := by
    rw [hs] at hs'
    exact Or.inr ⟨s', hs', rfl, rfl, rfl⟩

theorem refl : Calm E L L := of_seat fun _ => rfl

theorem linked (hc : Calm E L L₁) {a b : ConnId} (h : L₁.partyLinked a b = true) :
    L.partyLinked a b = true := by
  rcases partyLinked_iff.mp h with h | h
  · exact hc.links a b h
  · exact partyLinked_symm (hc.links b a h)

theorem trans {L₂ : Lobby} (h₁ : Calm E L L₁) (h₂ : Calm E L₁ L₂) : Calm E L L₂ where
  shrinks y hy := h₁.shrinks y (h₂.shrinks y hy)
  links a b hab := h₁.linked (h₂.links a b hab)
  seats z hz s₂ hs₂ := by
    rcases h₂.seats z hz s₂ hs₂ with ht | ⟨s₁, hs₁, hp, hw, hq⟩
    · exact Or.inl ht
    · rcases h₁.seats z hz s₁ hs₁ with ht | ⟨s, hs, hp', hw', hq'⟩
      · left
        unfold Seat.Tame
        rw [hp, hw, hq]
        exact ht
      · exact Or.inr ⟨s, hs, hp.trans hp', hw.trans hw', hq.trans hq'⟩

/-- A calm change of all but `S`, and tame seats in `S`. -/
theorem absorb {S : Finset ConnId} (hc : Calm (E \ S) L L₁)
    (ht : ∀ z ∈ S, z ∈ E → ∀ s', L₁.seat z = some s' → s'.Tame) : Calm E L L₁ where
  shrinks := hc.shrinks
  links := hc.links
  seats z hz s' hs' := by
    by_cases hS : z ∈ S
    · exact Or.inl (ht z hS hz s' hs')
    · exact hc.seats z (Finset.mem_sdiff.mpr ⟨hz, hS⟩) s' hs'

variable (hc : Calm E L L₁)

include hc

theorem drop (x : ConnId) : Calm E L (L₁.drop x) := hc.trans (of_seat fun _ => rfl)

theorem push (e : QueueEntry) : Calm E L (L₁.push e) := hc.trans (of_seat fun _ => rfl)

theorem leave (x : ConnId) : Calm E L (L₁.leave x) := by
  refine hc.trans ⟨fun y hy => ?_, fun a b hab => ?_, fun z _ s' hs' => ?_⟩
  · unfold has at hy ⊢
    rw [seat_leave] at hy
    split at hy
    · cases hy
    · exact hy
  · unfold partyWithOf at hab
    rw [seat_leave] at hab
    split at hab
    · cases hab
    · exact partyLinked_iff.mpr (Or.inl hab)
  · rw [seat_leave] at hs'
    split at hs'
    · cases hs'
    · exact Or.inr ⟨s', hs', rfl, rfl, rfl⟩

/-- The rewrite of one seat: its party is none, the old one, or one of `L`;
and it is tame if it counts. -/
theorem alter {x : ConnId} {f : Seat → Seat}
    (hparty : ∀ s, (f s).partyWith = none ∨ (f s).partyWith = s.partyWith
      ∨ ∃ m, (f s).partyWith = some m ∧ L.partyLinked x m = true)
    (htame : x ∈ E → ∀ s, L₁.seat x = some s → (f s).Tame) :
    Calm E L (L₁.alter x f) where
  shrinks y hy := by
    apply hc.shrinks
    unfold has at hy ⊢
    rw [seat_alter] at hy
    split at hy
    · rwa [Option.isSome_map] at hy
    · exact hy
  links a b hab := by
    unfold partyWithOf at hab
    rw [seat_alter] at hab
    split at hab
    · next hax =>
      subst hax
      cases hs : L₁.seat a with
      | none => rw [hs] at hab; cases hab
      | some s =>
        rw [hs, Option.map_some, Option.bind_some] at hab
        rcases hparty s with hp | hp | ⟨m, hp, hm⟩
        · rw [hp] at hab
          cases hab
        · apply hc.links a b
          rw [partyWithOf, hs, Option.bind_some, ← hp, hab]
        · rw [hp] at hab
          cases hab
          exact hm
    · exact hc.links a b hab
  seats z hz s' hs' := by
    rw [seat_alter] at hs'
    split at hs'
    · next hzx =>
      subst hzx
      obtain ⟨s, hs, rfl⟩ := Option.map_eq_some_iff.mp hs'
      exact Or.inl (htame hz s hs)
    · exact hc.seats z hz s' hs'

-- ======================================================= the operations

theorem enqueueParty {a b : ConnId} (hl : L.partyLinked a b = true) :
    Calm E L (L₁.enqueueParty a b) := by
  have tame : ∀ (s : Seat) (m : ConnId), (s.huntWith m).Tame := fun s m =>
    .of_card (by simp [Seat.huntWith])
  unfold Lobby.enqueueParty
  refine ((((hc.drop a).drop b).push _).alter (fun s => ?_) fun _ s _ => tame s b).alter
    (fun s => ?_) fun _ s _ => tame s a
  · exact Or.inr (Or.inr ⟨b, rfl, hl⟩)
  · exact Or.inr (Or.inr ⟨a, rfl, partyLinked_symm hl⟩)

theorem pair (a b : ConnId) : Calm E L (L₁.pair a b) := by
  have tame : ∀ (s : Seat) (m : ConnId), (s.pairWith m).Tame := fun s m =>
    .of_card (by simp [Seat.pairWith])
  unfold Lobby.pair
  split
  · exact (((hc.drop a).drop b).alter (f := (·.pairWith b)) (fun s => Or.inr (Or.inl rfl))
      fun _ s _ => tame s b).alter (f := (·.pairWith a)) (fun s => Or.inr (Or.inl rfl))
        fun _ s _ => tame s a
  · exact hc

omit hc in
theorem tame_free : Seat.free.Tame := .of_card (by simp [Seat.free])

theorem collapse (a b : ConnId) : Calm E L (L₁.collapse a b) := by
  have tame : ({ Seat.free with phase := .waiting } : Seat).Tame :=
    .of_card (by simp [Seat.free])
  unfold Lobby.collapse
  exact ((((hc.drop a).drop b).alter (fun _ => Or.inl rfl) fun _ _ _ => tame).alter
    (fun _ => Or.inl rfl) fun _ _ _ => tame).pair a b

theorem forceIdle (x : ConnId) : Calm E L (L₁.forceIdle x) :=
  (hc.drop x).alter (fun _ => Or.inl rfl) fun _ _ _ => tame_free

theorem foldl {f : Lobby → ConnId → Lobby}
    (hf : ∀ {L₁}, Calm E L L₁ → ∀ x, Calm E L (f L₁ x)) (l : List ConnId) :
    Calm E L (l.foldl f L₁) := by
  induction l generalizing L₁ with
  | nil => exact hc
  | cons x l ih => exact ih (hf hc x)

theorem hangUp (x : ConnId) : Calm E L (L₁.hangUp x) :=
  (hc.alter (fun _ => Or.inl rfl) fun _ _ _ => tame_free).drop x

theorem endFriendCall (x : ConnId) : Calm E L (L₁.endFriendCall x) := by
  unfold Lobby.endFriendCall
  split
  · exact (hc.hangUp x).hangUp _
  · exact hc.hangUp x

theorem unmatchOne (x : ConnId) : Calm E L (L₁.unmatchOne x) := by
  have hu : Calm E L ((L₁.drop x).alter x Seat.unmatch) := by
    exact (hc.drop x).alter (fun s => Or.inr (Or.inl rfl)) fun _ s _ =>
      .of_card (by simp [Seat.unmatch])
  unfold Lobby.unmatchOne
  dsimp only
  split
  · next p hp =>
    split
    · exact hu.enqueueParty (hc.links x p hp)
    · exact hu
  · exact hu

omit hc in
theorem tame_join (q : Seat) (s m : ConnId) : (q.join [s, m] (some m)).Tame := by
  refine ⟨fun h => Option.some_ne_none m h.2.1, fun m' hm' => ?_⟩
  cases hm'
  refine (Finset.card_le_card (t := {s}) fun y hy => ?_).trans (by simp)
  simp only [Seat.join, List.toFinset_cons, List.toFinset_nil, Finset.mem_erase,
    Finset.mem_insert, Finset.notMem_empty, or_false] at hy
  rcases hy.2 with rfl | rfl
  · exact Finset.mem_singleton_self _
  · exact absurd rfl hy.1

/-- A 1v2 of a linked pair, when the third does not count. -/
theorem trio {s a b : ConnId} (hs : s ∉ E) (hl : L.partyLinked a b = true) :
    Calm E L (L₁.trio s a b) := by
  unfold Lobby.trio
  refine (((((hc.drop s).drop a).drop b).alter (fun _ => Or.inl rfl)
    fun h => absurd h hs).alter (fun q => ?_) fun _ q _ => tame_join q s b).alter
    (fun q => ?_) fun _ q _ => tame_join q s a
  · exact Or.inr (Or.inr ⟨b, rfl, hl⟩)
  · exact Or.inr (Or.inr ⟨a, rfl, partyLinked_symm hl⟩)

/-- The pair of a trio whose third left. -/
theorem huntAgain {x a b : ConnId} (hl : L.partyLinked a b = true) :
    Calm E L (L₁.huntAgain x a b) := by
  have search : ∀ (L₂ : Lobby) (y : ConnId), Calm (E \ {a, b}) L L₂ → y ∈ ({a, b} : Finset ConnId) →
      Calm (E \ {a, b}) L (L₂.alter y fun s =>
        { s with peers := s.peers.erase x, partner := s.partyWith, phase := .waiting }) :=
    fun L₂ y h₂ hy => h₂.alter (fun _ => Or.inr (Or.inl rfl)) fun hyE =>
      absurd hy (Finset.mem_sdiff.mp hyE).2
  have hc' : Calm (E \ {a, b}) L L₁ :=
    ⟨hc.shrinks, hc.links, fun z hz => hc.seats z (Finset.sdiff_subset hz)⟩
  refine ((search _ b (search _ a hc' (by simp)) (by simp)).enqueueParty hl).absorb
    (S := {a, b}) fun z hz _ s' hs' => ?_
  simp only [Lobby.huntAgain, Lobby.enqueueParty, seat_alter, seat_push, seat_drop] at hs'
  apply Seat.Tame.of_card
  rcases Finset.mem_insert.mp hz with rfl | hz
  · by_cases hzb : z = b
    · simp [hzb] at hs'
      obtain ⟨q, -, rfl⟩ := hs'
      simp [Seat.huntWith]
    · simp [hzb] at hs'
      obtain ⟨q, -, rfl⟩ := hs'
      simp [Seat.huntWith]
  · rw [Finset.mem_singleton.mp hz] at hs'
    simp at hs'
    obtain ⟨q, -, rfl⟩ := hs'
    simp [Seat.huntWith]

omit hc in
/-- An exempt seat that is tame is exempt no more. -/
theorem settle {S : Finset ConnId} {x : ConnId} (hc : Calm (E \ insert x S) L L₁)
    (hx : x ∈ E → ∀ s, L₁.seat x = some s → s.Tame) : Calm (E \ S) L L₁ where
  shrinks := hc.shrinks
  links := hc.links
  seats z hz s' hs' := by
    by_cases hzx : z = x
    · subst hzx
      exact Or.inl (hx (Finset.mem_sdiff.mp hz).1 s' hs')
    · refine hc.seats z ?_ s' hs'
      simp only [Finset.mem_sdiff, Finset.mem_insert, not_or] at hz ⊢
      exact ⟨hz.1, hzx, hz.2⟩

omit hc in
theorem idleAll {S : Finset ConnId} (l : List ConnId) :
    ∀ {L₁ : Lobby}, Calm (E \ (l.toFinset ∪ S)) L L₁ →
      Calm (E \ S) L (l.foldl Lobby.forceIdle L₁) := by
  induction l with
  | nil => intro L₁ hc; simpa using hc
  | cons x l ih =>
      intro L₁ hc
      rw [List.foldl_cons]
      apply ih
      rw [List.toFinset_cons, Finset.insert_union] at hc
      refine (hc.forceIdle x).settle fun _ s hs => ?_
      simp only [Lobby.forceIdle, seat_alter, seat_drop, if_true] at hs
      obtain ⟨-, -, rfl⟩ := Option.map_eq_some_iff.mp hs
      exact tame_free

omit hc in
theorem collapse_card {a b z : ConnId} (hz : z = a ∨ z = b) {s : Seat}
    (hs : (L₁.collapse a b).seat z = some s) : s.peers.card ≤ 1 := by
  have hcard : ∀ y, y = a ∨ y = b → ∀ q, ((((L₁.drop a).drop b).alter a fun _ =>
      { Seat.free with phase := .waiting }).alter b fun _ =>
      { Seat.free with phase := .waiting }).seat y = some q → q.peers.card ≤ 1 := by
    intro y hy q hq
    rw [seat_alter] at hq
    split at hq
    · obtain ⟨-, -, rfl⟩ := Option.map_eq_some_iff.mp hq
      simp [Seat.free]
    · next hyb =>
      rw [seat_alter, if_pos (hy.resolve_right hyb)] at hq
      obtain ⟨-, -, rfl⟩ := Option.map_eq_some_iff.mp hq
      simp [Seat.free]
  unfold Lobby.collapse Lobby.pair at hs
  dsimp only at hs
  split at hs
  · rw [seat_alter] at hs
    split at hs
    · obtain ⟨q, -, rfl⟩ := Option.map_eq_some_iff.mp hs
      simp [Seat.pairWith]
    · next hzb =>
      rw [seat_alter, if_pos (hz.resolve_right hzb)] at hs
      obtain ⟨q, -, rfl⟩ := Option.map_eq_some_iff.mp hs
      simp [Seat.pairWith]
  · exact hcard z hz s hs

omit hc in
theorem collapseBoth {S : Finset ConnId} {a b : ConnId}
    (hc : Calm (E \ insert a (insert b S)) L L₁) : Calm (E \ S) L (L₁.collapse a b) :=
  ((hc.collapse a b).settle fun _ _ hs => .of_card (collapse_card (Or.inl rfl) hs)).settle
    fun _ _ hs => .of_card (collapse_card (Or.inr rfl) hs)

omit hc in
theorem trio_tame {s a b z : ConnId} (hz : z = a ∨ z = b) {q : Seat}
    (hq : (L₁.trio s a b).seat z = some q) : q.Tame := by
  unfold Lobby.trio at hq
  rw [seat_alter] at hq
  split at hq
  · obtain ⟨q', -, rfl⟩ := Option.map_eq_some_iff.mp hq
    exact tame_join q' s a
  · next hzb =>
    rw [seat_alter, if_pos (hz.resolve_right hzb)] at hq
    obtain ⟨q', -, rfl⟩ := Option.map_eq_some_iff.mp hq
    exact tame_join q' s b

omit hc in
/-- The mate and the strangers of a leaver all end up tame, unless an exempt
mate has to face a linked pair. -/
theorem keepStrangers {m : ConnId} {l : List ConnId}
    (hm : m ∈ E → ∀ a b rest, l = a :: b :: rest → L.partyLinked a b = true →
      L₁.has a = true → L₁.has b = true → False)
    (hc : Calm (E \ insert m l.toFinset) L L₁) : Calm E L (L₁.keepStrangers m l) := by
  have hE : Calm (E \ ∅) L (L₁.keepStrangers m l) := by
    unfold Lobby.keepStrangers
    split
    · refine Calm.settle ((hc.alter (fun _ => Or.inl rfl) fun hmE => ?_).drop m)
        fun _ s hs => ?_
      · exact absurd (Finset.mem_insert_self ..) (Finset.mem_sdiff.mp hmE).2
      · simp only [seat_drop, seat_alter, if_true] at hs
        obtain ⟨q, -, rfl⟩ := Option.map_eq_some_iff.mp hs
        exact .of_card (by simp [Seat.free])
    · exact collapseBoth (by simpa using hc)
    · next o0 o1 extra =>
      have hc' : Calm (E \ (extra.toFinset ∪ {m, o0, o1})) L L₁ := by
        convert hc using 2
        ext y
        simp
      split
      · next hlink =>
        have hmE : m ∉ E := fun hmE =>
          hm hmE o0 o1 extra rfl (hc.linked hlink.1) hlink.2.1 hlink.2.2.1
        have htrio := (idleAll extra hc').trio (s := m) (a := o0) (b := o1)
          (fun h => hmE (Finset.mem_sdiff.mp h).1) (hc.linked hlink.1)
        exact ((htrio.settle fun h => absurd h hmE).settle fun _ _ hs =>
          trio_tame (Or.inl rfl) hs).settle fun _ _ hs => trio_tame (Or.inr rfl) hs
      · apply collapseBoth
        apply idleAll
        convert hc using 2
        ext y
        simp
        tauto
  simpa using hE

omit hc in
theorem pruneAll {S : Finset ConnId} (o : ConnId → IterOrder ConnId) (x : ConnId)
    (l : List ConnId) (hl : ∀ p ∈ l, p ∈ S) :
    ∀ {L₁ : Lobby}, Calm (E \ S) L L₁ → Calm (E \ S) L (L₁.pruneAll o x l) := by
  induction l with
  | nil => exact fun hc => hc
  | cons p l ih =>
      intro L₁ hc
      refine ih (fun q hq => hl q (List.mem_cons_of_mem p hq))
        (hc.alter (fun _ => Or.inr (Or.inl rfl)) fun hp => ?_)
      exact absurd (hl p List.mem_cons_self) (Finset.mem_sdiff.mp hp).2

omit hc in
/-- A party member leaves. -/
theorem leaveMate (o : ConnId → IterOrder ConnId) {x m : ConnId} {s : Seat}
    (hs : L.seat x = some s) (hm : s.partyWith = some m) (hx : ¬ L.HandsOver E x) :
    Calm E L (L.leaveMate o x m s.peers) := by
  unfold Lobby.leaveMate
  dsimp only
  have hmem : ∀ p ∈ L.strangers (o x) m s.peers, p ∈ s.peers ∧ p ≠ m ∧ L.has p = true := by
    intro p hp
    simpa [strangers] using hp
  have hnodup : (L.strangers (o x) m s.peers).Nodup := ((o x).nodup_run s.peers).filter _
  generalize L.strangers (o x) m s.peers = l at hmem hnodup
  refine keepStrangers (fun hmE a b rest hab hl _ _ => hx ?_) ?_
  · subst hab
    obtain ⟨hap, ham, ha⟩ := hmem a (by simp)
    obtain ⟨hbp, hbm, hb⟩ := hmem b (by simp)
    refine ⟨s, m, hs, hm, hmE, a, hap, b, hbp, ?_, ham, hbm, ha, hb, hl⟩
    rintro rfl
    exact (List.nodup_cons.mp hnodup).1 List.mem_cons_self
  · have hprune : Calm (E \ insert m l.toFinset) L (L.pruneAll o x (l ++ [m])) := by
      refine pruneAll o x (l ++ [m]) (fun p hp => ?_) refl
      rcases List.mem_append.mp hp with hp | hp
      · exact Finset.mem_insert_of_mem (List.mem_toFinset.mpr hp)
      · rw [List.mem_singleton.mp hp]
        exact Finset.mem_insert_self ..
    refine hprune.alter (fun q => ?_) fun h =>
      absurd (Finset.mem_insert_self ..) (Finset.mem_sdiff.mp h).2
    dsimp only
    split
    · exact Or.inl rfl
    · exact Or.inr (Or.inl rfl)

omit hc in
theorem leaveKeep (o : ConnId → IterOrder ConnId) {x : ConnId}
    (hx : ¬ L.HandsOver E x) : Calm E L (L.leaveKeep o x).1 := by
  unfold Lobby.leaveKeep
  cases hs : L.seat x with
  | none => exact refl
  | some s =>
    dsimp only
    split
    · next m hm =>
      split
      · exact leaveMate o hs hm hx
      · exact refl
    · split
      · split
        · split
          · next hl => exact refl.huntAgain hl.1
          · split
            · exact refl.collapse _ _
            · exact refl
        · exact refl
      · exact refl

omit hc in
/-- A trio leave that saw to nobody changed nothing, and met no mate. -/
theorem leaveKeep_false {o : ConnId → IterOrder ConnId} {x : ConnId}
    (hf : (L.leaveKeep o x).2 = false) :
    (L.leaveKeep o x).1 = L
      ∧ ∀ s m, L.seat x = some s → s.partyWith = some m → L.has m = false := by
  unfold Lobby.leaveKeep at hf ⊢
  cases hs : L.seat x with
  | none => exact ⟨rfl, fun s m h => by cases h⟩
  | some s =>
    rw [hs] at hf
    dsimp only at hf ⊢
    split
    · next m hm =>
      rw [hm] at hf
      dsimp only at hf
      by_cases hmate : L.has m = true
      · rw [if_pos hmate] at hf
        cases hf
      · rw [if_neg hmate]
        refine ⟨rfl, fun s' m' hs' hm' => ?_⟩
        cases hs'
        rw [hm] at hm'
        cases hm'
        exact Bool.eq_false_iff.mpr hmate
    · next hm =>
      refine ⟨?_, fun s' m' hs' hm' => ?_⟩
      · rw [hm] at hf
        dsimp only at hf
        split
        · next hcard =>
          rw [if_pos hcard] at hf
          split
          · next a b hr =>
            rw [hr] at hf
            dsimp only at hf
            split
            · next hl =>
              rw [if_pos hl] at hf
              cases hf
            · next hl =>
              rw [if_neg hl] at hf
              split
              · next hn =>
                rw [if_pos hn] at hf
                cases hf
              · rfl
          · rfl
        · rfl
      · cases hs'
        rw [hm] at hm'
        cases hm'

theorem releaseOthers (o : IterOrder ConnId) (x : ConnId) {s : Seat}
    (hs : ∀ m, s.partyWith = some m → L.has m = false) :
    Calm E L (L₁.releaseOthers o x s) := by
  unfold Lobby.releaseOthers
  dsimp only
  have hcall : Calm E L (onSome s.friendCall L₁ Lobby.endFriendCall) := by
    cases s.friendCall with
    | none => exact hc
    | some f => exact hc.endFriendCall f
  generalize onSome s.friendCall L₁ Lobby.endFriendCall = L₂ at hcall
  have hparty : Calm E L (onSome s.partyWith L₂ (·.dissolve x ·)) := by
    cases hp : s.partyWith with
    | none => exact hcall
    | some m =>
      -- a mate that is there was seen to by the trio leave
      refine Calm.trans hcall (of_seat fun y => ?_)
      have hgone : L₂.seat m = none := by
        have h₂ : ¬ L₂.has m = true := fun h => by
          have := hcall.shrinks m h
          rw [hs m hp] at this
          cases this
        simpa [has] using h₂
      simp only [onSome, dissolve, seat_drop, seat_alter]
      split
      · next hy => rw [hy, hgone]; rfl
      · rfl
  generalize onSome s.partyWith L₂ (·.dissolve x ·) = L₃ at hparty
  have hpeers : Calm E L ((o.run s.peers).foldl Lobby.unmatchOne L₃) :=
    hparty.foldl (fun h y => h.unmatchOne y) _
  cases s.partner with
  | none => exact hpeers
  | some p =>
      simp only [onSome]
      split
      · exact hpeers
      · exact hpeers.unmatchOne p

omit hc in
/-- A removal is calm, unless the leaver hands a 2v2 over. -/
theorem expel (o : ConnId → IterOrder ConnId) {x : ConnId}
    (hx : ¬ L.HandsOver E x) : Calm E L (L.expel o x) := by
  unfold Lobby.expel
  cases hs : L.seat x with
  | none => exact refl.drop x
  | some s =>
    dsimp only
    have hkeep : Calm E L ((L.drop x).leaveKeep o x).1 :=
      (refl.drop x).trans (leaveKeep o hx)
    refine Calm.leave ?_ x
    split
    · exact hkeep
    · next hf =>
      have hgone := (leaveKeep_false (Bool.eq_false_iff.mpr hf)).2
      exact hkeep.releaseOthers (o x) x fun m hm => hgone s m hs hm

end Calm

theorem Calm.linkedThird {E : Finset ConnId} (hc : Calm E L L₁) {z : ConnId} (hz : z ∈ E)
    (h : L₁.LinkedThird z) : L.LinkedThird z := by
  obtain ⟨s', hs', hm, hp, hcard, hthere, a, ha, b, hb, hab, hl⟩ := h
  rcases hc.seats z hz s' hs' with ht | ⟨s, hs, hm', hp', hq⟩
  · exact absurd ⟨hm, hp, hcard⟩ ht.1
  · rw [hq] at hcard hthere ha hb
    exact ⟨s, hs, hm' ▸ hm, hp' ▸ hp, hcard, fun y hy => hc.shrinks y (hthere y hy), a, ha,
      b, hb, hab, hc.linked hl⟩

theorem Calm.handsOver {E E' : Finset ConnId} (hc : Calm E L L₁) (hE : E' ⊆ E) {z : ConnId}
    (hz : z ∈ E) (h : L₁.HandsOver E' z) : L.HandsOver E z := by
  obtain ⟨s', m, hs', hm, hmE, a, ha, b, hb, hab, ham, hbm, hha, hhb, hl⟩ := h
  rcases hc.seats z hz s' hs' with ht | ⟨s, hs, -, hp, hq⟩
  · have htwo : 1 < (s'.peers.erase m).card :=
      Finset.one_lt_card.mpr ⟨a, Finset.mem_erase.mpr ⟨ham, ha⟩, b,
        Finset.mem_erase.mpr ⟨hbm, hb⟩, hab⟩
    exact absurd (ht.2 m hm) (Nat.not_le.mpr htwo)
  · rw [hq] at ha hb
    exact ⟨s, m, hs, hp ▸ hm, hE hmE, a, ha, b, hb, hab, ham, hbm, hc.shrinks a hha,
      hc.shrinks b hhb, hc.linked hl⟩

end Lobby

namespace SimpleHub

variable {h : SimpleHub} {env : Env}

theorem linkedThird_iff {x : ConnId} :
    h.linkedThird x = true ↔ h.lobby.LinkedThird x := by
  unfold linkedThird Lobby.LinkedThird
  rw [Option.any_eq_true]
  simp only [Bool.and_eq_true, decide_eq_true_eq, Option.isNone_iff_eq_none, seat_lobby,
    Option.map_eq_some_iff, has_lobby, partyLinked_lobby]
  constructor
  · rintro ⟨c, hc, ⟨⟨⟨hm, hp⟩, hcard⟩, hthere⟩, a, ha, b, hb, hab, hl⟩
    exact ⟨c.seat, ⟨c, hc, rfl⟩, hm, hp, hcard, hthere, a, ha, b, hb, hab,
      by simp [partyLinked, hl]⟩
  · rintro ⟨_, ⟨c, hc, rfl⟩, hm, hp, hcard, hthere, a, ha, b, hb, hab, hl⟩
    refine ⟨c, hc, ⟨⟨⟨hm, hp⟩, hcard⟩, hthere⟩, ?_⟩
    simp only [partyLinked, Bool.or_eq_true, decide_eq_true_eq] at hl
    rcases hl with hl | hl
    · exact ⟨a, ha, b, hb, hab, hl⟩
    · exact ⟨b, hb, a, ha, hab.symm, hl⟩

variable (h env) in
/-- No connection whose hold ran out is a linked third, and none makes one
of another by leaving. -/
def Sweepable : Prop :=
  ∀ x ∈ h.expired env,
    ¬ h.lobby.LinkedThird x ∧ ¬ h.lobby.HandsOver (h.expired env) x

theorem Sweepable.calm {k : SimpleHub} (hs : h.Sweepable env)
    (hc : Lobby.Calm (h.expired env) h.lobby k.lobby)
    (hE : k.expired env ⊆ h.expired env) : k.Sweepable env := fun x hx =>
  ⟨fun ht => (hs x (hE hx)).1 (hc.linkedThird (hE hx) ht),
    fun ho => (hs x (hE hx)).2 (hc.handsOver hE (hE hx) ho)⟩

theorem Sweepable.expel {x : ConnId} (hs : h.Sweepable env)
    (hx : ¬ h.lobby.HandsOver (h.expired env) x) : (h.expel env x).Sweepable env := by
  refine hs.calm ?_ ?_
  · rw [lobby_expel]
    exact Lobby.Calm.expel env.peerOrder hx
  · rw [expired_expel]
    exact Finset.erase_subset _ _

theorem Sweepable.not_linkedThird {x : ConnId} (hs : h.Sweepable env)
    (hx : x ∈ h.expired env) : h.linkedThird x = false := by
  rw [Bool.eq_false_iff]
  exact fun ht => (hs x hx).1 (linkedThird_iff.mp ht)

-- ==================================================== the sweep comes back

theorem sweepable_of_none (hn : h.expired env = ∅) : h.Sweepable env := by
  intro x hx
  rw [hn] at hx
  exact absurd hx (Finset.notMem_empty x)

theorem run_eq_nil_iff {o : IterOrder ConnId} {s : Finset ConnId} :
    o.run s = [] ↔ s = ∅ := by
  constructor
  · intro h
    ext y
    rw [← o.mem_run, h]
    simp
  · rintro rfl
    exact o.run_empty

/-- A sweepable hub stays so in the nested sweeps, which leave no expired
hold and rename nobody. -/
theorem Sweepable.tryMatch_sheds {k : SimpleHub} {n : Nat} (hs : h.Sweepable env)
    (hk : tryMatch env n h = some k) : k.expired env = ∅ ∧ k.Sheds h := by
  have congr : ∀ {h k : SimpleHub}, k.lobby.seat = h.lobby.seat → k.books = h.books →
      h.Sweepable env → k.Sweepable env := fun {h k} hl hb hs =>
    hs.calm (Lobby.Calm.of_seat fun y => by rw [hl]) (by rw [expired_congr hb])
  refine (tryMatch_induct (P := fun h => h.Sweepable env) ?_ ?_ ?_ ?_ ?_ hs hk).2
  · intro h x hs hx ht
    rw [hs.not_linkedThird hx] at ht
    cases ht
  · exact fun h x hs hx _ => hs.expel (hs x hx).2
  · exact fun h p hs => congr (by rw [lobby_forgive]) (books_forgive _ _) hs
  · exact fun h x hs _ => congr (by rw [lobby_withdraw]; rfl) (books_withdraw x) hs
  · intro h _ hn
    exact sweepable_of_none (by rw [expired_congr (books_rematch _ _), hn])

/-- The first expired connection of a sweepable hub, and its removal. -/
theorem Sweepable.head {x : ConnId} {l : List ConnId} (hs : h.Sweepable env)
    (hl : env.mapOrder.run (h.expired env) = x :: l) :
    x ∈ h.expired env ∧ h.linkedThird x = false ∧ (h.expel env x).Sweepable env
      ∧ ((h.expel env x).expired env).card + 1 = (h.expired env).card
      ∧ ∀ n k, tryMatch env n (h.expel env x) = some k → ∀ y ∈ l, k.get y = none := by
  have hx : x ∈ h.expired env := by
    rw [← env.mapOrder.mem_run, hl]
    exact List.mem_cons_self
  have hse := hs.expel (hs x hx).2
  refine ⟨hx, hs.not_linkedThird hx, hse, ?_, fun n k hk y hy => ?_⟩
  · rw [expired_expel, Finset.card_erase_add_one hx]
  · obtain ⟨hn, hsheds⟩ := hse.tryMatch_sheds hk
    refine hsheds.absent hn ?_
    have hnodup := env.mapOrder.nodup_run (h.expired env)
    rw [hl] at hnodup
    rw [expired_expel, Finset.mem_erase, ← env.mapOrder.mem_run, hl]
    refine ⟨?_, List.mem_cons_of_mem x hy⟩
    rintro rfl
    exact (List.nodup_cons.mp hnodup).1 hy

/-- Every removal of the sweep erases an expired connection before it
recurses, so one level of nesting for each of them is enough. -/
theorem Sweepable.tryMatch_returns {n : Nat} (hs : h.Sweepable env)
    (hn : (h.expired env).card < n) : ∃ k, tryMatch env n h = some k := by
  induction n generalizing h with
  | zero => exact absurd hn (Nat.not_lt_zero _)
  | succ n ih =>
      cases hl : env.mapOrder.run (h.expired env) with
      | nil => exact ⟨_, tryMatch_eq_rematch (run_eq_nil_iff.mp hl) n⟩
      | cons x l =>
          obtain ⟨hx, hthird, hse, hcard, hrest⟩ := hs.head hl
          obtain ⟨k, hk⟩ := ih hse (by omega)
          rw [tryMatch_succ, expireWsHolds_eq_expel hl hthird (hrest n), hk]
          exact ⟨_, rfl⟩

theorem Sweepable.expireWsHolds_returns {n : Nat} (hs : h.Sweepable env)
    (hn : (h.expired env).card ≤ n) :
    ∃ k, h.expireWsHolds env (tryMatch env n) = some k ∧ k.expired env = ∅ := by
  obtain ⟨k, hk⟩ := hs.tryMatch_returns (Nat.lt_succ_of_le hn)
  obtain ⟨hnone, -⟩ := hs.tryMatch_sheds hk
  rw [tryMatch_succ] at hk
  obtain ⟨k', hk', rfl⟩ := Option.map_eq_some_iff.mp hk
  refine ⟨k', hk', ?_⟩
  rwa [expired_congr (books_rematch _ _)] at hnone

-- ======================================================= removals in progress

/-- The sweep under removals in progress: it is stuck when it meets one of
their connections again. -/
def sweepUnder (env : Env) (tm : Finset ConnId → SimpleHub → Option SimpleHub)
    (busy : Finset ConnId) (h : SimpleHub) : Option SimpleHub :=
  (env.mapOrder.run (h.expired env)).foldlM
    (fun h id => if id ∈ busy then none else h.expireHold env (tm (insert id busy)) id) h

/-- `try_match` under removals in progress. -/
def tryMatchUnder (env : Env) : Nat → Finset ConnId → SimpleHub → Option SimpleHub
  | 0, _, _ => none
  | n + 1, busy, h => (sweepUnder env (tryMatchUnder env n) busy h).map (·.rematch env)

/-- The rest of a sweep whose connections are gone meets no removal. -/
theorem sweepUnder_absent {busy : Finset ConnId} {tm : ConnId → SimpleHub → Option SimpleHub}
    (l : List ConnId) : ∀ h : SimpleHub, (∀ x ∈ l, x ∉ busy ∧ h.get x = none) →
      l.foldlM (fun h id => if id ∈ busy then none else h.expireHold env (tm id) id) h
        = some (l.foldl withdraw h) := by
  induction l with
  | nil => intro h _; rfl
  | cons x l ih =>
      intro h habs
      obtain ⟨hbusy, hx⟩ := habs x List.mem_cons_self
      rw [List.foldlM_cons, if_neg hbusy, expireHold_absent hx, List.foldl_cons]
      refine ih (h.withdraw x) fun y hy => ?_
      rw [get_withdraw]
      exact habs y (List.mem_cons_of_mem x hy)

/-- One level of the guarded sweep, when the nested calls meet nothing. -/
theorem Sweepable.sweepUnder_eq {n : Nat} {busy : Finset ConnId} (hs : h.Sweepable env)
    (hbusy : ∀ x ∈ h.expired env, x ∉ busy) (hn : (h.expired env).card ≤ n)
    (ih : ∀ {k : SimpleHub} {busy : Finset ConnId}, k.Sweepable env →
      (∀ x ∈ k.expired env, x ∉ busy) → (k.expired env).card < n →
        tryMatchUnder env n busy k = tryMatch env n k) :
    sweepUnder env (tryMatchUnder env n) busy h = h.expireWsHolds env (tryMatch env n) := by
  unfold sweepUnder
  cases hl : env.mapOrder.run (h.expired env) with
  | nil =>
      rw [expireWsHolds_eq_self (run_eq_nil_iff.mp hl)]
      rfl
  | cons x l =>
      obtain ⟨hx, hthird, hse, hcard, hrest⟩ := hs.head hl
      obtain ⟨k, hk⟩ := hse.tryMatch_returns (n := n) (by omega)
      have hnested : tryMatchUnder env n (insert x busy) (h.expel env x) = some k := by
        rw [ih hse (fun y hy => ?_) (by omega), hk]
        rw [expired_expel, Finset.mem_erase] at hy
        rw [Finset.mem_insert, not_or]
        exact ⟨hy.1, hbusy y hy.2⟩
      have hsweep := @sweepUnder_absent env busy
        (fun id => tryMatchUnder env n (insert id busy)) l
        (k.forgive (h.partnerOf x)) fun y hy =>
          ⟨hbusy y (by rw [← env.mapOrder.mem_run, hl]; exact List.mem_cons_of_mem x hy),
            get_forgive_absent (hrest n k hk y hy) _⟩
      rw [expireWsHolds_eq_expel hl hthird (hrest n), hk, List.foldlM_cons,
        if_neg (hbusy x hx), expireHold, removeClient_expired hx hthird, hnested]
      exact hsweep

/-- The recursion of a sweepable hub never meets a removal in progress. -/
theorem Sweepable.tryMatchUnder_eq {n : Nat} {busy : Finset ConnId} (hs : h.Sweepable env)
    (hbusy : ∀ x ∈ h.expired env, x ∉ busy) (hn : (h.expired env).card < n) :
    tryMatchUnder env n busy h = tryMatch env n h := by
  induction n generalizing h busy with
  | zero => rfl
  | succ n ih =>
      rw [tryMatchUnder, tryMatch_succ, hs.sweepUnder_eq hbusy (by omega) ih]

-- ================================================================= the events

variable (h env) in
/-- The event starts a sweep that may meet a linked third, or a removal that
makes one. -/
def Reenters : Event → Prop
  | .connect _ _ | .frame _ _ => ¬ h.Sweepable env
  | .close x => h.has x = true ∧ (h.shouldKeepWsHold env x).2 = false
      ∧ (¬ h.Sweepable env ∨ h.lobby.HandsOver (h.expired env) x)
  | _ => False

variable (h env) in
/-- The sweep an event starts, or its removal, never meets a connection
whose removal is in progress. -/
def NeverReenters (n : Nat) : Event → Prop
  | .connect _ _ | .frame _ _ =>
      sweepUnder env (tryMatchUnder env (n + 1)) ∅ h
        = h.expireWsHolds env (tryMatch env (n + 1))
  | .close x => h.removeClient env (tryMatchUnder env (n + 1) {x}) x
      = h.removeClient env (tryMatch env (n + 1)) x
  | _ => True

/-- A removal of a connection that hands nothing over, on a sweepable hub. -/
theorem removeClient_terminates {n : Nat} {x : ConnId} (hs : h.Sweepable env)
    (hx : ¬ h.lobby.HandsOver (h.expired env) x) (hn : (h.expired env).card < n) :
    ∃ k, h.removeClient env (tryMatch env n) x = some k
      ∧ h.removeClient env (tryMatchUnder env n {x}) x = some k := by
  unfold removeClient
  rcases @shouldKeepWsHold_cases h env x with ⟨hk, -⟩ | ⟨hk, -⟩ | hk
  · rw [hk]
    exact ⟨h, rfl, rfl⟩
  · rw [hk]
    exact ⟨_, rfl, rfl⟩
  rw [hk]
  simp only [get_withdraw, Bool.false_eq_true, if_false]
  cases hc : h.get x with
  | none => exact ⟨_, rfl, rfl⟩
  | some c =>
    dsimp only
    -- both continuations return the same on every hub this removal reaches
    have both : ∀ k : SimpleHub, k.Sweepable env → (∀ y ∈ k.expired env, y ∉ ({x} : Finset ConnId)) →
        (k.expired env).card < n → ∃ k', tryMatch env n k = some k'
          ∧ tryMatchUnder env n {x} k = some k' := by
      intro k hsk hbusy hcard
      obtain ⟨k', hk'⟩ := hsk.tryMatch_returns hcard
      exact ⟨k', hk', by rw [hsk.tryMatchUnder_eq hbusy hcard, hk']⟩
    cases hthird : (h.withdraw x).linkedThird x with
    | false =>
        have he : h.expel env x = ((h.withdraw x).leaveQuiet env x
            "partner left — still chatting").1.forgetClient env x c
              ((h.withdraw x).leaveQuiet env x "partner left — still chatting").2 := by
          unfold expel
          rw [hc]
        have hexp := @expired_expel h env x
        obtain ⟨k', hk', hu⟩ := both (h.expel env x) (hs.expel hx)
          (fun y hy => by
            rw [hexp, Finset.mem_erase] at hy
            rw [Finset.mem_singleton]
            exact hy.1)
          (by
            rw [hexp]
            exact Nat.lt_of_le_of_lt (Finset.card_le_card (Finset.erase_subset _ _)) hn)
        rw [leaveKeepRemainingPair_quiet hthird, leaveKeepRemainingPair_quiet hthird]
        refine ⟨k', ?_, ?_⟩
        · rw [he] at hk'
          exact hk'
        · rw [he] at hu
          exact hu
    | true =>
        obtain ⟨-, a, b, -, -, -, hl, -, -, -, -, heq⟩ :=
          @leaveKeepRemainingPair_hunt (h.withdraw x) env _ hthird "partner left — still chatting"
        have hb : ((h.withdraw x).huntAgain env x a b).books = h.books := by simp
        have hsk : ((h.withdraw x).huntAgain env x a b).Sweepable env := by
          refine hs.calm ?_ (by rw [expired_congr hb])
          rw [lobby_huntAgain, lobby_withdraw]
          refine (Lobby.Calm.refl.drop x).huntAgain ?_
          rw [← partyLinked_lobby, lobby_withdraw] at hl
          exact hl
        -- the leaver itself is not expired: it would not be sweepable
        have hxe : x ∉ h.expired env := fun hxe => by
          have := hs.not_linkedThird hxe
          rw [← linkedThird_withdraw (h := h) x x, hthird] at this
          cases this
        obtain ⟨k, hk, hu⟩ := both _ hsk
          (fun y hy => by
            rw [expired_congr hb] at hy
            rw [Finset.mem_singleton]
            rintro rfl
            exact hxe hy)
          (by rw [expired_congr hb]; exact hn)
        obtain ⟨hnone, -⟩ := hsk.tryMatch_sheds hk
        have hgone : (k.forgetClient env x c true).expired env = ∅ :=
          expired_erase hnone (books_forgetClient x c true)
        obtain ⟨k', hk', hu'⟩ := both _ (sweepable_of_none hgone)
          (fun y hy => by rw [hgone] at hy; exact absurd hy (Finset.notMem_empty y))
          (by rw [hgone]; exact Nat.lt_of_le_of_lt (Nat.zero_le _) hn)
        rw [heq, heq, hk, hu]
        exact ⟨k', hk', hu'⟩

/-- Every event that does not re-enter comes back, and its removals never
meet one in progress. -/
theorem event_terminates {e : Event} (hr : ¬ h.Reenters env e) {n : Nat}
    (hn : (h.expired env).card ≤ n) :
    (∃ k, h.step env n e = some k) ∧ h.NeverReenters env n e := by
  have htm : Settles env (tryMatch env (n + 1)) := settles_tryMatch n
  have hn' : (h.expired env).card < n + 1 := Nat.lt_succ_of_le hn
  cases e with
  | connect id ip =>
      have hs : h.Sweepable env := not_not.mp hr
      obtain ⟨k, hk, -⟩ := hs.expireWsHolds_returns hn'.le
      refine ⟨?_, hs.sweepUnder_eq (by simp) hn'.le fun hs hb hn => hs.tryMatchUnder_eq hb hn⟩
      unfold step tryAddClient
      rw [hk]
      simp only [Option.bind_eq_bind, Option.bind_some]
      split
      · exact ⟨k, rfl⟩
      · exact ⟨_, rfl⟩
  | frame id msg =>
      have hs : h.Sweepable env := not_not.mp hr
      obtain ⟨k, hk, hnone⟩ := hs.expireWsHolds_returns hn'.le
      refine ⟨?_, hs.sweepUnder_eq (by simp) hn'.le fun hs hb hn => hs.tryMatchUnder_eq hb hn⟩
      obtain ⟨r, hrr, hb⟩ := preamble_returns htm hnone hk id msg
      have hnr : r.expired env = ∅ := expired_charge hnone hb
      show ∃ k, h.handle env (tryMatch env (n + 1)) id msg = some k
      unfold handle
      rw [hrr]
      simp only [Option.bind_eq_bind, Option.bind_some]
      split
      · by_cases hm : ∃ m, msg = .hello m
        · obtain ⟨m', rfl⟩ := hm
          obtain ⟨k', -, hh, -⟩ := handleHello_returns htm hnr id m'
          exact ⟨_, hh⟩
        · obtain ⟨h', hh, -⟩ := dispatch_returns htm hnr id
            fun m he => hm ⟨m, he⟩
          exact ⟨h', hh⟩
      · exact ⟨r, rfl⟩
  | close x =>
      show (∃ k, h.removeClient env _ x = some k)
        ∧ h.removeClient env _ x = h.removeClient env _ x
      by_cases hkept : h.has x = true ∧ (h.shouldKeepWsHold env x).2 = false
      · have hs : h.Sweepable env := by
          by_contra hs
          exact hr ⟨hkept.1, hkept.2, Or.inl hs⟩
        obtain ⟨k, hk, hu⟩ := removeClient_terminates hs
          (fun ho => hr ⟨hkept.1, hkept.2, Or.inr ho⟩) hn'
        exact ⟨⟨k, hk⟩, by rw [hk, hu]⟩
      · -- nobody is removed
        have : ∃ k, ∀ tm, h.removeClient env tm x = some k := by
          unfold removeClient
          generalize hr : h.shouldKeepWsHold env x = r at hkept ⊢
          obtain ⟨r, kept⟩ := r
          cases kept with
          | true => exact ⟨r, fun tm => rfl⟩
          | false =>
              have hx : h.get x = none := by
                rw [not_and] at hkept
                have : ¬ h.has x = true := fun hx => hkept hx rfl
                simpa [has] using this
              have hrx : r = h := by
                unfold shouldKeepWsHold at hr
                rw [hx] at hr
                cases hr
                rfl
              subst hrx
              refine ⟨r.withdraw x, fun tm => ?_⟩
              simp [hx]
        obtain ⟨k, hk⟩ := this
        exact ⟨⟨k, hk _⟩, by rw [hk, hk]⟩
  | geo => exact ⟨⟨_, rfl⟩, trivial⟩
  | adminBan => exact ⟨⟨_, rfl⟩, trivial⟩
  | adminUnban => exact ⟨⟨_, rfl⟩, trivial⟩
  | adminUnbanIp => exact ⟨⟨_, rfl⟩, trivial⟩
  | claim => exact ⟨⟨_, rfl⟩, trivial⟩
  | applyClaim => exact ⟨⟨_, rfl⟩, trivial⟩

theorem Lobby.HandsOver.party {L : Lobby} {E : Finset ConnId} {x : ConnId}
    (h : L.HandsOver E x) : ∃ m, L.partyWithOf x = some m := by
  obtain ⟨s, m, hs, hm, -⟩ := h
  exact ⟨m, by simp [Lobby.partyWithOf, hs, hm]⟩

/-- One socket of a match closes, and its hold runs out: the sweep of the
next frame removes it. -/
def heldRun : List Input := script
  [(0, .connect 1 ""), (0, .connect 2 ""), (1, .frame 1 (.spin "")),
    (1, .frame 2 (.spin "")), (2000, .close 1)]

theorem event_terminates_held : ∃ w, (hubMachine plainSys).Reach w
    ∧ w.hub.expired (plainEnv 48000) = {1}
    ∧ (∃ k, w.hub.step (plainEnv 48000) 1 (.frame 2 .ping) = some k)
    ∧ w.hub.NeverReenters (plainEnv 48000) 1 (.frame 2 .ping) := by
  obtain ⟨w, hw, hp⟩ := @reach_of_replay plainSys 2 heldRun
    (fun w => decide (w.hub.expired (plainEnv 48000) = {1})
      && !w.hub.linkedThird 1 && decide (w.hub.partyWithOf 1 = none)) (by decide)
  simp only [Bool.and_eq_true, decide_eq_true_eq, Bool.not_eq_true'] at hp
  obtain ⟨⟨hexp, hthird⟩, hparty⟩ := hp
  have hs : w.hub.Sweepable (plainEnv 48000) := by
    intro x hx
    rw [hexp, Finset.mem_singleton] at hx
    subst hx
    refine ⟨fun ht => ?_, fun ho => ?_⟩
    · rw [linkedThird_iff.mpr ht] at hthird
      cases hthird
    · obtain ⟨m, hm⟩ := Lobby.HandsOver.party ho
      rw [partyWithOf_lobby, hparty] at hm
      cases hm
  exact ⟨w, hw, hexp, event_terminates (e := .frame 2 .ping) (not_not.mpr hs)
    (by rw [hexp]; decide)⟩

/-- The partner of a held connection presses Stop: the held one goes back to
the queue, becomes the third of a pair that hunts, and its hold runs out. -/
def stuckRun : List Input := script
  [(0, .connect 1 ""), (0, .connect 2 ""), (0, .connect 3 ""), (0, .connect 4 ""),
    (1, .frame 1 (.spin "")), (1, .frame 2 (.spin "")), (1, .frame 3 (.spin "")),
    (1, .frame 4 (.spin "")), (2000, .close 1), (3000, .frame 2 .stop),
    (4000, .frame 3 .findThirdInvite), (4000, .frame 4 (.findThirdRespond true))]

/-- The next frame never comes back. -/
theorem held_third_never_returns : ∃ w, (hubMachine plainSys).Reach w
    ∧ ∃ i, w.Admits i ∧ ∀ n, w.hub.step i.env n i.event = none := by
  obtain ⟨w, hw, hp⟩ := @reach_of_replay plainSys 2 stuckRun
    (fun w => decide (w.Admits ⟨plainEnv 48000, .frame 2 .ping⟩)
      && w.hub.linkedThird 1 && decide (1 ∉ w.hub.peersOf 1)
      && decide (IterOrder.increasing.run (w.hub.expired (plainEnv 48000)) = [1])) (by decide)
  simp only [Bool.and_eq_true, decide_eq_true_eq] at hp
  obtain ⟨⟨⟨hadm, hthird⟩, hself⟩, hrun⟩ := hp
  refine ⟨w, hw, ⟨plainEnv 48000, .frame 2 .ping⟩, hadm, fun n => ?_⟩
  show w.hub.handle (plainEnv 48000) (tryMatch (plainEnv 48000) (n + 1)) 2 .ping = none
  unfold handle preamble
  rw [expireWsHolds_eq_none hself hrun hthird]
  rfl

end SimpleHub

end Ruletka
