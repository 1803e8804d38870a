/-
Two parties in one handshake.

`Link` is what holds between a party and the other, with the messages on their
way from the one (`out`) and to it (`inn`): an invite that is out has nothing
behind it but refusals, an accept that will be taken finds the accepter waiting,
and a start is the last word before the turns of what it starts. It is stated
for one direction and holds for both.
-/
import Ruletka.Mobile.Handshake

namespace Ruletka.Handshake

variable {D : Type} {p q p' q' : Party D} {out inn sent : List (Note D)}

/-- Turns on their way grow. -/
def Grows (m m' : Note D) : Prop := ∀ d k d' k', m = .turn d k → m' = .turn d' k' → k < k'

/-- A turn that a joined party has not passed yet. -/
def Fits (q : Party D) (m : Note D) : Prop :=
  ∀ d k, m = .turn d k → q.turn ≤ k ∧ (q.turn % 2 = 1 → q.turn < k)

/-- What a party, its partner and the messages between them have to do with each
other, while the party is the one that invites. -/
structure Link (p q : Party D) (out inn : List (Note D)) : Prop where
  invite : ∀ d, p.stage = .inviting d →
    out.Pairwise fun m m' => m = .invite d → m' = .decline
  invited : ∀ d, p.stage = .inviting d → q.stage = .invited d → ∀ m ∈ out, m = .decline
  accept : ∀ d, p.stage = .inviting d → .accept d ∈ inn →
    (∀ m ∈ out, m = .decline) ∧ ¬ q.stage.Active
      ∧ inn.Pairwise fun m m' => m = .accept d → m'.Still
  start : ∀ d, .start d ∈ out → ¬ q.stage.Active ∧ (∀ m ∈ inn, m.Still)
    ∧ (p.stage.Active → p.stage = .hosting d)
    ∧ (out.Pairwise fun m m' => (m' = .start d → m = .decline) ∧ (m = .start d → m'.Of d))
    ∧ out.Pairwise Grows
  host : ∀ d, p.stage = .hosting d → (∀ d', .start d' ∉ out) → q.stage.Active →
    q.stage = .joined d
  hosting : ∀ d, p.stage = .hosting d → (∀ m ∈ inn, m.Of d)
    ∧ (∀ d' k, .turn d' k ∈ out → d' = d ∧ k ≤ p.turn) ∧ out.Pairwise Grows
    ∧ (.start d ∈ out → p.turn = 0 ∨ .turn d p.turn ∈ out)
  joined : ∀ d, q.stage = .joined d → (∀ m ∈ out, m.Of d) ∧ (∀ m ∈ inn, m.Of d)
    ∧ (p.stage.Active → p.stage = .hosting d) ∧ out.Pairwise Grows
    ∧ (q.ahead = false → ∀ m ∈ out, Fits q m)
  turns : ∀ d, p.stage = .hosting d → q.stage = .joined d →
    (p.turn ≤ q.turn ∨ .turn d p.turn ∈ out) ∧ (∀ d' k, .turn d' k ∈ inn → k ≤ q.turn)
      ∧ (q.ahead = false → (q.turn ≤ p.turn ∨ .turn d q.turn ∈ inn) ∧ q.turn ≤ p.turn + 1
        ∧ (q.turn % 2 = 1 → q.turn ≤ p.turn))

/-- The messages a party has taken note of without effect, or without need. -/
theorem Link.take_out {n : Note D} (h : Link p q (n :: out) inn) (hn : n.Still) :
    Link p q out inn where
  invite d hd := (List.pairwise_cons.mp (h.invite d hd)).2
  invited d hd hq m hm := h.invited d hd hq m (List.mem_cons_of_mem _ hm)
  accept d hd ha := by
    obtain ⟨hquiet, hrest⟩ := h.accept d hd ha
    exact ⟨fun m hm => hquiet m (List.mem_cons_of_mem _ hm), hrest⟩
  start d hd := by
    obtain ⟨hq, hs, hp, hpair, hgrow⟩ := h.start d (List.mem_cons_of_mem _ hd)
    exact ⟨hq, hs, hp, (List.pairwise_cons.mp hpair).2, (List.pairwise_cons.mp hgrow).2⟩
  host d hd hno ha := by
    refine h.host d hd (fun d' hm => ?_) ha
    rcases List.mem_cons.mp hm with rfl | hm
    · exact hn
    · exact hno d' hm
  hosting d hd := by
    obtain ⟨hinn, hturns, hgrow, hstart⟩ := h.hosting d hd
    refine ⟨hinn, fun d' k hm => hturns d' k (List.mem_cons_of_mem _ hm),
      (List.pairwise_cons.mp hgrow).2, fun hs => ?_⟩
    refine (hstart (List.mem_cons_of_mem _ hs)).imp id fun hm => ?_
    rcases List.mem_cons.mp hm with rfl | hm
    · exact hn.elim
    · exact hm
  joined d hd := by
    obtain ⟨hout, hinn, hp, hgrow, hfit⟩ := h.joined d hd
    exact ⟨fun m hm => hout m (List.mem_cons_of_mem _ hm), hinn, hp,
      (List.pairwise_cons.mp hgrow).2, fun ha m hm => hfit ha m (List.mem_cons_of_mem _ hm)⟩
  turns d hd hq := by
    obtain ⟨hlast, hinn, hahead⟩ := h.turns d hd hq
    refine ⟨hlast.imp id fun hm => ?_, hinn, fun ha => ?_⟩
    · rcases List.mem_cons.mp hm with rfl | hm
      · exact hn.elim
      · exact hm
    · exact hahead ha

theorem Link.take_inn {n : Note D} (h : Link p q out (n :: inn)) (hn : n.Still) :
    Link p q out inn where
  invite := h.invite
  invited := h.invited
  accept d hd ha := by
    obtain ⟨hquiet, hq, hpair⟩ := h.accept d hd (List.mem_cons_of_mem _ ha)
    exact ⟨hquiet, hq, (List.pairwise_cons.mp hpair).2⟩
  start d hd := by
    obtain ⟨hq, hs, hrest⟩ := h.start d hd
    exact ⟨hq, fun m hm => hs m (List.mem_cons_of_mem _ hm), hrest⟩
  host := h.host
  hosting d hd := by
    obtain ⟨hinn, hrest⟩ := h.hosting d hd
    exact ⟨fun m hm => hinn m (List.mem_cons_of_mem _ hm), hrest⟩
  joined d hd := by
    obtain ⟨hout, hinn, hp⟩ := h.joined d hd
    exact ⟨hout, fun m hm => hinn m (List.mem_cons_of_mem _ hm), hp⟩
  turns d hd hq := by
    obtain ⟨hlast, hinn, hahead⟩ := h.turns d hd hq
    refine ⟨hlast, fun d' k hm => hinn d' k (List.mem_cons_of_mem _ hm), fun ha => ?_⟩
    obtain ⟨h₁, hrest⟩ := hahead ha
    refine ⟨h₁.imp id fun hm => ?_, hrest⟩
    rcases List.mem_cons.mp hm with rfl | hm
    · exact hn.elim
    · exact hm

-- ===================================================================== plain words

theorem Note.Closing.still {m : Note D} (h : m.Closing) : m.Still := by
  cases m with
  | decline | cancel | «over» => trivial
  | _ => exact h.elim

theorem Note.Still.of {m : Note D} (h : m.Still) (d : D) : m.Of d := by
  cases m with
  | start _ | turn _ _ => exact h.elim
  | _ => trivial

theorem Note.Still.fits {m : Note D} (h : m.Still) (q : Party D) : Fits q m := by
  rintro d k rfl
  exact h.elim

theorem grows_append (hgrow : out.Pairwise Grows) (hs : ∀ m ∈ sent, m.Still) :
    (out ++ sent).Pairwise Grows := by
  refine List.pairwise_append.mpr ⟨hgrow, ?_, fun m _ m' hm' d' k d'' k' _ he => ?_⟩
  · refine List.pairwise_of_forall_mem_list fun m _ m' hm' d' k d'' k' _ he => ?_
    exact (he ▸ hs m' hm' : (Note.turn d'' k').Still).elim
  · exact (he ▸ hs m' hm' : (Note.turn d'' k').Still).elim

/-- Refusals change nothing behind a party's messages, and words that start
nothing change nothing where it invites nobody. -/
theorem Link.say_out (h : Link p q out inn) (hs : ∀ m ∈ sent, m.Still)
    (hd : (∀ d, p.stage ≠ .inviting d) ∨ ∀ m ∈ sent, m = .decline) :
    Link p q (out ++ sent) inn where
  invite d hp := by
    have hdec := hd.resolve_left fun hno => hno d hp
    refine List.pairwise_append.mpr ⟨h.invite d hp, ?_, fun m _ m' hm' _ => hdec m' hm'⟩
    exact List.pairwise_of_forall_mem_list fun m _ m' hm' _ => hdec m' hm'
  invited d hp hq m hm := by
    have hdec := hd.resolve_left fun hno => hno d hp
    rcases List.mem_append.mp hm with hm | hm
    · exact h.invited d hp hq m hm
    · exact hdec m hm
  accept d hp ha := by
    have hdec := hd.resolve_left fun hno => hno d hp
    obtain ⟨hquiet, hrest⟩ := h.accept d hp ha
    refine ⟨fun m hm => ?_, hrest⟩
    rcases List.mem_append.mp hm with hm | hm
    · exact hquiet m hm
    · exact hdec m hm
  start d hm := by
    have hm : .start d ∈ out := (List.mem_append.mp hm).resolve_right fun hm => hs _ hm
    obtain ⟨hq, hi, hp, hpair, hgrow⟩ := h.start d hm
    refine ⟨hq, hi, hp, List.pairwise_append.mpr ⟨hpair, ?_, fun m _ m' hm' => ?_⟩,
      grows_append hgrow hs⟩
    · refine List.pairwise_of_forall_mem_list fun m _ m' hm' => ⟨fun he => ?_, fun _ => ?_⟩
      · exact (he ▸ hs m' hm' : (Note.start d).Still).elim
      · exact (hs m' hm').of d
    · refine ⟨fun he => ?_, fun _ => (hs m' hm').of d⟩
      exact (he ▸ hs m' hm' : (Note.start d).Still).elim
  host d hp hno ha :=
    h.host d hp (fun d' hm => hno d' (List.mem_append_left _ hm)) ha
  hosting d hp := by
    obtain ⟨hinn, hturns, hgrow, hstart⟩ := h.hosting d hp
    refine ⟨hinn, fun d' k hm => ?_, grows_append hgrow hs, fun hm => ?_⟩
    · exact hturns d' k ((List.mem_append.mp hm).resolve_right fun hm => hs _ hm)
    · refine (hstart ((List.mem_append.mp hm).resolve_right fun hm => hs _ hm)).imp id ?_
      exact List.mem_append_left _
  joined d hq := by
    obtain ⟨hout, hinn, hp, hgrow, hfit⟩ := h.joined d hq
    refine ⟨fun m hm => ?_, hinn, hp, grows_append hgrow hs, fun ha m hm => ?_⟩
    · rcases List.mem_append.mp hm with hm | hm
      · exact hout m hm
      · exact (hs m hm).of d
    · rcases List.mem_append.mp hm with hm | hm
      · exact hfit ha m hm
      · exact (hs m hm).fits q
  turns d hp hq := by
    obtain ⟨hlast, hinn, hahead⟩ := h.turns d hp hq
    exact ⟨hlast.imp id (List.mem_append_left _), hinn, hahead⟩

theorem Link.say_inn (h : Link p q out inn) (hs : ∀ m ∈ sent, m.Still)
    (hno : ∀ d, .accept d ∉ sent) : Link p q out (inn ++ sent) where
  invite := h.invite
  invited := h.invited
  accept d hp ha := by
    have ha : .accept d ∈ inn := (List.mem_append.mp ha).resolve_right (hno d)
    obtain ⟨hquiet, hq, hpair⟩ := h.accept d hp ha
    refine ⟨hquiet, hq, List.pairwise_append.mpr ⟨hpair, ?_, fun m _ m' hm' _ => ?_⟩⟩
    · exact List.pairwise_of_forall_mem_list fun m _ m' hm' _ => hs m' hm'
    · exact hs m' hm'
  start d hm := by
    obtain ⟨hq, hi, hrest⟩ := h.start d hm
    refine ⟨hq, fun m hm => ?_, hrest⟩
    rcases List.mem_append.mp hm with hm | hm
    · exact hi m hm
    · exact hs m hm
  host := h.host
  hosting d hp := by
    obtain ⟨hinn, hrest⟩ := h.hosting d hp
    refine ⟨fun m hm => ?_, hrest⟩
    rcases List.mem_append.mp hm with hm | hm
    · exact hinn m hm
    · exact (hs m hm).of d
  joined d hq := by
    obtain ⟨hout, hinn, hp⟩ := h.joined d hq
    refine ⟨hout, fun m hm => ?_, hp⟩
    rcases List.mem_append.mp hm with hm | hm
    · exact hinn m hm
    · exact (hs m hm).of d
  turns d hp hq := by
    obtain ⟨hlast, hinn, hahead⟩ := h.turns d hp hq
    refine ⟨hlast, fun d' k hm => ?_, fun ha => ?_⟩
    · exact hinn d' k ((List.mem_append.mp hm).resolve_right fun hm => hs _ hm)
    · obtain ⟨h₁, hrest⟩ := hahead ha
      exact ⟨h₁.imp id (List.mem_append_left _), hrest⟩

-- ======================================================================= leaving

/-- A party that left has nothing to keep. -/
theorem Link.idle_left (h : Link p q out inn) (hp : p'.stage = .idle) : Link p' q out inn where
  invite d hd := by rw [hp] at hd; cases hd
  invited d hd := by rw [hp] at hd; cases hd
  accept d hd := by rw [hp] at hd; cases hd
  start d hm := by
    obtain ⟨hq, hi, -, hpair⟩ := h.start d hm
    refine ⟨hq, hi, fun ha => ?_, hpair⟩
    rw [hp] at ha
    exact ha.elim
  host d hd := by rw [hp] at hd; cases hd
  hosting d hd := by rw [hp] at hd; cases hd
  joined d hd := by
    obtain ⟨hout, hinn, -, hrest⟩ := h.joined d hd
    refine ⟨hout, hinn, fun ha => ?_, hrest⟩
    rw [hp] at ha
    exact ha.elim
  turns d hd := by rw [hp] at hd; cases hd

theorem Link.idle_right (h : Link p q out inn) (hq : q'.stage = .idle) : Link p q' out inn where
  invite := h.invite
  invited d _ hd := by rw [hq] at hd; cases hd
  accept d hd ha := by
    obtain ⟨hquiet, -, hpair⟩ := h.accept d hd ha
    exact ⟨hquiet, by rw [hq]; exact id, hpair⟩
  start d hm := by
    obtain ⟨-, hrest⟩ := h.start d hm
    exact ⟨by rw [hq]; exact id, hrest⟩
  host d _ _ ha := by rw [hq] at ha; exact ha.elim
  hosting := h.hosting
  joined d hd := by rw [hq] at hd; cases hd
  turns d _ hd := by rw [hq] at hd; cases hd

-- ======================================================================= the turns

/-- A turn that is as late as one on its way covers it. -/
theorem le_or_mem_tail {d d' : D} {k n t t' : Nat} {l : List (Note D)}
    (h : n ≤ t ∨ .turn d n ∈ Note.turn d' k :: l) (ht : t ≤ t') (hk : k ≤ t') :
    n ≤ t' ∨ .turn d n ∈ l := by
  rcases h with hle | hm
  · exact .inl (hle.trans ht)
  · rcases List.mem_cons.mp hm with he | hm
    · cases he
      exact .inl hk
    · exact .inr hm

/-- A turn that is not taken, or not before one that is as late. -/
theorem Link.skip_out {d : D} {k : Nat} (h : Link p q (.turn d k :: out) inn)
    (hk : q.stage.Active → k < q.turn) : Link p q out inn where
  invite d hp := (List.pairwise_cons.mp (h.invite d hp)).2
  invited d hp hq m hm := h.invited d hp hq m (List.mem_cons_of_mem _ hm)
  accept d hp ha := by
    obtain ⟨hquiet, hrest⟩ := h.accept d hp ha
    exact ⟨fun m hm => hquiet m (List.mem_cons_of_mem _ hm), hrest⟩
  start d hm := by
    obtain ⟨hq, hi, hp, hpair, hgrow⟩ := h.start d (List.mem_cons_of_mem _ hm)
    exact ⟨hq, hi, hp, (List.pairwise_cons.mp hpair).2, (List.pairwise_cons.mp hgrow).2⟩
  host d hp hno ha := by
    refine h.host d hp (fun d' hm => ?_) ha
    exact hno d' ((List.mem_cons.mp hm).resolve_left nofun)
  hosting d hp := by
    obtain ⟨hinn, hturns, hgrow, -⟩ := h.hosting d hp
    refine ⟨hinn, fun d' k hm => hturns d' k (List.mem_cons_of_mem _ hm),
      (List.pairwise_cons.mp hgrow).2, fun hm => ?_⟩
    -- nothing but refusals stands before a start
    obtain ⟨-, -, -, hpair, -⟩ := h.start d (List.mem_cons_of_mem _ hm)
    cases ((List.pairwise_cons.mp hpair).1 _ hm).1 rfl
  joined d hq := by
    obtain ⟨hout, hinn, hp, hgrow, hfit⟩ := h.joined d hq
    exact ⟨fun m hm => hout m (List.mem_cons_of_mem _ hm), hinn, hp,
      (List.pairwise_cons.mp hgrow).2, fun ha m hm => hfit ha m (List.mem_cons_of_mem _ hm)⟩
  turns d hp hq := by
    obtain ⟨hlast, hinn, hahead⟩ := h.turns d hp hq
    have hact : q.stage.Active := by rw [hq]; trivial
    exact ⟨le_or_mem_tail hlast le_rfl (hk hact).le, hinn, hahead⟩

/-- The turn that a partner takes is the last it has heard of. -/
theorem Link.hear_out {d : D} {k : Nat} {b : Bool} (h : Link p q (.turn d k :: out) inn)
    (hact : q.stage.Active) (hk : q.turn ≤ k) :
    Link p { q with turn := k, ahead := b } out inn where
  invite d hp := (List.pairwise_cons.mp (h.invite d hp)).2
  invited d hp hq m hm := h.invited d hp hq m (List.mem_cons_of_mem _ hm)
  accept d hp ha := by
    obtain ⟨-, hq, -⟩ := h.accept d hp ha
    exact absurd hact hq
  start d hm := by
    obtain ⟨hq, -⟩ := h.start d (List.mem_cons_of_mem _ hm)
    exact absurd hact hq
  host d hp hno ha := by
    refine h.host d hp (fun d' hm => ?_) ha
    exact hno d' ((List.mem_cons.mp hm).resolve_left nofun)
  hosting d hp := by
    obtain ⟨hinn, hturns, hgrow, -⟩ := h.hosting d hp
    refine ⟨hinn, fun d' k hm => hturns d' k (List.mem_cons_of_mem _ hm),
      (List.pairwise_cons.mp hgrow).2, fun hm => ?_⟩
    obtain ⟨hq, -⟩ := h.start d (List.mem_cons_of_mem _ hm)
    exact absurd hact hq
  joined d' hq := by
    obtain ⟨hout, hinn, hp, hgrow, -⟩ := h.joined d' hq
    obtain ⟨hhead, hgrow⟩ := List.pairwise_cons.mp hgrow
    refine ⟨fun m hm => hout m (List.mem_cons_of_mem _ hm), hinn, hp, hgrow,
      fun _ m hm d'' k' he => ?_⟩
    have hlt : k < k' := hhead m hm d k d'' k' rfl he
    exact ⟨hlt.le, fun _ => hlt⟩
  turns d' hp hq := by
    obtain ⟨hlast, hinn, -⟩ := h.turns d' hp hq
    obtain ⟨-, hturns, -⟩ := h.hosting d' hp
    have hkp : k ≤ p.turn := (hturns d k List.mem_cons_self).2
    exact ⟨le_or_mem_tail hlast hk le_rfl, fun d' k' hm => (hinn d' k' hm).trans hk,
      fun _ => ⟨.inl hkp, hkp.trans (Nat.le_succ _), fun _ => hkp⟩⟩

/-- The host takes a turn out of the channel, and stands at its own or at that one. -/
theorem Link.drop_inn {d : D} {k t : Nat} {b : Bool} (h : Link p q out (.turn d k :: inn))
    (hk : p.stage.Active → k ≤ t) (ht : p.turn ≤ t) (hnew : t = p.turn ∨ t = k) :
    Link { p with turn := t, ahead := b } q out inn where
  invite := h.invite
  invited := h.invited
  accept d hp ha := by
    obtain ⟨hquiet, hq, hpair⟩ := h.accept d hp (List.mem_cons_of_mem _ ha)
    exact ⟨hquiet, hq, (List.pairwise_cons.mp hpair).2⟩
  start d hm := by
    obtain ⟨-, hi, -⟩ := h.start d hm
    exact (hi _ List.mem_cons_self).elim
  host := h.host
  hosting d hp := by
    obtain ⟨hinn, hturns, hgrow, -⟩ := h.hosting d hp
    refine ⟨fun m hm => hinn m (List.mem_cons_of_mem _ hm), fun d' k' hm => ?_, hgrow, fun hm => ?_⟩
    · obtain ⟨hd, hle⟩ := hturns d' k' hm
      exact ⟨hd, hle.trans ht⟩
    · obtain ⟨-, hi, -⟩ := h.start d hm
      exact (hi _ List.mem_cons_self).elim
  joined d hq := by
    obtain ⟨hout, hinn, hp⟩ := h.joined d hq
    exact ⟨hout, fun m hm => hinn m (List.mem_cons_of_mem _ hm), hp⟩
  turns d' hp hq := by
    obtain ⟨hlast, hinn, hahead⟩ := h.turns d' hp hq
    have hact : p.stage.Active := by
      have hstage : p.stage = .hosting d' := hp
      rw [hstage]
      trivial
    refine ⟨?_, fun d' k hm => hinn d' k (List.mem_cons_of_mem _ hm), fun ha => ?_⟩
    · rcases hnew with rfl | rfl
      · exact hlast
      · exact .inl (hinn d _ List.mem_cons_self)
    · obtain ⟨h₁, h₂, h₃⟩ := hahead ha
      exact ⟨le_or_mem_tail h₁ ht (hk hact), h₂.trans (Nat.succ_le_succ ht),
        fun ho => (h₃ ho).trans ht⟩

theorem Link.skip_inn {d : D} {k : Nat} (h : Link p q out (.turn d k :: inn))
    (hk : p.stage.Active → k < p.turn) : Link p q out inn :=
  h.drop_inn (t := p.turn) (b := p.ahead) (fun ha => (hk ha).le) le_rfl (.inl rfl)

theorem Link.hear_inn {d : D} {k : Nat} {b : Bool} (h : Link p q out (.turn d k :: inn))
    (hk : p.turn ≤ k) : Link { p with turn := k, ahead := b } q out inn :=
  h.drop_inn (fun _ => le_rfl) hk (.inr rfl)

/-- The host moves the turn. -/
theorem Link.host_announces {d : D} (h : Link p q out inn) (hp : p.stage = .hosting d) :
    Link { p with turn := p.turn + 1 } q (out ++ [.turn d (p.turn + 1)]) inn := by
  obtain ⟨hinn, hturns, hgrow, -⟩ := h.hosting d hp
  have hmem : ∀ {m}, m ∈ out ++ [.turn d (p.turn + 1)] → m ∈ out ∨ m = .turn d (p.turn + 1) :=
    fun hm => (List.mem_append.mp hm).imp id List.mem_singleton.mp
  have hgrow' : (out ++ [Note.turn d (p.turn + 1)]).Pairwise Grows := by
    refine List.pairwise_append.mpr ⟨hgrow, List.pairwise_singleton _ _, fun m hm m' hm' => ?_⟩
    rw [List.mem_singleton.mp hm']
    rintro d₁ k₁ d₂ k₂ rfl he
    cases he
    exact Nat.lt_succ_of_le (hturns d₁ k₁ hm).2
  refine ⟨fun d' hd => ?_, fun d' hd => ?_, fun d' hd => ?_, fun d' hm => ?_, fun d' hd hno ha => ?_,
    fun d' hd => ?_, fun d' hq => ?_, fun d' hd hq => ?_⟩
  · cases hp.symm.trans hd
  · cases hp.symm.trans hd
  · cases hp.symm.trans hd
  · have hm : .start d' ∈ out := (hmem hm).resolve_right nofun
    obtain ⟨hq, hi, hpd, hpair, -⟩ := h.start d' hm
    have hd : d = d' := by
      have := hpd (by rw [hp]; trivial)
      cases hp.symm.trans this
      rfl
    refine ⟨hq, hi, hpd, List.pairwise_append.mpr ⟨hpair, List.pairwise_singleton _ _, ?_⟩, hgrow'⟩
    intro m _ m' hm'
    rw [List.mem_singleton.mp hm']
    exact ⟨nofun, fun _ => hd⟩
  · exact h.host d' hd (fun d'' hm => hno d'' (List.mem_append_left _ hm)) ha
  · obtain rfl : d = d' := by
      cases hp.symm.trans hd
      rfl
    refine ⟨hinn, fun d' k hm => ?_, hgrow', fun _ => .inr (by simp)⟩
    rcases hmem hm with hm | he
    · obtain ⟨hd', hle⟩ := hturns d' k hm
      exact ⟨hd', hle.trans (Nat.le_succ _)⟩
    · cases he
      exact ⟨rfl, le_rfl⟩
  · obtain ⟨hout, hinn', hpd, -, hfit⟩ := h.joined d' hq
    cases hp.symm.trans (hpd (by rw [hp]; trivial))
    refine ⟨fun m hm => ?_, hinn', hpd, hgrow', fun ha m hm => ?_⟩
    · rcases hmem hm with hm | rfl
      · exact hout m hm
      · exact rfl
    · rcases hmem hm with hm | rfl
      · exact hfit ha m hm
      · rintro d₁ k₁ he
        cases he
        obtain ⟨-, -, hahead⟩ := h.turns d hp hq
        obtain ⟨-, h₂, h₃⟩ := hahead ha
        exact ⟨h₂, fun ho => Nat.lt_succ_of_le (h₃ ho)⟩
  · obtain rfl : d = d' := by
      cases hp.symm.trans hd
      rfl
    obtain ⟨-, hinn', hahead⟩ := h.turns d hp hq
    refine ⟨.inr (by simp), hinn', fun ha => ?_⟩
    obtain ⟨h₁, h₂, h₃⟩ := hahead ha
    exact ⟨h₁.imp (fun h => Nat.le_succ_of_le h) id, Nat.le_succ_of_le h₂,
      fun ho => Nat.le_succ_of_le (h₃ ho)⟩

/-- What the other end sees of it. -/
theorem Link.host_announced {d : D} (h : Link p q out inn) (hr : Link q p inn out)
    (hp : p.stage = .hosting d) :
    Link q { p with turn := p.turn + 1 } inn (out ++ [.turn d (p.turn + 1)]) := by
  have hact : p.stage.Active := by rw [hp]; trivial
  have hmem : ∀ {m}, m ∈ out ++ [.turn d (p.turn + 1)] → m ∈ out ∨ m = .turn d (p.turn + 1) :=
    fun hm => (List.mem_append.mp hm).imp id List.mem_singleton.mp
  refine ⟨hr.invite, fun d' _ hd => ?_, fun d' hq ha => ?_, fun d' hm => ?_, hr.host,
    fun d' hq => ?_, fun d' hd => ?_, fun d' _ hd => ?_⟩
  · cases hp.symm.trans hd
  · obtain ⟨-, hno, -⟩ := hr.accept d' hq ((hmem ha).resolve_right nofun)
    exact absurd hact hno
  · obtain ⟨hno, -⟩ := hr.start d' hm
    exact absurd hact hno
  · -- the other end does not host as well
    have hqa : q.stage.Active := by rw [hq]; trivial
    by_cases hs : ∃ d'', .start d'' ∈ out
    · obtain ⟨d'', hs⟩ := hs
      exact absurd hqa (h.start d'' hs).1
    · cases hq.symm.trans (h.host d hp (fun d'' hm => hs ⟨d'', hm⟩) hqa)
  · cases hp.symm.trans hd
  · cases hp.symm.trans hd

/-- A joined party moves the turn. -/
theorem Link.joined_announces {d : D} {k : Nat} (h : Link p q out inn) (hr : Link q p inn out)
    (hp : p.stage = .joined d) : Link { p with turn := k } q (out ++ [.turn d k]) inn := by
  obtain ⟨hinn, hout, hq, -⟩ := hr.joined d hp
  have hmem : ∀ {m}, m ∈ out ++ [.turn d k] → m ∈ out ∨ m = .turn d k :=
    fun hm => (List.mem_append.mp hm).imp id List.mem_singleton.mp
  refine ⟨fun d' hd => ?_, fun d' hd => ?_, fun d' hd => ?_, fun d' hm => ?_, fun d' hd => ?_,
    fun d' hd => ?_, fun d' hq' => ?_, fun d' hd => ?_⟩
  · cases hp.symm.trans hd
  · cases hp.symm.trans hd
  · cases hp.symm.trans hd
  · exact (hout _ ((hmem hm).resolve_right nofun) : (Note.start d').Of d).elim
  · cases hp.symm.trans hd
  · cases hp.symm.trans hd
  · obtain ⟨-, -, hpd, -⟩ := h.joined d' hq'
    cases hp.symm.trans (hpd (by rw [hp]; trivial))
  · cases hp.symm.trans hd

theorem Link.joined_announced {d : D} (hr : Link q p inn out) (hp : p.stage = .joined d)
    (hodd : p.turn % 2 = 1) :
    Link q { p with turn := p.turn + 1 } inn (out ++ [.turn d (p.turn + 1)]) := by
  have hact : p.stage.Active := by rw [hp]; trivial
  obtain ⟨hinn, hout, hq, hgrow, hfit⟩ := hr.joined d hp
  have hmem : ∀ {m}, m ∈ out ++ [.turn d (p.turn + 1)] → m ∈ out ∨ m = .turn d (p.turn + 1) :=
    fun hm => (List.mem_append.mp hm).imp id List.mem_singleton.mp
  have hOf : ∀ m ∈ out ++ [.turn d (p.turn + 1)], m.Of d := by
    intro m hm
    rcases hmem hm with hm | rfl
    · exact hout m hm
    · exact rfl
  refine ⟨hr.invite, fun d' _ hd => ?_, fun d' hd ha => ?_, fun d' hm => ?_, hr.host,
    fun d' hd => ?_, fun d' hd => ?_, fun d' hd hd' => ?_⟩
  · cases hp.symm.trans hd
  · obtain ⟨-, hno, -⟩ := hr.accept d' hd ((hmem ha).resolve_right nofun)
    exact absurd hact hno
  · obtain ⟨hno, -⟩ := hr.start d' hm
    exact absurd hact hno
  · obtain ⟨-, hrest⟩ := hr.hosting d' hd
    cases hd.symm.trans (hq (by rw [hd]; trivial))
    exact ⟨hOf, hrest⟩
  · cases hp.symm.trans hd
    refine ⟨hinn, hOf, hq, hgrow, fun ha m hm d' k he => ?_⟩
    have hlt := (hfit ha m hm d' k he).2 hodd
    refine ⟨hlt, fun ho => ?_⟩
    simp only at ho
    omega
  · cases hp.symm.trans hd'
    obtain ⟨hlast, hout', hahead⟩ := hr.turns d hd hp
    refine ⟨hlast.imp (fun h => Nat.le_succ_of_le h) id, fun d' k hm => ?_, fun ha => ?_⟩
    · rcases hmem hm with hm | he
      · exact (hout' d' k hm).trans (Nat.le_succ _)
      · cases he
        exact le_rfl
    · obtain ⟨-, -, h₃⟩ := hahead ha
      refine ⟨.inr (by simp), Nat.succ_le_succ (h₃ hodd), fun ho => ?_⟩
      simp only at ho
      omega

/-- A joined party drifts: the other end sees nothing. -/
theorem Link.drifts {d : D} {k : Nat} {b : Bool} (h : Link p q out inn)
    (hp : p.stage = .joined d) : Link { p with turn := k, ahead := b } q out inn := by
  refine ⟨h.invite, h.invited, h.accept, h.start, h.host, fun d' hd => ?_, h.joined,
    fun d' hd => ?_⟩
  · cases hp.symm.trans hd
  · cases hp.symm.trans hd

theorem Link.drifted {d : D} (hr : Link q p inn out) (hp : p.stage = .joined d) :
    Link q { p with turn := p.turn + 1, ahead := true } inn out := by
  refine ⟨hr.invite, hr.invited, hr.accept, hr.start, hr.host, hr.hosting, fun d' hd => ?_,
    fun d' hd hd' => ?_⟩
  · obtain ⟨hinn, hout, hq, hgrow, -⟩ := hr.joined d' hd
    exact ⟨hinn, hout, hq, hgrow, nofun⟩
  cases hp.symm.trans hd'
  obtain ⟨hlast, hout, -⟩ := hr.turns d hd hp
  exact ⟨hlast.imp (fun h => Nat.le_succ_of_le h) id,
    fun d' k hm => (hout d' k hm).trans (Nat.le_succ _), nofun⟩

-- ==================================================================== the handshake

/-- A party that is called joins, whatever it is doing. -/
theorem Link.joins {d : D} (hr : Link q p (.start d :: inn) out)
    (hp : p'.stage = .joined d) : Link p' q out inn := by
  obtain ⟨-, hstill, hq, -⟩ := hr.start d List.mem_cons_self
  refine ⟨fun d' hd => ?_, fun d' hd => ?_, fun d' hd => ?_, fun d' hm => ?_, fun d' hd => ?_,
    fun d' hd => ?_, fun d' hd => ?_, fun d' hd => ?_⟩
  · cases hp.symm.trans hd
  · cases hp.symm.trans hd
  · cases hp.symm.trans hd
  · exact (hstill _ hm).elim
  · cases hp.symm.trans hd
  · cases hp.symm.trans hd
  · cases hd.symm.trans (hq (by rw [hd]; trivial))
  · cases hp.symm.trans hd

theorem Link.joined_by {d : D} (hr : Link q p (.start d :: inn) out) (hp : p'.stage = .joined d)
    (hturn : p'.turn = 0) : Link q p' inn out := by
  obtain ⟨-, hstill, hq, hpair, hgrow⟩ := hr.start d List.mem_cons_self
  have hrest : ∀ m ∈ inn, m.Of d := fun m hm => ((List.pairwise_cons.mp hpair).1 m hm).2 rfl
  refine ⟨fun d' hd => (List.pairwise_cons.mp (hr.invite d' hd)).2, fun d' _ hd => ?_,
    fun d' hd ha => ?_, fun d' hm => ?_, fun d' hd _ _ => ?_, fun d' hd => ?_, fun d' hd => ?_,
    fun d' hd hd' => ?_⟩
  · cases hp.symm.trans hd
  · obtain ⟨hquiet, -⟩ := hr.accept d' hd ha
    cases hquiet _ List.mem_cons_self
  · exact (hrest _ hm : (Note.start d').Of d).elim
  · cases hd.symm.trans (hq (by rw [hd]; trivial))
    exact hp
  · obtain ⟨hof, hturns, hgrow, -⟩ := hr.hosting d' hd
    refine ⟨hof, fun d'' k hm => hturns d'' k (List.mem_cons_of_mem _ hm),
      (List.pairwise_cons.mp hgrow).2, fun hm => ?_⟩
    exact (hrest _ hm : (Note.start d').Of d).elim
  · cases hp.symm.trans hd
    refine ⟨hrest, fun m hm => (hstill m hm).of d, hq, (List.pairwise_cons.mp hgrow).2,
      fun _ m _ d' k _ => ?_⟩
    rw [hturn]
    exact ⟨Nat.zero_le _, nofun⟩
  · cases hp.symm.trans hd'
    obtain ⟨-, -, -, hlast⟩ := hr.hosting d hd
    refine ⟨?_, fun d' k hm => (hstill _ hm).elim, fun _ => ?_⟩
    · rcases hlast List.mem_cons_self with hz | hm
      · exact .inl (hz ▸ Nat.zero_le _)
      · exact .inr ((List.mem_cons.mp hm).resolve_left nofun)
    · rw [hturn]
      exact ⟨.inl (Nat.zero_le _), Nat.zero_le _, fun _ => Nat.zero_le _⟩

/-- The accept that is waited for opens. -/
theorem Link.opens {d : D} (h : Link p q out (.accept d :: inn)) (hp : p.stage = .inviting d)
    (hp' : p'.stage = .hosting d) (hturn : p'.turn = 0) :
    Link p' q (out ++ [.start d]) inn := by
  obtain ⟨hquiet, hq, hpair⟩ := h.accept d hp List.mem_cons_self
  have hstill : ∀ m ∈ inn, m.Still := fun m hm => (List.pairwise_cons.mp hpair).1 m hm rfl
  have hmem : ∀ {m}, m ∈ out ++ [.start d] → m = .decline ∨ m = .start d :=
    fun hm => (List.mem_append.mp hm).imp (hquiet _) List.mem_singleton.mp
  have hgrow : (out ++ [Note.start d]).Pairwise Grows := by
    refine List.pairwise_of_forall_mem_list fun m hm m' _ d₁ k₁ d₂ k₂ he _ => ?_
    rw [he] at hm
    exact ((hmem hm).elim nofun nofun : False).elim
  refine ⟨fun d' hd => ?_, fun d' hd => ?_, fun d' hd => ?_, fun d' hm => ?_, fun d' hd hno => ?_,
    fun d' hd => ?_, fun d' hd => ?_, fun d' _ hd => ?_⟩
  · cases hp'.symm.trans hd
  · cases hp'.symm.trans hd
  · cases hp'.symm.trans hd
  · cases (hmem hm).resolve_left nofun
    refine ⟨hq, hstill, fun _ => hp', List.pairwise_append.mpr ⟨?_, List.pairwise_singleton _ _, ?_⟩,
      hgrow⟩
    · refine List.pairwise_of_forall_mem_list fun m hm m' hm' => ⟨fun _ => hquiet m hm, fun he => ?_⟩
      rw [hquiet m hm] at he
      cases he
    · intro m hm m' _
      refine ⟨fun _ => hquiet m hm, fun he => ?_⟩
      rw [hquiet m hm] at he
      cases he
  · cases hp'.symm.trans hd
    exact absurd (List.mem_append_right _ (List.mem_singleton_self _)) (hno d)
  · cases hp'.symm.trans hd
    refine ⟨fun m hm => (hstill m hm).of d, fun d' k hm => ?_, hgrow, fun _ => .inl hturn⟩
    exact ((hmem hm).elim nofun nofun : False).elim
  · exact absurd (by rw [hd]; trivial) hq
  · exact absurd (by rw [hd]; trivial) hq

theorem Link.opened_by {d : D} (h : Link p q out (.accept d :: inn))
    (hr : Link q p (.accept d :: inn) out) (hp : p.stage = .inviting d)
    (hp' : p'.stage = .hosting d) : Link q p' inn (out ++ [.start d]) := by
  obtain ⟨hquiet, hq, hpair⟩ := h.accept d hp List.mem_cons_self
  have hstill : ∀ m ∈ inn, m.Still := fun m hm => (List.pairwise_cons.mp hpair).1 m hm rfl
  refine ⟨fun d' hd => (List.pairwise_cons.mp (hr.invite d' hd)).2, fun d' _ hd => ?_,
    fun d' _ ha => ?_, fun d' hm => ?_, fun d' hd => ?_, fun d' hd => ?_, fun d' hd => ?_,
    fun d' hd => ?_⟩
  · cases hp'.symm.trans hd
  · rcases List.mem_append.mp ha with ha | ha
    · cases hquiet _ ha
    · cases List.mem_singleton.mp ha
  · exact (hstill _ hm).elim
  · exact absurd (by rw [hd]; trivial) hq
  · exact absurd (by rw [hd]; trivial) hq
  · cases hp'.symm.trans hd
  · exact absurd (by rw [hd]; trivial) hq

/-- An invite that comes to an idle party. -/
theorem Link.received {d : D} (hr : Link q p (.invite d :: inn) out)
    (hp' : p'.stage = .invited d) : Link q p' inn out := by
  have hno : ¬ p'.stage.Active := by rw [hp']; exact id
  have hrest := hr.take_out trivial
  refine ⟨hrest.invite, fun d' hq hd => ?_, fun d' hq ha => ?_, fun d' hm => ?_,
    fun d' hq hs ha => absurd ha hno, hrest.hosting, fun d' hd => ?_, fun d' _ hd => ?_⟩
  · cases hp'.symm.trans hd
    exact fun m hm => (List.pairwise_cons.mp (hr.invite d hq)).1 m hm rfl
  · obtain ⟨hquiet, -, hpair⟩ := hrest.accept d' hq ha
    exact ⟨hquiet, hno, hpair⟩
  · obtain ⟨-, hs⟩ := hrest.start d' hm
    exact ⟨hno, hs⟩
  · cases hp'.symm.trans hd
  · cases hp'.symm.trans hd

/-- A party in no stage of its own making. -/
theorem Link.passive (h : Link p q out inn) (hno : ¬ p'.stage.Active)
    (hin : ∀ d, p'.stage ≠ .inviting d) : Link p' q out inn where
  invite d hd := absurd hd (hin d)
  invited d hd := absurd hd (hin d)
  accept d hd := absurd hd (hin d)
  start d hm := by
    obtain ⟨hq, hi, -, hpair⟩ := h.start d hm
    exact ⟨hq, hi, fun ha => absurd ha hno, hpair⟩
  host d hd := absurd (by rw [hd]; trivial) hno
  hosting d hd := absurd (by rw [hd]; trivial) hno
  joined d hd := by
    obtain ⟨hout, hinn, -, hrest⟩ := h.joined d hd
    exact ⟨hout, hinn, fun ha => absurd ha hno, hrest⟩
  turns d hd := absurd (by rw [hd]; trivial) hno

/-- The answer of an invited party. -/
theorem Link.accepted_by {d : D} (hr : Link q p inn out) (hp : p.stage = .invited d)
    (hp' : p'.stage = .invited d) : Link q p' inn (out ++ [.accept d]) := by
  have hno : ¬ p'.stage.Active := by rw [hp']; exact id
  have hmem : ∀ {m}, m ∈ out ++ [.accept d] → m ∈ out ∨ m = .accept d :=
    fun hm => (List.mem_append.mp hm).imp id List.mem_singleton.mp
  refine ⟨hr.invite, fun d' hq hd => ?_, fun d' hq ha => ?_, fun d' hm => ?_,
    fun d' _ _ ha => absurd ha hno, fun d' hd => ?_, fun d' hd => ?_, fun d' _ hd => ?_⟩
  · cases hp'.symm.trans hd
    exact hr.invited d hq hp
  · have hboth : (∀ m ∈ inn, m = .decline)
        ∧ out.Pairwise fun m m' => m = .accept d' → m'.Still := by
      by_cases hold : .accept d' ∈ out
      · obtain ⟨hquiet, -, hpair⟩ := hr.accept d' hq hold
        exact ⟨hquiet, hpair⟩
      · cases (hmem ha).resolve_left hold
        refine ⟨hr.invited d hq hp, List.pairwise_of_forall_mem_list fun m hm m' _ he => ?_⟩
        exact absurd (he ▸ hm) hold
    refine ⟨hboth.1, hno, List.pairwise_append.mpr ⟨hboth.2, List.pairwise_singleton _ _, ?_⟩⟩
    intro m _ m' hm' _
    rw [List.mem_singleton.mp hm']
    trivial
  · obtain ⟨-, hs, hrest⟩ := hr.start d' hm
    refine ⟨hno, fun m hm => ?_, hrest⟩
    rcases hmem hm with hm | rfl
    · exact hs m hm
    · trivial
  · obtain ⟨hof, hrest⟩ := hr.hosting d' hd
    refine ⟨fun m hm => ?_, hrest⟩
    rcases hmem hm with hm | rfl
    · exact hof m hm
    · trivial
  · cases hp'.symm.trans hd
  · cases hp'.symm.trans hd

/-- A new invite. -/
theorem Link.invites {d : D} (h : Link p q out inn) (hp : p.stage = .idle)
    (hp' : p'.stage = .inviting d) (hout : .invite d ∉ out) (hinn : .accept d ∉ inn)
    (hq : q.stage ≠ .invited d) : Link p' q (out ++ [.invite d]) inn := by
  have hsay : Link p q (out ++ [.invite d]) inn := by
    refine h.say_out (fun m hm => ?_) (.inl fun d' hd => ?_)
    · rw [List.mem_singleton.mp hm]
      trivial
    · cases hp.symm.trans hd
  have hno : ¬ p'.stage.Active := by rw [hp']; exact id
  refine ⟨fun d' hd => ?_, fun d' hd hd' => ?_, fun d' hd ha => ?_, fun d' hm => ?_,
    fun d' hd => ?_, fun d' hd => ?_, fun d' hd => ?_, fun d' hd => ?_⟩
  · cases hp'.symm.trans hd
    refine List.pairwise_append.mpr ⟨?_, List.pairwise_singleton _ _, ?_⟩
    · exact List.pairwise_of_forall_mem_list fun m hm m' _ he => absurd (he ▸ hm) hout
    · exact fun m hm m' _ he => absurd (he ▸ hm) hout
  · cases hp'.symm.trans hd
    exact absurd hd' hq
  · cases hp'.symm.trans hd
    exact absurd ha hinn
  · obtain ⟨hq', hi, -, hpair⟩ := hsay.start d' hm
    exact ⟨hq', hi, fun ha => absurd ha hno, hpair⟩
  · cases hp'.symm.trans hd
  · cases hp'.symm.trans hd
  · obtain ⟨ho, hi, -, hrest⟩ := hsay.joined d' hd
    exact ⟨ho, hi, fun ha => absurd ha hno, hrest⟩
  · cases hp'.symm.trans hd

/-- The other party is in no debate, and has no answer out. -/
theorem Link.invited_by {d : D} (hr : Link q p inn out) (hno : ¬ p'.stage.Active)
    (hin : ∀ d, p'.stage ≠ .invited d) : Link q p' inn (out ++ [.invite d]) := by
  have hsay : Link q p inn (out ++ [.invite d]) := by
    refine hr.say_inn (fun m hm => ?_) fun d' hm => ?_
    · rw [List.mem_singleton.mp hm]
      trivial
    · cases List.mem_singleton.mp hm
  refine ⟨hsay.invite, fun d' _ hd => absurd hd (hin d'), fun d' hq ha => ?_, fun d' hm => ?_,
    fun d' _ _ ha => absurd ha hno, hsay.hosting, fun d' hd => ?_, fun d' _ hd => ?_⟩
  · obtain ⟨hquiet, -, hpair⟩ := hsay.accept d' hq ha
    exact ⟨hquiet, hno, hpair⟩
  · obtain ⟨-, hrest⟩ := hsay.start d' hm
    exact ⟨hno, hrest⟩
  · exact absurd (by rw [hd]; trivial) hno
  · exact absurd (by rw [hd]; trivial) hno

-- ========================================================================== a move

variable {own own' fresh : D → Prop} {n : Option (Note D)}

/-- Both directions. -/
def Bond (p q : Party D) (out inn : List (Note D)) : Prop :=
  Link p q out inn ∧ Link q p inn out

/-- Words without effect on the stage. -/
theorem Bond.say (h : Bond p q out inn) (hs : ∀ m ∈ sent, m.Closing)
    (hd : (∀ d, p.stage ≠ .inviting d) ∨ ∀ m ∈ sent, m = .decline) :
    Bond p q (out ++ sent) inn := by
  have hstill : ∀ m ∈ sent, m.Still := fun m hm => (hs m hm).still
  exact ⟨h.1.say_out hstill hd, h.2.say_inn hstill fun d hm => hs _ hm⟩

theorem Bond.take {m : Note D} (h : Bond p q out (m :: inn)) (hm : m.Still) : Bond p q out inn :=
  ⟨h.1.take_inn hm, h.2.take_out hm⟩

/-- A move keeps both directions. -/
theorem Move.bond [DecidableEq D] (hmove : Move own fresh p n p' sent)
    (h : Bond p q out (n.toList ++ inn))
    (hnew : ∀ d, fresh d → .invite d ∉ out ∧ .accept d ∉ inn ∧ q.stage ≠ .invited d) :
    Bond p' q (out ++ sent) inn := by
  cases hmove with
  | keep hstart hturn hsent =>
    have htake : Bond p q out inn := by
      cases n with
      | none => exact h
      | some m =>
        cases m with
        | start d => exact absurd rfl (hstart d)
        | turn d k => exact ⟨h.1.skip_inn (hturn d k rfl), h.2.skip_out (hturn d k rfl)⟩
        | _ => exact h.take trivial
    exact htake.say (fun m hm => by rw [hsent m hm]; trivial) (.inr hsent)
  | leave hidle _ hstill hclose =>
    have htake : Bond p q out inn := by
      cases n with
      | none => exact h
      | some m => exact h.take (hstill m rfl)
    have hleft : Bond p' q out inn := ⟨htake.1.idle_left hidle, htake.2.idle_right hidle⟩
    exact hleft.say hclose (.inl fun d hd => by rw [hidle] at hd; cases hd)
  | invite hidle hfresh _ =>
    obtain ⟨hout, hinn, hq⟩ := hnew _ hfresh
    exact ⟨h.1.invites hidle rfl hout hinn hq, h.2.invited_by id nofun⟩
  | receive _ =>
    rw [List.append_nil]
    exact ⟨(h.1.take_inn trivial).passive id nofun, h.2.received rfl⟩
  | @accept d hp =>
    have hno : ¬ p.stage.Active := by rw [hp]; exact id
    have hin : ∀ d, p.stage ≠ .inviting d := by rw [hp]; exact nofun
    have hsame : Link { p with agreed := insert d p.agreed } q out inn := h.1.passive hno hin
    refine ⟨hsame.say_out (fun m hm => ?_) (.inl hin), h.2.accepted_by hp hp⟩
    rw [List.mem_singleton.mp hm]
    trivial
  | «open» hp => exact ⟨h.1.opens hp rfl rfl, h.1.opened_by h.2 hp rfl⟩
  | join =>
    rw [List.append_nil]
    exact ⟨h.2.joins rfl, h.2.joined_by rfl rfl⟩
  | announce hp =>
    rcases hp with hp | ⟨hp, hodd⟩
    · exact ⟨h.1.host_announces hp, h.1.host_announced h.2 hp⟩
    · exact ⟨h.1.joined_announces h.2 hp, h.2.joined_announced hp hodd⟩
  | drift hp =>
    rw [List.append_nil]
    exact ⟨h.1.drifts hp, h.2.drifted hp⟩
  | hear hact hk =>
    rw [List.append_nil]
    exact ⟨h.1.hear_inn hk, h.2.hear_out hact hk⟩

-- ====================================================================== what holds

/-- Two that take part with nothing on its way are in the same thing, one as its
host. -/
theorem Bond.meet (h : Bond p q [] []) (hp : p.stage.Active) (hq : q.stage.Active) :
    ∃ d, p.stage = .hosting d ∧ q.stage = .joined d
      ∨ p.stage = .joined d ∧ q.stage = .hosting d := by
  cases hs : p.stage with
  | hosting d => exact ⟨d, .inl ⟨rfl, h.1.host d hs nofun hq⟩⟩
  | joined d => exact ⟨d, .inr ⟨rfl, (h.2.joined d hs).2.2.1 hq⟩⟩
  | idle | inviting _ | invited _ =>
    rw [hs] at hp
    exact hp.elim

/-- The turn is the same then, unless the joined one has drifted. -/
theorem Link.same_turn {d : D} (h : Link p q [] []) (hp : p.stage = .hosting d)
    (hq : q.stage = .joined d) (ha : q.ahead = false) : p.turn = q.turn := by
  obtain ⟨hlast, -, hahead⟩ := h.turns d hp hq
  exact le_antisymm (hlast.resolve_right nofun) ((hahead ha).1.resolve_right nofun)

/-- Nor does it pass a turn that comes from its host. -/
theorem Link.no_stale {d d' : D} {k : Nat} (h : Link p q (.turn d' k :: out) inn)
    (hq : q.stage = .joined d) (ha : q.ahead = false) : d' = d ∧ q.turn ≤ k := by
  obtain ⟨hout, -, -, -, hfit⟩ := h.joined d hq
  exact ⟨hout _ List.mem_cons_self, (hfit ha _ List.mem_cons_self d' k rfl).1⟩

-- ======================================================================== consent

/-- What a party has agreed to, as far as it is taken part in, or may be. -/
structure Consent (own own' : D → Prop) (p q : Party D) (out inn : List (Note D)) : Prop where
  active : ∀ d, p.stage = .hosting d ∨ p.stage = .joined d → d ∈ p.agreed
  inviting : ∀ d, p.stage = .inviting d → d ∈ p.agreed ∧ own d
  start : ∀ d, .start d ∈ inn → d ∈ p.agreed ∧ own' d
  accept : ∀ d, .accept d ∈ out → q.stage = .inviting d → d ∈ p.agreed

/-- What a party takes back is its own, or it is not waited for. -/
def TakesBack (own : D → Prop) (p q p' : Party D) (out inn : List (Note D)) : Prop :=
  ∀ d ∈ p.agreed, d ∉ p'.agreed →
    own d ∨ .start d ∉ inn ∧ (.accept d ∈ out → q.stage ≠ .inviting d)

/-- A move keeps the consent of the one that makes it. -/
theorem Move.consent [DecidableEq D] (hmove : Move own fresh p n p' sent)
    (h : Consent own own' p q out (n.toList ++ inn)) (hown : ∀ d, own d → own' d → False)
    (hq : ∀ d, q.stage = .inviting d → own' d) (hback : TakesBack own p q p' out inn) :
    Consent own own' p' q (out ++ sent) inn := by
  have hinn : ∀ {d}, .start d ∈ inn → d ∈ p.agreed ∧ own' d :=
    fun hm => h.start _ (List.mem_append_right _ hm)
  cases hmove with
  | keep _ _ hsent =>
    refine ⟨h.active, h.inviting, fun d hm => hinn hm, fun d hm hd => ?_⟩
    rcases List.mem_append.mp hm with hm | hm
    · exact h.accept d hm hd
    · cases hsent _ hm
  | leave hidle _ _ hclose =>
    refine ⟨fun d hd => ?_, fun d hd => ?_, fun d hm => ⟨?_, (hinn hm).2⟩, fun d hm hd => ?_⟩
    · rw [hidle] at hd
      exact (hd.elim nofun nofun : False).elim
    · rw [hidle] at hd
      cases hd
    · by_contra hno
      rcases hback d (hinn hm).1 hno with ho | ⟨hs, -⟩
      · exact hown d ho (hinn hm).2
      · exact hs hm
    · rcases List.mem_append.mp hm with hm | hm
      · by_contra hno
        rcases hback d (h.accept d hm hd) hno with ho | ⟨-, hs⟩
        · exact hown d ho (hq d hd)
        · exact hs hm hd
      · exact (hclose _ hm).elim
  | invite _ _ ho =>
    refine ⟨fun d hd => ?_, fun d hd => ?_, fun d hm => ?_, fun d hm hd => ?_⟩
    · exact (hd.elim nofun nofun : False).elim
    · cases hd
      exact ⟨Finset.mem_insert_self _ _, ho⟩
    · exact ⟨Finset.mem_insert_of_mem (hinn hm).1, (hinn hm).2⟩
    · have hm := (List.mem_append.mp hm).resolve_right fun hm => by
        cases List.mem_singleton.mp hm
      exact Finset.mem_insert_of_mem (h.accept d hm hd)
  | receive _ =>
    refine ⟨fun d hd => ?_, nofun, fun d hm => hinn hm,
      fun d hm hd => h.accept d (by simpa using hm) hd⟩
    exact (hd.elim nofun nofun : False).elim
  | accept hp =>
    refine ⟨fun d hd => Finset.mem_insert_of_mem (h.active d hd), fun d hd => ?_, fun d hm => ?_,
      fun d hm hd => ?_⟩
    · cases hp.symm.trans hd
    · exact ⟨Finset.mem_insert_of_mem (hinn hm).1, (hinn hm).2⟩
    · rcases List.mem_append.mp hm with hm | hm
      · exact Finset.mem_insert_of_mem (h.accept d hm hd)
      · cases List.mem_singleton.mp hm
        exact Finset.mem_insert_self _ _
  | «open» hp =>
    refine ⟨fun d hd => ?_, nofun, fun d hm => hinn hm, fun d hm hd => ?_⟩
    · cases hd.resolve_right nofun
      exact (h.inviting _ hp).1
    · refine h.accept d ((List.mem_append.mp hm).resolve_right fun hm => ?_) hd
      cases List.mem_singleton.mp hm
  | join =>
    refine ⟨fun d hd => ?_, nofun, fun d hm => hinn hm,
      fun d hm hd => h.accept d (by simpa using hm) hd⟩
    cases hd.resolve_left nofun
    exact (h.start _ List.mem_cons_self).1
  | announce _ =>
    refine ⟨h.active, h.inviting, fun d hm => hinn hm, fun d hm hd => h.accept d ?_ hd⟩
    refine (List.mem_append.mp hm).resolve_right fun hm => ?_
    cases List.mem_singleton.mp hm
  | drift _ =>
    exact ⟨h.active, h.inviting, fun d hm => hinn hm,
      fun d hm hd => h.accept d (by simpa using hm) hd⟩
  | hear _ _ =>
    exact ⟨h.active, h.inviting, fun d hm => hinn hm,
      fun d hm hd => h.accept d (by simpa using hm) hd⟩

/-- And of the other. -/
theorem Move.other_consent [DecidableEq D] (hmove : Move own fresh p n p' sent)
    (h : Consent own' own q p (n.toList ++ inn) out) (hp : ∀ d, p.stage = .inviting d → own d)
    (hnew : ∀ d, fresh d → .accept d ∉ inn) : Consent own' own q p' inn (out ++ sent) := by
  have hinn : ∀ {d}, .accept d ∈ inn → p.stage = .inviting d → d ∈ q.agreed :=
    fun hm => h.accept _ (List.mem_append_right _ hm)
  have hstart : (∀ d, .start d ∉ sent) → ∀ d, .start d ∈ out ++ sent → d ∈ q.agreed ∧ own d :=
    fun hno d hm => h.start d ((List.mem_append.mp hm).resolve_right (hno d))
  cases hmove with
  | keep _ _ hsent =>
    refine ⟨h.active, h.inviting, hstart fun d hm => ?_, fun d => hinn⟩
    cases hsent _ hm
  | leave hidle _ _ hclose =>
    refine ⟨h.active, h.inviting, hstart fun d hm => hclose _ hm, fun d _ hd => ?_⟩
    rw [hidle] at hd
    cases hd
  | invite _ hf _ =>
    refine ⟨h.active, h.inviting, hstart (by simp), fun d hm hd => ?_⟩
    cases hd
    exact absurd hm (hnew _ hf)
  | receive _ => exact ⟨h.active, h.inviting, hstart (by simp), fun d _ => nofun⟩
  | accept _ => exact ⟨h.active, h.inviting, hstart (by simp), fun d => hinn⟩
  | «open» hi =>
    refine ⟨h.active, h.inviting, fun d hm => ?_, fun d _ => nofun⟩
    rcases List.mem_append.mp hm with hm | hm
    · exact h.start d hm
    · cases List.mem_singleton.mp hm
      exact ⟨h.accept _ List.mem_cons_self hi, hp _ hi⟩
  | join => exact ⟨h.active, h.inviting, hstart (by simp), fun d _ => nofun⟩
  | announce _ => exact ⟨h.active, h.inviting, hstart (by simp), fun d => hinn⟩
  | drift _ => exact ⟨h.active, h.inviting, hstart (by simp), fun d => hinn⟩
  | hear _ _ => exact ⟨h.active, h.inviting, hstart (by simp), fun d => hinn⟩

end Ruletka.Handshake
