/-
What one tick of an agent can do.

An agent that waits renews its offer, claims at most one partner for the
seeds of that offer and of one in the lobby, and enters a match only on
claims of both sides that the lobby holds; with the match it posts a leave
mark of its newest version. An idle or matched agent only reads the clock.
-/
import Ruletka.Contract.Agent

namespace Ruletka.Contract

-- ==================================================================== whom it selects

namespace Ed25519

variable (ed : Ed25519)

theorem selectPartner_ne {me : PeerId} {myOffer : WaitingOffer} {live : List WaitingOffer}
    {epoch : Nat} {alreadyMatched : List PeerId} {partner : PeerId}
    (h : ed.selectPartner me myOffer live epoch alreadyMatched = some partner) :
    partner ≠ me := by
  have turn : ∀ best other, (∀ b ∈ best, b.1 ≠ me) →
      ∀ b ∈ ed.better me myOffer epoch alreadyMatched best other, b.1 ≠ me := by
    intro best other hbest b hb
    unfold better at hb
    split at hb
    case isTrue => exact hbest b hb
    case isFalse hne =>
      split at hb
      case isTrue => exact hbest b hb
      case isFalse =>
        split at hb
        case isTrue => exact hbest b hb
        case isFalse =>
          have hother : ∀ score, b = (other.peerId, score) → b.1 ≠ me := by
            rintro score rfl
            exact hne
          cases best with
          | none => exact hother _ (Option.some.inj hb).symm
          | some best =>
              simp only at hb
              split at hb
              · exact hother _ (Option.some.inj hb).symm
              · split at hb
                · exact hother _ (Option.some.inj hb).symm
                · exact hbest b hb
  have loop : ∀ (live : List WaitingOffer) best, (∀ b ∈ best, b.1 ≠ me) →
      ∀ b ∈ live.foldl (ed.better me myOffer epoch alreadyMatched) best, b.1 ≠ me := by
    intro live
    induction live with
    | nil => exact fun _ hbest => hbest
    | cons o live ih => exact fun best hbest => ih _ (turn best o hbest)
  obtain ⟨b, hb, rfl⟩ := Option.map_eq_some_iff.mp h
  exact loop live none (fun _ hb => nomatch hb) b hb

end Ed25519

-- ========================================================================= the claims

namespace LobbyView

variable {s : LobbyView}

theorem mem_claimsOn {a b : PeerId} {c : Claim} :
    c ∈ s.claimsOn a b ↔ c ∈ s.claims ∧ c.claimer = a ∧ c.target = b := by
  unfold claimsOn
  rw [List.mem_filter, Bool.and_eq_true, decide_eq_true_eq, decide_eq_true_eq]

/-- A mutual match is made of a claim on either side. -/
theorem mutualMatch_some {a b : PeerId} {sid : SessionId} (h : s.mutualMatch a b = some sid) :
    (∃ c ∈ s.claims, c.claimer = a ∧ c.target = b ∧ c.sessionId = sid)
      ∧ ∃ c ∈ s.claims, c.claimer = b ∧ c.target = a ∧ c.sessionId = sid := by
  obtain ⟨ca, hca, h⟩ := List.exists_of_findSome?_eq_some h
  obtain ⟨cb, hcb, h⟩ := List.exists_of_findSome?_eq_some h
  split at h
  case isTrue heq =>
    cases h
    obtain ⟨hmem, hclaimer, htarget⟩ := mem_claimsOn.mp hca
    obtain ⟨hmem', hclaimer', htarget'⟩ := mem_claimsOn.mp hcb
    exact ⟨⟨ca, hmem, hclaimer, htarget, rfl⟩, cb, hmem', hclaimer', htarget', heq.symm⟩
  case isFalse => cases h

end LobbyView

-- =========================================================================== the tick

namespace Agent

variable (ed : Ed25519) (lobby : LobbyView)

/-- What a claim of the agent is for: its own seed and that of an offer the
lobby held. -/
structure ClaimsFor (a : Agent) (c : Claim) : Prop where
  claimer : c.claimer = a.peerId
  ne : c.target ≠ a.peerId
  seeds : ∃ nowMs, ∃ their ∈ lobby.liveOffers nowMs, their.peerId = c.target
    ∧ c.sessionId = ed.derive a.peerId c.target a.sessionSeed their.sessionSeed

/-- How a tick of a waiting agent ends. -/
structure Matches (a a' : Agent) (d : LobbyDelta) (partner : PeerId) (sid : SessionId) : Prop where
  phase : a'.phase = .matched partner sid
  leaves : d.leaves = [a.identity.makeLeave a'.version a'.nowMs]
  mutual_ : lobby.mutualMatch a.peerId partner = some sid
  «meta» : a'.session.«meta» = some (a'.matchMeta ed partner sid lobby)

/-- A tick of a waiting agent. -/
structure Renews (a a' : Agent) (d : LobbyDelta) : Prop where
  identity : a'.identity = a.identity
  seed : a'.sessionSeed = a.sessionSeed
  version : a'.version = nextVersion a.version
  offers : ∃ o, d.offers = [o] ∧ o.peerId = a.peerId ∧ o.version = a'.version
    ∧ o.sessionSeed = a.sessionSeed
  claims : ∀ c ∈ d.claims, a.ClaimsFor ed lobby c
  ends : (d.leaves = [] ∧ ∀ p s, a'.phase ≠ .matched p s)
    ∨ ∃ partner sid, a.Matches ed lobby a' d partner sid

variable {ed lobby} {a : Agent}

/-- The seeds of a claim are those of the two offers it is made from. -/
theorem choose_some {offer : WaitingOffer} {live : List WaitingOffer} {epoch : Nat}
    {matched : List PeerId} {partner : PeerId} {sid : SessionId}
    (hoffer : offer.peerId = a.peerId)
    (h : a.choose ed offer (a.liveOwned offer live) epoch matched = some (partner, sid)) :
    partner ≠ a.peerId ∧ ∃ their ∈ live, their.peerId = partner
      ∧ sid = ed.derive a.peerId partner offer.sessionSeed their.sessionSeed := by
  obtain ⟨p, hp, h⟩ := Option.bind_eq_some_iff.mp h
  obtain ⟨their, hfind, h⟩ := Option.bind_eq_some_iff.mp h
  split at h
  case isFalse => cases h
  case isTrue =>
    cases h
    have hne := ed.selectPartner_ne hp
    have hid : their.peerId = partner := by simpa using List.find?_some hfind
    have hmem := List.mem_of_find?_eq_some hfind
    refine ⟨hne, their, ?_, hid, ?_⟩
    · -- the partner's offer is not our own renewed one
      unfold liveOwned at hmem
      split at hmem
      · obtain ⟨o, ho, heq⟩ := List.mem_map.mp hmem
        split at heq
        · rw [← heq, hoffer] at hid
          exact absurd hid.symm hne
        · exact heq ▸ ho
      · rcases List.mem_append.mp hmem with hmem | hmem
        · exact hmem
        · rw [List.mem_singleton.mp hmem, hoffer] at hid
          exact absurd hid.symm hne
    · unfold Ed25519.sessionForPair
      rw [hoffer, hid]

/-- What a tick is to do is done by `claimPartner`, but for the match. -/
theorem checkMutual_cases {live : List WaitingOffer} {delta : LobbyDelta}
    (hphase : ∀ p s, a.phase ≠ .matched p s) :
    a.checkMutual ed live lobby delta = (a, delta)
      ∨ ∃ partner sid, lobby.mutualMatch a.peerId partner = some sid
        ∧ a.checkMutual ed live lobby delta = a.enterMatched ed partner sid lobby delta := by
  cases hp : a.phase with
  | idle =>
      refine .inl ?_
      unfold checkMutual
      rw [hp]
  | matched p s => exact absurd hp (hphase p s)
  | claiming target s =>
      cases hm : lobby.mutualMatch a.peerId target with
      | none => exact .inl (by simp only [checkMutual, hp, hm])
      | some sid => exact .inr ⟨target, sid, hm, by simp only [checkMutual, hp, hm]⟩
  | waiting =>
      cases hm : live.findSome? (a.sought lobby) with
      | none => exact .inl (by simp only [checkMutual, hp, hm])
      | some found =>
          obtain ⟨o, -, ho⟩ := List.exists_of_findSome?_eq_some hm
          unfold sought at ho
          split at ho
          case isTrue => cases ho
          case isFalse =>
            obtain ⟨s, hs, rfl⟩ := Option.map_eq_some_iff.mp ho
            exact .inr ⟨o.peerId, s, hs, by simp only [checkMutual, hp, hm]⟩

/-- After claiming, the phase may be a claim; all else is as before. -/
theorem claimPartner_cases (b : Agent) (live : List WaitingOffer) (nowMs : Nat)
    (hlive : live = lobby.liveOffers nowMs) (hb : ∀ p s, b.phase ≠ .matched p s) :
    ∃ phase claims,
      b.claimPartner ed b.currentOffer (b.liveOwned b.currentOffer live) lobby
        = ({ b with phase := phase }, ⟨[b.currentOffer], claims, []⟩)
      ∧ (∀ p s, phase ≠ .matched p s) ∧ ∀ c ∈ claims, b.ClaimsFor ed lobby c := by
  unfold claimPartner
  simp only
  split
  case h_1 partner sid hchoose =>
    refine ⟨_, _, rfl, fun _ _ h => (nomatch h), fun c hc => ?_⟩
    obtain rfl := List.mem_singleton.mp hc
    obtain ⟨hne, their, hmem, hid, hsid⟩ := choose_some (a := b) rfl hchoose
    exact ⟨rfl, hne, nowMs, their, hlive ▸ hmem, hid, hsid⟩
  case h_2 => exact ⟨_, _, rfl, hb, fun _ hc => absurd hc List.not_mem_nil⟩

theorem renew_renews (ed : Ed25519) (lobby : LobbyView)
    (hmatched : ∀ p s, a.phase ≠ .matched p s) :
    a.Renews ed lobby (a.renew ed lobby).1 (a.renew ed lobby).2 := by
  -- the agent with its version raised
  let b : Agent := { a with version := nextVersion a.version }
  let live := lobby.liveOffers (max lobby.networkNowMs b.nowMs)
  obtain ⟨phase, claims, hclaimed, hphase, hclaims⟩ :=
    @claimPartner_cases ed lobby b live _ rfl hmatched
  have hrenew : a.renew ed lobby
      = ({ b with phase := phase } : Agent).checkMutual ed (b.liveOwned b.currentOffer live) lobby
          ⟨[b.currentOffer], claims, []⟩ := by
    change ((b.claimPartner ed b.currentOffer (b.liveOwned b.currentOffer live)
        lobby).1).checkMutual ed (b.liveOwned b.currentOffer live) lobby
      (b.claimPartner ed b.currentOffer (b.liveOwned b.currentOffer live) lobby).2 = _
    rw [hclaimed]
  have hoffer : ∃ o, [b.currentOffer] = [o] ∧ o.peerId = a.peerId
      ∧ o.version = nextVersion a.version ∧ o.sessionSeed = a.sessionSeed :=
    ⟨b.currentOffer, rfl, rfl, rfl, rfl⟩
  have hclaims' : ∀ c ∈ claims, a.ClaimsFor ed lobby c := fun c hc =>
    ⟨(hclaims c hc).claimer, (hclaims c hc).ne, (hclaims c hc).seeds⟩
  rw [hrenew]
  rcases @checkMutual_cases ed lobby { b with phase := phase } (b.liveOwned b.currentOffer live)
    ⟨[b.currentOffer], claims, []⟩ hphase with h | ⟨partner, sid, hmutual, h⟩
  · rw [h]
    exact ⟨rfl, rfl, rfl, hoffer, hclaims', .inl ⟨rfl, hphase⟩⟩
  · rw [h]
    exact ⟨rfl, rfl, rfl, hoffer, hclaims', .inr ⟨partner, sid, rfl, rfl, hmutual, rfl⟩⟩

/-- **Tick**: an agent that does not wait only reads the clock, one that does
renews its offer. -/
theorem tick_cases (a : Agent) (ed : Ed25519) (lobby : LobbyView) (nowMs : Nat) :
    ((a.phase = .idle ∨ ∃ p s, a.phase = .matched p s)
        ∧ a.tick ed lobby nowMs = ({ a with nowMs := max nowMs a.nowMs }, ⟨[], [], []⟩))
      ∨ ((∀ p s, a.phase ≠ .matched p s)
        ∧ a.Renews ed lobby (a.tick ed lobby nowMs).1 (a.tick ed lobby nowMs).2) := by
  let b : Agent := { a with nowMs := max nowMs a.nowMs }
  have active : a.tick ed lobby nowMs = b.renew ed lobby → (∀ p s, a.phase ≠ .matched p s) →
      a.Renews ed lobby (a.tick ed lobby nowMs).1 (a.tick ed lobby nowMs).2 := by
    intro htick hphase
    rw [htick]
    have h := renew_renews (a := b) ed lobby hphase
    refine ⟨h.identity, h.seed, h.version, h.offers, fun c hc => ?_, ?_⟩
    · exact ⟨(h.claims c hc).claimer, (h.claims c hc).ne, (h.claims c hc).seeds⟩
    · refine h.ends.imp_right fun ⟨partner, sid, hm⟩ => ⟨partner, sid, ?_⟩
      exact ⟨hm.phase, hm.leaves, hm.mutual_, hm.meta⟩
  cases hp : a.phase with
  | idle =>
      refine .inl ⟨.inl rfl, ?_⟩
      unfold tick
      simp only [hp]
  | matched p s =>
      refine .inl ⟨.inr ⟨p, s, rfl⟩, ?_⟩
      unfold tick
      simp only [hp]
  | waiting =>
      refine .inr ⟨fun _ _ h => (nomatch h), active ?_ fun _ _ h => (nomatch hp.symm.trans h)⟩
      unfold tick
      simp only
      split
      · rfl
      · rfl
      case h_3 h => exact nomatch hp.symm.trans h
      case h_4 h => exact nomatch hp.symm.trans h
  | claiming t s =>
      refine .inr ⟨fun _ _ h => (nomatch h), active ?_ fun _ _ h => (nomatch hp.symm.trans h)⟩
      unfold tick
      simp only
      split
      · rfl
      · rfl
      case h_3 h => exact nomatch hp.symm.trans h
      case h_4 h => exact nomatch hp.symm.trans h

end Agent

end Ruletka.Contract
