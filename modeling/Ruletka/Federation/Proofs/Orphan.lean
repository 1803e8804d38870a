/-
A grant that came back too late.

The hub asked has matched its client when it grants a claim. When the grant
comes back and the client it was claimed for no longer waits, the answer is
dropped, and nobody is told. From then on the session has one side only: it is
on no grant that is still on its way, and session ids are not used again
(`FedNet.Orphaned`).
-/
import Ruletka.Federation.Proofs.Net

namespace Ruletka

variable {Hid : Type} {F : FedConfig Hid}

namespace FedNet

variable {p p' : FedNet Hid} {g : Grant Hid}

/-- A grant that has come back, with nothing of it on the asker's books. -/
structure Orphaned (p : FedNet Hid) (g : Grant Hid) : Prop where
  granted : g ∈ p.granted
  back : g ∉ p.grants
  absent : (p.simple g.claim.asker).fedSessions.get? g.sid = none

variable [DecidableEq Hid]

theorem simple_put (i j : Hid) (s : ChatHub) :
    (p.put i s).simple j = if j = i then s.dm.hub else p.simple j := by
  unfold simple put
  dsimp only
  split
  · next hj => rw [hj, Function.update_self]
  · next hj => rw [Function.update_of_ne hj]

/-- One hub changes, and gets nothing of the grant. -/
theorem Orphaned.put (ho : p.Orphaned g) {i : Hid} {s : ChatHub}
    (hs : (p.simple i).fedSessions.get? g.sid = none → s.dm.hub.fedSessions.get? g.sid = none) :
    (p.put i s).Orphaned g where
  granted := ho.granted
  back := ho.back
  absent := by
    rw [simple_put]
    split
    · next hi =>
      rw [← hi] at hs
      exact hs ho.absent
    · exact ho.absent

theorem Orphaned.putHub (ho : p.Orphaned g) {i : Hid} {h' : SimpleHub}
    (hs : (p.simple i).fedSessions.get? g.sid = none → h'.fedSessions.get? g.sid = none) :
    (p.putHub F i h').Orphaned g := ho.put hs

omit [DecidableEq Hid] in
/-- A session is entered under another id. -/
theorem absent_enter {h : SimpleHub} {sid : SessionId} {x : ConnId} {env : Env}
    {id : SessionId × String} {r : FedPeerDesc} {base : String} {o : Bool} (hne : id.1 ≠ sid)
    (habsent : h.fedSessions.get? sid = none) :
    ((h.dequeueClient x).startFederatedMatch env x id r base o).fedSessions.get? sid = none := by
  have hbooks : ((h.dequeueClient x).startFederatedMatch env x id r base o).fedSessions
      = (h.fedBooks.enter x id.1 ⟨x, h.peerIdOf x, r.peerId, base⟩).sessions := rfl
  rw [hbooks, FedBooks.enter]
  dsimp only
  rw [Table.get?_set, if_neg hne.symm]
  exact habsent

/-- **Step**: nothing brings the asker's side of an orphaned grant back. -/
theorem Orphaned.step (hp : p.InStep F) (ho : p.Orphaned g) {n : Nat} {e : FedEvent Hid}
    (hr : p.step F n e = some p') : p'.Orphaned g := by
  cases e with
  | own i input =>
      dsimp only [FedNet.step] at hr
      split at hr
      · cases hr
      next habroad =>
      obtain ⟨h', hh, heq⟩ := Option.map_eq_some_iff.mp hr
      rw [← heq]
      refine ho.putHub fun habsent => ?_
      have hclear : ∀ (b : FedBooks) x, b.sessions.get? g.sid = none →
          (b.clear x).sessions.get? g.sid = none := by
        intro b x hb
        unfold FedBooks.clear
        split
        · exact hb
        · dsimp only
          rw [Table.get?_del]
          split
          · rfl
          · exact hb
      have hpush : ∀ (b : FedBooks) x sess o, b.Relays x sess o → b.sessions.get? g.sid = none →
          (b.push o).sessions.get? g.sid = none := fun _ _ _ _ _ hb => hb
      exact (SimpleHub.Sane.own hclear hpush (by simpa using habroad) (hp.sane i) habsent hh).2
  | chat i env id raw =>
      cases hr
      refine ho.put fun habsent => ?_
      have hhub : ((p.hub i).handleChat F.table env id raw).dm.hub = p.simple i := by
        rcases (p.hub i).outer_handleChat id raw with hout | ⟨_, _, _, _, -, hout⟩
        · exact congrArg Prod.fst hout
        · exact congrArg Prod.fst hout
      rw [hhub]
      exact habsent
  | tick i env =>
      cases hr
      exact { ho with }
  | ask i target =>
      dsimp only [FedNet.step] at hr
      split at hr
      · cases hr
      obtain ⟨c, -, heq⟩ := Option.map_eq_some_iff.mp hr
      rw [← heq]
      exact { ho with }
  | serve c env =>
      dsimp only [FedNet.step] at hr
      split at hr
      case isFalse => cases hr
      case isTrue hc =>
      cases hr
      have hne : env.fedSession.1 ≠ g.sid := fun heq => hc.2 g ho.granted heq.symm
      have hclaimed : (p.simple c.target).fedSessions.get? g.sid = none →
          ((p.simple c.target).federationClaim env c.req).fedSessions.get? g.sid = none := by
        rcases p.answer_cases c env with ⟨x, -, -, hclaim⟩ | ⟨-, hsame⟩
        · rw [hclaim]
          exact absent_enter hne
        · rw [hsame]
          exact id
      refine ⟨List.mem_append_left _ ho.granted, fun hmem => ?_, (ho.putHub hclaimed).absent⟩
      rcases List.mem_append.mp hmem with hmem | hmem
      · exact ho.back hmem
      · rcases p.answer_cases c env with ⟨x, -, hanswer, -⟩ | ⟨hanswer, -⟩
        · rw [hanswer] at hmem
          exact hne (congrArg Grant.sid (List.mem_singleton.mp hmem)).symm
        · rw [hanswer] at hmem
          cases hmem
  | receive g' env =>
      dsimp only [FedNet.step] at hr
      split at hr
      case isFalse => cases hr
      case isTrue hg' =>
      cases hr
      have hne : g'.sid ≠ g.sid := by
        intro heq
        rw [hp.grant_eq (hp.pending.subset hg') ho.granted heq] at hg'
        exact ho.back hg'
      have happlied : (p.simple g'.claim.asker).fedSessions.get? g.sid = none →
          ((p.simple g'.claim.asker).federationApplyClaim env g'.claim.client
            (F.base g'.claim.target) g'.resp).fedSessions.get? g.sid = none := by
        rcases (p.simple g'.claim.asker).federationApplyClaim_cases env g'.claim.client
          (F.base g'.claim.target) g'.resp with ⟨-, happly⟩ | hsame
        · rw [happly]
          exact absent_enter hne
        · rw [hsame]
          exact id
      exact ⟨ho.granted, fun hmem => ho.back (List.mem_of_mem_erase hmem),
        (ho.putHub happlied).absent⟩
  | flush i =>
      cases hr
      have hput := ho.put (i := i) (s := p.drained i) fun habsent => habsent
      exact { hput with }
  | relay r target =>
      dsimp only [FedNet.step] at hr
      split at hr
      · split at hr
        · next s hs =>
          cases hr
          obtain ⟨sess, -, -, rfl⟩ := (p.hub target).federationRelayInbound_eq_ok.mp hs
          have hput := ho.put (i := target) (s := (p.hub target).handOver r.req sess.localClient
            sess) fun habsent => ?_
          · exact { hput with }
          · unfold ChatHub.handOver
            split
            · exact habsent
            · obtain ⟨out, hout⟩ := (p.hub target).say_eq sess.localClient
                (.chat (if r.req.author = "" then "peer" else r.req.author) r.req.body "")
              rw [hout]
              exact habsent
        · cases hr
          exact { ho with }
      · cases hr

/-- A session without the asker's side: what its other client says reaches
nobody. -/
theorem Orphaned.unheard (hp : p.InStep F) (ho : p.Orphaned g) {r : Posting Hid}
    (hsender : r.sender = g.claim.target) (hsid : r.req.sessionId = g.sid) {target : Hid} {n : Nat}
    (hr : p.step F n (.relay r target) = some p') : p'.hub = p.hub := by
  obtain ⟨hothers, hsame | ⟨g', mine, theirs, hhand⟩⟩ := hp.handed hr
  · funext j
    by_cases hj : j = target
    · rw [hj, hsame]
    · exact hothers j hj
  · -- the target would be the asker, with the session on its books
    cases hp.grant_eq hhand.granted ho.granted (hhand.session.trans hsid)
    have htarget : target = g.claim.asker := by
      cases hhand.other with
      | target => exact absurd hsender hhand.apart
      | asker => rfl
    have hknown := hhand.known
    rw [htarget, ho.absent] at hknown
    cases hknown

/-- **Run**: a grant that has come back with nothing of it on the asker's books
stays so, whatever happens on any hub: the client that was given away for it is
in a session with nobody, and what it says there changes no hub. -/
theorem orphaned_for_good (hp : (fedMachine F).Reach p) (ho : p.Orphaned g)
    (hp' : ((fedMachine F).onward p).Reach p') :
    (p'.simple g.claim.asker).fedSessions.get? g.sid = none
      ∧ ∀ r target n q, r.sender = g.claim.target → r.req.sessionId = g.sid →
        p'.step F n (.relay r target) = some q → q.hub = p'.hub := by
  have horphaned : p'.Orphaned g := by
    refine hp'.invariant (I := fun q => q.Orphaned g) (fun q hq => ?_) fun q e q' hq ho hs => ?_
    · cases hq
      exact ho
    · obtain ⟨n, hn⟩ := hs
      exact ho.step (inStep_reach (hp.onward hq)) hn
  exact ⟨horphaned.absent, fun r target n q hsender hsid hr =>
    horphaned.unheard (inStep_reach (hp.onward hp')) hsender hsid hr⟩

/-- The first client leaves while the grant is on its way. -/
def lateRun : List (FedEvent Bool) :=
  (script [(0, .connect 1 "ip1"), (1, .frame 1 (.spin ""))]).map (.own false)
    ++ (script [(0, .connect 2 "ip2"), (1, .frame 2 (.spin ""))]).map (.own true)
    ++ [.tick false (plainEnv 2), .ask false true, .serve pairClaim (plainEnv 3)]
    ++ (script [(4, .close 1)]).map (.own false) ++ [.receive pairGrant (plainEnv 5)]

/-- The second client is in a session, and the first hub will never be. -/
theorem orphaned_for_good_two : ∃ p : FedNet Bool, (fedMachine twoHubs).Reach p
    ∧ (p.simple true).fedByClient.get? 2 = some "fed"
    ∧ ∀ p', ((fedMachine twoHubs).onward p).Reach p' →
      (p'.simple false).fedSessions.get? "fed" = none := by
  let late : FedNet Bool → Bool := fun p => decide (pairGrant ∈ p.granted ∧ pairGrant ∉ p.grants
    ∧ (p.simple false).fedSessions.get? "fed" = none
    ∧ (p.simple true).fedByClient.get? 2 = some "fed")
  have hrun : (Machine.follow (fun p e => p.step twoHubs 6 e) quietNet lateRun).any late = true := by
    decide +kernel
  obtain ⟨p, hp, hread⟩ := Machine.exists_reach (M := fedMachine twoHubs)
    (fun _ _ _ hr => ⟨6, hr⟩) opens_quietNet hrun
  obtain ⟨hgranted, hback, habsent, hclient⟩ := of_decide_eq_true hread
  exact ⟨p, hp, hclient, fun p' hp' => (orphaned_for_good hp ⟨hgranted, hback, habsent⟩ hp').1⟩

end FedNet

end Ruletka
