/-
What a hub of the federation knows of its sessions.

Every session on a hub's books is one side of a grant. The target's side is
written when the claim is granted, the asker's when the grant comes back, and
nothing else writes a session: what the hub does on its own only ends sessions
and queues relays for those it has. The hub tells its client of the session as
it writes it down, and what it writes down is the client's peer id of then.
-/
import Ruletka.Federation.Net
import Ruletka.Hub.Proofs.Orderly

namespace Ruletka

variable {Hid : Type} {F : FedConfig Hid} {i : Hid} {g : Grant Hid}

/-- The session id of a grant. -/
def Grant.sid (g : Grant Hid) : SessionId := g.resp.sessionId

/-- The session that a grant puts on a hub's books. The peer id the target has
for the asker's client is the one of the claim. -/
inductive Grant.Side (F : FedConfig Hid) (g : Grant Hid) : Hid → FedSession → Prop where
  | target : Side F g g.claim.target ⟨g.client, g.resp.claimedPeer.peerId,
      g.claim.req.remotePeer.peerId, F.base g.claim.asker⟩
  | asker (localPeerId : String) : Side F g g.claim.asker ⟨g.claim.client, localPeerId,
      g.resp.claimedPeer.peerId, F.base g.claim.target⟩

/-- The client of a session was told of it, under the peer id that is written
down as its own. -/
def FedSession.Recorded (sess : FedSession) (told : List (Told Hid)) (i : Hid) (sid : SessionId) :
    Prop :=
  ∃ t ∈ told, t.hub = i ∧ t.client = sess.localClient ∧ t.peerId = sess.localPeerId
    ∧ t.msg.sessionId = sid

theorem FedSession.Recorded.grow {sess : FedSession} {told more : List (Told Hid)}
    {sid : SessionId} (h : sess.Recorded told i sid) : sess.Recorded (told ++ more) i sid := by
  obtain ⟨t, ht, hrest⟩ := h
  exact ⟨t, List.mem_append_left more ht, hrest⟩

/-- Whom a relay is from: a signal names the client of the session it is posted
for, a chat line nobody. -/
def FedSession.relayedFrom (sess : FedSession) (r : RelayRequest) : String :=
  match r.kind with
  | .signal => federatedPeerId r.sessionId sess.localPeerId
  | .chat => ""

/-- A hub posts for one side of a grant. -/
structure Grant.Posts (F : FedConfig Hid) (granted : List (Grant Hid)) (told : List (Told Hid))
    (i : Hid) (baseUrl : String) (r : RelayRequest) (g : Grant Hid) (sess : FedSession) : Prop where
  granted : g ∈ granted
  session : g.sid = r.sessionId
  side : g.Side F i sess
  recorded : sess.Recorded told i g.sid
  base : baseUrl = sess.remoteBaseUrl
  peer : r.fromPeer = sess.relayedFrom r

theorem Grant.Posts.grow {granted more : List (Grant Hid)} {told : List (Told Hid)}
    (later : List (Told Hid)) {baseUrl : String} {r : RelayRequest} {sess : FedSession}
    (h : Grant.Posts F granted told i baseUrl r g sess) :
    Grant.Posts F (granted ++ more) (told ++ later) i baseUrl r g sess :=
  { h with
    granted := List.mem_append_left more h.granted
    recorded := h.recorded.grow }

/-- The books of a hub, after some grants of which some are on their way. -/
structure FedBooks.Known (F : FedConfig Hid) (granted : List (Grant Hid)) (told : List (Told Hid))
    (pending : List (Grant Hid)) (i : Hid) (b : FedBooks) : Prop where
  paired : ∀ x sid, b.byClient.get? x = some sid ↔
    ∃ sess, b.sessions.get? sid = some sess ∧ sess.localClient = x
  sides : ∀ sid sess, b.sessions.get? sid = some sess →
    ∃ g ∈ granted, g.sid = sid ∧ g.Side F i sess ∧ sess.Recorded told i sid
  vacant : ∀ g ∈ pending, g.claim.asker = i → b.sessions.get? g.sid = none
  outbox : ∀ o ∈ b.outbox, ∃ g sess, Grant.Posts F granted told i o.baseUrl o.request g sess

namespace FedBooks.Known

variable {b : FedBooks} {granted pending : List (Grant Hid)} {told : List (Told Hid)}

theorem clear (hk : b.Known F granted told pending i) (x : ConnId) :
    (b.clear x).Known F granted told pending i := by
  unfold FedBooks.clear
  cases hx : b.byClient.get? x with
  | none => exact hk
  | some sid =>
      have hget : ∀ s sess, (b.sessions.del sid).get? s = some sess →
          b.sessions.get? s = some sess ∧ s ≠ sid := by
        intro s sess hs
        rw [Table.get?_del] at hs
        split at hs
        · cases hs
        · next hne => exact ⟨hs, hne⟩
      refine ⟨fun y s => ?_, fun s sess hs => hk.sides s sess (hget s sess hs).1,
        fun g hg hi => ?_, hk.outbox⟩
      · -- the session goes with its client, and with no other
        dsimp only
        rw [Table.get?_del]
        constructor
        · intro hy
          split at hy
          · cases hy
          next hyx =>
          obtain ⟨sess, hs, hlocal⟩ := (hk.paired y s).mp hy
          refine ⟨sess, ?_, hlocal⟩
          rw [Table.get?_del, if_neg ?_, hs]
          rintro rfl
          obtain ⟨sess', hs', hlocal'⟩ := (hk.paired x s).mp hx
          rw [hs] at hs'
          cases hs'
          exact hyx (hlocal.symm.trans hlocal')
        · rintro ⟨sess, hs, hlocal⟩
          obtain ⟨hs, hne⟩ := hget s sess hs
          have hy : b.byClient.get? y = some s := (hk.paired y s).mpr ⟨sess, hs, hlocal⟩
          rw [if_neg ?_, hy]
          rintro rfl
          rw [hx] at hy
          exact hne (Option.some.inj hy).symm
      · dsimp only
        rw [Table.get?_del]
        split
        · rfl
        · exact hk.vacant g hg hi

theorem push (hk : b.Known F granted told pending i) {x : ConnId} {sess : FedSession}
    {o : FedOutbound} (ho : b.Relays x sess o) : (b.push o).Known F granted told pending i where
  paired := hk.paired
  sides := hk.sides
  vacant := hk.vacant
  outbox q hq := by
    rcases List.mem_append.mp hq with hq | hq
    · exact hk.outbox q hq
    · cases List.mem_singleton.mp hq
      obtain ⟨g, hg, hsid, hside, hrec⟩ := hk.sides _ _ ho.known
      rw [← hsid] at hrec
      exact ⟨g, sess, hg, hsid, hside, hrec, ho.base, ho.fromPeer⟩

/-- A free client gets a session under an id that is not on the books. -/
theorem enter (hk : b.Known F granted told pending i) {sess : FedSession}
    (hfree : b.byClient.get? sess.localClient = none) (hg : g ∈ granted)
    (hvacant : b.sessions.get? g.sid = none) (hside : g.Side F i sess)
    (hrec : sess.Recorded told i g.sid)
    (hother : ∀ g' ∈ pending, g'.claim.asker = i → g'.sid ≠ g.sid) :
    (b.enter sess.localClient g.sid sess).Known F granted told pending i where
  paired x sid := by
    unfold FedBooks.enter
    dsimp only
    rw [Table.get?_set, Table.get?_set]
    constructor
    · intro hx
      split at hx
      · next heq =>
        cases hx
        exact ⟨sess, if_pos rfl, heq.symm⟩
      · next hne =>
        obtain ⟨t, ht, hlocal⟩ := (hk.paired x sid).mp hx
        refine ⟨t, ?_, hlocal⟩
        rw [if_neg ?_, ht]
        rintro rfl
        rw [hvacant] at ht
        cases ht
    · rintro ⟨t, ht, hlocal⟩
      split at ht
      · next heq =>
        cases ht
        rw [if_pos hlocal.symm, heq]
      · have hx := (hk.paired x sid).mpr ⟨t, ht, hlocal⟩
        rw [if_neg ?_, hx]
        rintro rfl
        rw [hfree] at hx
        cases hx
  sides sid t ht := by
    unfold FedBooks.enter at ht
    dsimp only at ht
    rw [Table.get?_set] at ht
    split at ht
    · next heq =>
      cases ht
      subst heq
      exact ⟨g, hg, rfl, hside, hrec⟩
    · exact hk.sides sid t ht
  vacant g' hg' hi := by
    unfold FedBooks.enter
    dsimp only
    rw [Table.get?_set, if_neg (hother g' hg' hi)]
    exact hk.vacant g' hg' hi
  outbox := hk.outbox

/-- More grants, more that was told, and other grants on their way that are not
on the books. -/
theorem regrant (hk : b.Known F granted told pending i) {more pending' : List (Grant Hid)}
    (later : List (Told Hid))
    (hvacant : ∀ g ∈ pending', g.claim.asker = i → g ∈ pending ∨ b.sessions.get? g.sid = none) :
    b.Known F (granted ++ more) (told ++ later) pending' i where
  paired := hk.paired
  sides sid sess hs := by
    obtain ⟨g, hg, hsid, hside, hrec⟩ := hk.sides sid sess hs
    exact ⟨g, List.mem_append_left more hg, hsid, hside, hrec.grow⟩
  vacant g hg hi := (hvacant g hg hi).elim (fun h => hk.vacant g h hi) id
  outbox o ho := by
    obtain ⟨g, sess, hpost⟩ := hk.outbox o ho
    exact ⟨g, sess, hpost.grow later⟩

theorem drained (hk : b.Known F granted told pending i) :
    ({ b with outbox := [] } : FedBooks).Known F granted told pending i where
  paired := hk.paired
  sides := hk.sides
  vacant := hk.vacant
  outbox _ ho := absurd ho List.not_mem_nil

theorem empty : (⟨∅, ∅, []⟩ : FedBooks).Known F granted told pending i where
  paired x sid := by simp
  sides sid sess hs := by simp at hs
  vacant g _ _ := Table.get?_empty _
  outbox _ ho := absurd ho List.not_mem_nil

end FedBooks.Known

end Ruletka
