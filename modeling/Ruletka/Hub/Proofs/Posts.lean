/-
What the hub shows to pair people up, and who hides its address.

The `Posts` of a hub are the `Matched` messages it has sent and the hide-IP
choice of each connection. An operation that starts no session and writes
no profile leaves the posts alone, and one equation for each operation says
so.
-/
import Ruletka.Hub.Proofs.Books

namespace Ruletka

/-- The `Matched` in a message. -/
def ServerMsg.asMatched : ServerMsg → Option MatchedMsg
  | .matched m => some m
  | _ => none

theorem ServerMsg.asMatched_eq_none {m : ServerMsg} (hm : ∀ mm, m ≠ .matched mm) :
    m.asMatched = none := by
  cases m with
  | matched mm => exact absurd rfl (hm mm)
  | _ => rfl

/-- The `Matched` messages among those sent. -/
def matchedIn (ms : List (ConnId × ServerMsg)) : List (ConnId × MatchedMsg) :=
  ms.filterMap fun (x, m) => m.asMatched.map (x, ·)

/-- What has been shown to whom, and who hides its address now. -/
structure Posts where
  shown : List (ConnId × MatchedMsg)
  hides : ConnId → Bool

namespace SimpleHub

variable (h : SimpleHub) (env : Env)

/-- The posts of a hub. -/
def posts : Posts where
  shown := matchedIn h.out
  hides := fun x => (h.get x).any (·.hideIp)

theorem posts_emit (ms : List (ConnId × ServerMsg)) :
    (h.emit ms).posts = { h.posts with shown := h.posts.shown ++ matchedIn ms } := by
  unfold posts emit matchedIn
  rw [List.filterMap_append]
  rfl

/-- Messages without a `Matched` show nothing. -/
theorem posts_emit_of_quiet {ms : List (ConnId × ServerMsg)} (hq : matchedIn ms = []) :
    (h.emit ms).posts = h.posts := by
  rw [posts_emit, hq, List.append_nil]

@[simp]
theorem posts_send (x : ConnId) (m : ServerMsg) (hm : ∀ mm, m ≠ .matched mm) :
    (h.send x m).posts = h.posts := by
  have hnone := ServerMsg.asMatched_eq_none hm
  unfold send
  refine h.posts_emit_of_quiet ?_
  split
  · simp only [matchedIn, List.filterMap_cons, hnone, Option.map_none, List.filterMap_nil]
  · rfl

@[simp]
theorem posts_emit_map (l : List ConnId) (m : ServerMsg) (hm : ∀ mm, m ≠ .matched mm) :
    (h.emit (l.map fun x => (x, m))).posts = h.posts := by
  refine h.posts_emit_of_quiet (List.filterMap_eq_nil_iff.mpr fun p hp => ?_)
  obtain ⟨x, -, rfl⟩ := List.mem_map.mp hp
  dsimp only
  rw [ServerMsg.asMatched_eq_none hm]
  rfl

@[simp]
theorem posts_sendError (x : ConnId) (m : String) :
    (h.sendError x m).posts = h.posts := h.posts_send x _ (by simp)

@[simp]
theorem posts_status (x : ConnId) (d : String) : (h.status x d).posts = h.posts := by
  unfold status
  split
  · exact h.posts_emit_of_quiet rfl
  · exact h.posts_emit_of_quiet rfl

@[simp]
theorem posts_broadcastLobbyInfo : (h.broadcastLobbyInfo env).posts = h.posts := by
  refine h.posts_emit_of_quiet ?_
  rw [matchedIn, List.filterMap_map]
  exact List.filterMap_eq_nil_iff.mpr fun x _ => rfl

@[simp]
theorem posts_setQueue (q : List QueueEntry) : (h.setQueue q).posts = h.posts := rfl

@[simp]
theorem posts_setFindThird (p : Option FindThirdPending) :
    (h.setFindThird p).posts = h.posts := rfl

@[simp]
theorem posts_setJoinCall (p : Option JoinCallPending) :
    (h.setJoinCall p).posts = h.posts := rfl

/-- Posts depend on the messages and the hide-IP choices only. -/
theorem posts_congr {h h' : SimpleHub} (ho : h'.out = h.out)
    (hg : ∀ x, (h'.get x).any (·.hideIp) = (h.get x).any (·.hideIp)) : h'.posts = h.posts := by
  unfold posts
  rw [ho]
  congr 1
  funext x
  exact hg x

/-- A write that keeps the hide-IP choice keeps the posts. -/
@[simp]
theorem posts_modify (x : ConnId) (f : Client → Client)
    (hf : ∀ c, (f c).hideIp = c.hideIp) : (h.modify x f).posts = h.posts := by
  refine posts_congr rfl fun y => ?_
  rw [get_modify]
  split
  · cases h.get y with
    | none => rfl
    | some c => exact hf c
  · rfl

@[simp]
theorem prune_hideIp (c : Client) (o : IterOrder ConnId) (x : ConnId) :
    (c.prune o x).hideIp = c.hideIp := by
  cases c
  rfl

@[simp]
theorem hangUp_hideIp (c : Client) : c.hangUp.hideIp = c.hideIp := by
  cases c
  rfl

@[simp]
theorem joinTrio_hideIp (c : Client) (sid : SessionId) (same : Bool)
    (peers : List ConnId) (party : Option ConnId) (last : ConnId) :
    (c.joinTrio env sid same peers party last).hideIp = c.hideIp := by
  cases same
  · rfl
  · rfl

/-- Folding operations that keep the posts keeps them. -/
theorem posts_foldl {α : Type} (f : SimpleHub → α → SimpleHub)
    (hf : ∀ h a, (f h a).posts = h.posts) (l : List α) :
    (l.foldl f h).posts = h.posts := by
  induction l generalizing h with
  | nil => rfl
  | cons a l ih => rw [List.foldl_cons, ih, hf]

@[simp]
theorem posts_dequeueClient (x : ConnId) : (h.dequeueClient x).posts = h.posts := rfl

@[simp]
theorem posts_enqueueSolo (x : ConnId) : (h.enqueueSolo x).posts = h.posts := by
  unfold enqueueSolo
  dsimp only
  split
  · rfl
  · rfl

@[simp]
theorem posts_enqueueParty (a b : ConnId) : (h.enqueueParty env a b).posts = h.posts := by
  simp [enqueueParty, Client.startWait]

@[simp]
theorem posts_takeWaitStarted (x : ConnId) :
    (h.takeWaitStarted x).posts = h.posts := by
  simp [takeWaitStarted]

@[simp]
theorem posts_linkSolo (sid : SessionId) (a b : ConnId) :
    (h.linkSolo env sid a b).posts = h.posts := by
  simp [linkSolo]

@[simp]
theorem posts_linkPartyVsSolo (sid : SessionId) (s a b : ConnId) :
    (h.linkPartyVsSolo env sid s a b).posts = h.posts := by
  simp [linkPartyVsSolo]

@[simp]
theorem posts_clearFedForClient (x : ConnId) :
    (h.clearFedForClient x).posts = h.posts := by
  unfold clearFedForClient
  split
  · rfl
  · rfl

@[simp]
theorem posts_unmatchOne (x : ConnId) (d : String) :
    (h.unmatchOne env x d).posts = h.posts := by
  unfold unmatchOne
  dsimp only
  split
  · split
    · simp
    · simp
  · simp

@[simp]
theorem posts_forceSessionIdle (x : ConnId) (d : String) :
    (h.forceSessionIdle x d).posts = h.posts := by
  simp [forceSessionIdle]

@[simp]
theorem posts_endFriendCall (x : ConnId) (r : String) :
    (h.endFriendCall x r).posts = h.posts := by
  unfold endFriendCall
  dsimp only
  split
  · simp
  · simp

@[simp]
theorem posts_unmate (m x : ConnId) : (h.unmate m x).posts = h.posts := by
  simp [unmate]

@[simp]
theorem posts_pruneAll (x : ConnId) (l : List ConnId) :
    (h.pruneAll env x l).posts = h.posts :=
  h.posts_foldl _ (fun h p => by simp) l

@[simp]
theorem posts_dropFindThird (x : ConnId) : (h.dropFindThird x).posts = h.posts := by
  unfold dropFindThird
  split
  · split
    · simp
    · rfl
  · rfl

@[simp]
theorem posts_dissolveParty (x p : ConnId) : (h.dissolveParty x p).posts = h.posts := by
  simp [dissolveParty]

/-- A conditional operation that keeps the posts keeps them. -/
theorem posts_onSome {α : Type} (o : Option α) (f : SimpleHub → α → SimpleHub)
    (hf : ∀ a, (f h a).posts = h.posts) : (onSome o h f).posts = h.posts := by
  cases o with
  | none => rfl
  | some a => exact hf a

@[simp]
theorem posts_releaseOthers (x : ConnId) (c : Client) :
    (h.releaseOthers env x c).posts = h.posts := by
  unfold releaseOthers
  dsimp only
  rw [posts_onSome, posts_foldl, posts_onSome, posts_onSome]
  · exact fun f => h.posts_endFriendCall f _
  · exact fun p => posts_dissolveParty _ x p
  · exact fun h p => h.posts_unmatchOne env p _
  · intro p
    split
    · rfl
    · simp

@[simp]
theorem posts_forgive (p : Option ConnId) : (h.forgive p).posts = h.posts :=
  h.posts_onSome p _ fun p => by simp

@[simp]
theorem posts_placeInSoloQueue (x : ConnId) (room d : String) :
    (h.placeInSoloQueue env x room d).posts = h.posts := by
  simp [placeInSoloQueue, Client.clearSdp, Client.startWait]

@[simp]
theorem posts_releasePeer (x p : ConnId) (d : String) :
    (h.releasePeer env x d p).posts = h.posts := by
  unfold releasePeer
  split
  · rfl
  · dsimp only
    split
    · split
      · simp
      · simp
    · simp

@[simp]
theorem posts_clearMatchStateWithPartnerMsg (x : ConnId) (d : String) :
    (h.clearMatchStateWithPartnerMsg env x d).posts = h.posts := by
  unfold clearMatchStateWithPartnerMsg
  dsimp only
  rw [posts_foldl _ _ fun h p => posts_releasePeer h env x p d]
  simp [Client.clearSdp]

@[simp]
theorem posts_clearMatchState (x : ConnId) :
    (h.clearMatchState env x).posts = h.posts :=
  posts_clearMatchStateWithPartnerMsg ..

@[simp]
theorem posts_partyRequeueSide (x : ConnId) (room : String) :
    (h.partyRequeueSide env room x).posts = h.posts := by
  unfold partyRequeueSide
  dsimp only
  rw [posts_modify, posts_foldl _ _ fun h s => posts_placeInSoloQueue h env s room _]
  exact fun c => rfl

@[simp]
theorem posts_cancelFindThird (x : ConnId) : (h.cancelFindThird x).posts = h.posts := by
  unfold cancelFindThird
  split
  · split
    · rfl
    · rfl
  · rfl

@[simp]
theorem posts_stopKept (x : ConnId) : (h.stopKept env x).posts = h.posts := by
  simp [stopKept]

@[simp]
theorem posts_stopAlone (x : ConnId) : (h.stopAlone env x).posts = h.posts := by
  unfold stopAlone
  dsimp only
  rw [posts_broadcastLobbyInfo, posts_status, posts_modify,
    posts_clearMatchStateWithPartnerMsg, posts_onSome]
  · intro p
    have hdrop : ∀ (k : SimpleHub) (y : ConnId), (k.modify y dropParty).posts = k.posts :=
      fun k y => k.posts_modify y dropParty fun c => rfl
    rw [hdrop, hdrop]
  · exact fun c => rfl

@[simp]
theorem posts_allowMatchCmd (x : ConnId) :
    (h.allowMatchCmd env x).1.posts = h.posts := by
  unfold allowMatchCmd
  split
  · rfl
  · dsimp only
    split
    · simp
    · simp

@[simp]
theorem posts_denyIfMatchBanned (x : ConnId) :
    (h.denyIfMatchBanned env x).1.posts = h.posts := by
  unfold denyIfMatchBanned
  split
  · simp
  · rfl

@[simp]
theorem posts_expireFindThirdIfNeeded : (h.expireFindThirdIfNeeded env).posts = h.posts := by
  unfold expireFindThirdIfNeeded
  split
  · rfl
  · split
    · rfl
    · simp

@[simp]
theorem posts_handleFindThirdInvite (x : ConnId) :
    (h.handleFindThirdInvite env x).posts = h.posts := by
  unfold handleFindThirdInvite
  dsimp only
  split
  · simp
  · split
    · simp
    · split
      · simp
      · simp

@[simp]
theorem posts_handleFindThirdCancel (x : ConnId) :
    (h.handleFindThirdCancel env x).posts = h.posts := by
  unfold handleFindThirdCancel
  dsimp only
  split
  · simp
  · split
    · simp
    · simp

@[simp]
theorem posts_expireJoinCallIfNeeded : (h.expireJoinCallIfNeeded env).posts = h.posts := by
  unfold expireJoinCallIfNeeded
  split
  · rfl
  · split
    · rfl
    · simp

@[simp]
theorem posts_ringJoin (x t k : ConnId) (k2 : Option ConnId) (c : Client) (d : String) :
    (h.ringJoin env x t k k2 c d).posts = h.posts := by
  simp [ringJoin]

@[simp]
theorem posts_callJoin (x o : ConnId) (c : Client) :
    (h.callJoin env x o c).posts = h.posts := by
  unfold callJoin
  split
  · simp
  · split
    · simp
    split
    · simp
    split
    · simp
    split
    · simp
    · simp

@[simp]
theorem posts_callClassic (x o : ConnId) (c : Client) :
    (h.callClassic env x o c).posts = h.posts := by
  unfold callClassic
  split
  · dsimp only
    split
    · simp
    · split
      · simp
      split
      · simp
      split
      · simp
      · simp
  · simp

@[simp]
theorem posts_endOtherCall (x o : ConnId) (d : String) :
    (h.endOtherCall x o d).posts = h.posts := by
  unfold endOtherCall
  split
  · simp
  · rfl

@[simp]
theorem posts_quiet (x : ConnId) : (h.quiet x).posts = h.posts := by
  unfold quiet
  rw [posts_modify]
  · rfl
  · intro c
    split
    · rfl
    · rfl

@[simp]
theorem posts_handleCallCancel (x : ConnId) (u : UserId) :
    (h.handleCallCancel x u).posts = h.posts := by
  unfold handleCallCancel
  split
  · rfl
  · split
    · rfl
    · dsimp only
      rw [posts_status]
      split
      · rw [posts_send _ _ _ (by simp)]
        split
        · split
          · simp
          · rfl
        · rfl
      · split
        · split
          · simp
          · rfl
        · rfl

@[simp]
theorem posts_setClientGeo (x : ConnId) (code country city : String) :
    (h.setClientGeo x code country city).posts = h.posts := by
  unfold setClientGeo
  dsimp only
  split
  · simp
  · simp

@[simp]
theorem posts_handleSetRoom (x : ConnId) (room : String) :
    (h.handleSetRoom env x room).posts = h.posts := by
  unfold handleSetRoom
  split
  · simp
  · simp

@[simp]
theorem posts_kickBanned (phases : List Phase) (x : ConnId) (d n : String) :
    (h.kickBanned env phases x d n).posts = h.posts := by
  unfold kickBanned
  dsimp only
  rw [posts_status]
  split
  · simp
  · simp

@[simp]
theorem posts_raiseBan (u : UserId) (n : Nat) : (h.raiseBan u n).posts = h.posts := by
  unfold raiseBan
  split
  · rfl
  · rfl

@[simp]
theorem posts_raiseIpBan (u : UserId) (ip : String) :
    (h.raiseIpBan u ip).posts = h.posts := by
  unfold raiseIpBan
  split
  · rfl
  · rfl

@[simp]
theorem posts_applyPriorityModBan (u : UserId) (ip : String) :
    (h.applyPriorityModBan u ip).posts = h.posts := by
  unfold applyPriorityModBan
  dsimp only
  rw [posts_raiseIpBan]
  split
  · exact posts_raiseBan h u _
  · rfl

@[simp]
theorem posts_priorityReport (x : ConnId) (u : UserId) :
    (h.priorityReport env x u).posts = h.posts := by
  unfold priorityReport
  dsimp only
  rw [posts_status, posts_foldl]
  · split
    · simp
    · simp
  · intro k y
    split
    · rfl
    · simp

@[simp]
theorem posts_scoredReport (x : ConnId) (r u : UserId) (why : String) :
    (h.scoredReport env x r u why).posts = h.posts := by
  unfold scoredReport
  dsimp only
  rw [posts_send _ _ _ (by simp), posts_status]
  split
  · split
    · rw [posts_kickBanned]
      rfl
    · rfl
  · rfl

@[simp]
theorem posts_handleReportUser (x : ConnId) (t r : String) :
    (h.handleReportUser env x t r).posts = h.posts := by
  unfold handleReportUser
  split
  · simp
  · split
    · rfl
    · split
      · simp
      · dsimp only
        split
        · simp
        · split
          · simp
          · simp

@[simp]
theorem posts_genitalBan (x t : ConnId) (u : UserId) (s : Nat) (p : Bool) :
    (h.genitalBan env x t u s p).posts = h.posts := by
  unfold genitalBan
  dsimp only
  rw [posts_send _ _ _ (by simp), posts_status, posts_clearMatchStateWithPartnerMsg,
    posts_send _ _ _ (by simp), posts_foldl _ _ fun h v => posts_send h v _ (by simp),
    posts_raiseBan]

@[simp]
theorem posts_handleGenitalHit (x : ConnId) (t : String) :
    (h.handleGenitalHit env x t).posts = h.posts := by
  unfold handleGenitalHit
  dsimp only
  split
  · simp
  · split
    · simp
    · split
      · simp
      · split
        · simp
        · split
          · simp
          · simp
          · simp

@[simp]
theorem posts_adminBan (u : String) (s : Nat) : (h.adminBan env u s).posts = h.posts := by
  unfold adminBan
  dsimp only
  split
  · rfl
  · split
    · rw [posts_kickBanned]
      rfl
    · rfl

@[simp]
theorem posts_adminUnban (u : String) : (h.adminUnban u).posts = h.posts := by
  unfold adminUnban
  dsimp only
  split
  · rfl
  · rfl

@[simp]
theorem posts_adminUnbanIp (ip : String) : (h.adminUnbanIp ip).posts = h.posts := by
  unfold adminUnbanIp
  dsimp only
  split
  · rfl
  · rfl

@[simp]
theorem posts_noteClientRx (x : ConnId) (p : Bool) :
    (h.noteClientRx env x p).1.posts = h.posts := by
  simp [noteClientRx]

@[simp]
theorem posts_handleBrowseTogether (x : ConnId) :
    (h.handleBrowseTogether x).posts = h.posts := by
  unfold handleBrowseTogether
  dsimp only
  split
  · simp
  · split
    · simp
    · split
      · simp
      · simp

@[simp]
theorem posts_handleHangupFriend (x : ConnId) :
    (h.handleHangupFriend x).posts = h.posts := by
  unfold handleHangupFriend
  split
  · simp
  · simp

@[simp]
theorem posts_noteSdp (x : ConnId) (kind key : String) :
    (h.noteSdp env x kind key).posts = h.posts := by
  unfold noteSdp
  split
  · simp
  · split
    · simp
    · rfl

@[simp]
theorem posts_relaySignal (x : ConnId) (kind payload toPeer : String) :
    (h.relaySignal x kind payload toPeer).posts = h.posts := by
  unfold relaySignal
  split
  · simp
  · split
    · rfl
    · rfl

@[simp]
theorem posts_deliverSignal (x : ConnId) (kind payload toPeer : String) :
    (h.deliverSignal env x kind payload toPeer).posts = h.posts := by
  unfold deliverSignal
  split
  · simp
  · dsimp only
    split
    · split
      · simp
      · exact h.posts_foldl _ (fun k t => by simp) _
    · simp

@[simp]
theorem posts_handleSignal (x : ConnId) (kind payload toPeer : String) :
    (h.handleSignal env x kind payload toPeer).posts = h.posts := by
  unfold handleSignal
  dsimp only
  split
  · simp
  · split
    · rfl
    · split
      · simp
      · simp

end SimpleHub

end Ruletka
