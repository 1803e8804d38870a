/-
The bans of the hub under the handlers' operations.

Only a verdict writes a ban: moving people does not. `bansOf` is both ban
tables, with one equation for each operation a verdict is followed by.
-/
import Ruletka.Report.Handle
import Ruletka.Hub.Proofs.Books

namespace Ruletka

namespace ReportHub

variable {s : ReportHub} {sha256 : String → List UInt8} {codec : Ledger.LineCodec}

/-- The bans of a hub. -/
def bansOf (h : SimpleHub) : Table UserId Nat × Table String Nat :=
  (h.matchBans, h.matchIpBans)

section Bans

variable (h : SimpleHub) (x : ConnId)

@[simp]
theorem bansOf_emit (ms : List (ConnId × ServerMsg)) : bansOf (h.emit ms) = bansOf h := rfl

@[simp]
theorem bansOf_send (m : ServerMsg) : bansOf (h.send x m) = bansOf h := rfl

@[simp]
theorem bansOf_modify (f : Client → Client) : bansOf (h.modify x f) = bansOf h := rfl

@[simp]
theorem bansOf_dequeueClient : bansOf (h.dequeueClient x) = bansOf h := rfl

@[simp]
theorem bansOf_status (d : String) : bansOf (h.status x d) = bansOf h := by
  obtain ⟨ms, hms⟩ := h.status_eq_emit x d
  rw [hms, bansOf_emit]

@[simp]
theorem bansOf_clearFedForClient : bansOf (h.clearFedForClient x) = bansOf h := by
  unfold SimpleHub.clearFedForClient
  split
  · rfl
  · rfl

@[simp]
theorem bansOf_enqueueParty (env : Env) (y : ConnId) :
    bansOf (h.enqueueParty env x y) = bansOf h := rfl

@[simp]
theorem bansOf_unmatchOne (env : Env) (d : String) :
    bansOf (h.unmatchOne env x d) = bansOf h := by
  unfold SimpleHub.unmatchOne
  dsimp only
  split
  · split
    · simp
    · simp
  · simp

@[simp]
theorem bansOf_kickBanned (env : Env) (phases : List Phase) (detail notice : String) :
    bansOf (h.kickBanned env phases x detail notice) = bansOf h := by
  unfold SimpleHub.kickBanned
  dsimp only
  split
  · simp
  · simp

@[simp]
theorem bansOf_sendError (m : String) : bansOf (h.sendError x m) = bansOf h := rfl

@[simp]
theorem bansOf_broadcastLobbyInfo (env : Env) :
    bansOf (h.broadcastLobbyInfo env) = bansOf h := rfl

@[simp]
theorem bansOf_enqueueSolo : bansOf (h.enqueueSolo x) = bansOf h := by
  unfold SimpleHub.enqueueSolo
  dsimp only
  split
  · rfl
  · rfl

theorem bansOf_foldl {α : Type} {f : SimpleHub → α → SimpleHub}
    (hf : ∀ h a, bansOf (f h a) = bansOf h) (l : List α) : bansOf (l.foldl f h) = bansOf h := by
  induction l generalizing h with
  | nil => rfl
  | cons a l ih => rw [List.foldl_cons, ih, hf]

@[simp]
theorem bansOf_releasePeer (env : Env) (d : String) (p : ConnId) :
    bansOf (h.releasePeer env x d p) = bansOf h := by
  unfold SimpleHub.releasePeer
  split
  · rfl
  dsimp only
  split
  · split
    · simp [SimpleHub.placeInSoloQueue]
    · simp
  · simp

@[simp]
theorem bansOf_clearMatchStateWithPartnerMsg (env : Env) (d : String) :
    bansOf (h.clearMatchStateWithPartnerMsg env x d) = bansOf h := by
  unfold SimpleHub.clearMatchStateWithPartnerMsg
  dsimp only
  rw [bansOf_foldl _ fun h p => bansOf_releasePeer h x env d p]
  simp

end Bans

theorem matchBans_of_bansOf {h h' : SimpleHub} (he : bansOf h = bansOf h') :
    h.matchBans = h'.matchBans := congrArg Prod.fst he

theorem hub_clawbackOnBan (env : ReportEnv) (user : UserId) (reason : String) :
    (s.clawbackOnBan sha256 codec env user reason).hub = s.hub := by
  unfold clawbackOnBan
  dsimp only
  split
  · rfl
  · rfl

theorem bansOf_banByReport (env : ReportEnv) (user : UserId) (reason : String)
    (deadline : Nat) (hold : Bool) :
    bansOf (s.banByReport sha256 codec env user reason deadline hold).hub
      = (s.hub.matchBans.set user deadline, s.hub.matchIpBans) := by
  have hhub : ∀ t : ReportHub, (if hold then t else t.clawbackOnBan sha256 codec env user
      reason).hub = t.hub := by
    intro t
    split
    · rfl
    · exact hub_clawbackOnBan env user reason
  unfold banByReport
  dsimp only [onHub]
  rw [hhub]
  split
  · rw [bansOf_kickBanned]
    rfl
  · rfl

theorem hub_noteExplicitAiHit (env : ReportEnv) (user : UserId) :
    (s.noteExplicitAiHit env user).hub = s.hub := rfl

theorem hub_saveGenitalBook (env : ReportEnv) : (s.saveGenitalBook env).hub = s.hub := rfl

/-- The ladder's ban writes the deadline of the target. -/
theorem bansOf_genitalBan (h : SimpleHub) (env : Env) (id tid : ConnId) (target : UserId)
    (banSecs : Nat) (permanent : Bool) :
    bansOf (h.genitalBan env id tid target banSecs permanent)
      = bansOf (h.raiseBan target (if permanent then SimpleHub.permanentBanUntil
          else env.unix + banSecs)) := by
  unfold SimpleHub.genitalBan
  dsimp only
  simp only [bansOf_send, bansOf_status, bansOf_clearMatchStateWithPartnerMsg]
  exact bansOf_foldl _ (fun h v => bansOf_send h v (.partnerBanned "genitals")) _

/-- The ladder's ban: the deadline of the target rises, no other changes. -/
theorem matchBans_genitalBan (h : SimpleHub) (env : Env) (id tid : ConnId) (target : UserId)
    (banSecs : Nat) (permanent : Bool) :
    (h.genitalBan env id tid target banSecs permanent).matchBans
      = (h.raiseBan target (if permanent then SimpleHub.permanentBanUntil
          else env.unix + banSecs)).matchBans :=
  matchBans_of_bansOf (bansOf_genitalBan ..)

theorem matchIpBans_raiseBan (h : SimpleHub) (user : UserId) (deadline : Nat) :
    (h.raiseBan user deadline).matchIpBans = h.matchIpBans := by
  unfold SimpleHub.raiseBan
  split
  · rfl
  · rfl

end ReportHub

end Ruletka
