/-
Whether a ban takes its target out.

Reports, detector hits and the operator ban in four ways. A ban by reports
and the operator's ban kick the target alone, the operator's report kicks
everybody else at the target's address as well, and a detector ban releases
the target's session peers. The target is out afterwards, and its strangers
are taken care of, whenever it has no friend and no mate and whoever holds
it is among those let go.
-/
import Ruletka.Hub.Proofs.Outed
import Ruletka.Report.Panic
import Ruletka.Report.Proofs.Accuser
import Ruletka.Report.Proofs.Inert

namespace Ruletka

open Text SimpleHub

/-- What may ban somebody. -/
inductive Accusation where
  | report (id : ConnId) (raw reason : String)
  | hit (id : ConnId) (hit : ReportHub.GenitalHitIn)
  | admin (user : String) (banSecs : Nat)

namespace ReportHub

variable {s : ReportHub} {env : ReportEnv} {sha256 : String → List UInt8}
  {codec : Ledger.LineCodec}

/-- The handler of an accusation. -/
def accuse (s : ReportHub) (env : ReportEnv) (sha256 : String → List UInt8)
    (codec : Ledger.LineCodec) : Accusation → ReportHub
  | .report id raw reason => s.handleReportUser sha256 codec env id raw reason
  | .hit id hit => s.handleGenitalHit sha256 codec env id hit
  | .admin user banSecs => s.onHub (·.adminBan env.toEnv user banSecs)

/-- The reporter is the operator's account. -/
def byOperator (s : ReportHub) (id : ConnId) : Bool :=
  (s.hub.get id).any fun c => isPriorityModReporter c.userId c.shortId c.friendCode

/-- Another user's connection at the address that the operator's report of
this user bans. -/
def atAddress (s : ReportHub) (user : UserId) (y : ConnId) : Bool :=
  trim (s.hub.reportedIp user) ≠ "" && (s.hub.get y).any fun c =>
    c.clientIp = trim (s.hub.reportedIp user) && c.userId ≠ user

/-- Who is let go together with the target `t` of a ban. -/
def LetsGo (s : ReportHub) (user : UserId) (t : ConnId) (a : Accusation) (y : ConnId)
    (seat : Option Seat) : Prop :=
  match a with
  | .report id _ _ => s.byOperator id = true ∧ s.atAddress user y = true
      ∧ Lobby.liveIn [.matched, .waiting] seat
  | .hit _ _ => y ∈ s.hub.peersOf t
  | .admin _ _ => False

/-- Who else is kicked. -/
def Kicked (s : ReportHub) (user : UserId) (a : Accusation) (y : ConnId) : Prop :=
  match a with
  | .report id _ _ => s.byOperator id = true ∧ s.atAddress user y = true
  | _ => False

/-- The ban's own way with the target gets it out of its match. -/
def Reaches (s : ReportHub) (t : ConnId) (a : Accusation) : Prop :=
  let empty := s.hub.peersOf t = ∅ ∧ s.hub.partnerOf t = none
  match a with
  | .report id _ _ => s.hub.phaseOf t = some .matched
      ∨ (s.byOperator id = true ∧ s.hub.phaseOf t = some .waiting) ∨ empty
  | .hit _ _ => t ∉ s.hub.peersOf t
  | .admin _ _ => s.hub.phaseOf t = some .matched ∨ empty

/-- The ban lets go whoever holds its target. -/
structure TakesOut (s : ReportHub) (user : UserId) (t : ConnId) (a : Accusation) : Prop where
  loose : s.hub.lobby.Loose t (s.LetsGo user t a) (s.Kicked user a)
  reaches : s.Reaches t a

/-- `t` is the connection of an online user. -/
def Online (s : ReportHub) (user : UserId) (t : ConnId) : Prop :=
  s.hub.byUser.get? user = some t ∧ s.hub.userOf t = user

-- ============================================================ the operator's ban

theorem liveIn_matched {t : ConnId} (h : s.hub.phaseOf t = some .matched) (phases : List Phase)
    (hm : .matched ∈ phases) : Lobby.liveIn phases (s.hub.lobby.seat t) := by
  rw [← Lobby.liveIn_iff, phaseOf_lobby, h]
  simpa using hm

theorem empty_lobby {t : ConnId} (h : s.hub.peersOf t = ∅ ∧ s.hub.partnerOf t = none) :
    s.hub.lobby.peersOf t = ∅ ∧ s.hub.lobby.partnerOf t = none := by
  rw [peersOf_lobby, partnerOf_lobby]
  exact h

theorem lobby_adminBan {h : SimpleHub} {e : Env} {raw : String} {banSecs : Nat}
    (hne : h.adminBan e raw banSecs ≠ h) {t : ConnId}
    (ht : h.byUser.get? (trim raw) = some t) :
    (h.adminBan e raw banSecs).lobby = h.lobby.kick [.matched] t := by
  unfold adminBan at hne ⊢
  dsimp only at hne ⊢
  split at hne
  · exact absurd rfl hne
  · next hu =>
    rw [if_neg hu, ht]
    exact lobby_kickBanned ..

theorem banUntil_adminBan {h : SimpleHub} {e : Env} {raw : String} {banSecs : Nat}
    {user : UserId} (hu : user ≠ trim raw) :
    (h.adminBan e raw banSecs).banUntil user = h.banUntil user := by
  unfold adminBan
  dsimp only
  split
  · rfl
  · have hset : ∀ d : Nat, ({ h with matchBans := h.matchBans.set (trim raw) d } :
        SimpleHub).banUntil user = h.banUntil user := by
      intro d
      unfold banUntil
      rw [Table.get?_set, if_neg hu]
    unfold banUntil at hset ⊢
    split
    · rw [matchBans_of_bansOf (bansOf_kickBanned ..)]
      exact hset _
    · exact hset _

/-- The operator's ban. -/
theorem takenOut_admin {user : UserId} {t : ConnId} {raw : String} {banSecs : Nat}
    (hon : s.Online user t)
    (hnew : s.hub.banUntil user < (s.hub.adminBan env.toEnv raw banSecs).banUntil user)
    (hout : s.TakesOut user t (.admin raw banSecs)) :
    s.hub.lobby.TakenOut (s.hub.adminBan env.toEnv raw banSecs).lobby t := by
  have hu : user = trim raw := by
    by_contra hne
    rw [banUntil_adminBan hne] at hnew
    exact lt_irrefl _ hnew
  have hne : s.hub.adminBan env.toEnv raw banSecs ≠ s.hub := by
    intro he
    rw [he] at hnew
    exact lt_irrefl _ hnew
  rw [lobby_adminBan hne (hu ▸ hon.1)]
  refine hout.loose.takenOut_kick ?_
  exact hout.reaches.imp (fun h => liveIn_matched h _ (by simp)) empty_lobby

-- ============================================================== a ban by reports

theorem lobby_scoredReport {id : ConnId} {reporter user : UserId} {reason : String}
    {t : ConnId} (ht : s.hub.byUser.get? user = some t)
    (hban : (s.scoredReport sha256 codec env id reporter user reason).hub.banUntil user
      ≠ s.hub.banUntil user) :
    (s.scoredReport sha256 codec env id reporter user reason).hub.lobby
      = s.hub.lobby.kick [.matched] t := by
  have hw : (s.weigh env reporter user reason).1.hub = s.hub := hub_weigh
  unfold scoredReport at hban ⊢
  dsimp only [onHub] at hban ⊢
  rw [lobby_send, lobby_status]
  split at hban
  · next deadline hd =>
    dsimp only [banByReport, onHub]
    have hclaw : ∀ r : ReportHub, (if (s.weigh env reporter user reason).2.underageHold then r
        else r.clawbackOnBan sha256 codec env user reason).hub = r.hub := by
      intro r
      split
      · rfl
      · exact hub_clawbackOnBan env user reason
    rw [hclaw]
    dsimp only
    rw [hw, ht]
    exact lobby_kickBanned ..
  · next hd =>
    refine absurd ?_ hban
    unfold banUntil
    rw [matchBans_of_bansOf ((bansOf_send _ _ _).trans (bansOf_status _ _ _)), hw]

/-- A ban by reports. -/
theorem takenOut_scored {id : ConnId} {reporter user user' : UserId} {reason : String}
    {t : ConnId} {C : ConnId → Prop} (ht : s.hub.byUser.get? user = some t)
    (hnew : s.hub.banUntil user
      < (s.scoredReport sha256 codec env id reporter user' reason).hub.banUntil user)
    (hl : s.hub.lobby.Loose t (fun _ _ => False) C)
    (hout : s.hub.phaseOf t = some .matched ∨ s.hub.peersOf t = ∅ ∧ s.hub.partnerOf t = none) :
    s.hub.lobby.TakenOut (s.scoredReport sha256 codec env id reporter user' reason).hub.lobby
      t := by
  by_cases hu : user = user'
  · subst hu
    rw [lobby_scoredReport ht hnew.ne']
    exact hl.takenOut_kick (hout.imp (fun h => liveIn_matched h _ (by simp)) empty_lobby)
  · have hsame : (s.scoredReport sha256 codec env id reporter user' reason).dossier user
        = s.dossier user := dossier_scoredReport_other id hu
    have hban := congrArg Dossier.ban hsame
    rw [ban_dossier, ban_dossier] at hban
    exact absurd hban hnew.ne'

-- ======================================================= the operator's report

/-- The address and the user of a record, which no kick changes. -/
def tag (c : Client) : String × UserId := (c.clientIp, c.userId)

theorem tag_modify (h : SimpleHub) (x : ConnId) (f : Client → Client)
    (hf : ∀ c, tag (f c) = tag c) (y : ConnId) :
    ((h.modify x f).get y).map tag = (h.get y).map tag := by
  rw [get_modify]
  split
  · rw [Option.map_map]
    exact congrArg (fun g => (h.get y).map g) (funext hf)
  · rfl

theorem tag_enqueueParty (h : SimpleHub) (e : Env) (a b y : ConnId) :
    ((h.enqueueParty e a b).get y).map tag = (h.get y).map tag := by
  unfold enqueueParty
  dsimp only
  rw [tag_modify, tag_modify, get_setQueue, get_dequeueClient, get_dequeueClient, tag_modify,
    tag_modify]
  all_goals exact fun c => rfl

theorem tag_unmatchOne (h : SimpleHub) (e : Env) (x y : ConnId) (d : String) :
    ((h.unmatchOne e x d).get y).map tag = (h.get y).map tag := by
  have hcore : ∀ f : Client → Client, (∀ c, tag (f c) = tag c) →
      (((((h.dequeueClient x).clearFedForClient x).modify x f).status x d).get y).map tag
        = (h.get y).map tag := by
    intro f hf
    rw [get_status, tag_modify _ _ _ hf, get_clearFedForClient, get_dequeueClient]
  unfold unmatchOne
  dsimp only
  split
  · split
    · rw [tag_enqueueParty]
      exact hcore _ fun c => rfl
    · exact hcore _ fun c => rfl
  · exact hcore _ fun c => rfl

theorem tag_kickBanned (h : SimpleHub) (e : Env) (phases : List Phase) (x y : ConnId)
    (d n : String) : ((h.kickBanned e phases x d n).get y).map tag = (h.get y).map tag := by
  unfold kickBanned
  dsimp only
  rw [get_status]
  split
  · rw [tag_unmatchOne, get_dequeueClient]
  · rw [get_dequeueClient]

/-- Who else the operator's report kicks, in order. -/
def othersAt (h : SimpleHub) (e : Env) (user : UserId) (ip : String) : List ConnId :=
  (if ip = "" then [] else e.mapOrder.run (h.connsWhere (·.clientIp = ip))).filter
    fun y => !(h.get y).any (·.userId = user)

theorem mem_othersAt {h : SimpleHub} {e : Env} {user : UserId} {ip : String} {y : ConnId} :
    y ∈ othersAt h e user ip ↔ ip ≠ "" ∧ (h.get y).any (fun c =>
      c.clientIp = ip && c.userId ≠ user) = true := by
  unfold othersAt
  rw [List.mem_filter]
  by_cases hip : ip = ""
  · simp [hip]
  · rw [if_neg hip, IterOrder.mem_run, connsWhere, Finset.mem_filter, Table.mem_keys_iff]
    show ((h.get y).isSome ∧ _) ∧ _ ↔ _
    cases h.get y with
    | none => simp
    | some c => simp [hip]

/-- Kicking all but a user's connections in a list. -/
theorem lobby_kickOthers (e : Env) (user : UserId) (d n : String) (l : List ConnId)
    (h : SimpleHub) :
    (l.foldl (fun h cid => if (h.get cid).any (·.userId = user) then h
        else h.kickBanned e [.matched, .waiting] cid d n) h).lobby
      = (l.filter fun y => !(h.get y).any (·.userId = user)).foldl
          (fun L x => L.kick [.matched, .waiting] x) h.lobby := by
  induction l generalizing h with
  | nil => rfl
  | cons x l ih =>
      rw [List.foldl_cons, List.filter_cons]
      split
      · next hx =>
        rw [ih, if_neg (by simp [hx])]
      · next hx =>
        have hsame : ∀ y, ((h.kickBanned e [.matched, .waiting] x d n).get y).any
            (·.userId = user) = (h.get y).any (·.userId = user) := by
          intro y
          have hy := congrArg (fun o : Option (String × UserId) => o.any (·.2 = user))
            (tag_kickBanned h e [.matched, .waiting] x y d n)
          simp only [Option.any_map, tag] at hy
          exact hy
        rw [ih, if_pos (by simp [hx]), List.foldl_cons, lobby_kickBanned]
        simp only [hsame]

theorem lobby_applyPriorityModBan (h : SimpleHub) (user : UserId) (ip : String) :
    (h.applyPriorityModBan user ip).lobby = h.lobby ∧ (h.applyPriorityModBan user ip).get = h.get
      ∧ (h.applyPriorityModBan user ip).byUser = h.byUser := by
  unfold applyPriorityModBan raiseIpBan raiseBan
  dsimp only
  split
  · split
    · split
      · exact ⟨rfl, rfl, rfl⟩
      · exact ⟨rfl, rfl, rfl⟩
    · split
      · exact ⟨rfl, rfl, rfl⟩
      · exact ⟨rfl, rfl, rfl⟩
  · split
    · exact ⟨rfl, rfl, rfl⟩
    · exact ⟨rfl, rfl, rfl⟩

/-- Everybody but the target at the address is kicked after the target. -/
theorem lobby_priorityReport {h : SimpleHub} {e : Env} {id : ConnId} {user : UserId} {t : ConnId}
    (ht : h.byUser.get? user = some t) :
    ∃ l : List ConnId, (∀ y, y ∈ l ↔ trim (h.reportedIp user) ≠ "" ∧ (h.get y).any (fun c =>
        c.clientIp = trim (h.reportedIp user) && c.userId ≠ user) = true)
      ∧ (h.priorityReport e id user).lobby
        = l.foldl (fun L x => L.kick [.matched, .waiting] x)
            (h.lobby.kick [.matched, .waiting] t) := by
  obtain ⟨hlob, hget, hby⟩ := lobby_applyPriorityModBan h user (h.reportedIp user)
  generalize hk : (h.applyPriorityModBan user (h.reportedIp user)).kickBanned e
    [.matched, .waiting] t "restricted by operator" "permanently restricted" = k
  have htag : ∀ y, (k.get y).map tag = (h.get y).map tag := by
    intro y
    rw [← hk, tag_kickBanned, hget]
  refine ⟨othersAt k e user (trim (h.reportedIp user)), fun y => ?_, ?_⟩
  · have hany : ∀ p : String × UserId → Bool, (k.get y).any (fun c => p (tag c))
        = (h.get y).any fun c => p (tag c) := by
      intro p
      have hy := congrArg (fun o => Option.any p o) (htag y)
      simp only [Option.any_map] at hy
      exact hy
    refine mem_othersAt.trans (and_congr_right fun _ => ?_)
    exact iff_of_eq (congrArg (· = true)
      (hany fun p => p.1 = trim (h.reportedIp user) && p.2 ≠ user))
  · unfold SimpleHub.priorityReport
    dsimp only
    rw [lobby_status, hby, ht]
    dsimp only
    rw [hk, lobby_kickOthers, ← hlob, ← @lobby_kickBanned _ e, hk]
    rfl

/-- The operator's report. -/
theorem takenOut_priority {id : ConnId} {reporter user user' : UserId} {reason : String}
    {t : ConnId} (hon : s.Online user t)
    (hnew : s.hub.banUntil user
      < (s.priorityReport sha256 codec env id reporter user' reason).hub.banUntil user)
    (hl : s.hub.lobby.Loose t (fun y r => s.atAddress user y = true
      ∧ Lobby.liveIn [.matched, .waiting] r) fun y => s.atAddress user y = true)
    (hout : (s.hub.phaseOf t = some .matched ∨ s.hub.phaseOf t = some .waiting)
      ∨ s.hub.peersOf t = ∅ ∧ s.hub.partnerOf t = none) :
    s.hub.lobby.TakenOut (s.priorityReport sha256 codec env id reporter user' reason).hub.lobby
      t := by
  by_cases hu : user = user'
  · subst hu
    have hhub : (s.priorityReport sha256 codec env id reporter user reason).hub
        = s.hub.priorityReport env.toEnv id user := by
      unfold ReportHub.priorityReport
      dsimp only [onHub]
      split
      · rw [hub_clawbackOnBan]
        rfl
      · rfl
    obtain ⟨l, hmem, hlob⟩ := @lobby_priorityReport s.hub env.toEnv id user t hon.1
    have hat : ∀ y, y ∈ l ↔ s.atAddress user y = true := by
      intro y
      rw [hmem, atAddress, Bool.and_eq_true, decide_eq_true_eq]
    have htl : t ∉ l := by
      rw [hat, atAddress, Bool.and_eq_true]
      rintro ⟨-, ht⟩
      obtain ⟨c, hc, hne⟩ := (Option.any_eq_true _ _).mp ht
      have huser := hon.2
      rw [userOf, hc] at huser
      simp only [Bool.and_eq_true, decide_eq_true_eq] at hne
      exact hne.2 huser
    rw [hhub, hlob]
    refine Lobby.Loose.takenOut_kickAll (by simp) htl ⟨hl.noFriend, hl.noMate, ?_, ?_⟩ ?_
    · exact fun y hy hh => ⟨(hat y).mpr (hl.held y hy hh).1, (hl.held y hy hh).2⟩
    · exact fun p hp hC => hl.settled p hp (hC.imp_right (hat p).mp)
    · refine hout.imp (fun h => ?_) empty_lobby
      rw [← Lobby.liveIn_iff, phaseOf_lobby]
      rcases h with h | h
      · simp [h]
      · simp [h]
  · have hsame : (s.priorityReport sha256 codec env id reporter user' reason).dossier user
        = s.dossier user := dossier_priorityReport id hu
    have hban := congrArg Dossier.ban hsame
    rw [ban_dossier, ban_dossier] at hban
    exact absurd hban hnew.ne'

-- ========================================================== a ban by the ladder

theorem ok_of_ite {ε α : Type} {c : Prop} [Decidable c] {e : ε} {x : Except ε α} {y : α}
    (h : (if c then .error e else x) = .ok y) : x = .ok y := by
  split at h
  · cases h
  · exact h

/-- A bound target is online under its name. -/
theorem byUser_of_genitalBinding {h : SimpleHub} {e : Env} {id tid : ConnId} {target : UserId}
    {sid : SessionId} (hb : h.genitalBinding e id target = .ok (tid, sid)) :
    h.byUser.get? target = some tid := by
  unfold genitalBinding at hb
  split at hb
  · cases hb
  replace hb := ok_of_ite (ok_of_ite (ok_of_ite hb))
  split at hb
  · cases hb
  next htid =>
  -- what is left refuses or binds this connection
  replace hb := ok_of_ite (ok_of_ite hb)
  split at hb
  · cases hb
  · cases hb
  replace hb := ok_of_ite (ok_of_ite (ok_of_ite hb))
  split at hb
  · cases hb
    exact htid
  · cases hb

theorem lobby_genitalBan (h : SimpleHub) (e : Env) (id t : ConnId) (user : UserId)
    (banSecs : Nat) (permanent : Bool) :
    (h.genitalBan e id t user banSecs permanent).lobby
      = h.lobby.clearMatch (e.peerOrder t) t := by
  have hraise : ∀ d, (h.raiseBan user d).lobby = h.lobby := by
    intro d
    unfold raiseBan
    split
    · rfl
    · rfl
  have hsends : ∀ (l : List ConnId) (k : SimpleHub),
      (l.foldl (fun h v => h.send v (.partnerBanned "genitals")) k).lobby = k.lobby := by
    intro l k
    induction l generalizing k with
    | nil => rfl
    | cons v l ih => rw [List.foldl_cons, ih, lobby_send]
  unfold genitalBan
  dsimp only
  rw [lobby_send, lobby_status, lobby_clearMatchStateWithPartnerMsg, lobby_send, hsends, hraise]

/-- What a hit on an online user does to the lobby when it bans. -/
theorem lobby_handleGenitalHit {id : ConnId} {hit : GenitalHitIn} {user : UserId} {t : ConnId}
    (ht : s.hub.byUser.get? user = some t)
    (hban : (s.handleGenitalHit sha256 codec env id hit).hub.banUntil user
      ≠ s.hub.banUntil user) :
    (s.handleGenitalHit sha256 codec env id hit).hub.lobby
      = s.hub.lobby.clearMatch (env.peerOrder t) t := by
  have hquiet : ∀ (r : ReportHub) (m : ServerMsg), r.hub = s.hub →
      (r.onHub (·.send id m)).hub.banUntil user = s.hub.banUntil user := by
    intro r m hr
    rw [← hr]
    rfl
  generalize hX : s.handleGenitalHit sha256 codec env id hit = X at hban ⊢
  unfold handleGenitalHit at hX
  dsimp only at hX
  split at hX
  · subst hX
    exact absurd (hquiet _ _ rfl) hban
  split at hX
  · subst hX
    exact absurd (hquiet _ _ rfl) hban
  · subst hX
    exact absurd (hquiet _ _ rfl) hban
  split at hX
  · subst hX
    exact absurd (hquiet _ _ rfl) hban
  split at hX
  · subst hX
    exact absurd (hquiet _ _ rfl) hban
  next tid sid hbind _ =>
  generalize s.genital.record _ _ _ _ = r at hX
  obtain ⟨g, decision⟩ := r
  cases decision with
  | reject why =>
      subst hX
      exact absurd (hquiet { s with genital := g } _ rfl) hban
  | counted why =>
      subst hX
      exact absurd (hquiet { s with genital := g } _ rfl) hban
  | ban b =>
      subst hX
      dsimp only at hban ⊢
      generalize hr : ({ s with genital := g } : ReportHub) = r at hban ⊢
      have hhub : r.hub = s.hub := by rw [← hr]
      have huser : user = takeChars 80 (trim hit.targetUserId) := by
        by_contra hu
        have hd := @dossier_banByHit r env sha256 codec user
          (takeChars 80 (trim hit.targetUserId)) id tid b
        rw [if_neg hu, ban_dossier, hhub] at hd
        exact hban hd
      have htid := byUser_of_genitalBinding hbind
      rw [← huser, ht] at htid
      cases htid
      unfold banByHit
      dsimp only [onHub]
      rw [lobby_genitalBan, hub_saveGenitalBook, hub_noteExplicitAiHit, hub_clawbackOnBan, hhub]

theorem lobby_noteOwnReport (id : ConnId) :
    (s.noteOwnReport env id).hub.lobby = s.hub.lobby :=
  lobby_modify_same id _ fun _ => ⟨rfl, rfl, rfl, rfl, rfl⟩

theorem tag_noteOwnReport (id y : ConnId) :
    ((s.noteOwnReport env id).hub.get y).map tag = (s.hub.get y).map tag :=
  tag_modify s.hub id (fun c => { c with reportTimes := recentOwn env c ++ [env.now] })
    (fun _ => rfl) y

theorem atAddress_noteOwnReport (id : ConnId) (user : UserId) (y : ConnId) :
    (s.noteOwnReport env id).atAddress user y = s.atAddress user y := by
  have hip : ∀ y, ((s.noteOwnReport env id).hub.get y).map (·.clientIp)
      = (s.hub.get y).map (·.clientIp) := by
    intro y
    have hy := congrArg (Option.map Prod.fst) (@tag_noteOwnReport s env id y)
    simp only [Option.map_map] at hy
    exact hy
  have hreported : (s.noteOwnReport env id).hub.reportedIp user = s.hub.reportedIp user := by
    unfold reportedIp
    simp only [Option.map_bind]
    exact congrArg (fun f => (((Option.bind (s.hub.byUser.get? user) f).filter (· ≠ "")).or
      (s.hub.userLastIp.get? user)).getD "") (funext hip)
  have hy := congrArg (fun o => Option.any (fun p : String × UserId =>
    p.1 = trim (s.hub.reportedIp user) && p.2 ≠ user) o) (@tag_noteOwnReport s env id y)
  simp only [Option.any_map] at hy
  unfold atAddress
  rw [hreported]
  exact congrArg (fun b => decide (trim (s.hub.reportedIp user) ≠ "") && b) hy

/-- The target's session after the reporter's hour is counted. -/
theorem reads_noteOwnReport (id t : ConnId) :
    (s.noteOwnReport env id).hub.phaseOf t = s.hub.phaseOf t
      ∧ (s.noteOwnReport env id).hub.peersOf t = s.hub.peersOf t
      ∧ (s.noteOwnReport env id).hub.partnerOf t = s.hub.partnerOf t := by
  simp only [← phaseOf_lobby, ← peersOf_lobby, ← partnerOf_lobby, lobby_noteOwnReport, and_self]

/-- A report. -/
theorem takenOut_report {user : UserId} {t id : ConnId} {raw reason : String}
    (hon : s.Online user t)
    (hnew : s.hub.banUntil user
      < (s.handleReportUser sha256 codec env id raw reason).hub.banUntil user)
    (hout : s.TakesOut user t (.report id raw reason)) :
    s.hub.lobby.TakenOut (s.handleReportUser sha256 codec env id raw reason).hub.lobby t := by
  obtain ⟨hloose, hreaches⟩ := hout
  obtain ⟨hphase, hpeers, hpartner⟩ := @reads_noteOwnReport s env id t
  generalize hX : s.handleReportUser sha256 codec env id raw reason = X at hnew ⊢
  unfold handleReportUser at hX
  split at hX
  · subst hX
    exact absurd rfl hnew.ne
  split at hX
  · subst hX
    exact absurd rfl hnew.ne
  next c hc =>
  dsimp only at hX
  split at hX
  · subst hX
    exact absurd rfl hnew.ne
  split at hX
  · subst hX
    exact absurd rfl hnew.ne
  have hop : s.byOperator id = isPriorityModReporter c.userId c.shortId c.friendCode := by
    rw [byOperator, hc, Option.any_some]
  have hsame : (s.noteOwnReport env id).hub.banUntil user = s.hub.banUntil user := rfl
  rw [← hsame] at hnew
  split at hX
  · next hmod =>
    rw [hmod] at hop
    replace hX : (s.noteOwnReport env id).priorityReport sha256 codec env id c.userId _
      (filedReason reason) = X := hX
    subst hX
    rw [← @lobby_noteOwnReport s env id]
    refine takenOut_priority (s := s.noteOwnReport env id) ⟨hon.1, ?_⟩ hnew ?_ ?_
    · have ht := congrArg (fun o => (Option.map Prod.snd o).getD "")
        (@tag_noteOwnReport s env id t)
      simp only [Option.map_map] at ht
      exact Eq.trans ht hon.2
    · rw [lobby_noteOwnReport]
      refine ⟨hloose.noFriend, hloose.noMate, fun y hy hh => ?_, fun p hp hC => ?_⟩
      · rw [atAddress_noteOwnReport]
        exact (hloose.held y hy hh).2
      · rw [atAddress_noteOwnReport] at hC
        exact hloose.settled p hp (hC.imp_right fun h => ⟨hop, h⟩)
    · rw [hphase, hpeers, hpartner]
      rcases hreaches with h | h | h
      · exact Or.inl (Or.inl h)
      · exact Or.inl (Or.inr h.2)
      · exact Or.inr h
  · next hmod =>
    rw [Bool.eq_false_iff.mpr hmod] at hop
    replace hX : (s.noteOwnReport env id).scoredReport sha256 codec env id c.userId _
      (filedReason reason) = X := hX
    subst hX
    rw [← @lobby_noteOwnReport s env id]
    refine takenOut_scored (s := s.noteOwnReport env id)
      (C := s.Kicked user (.report id raw reason)) hon.1 hnew ?_ ?_
    · rw [lobby_noteOwnReport]
      refine ⟨hloose.noFriend, hloose.noMate, fun y hy hh => ?_, hloose.settled⟩
      have hlets := (hloose.held y hy hh).1
      rw [hop] at hlets
      cases hlets
    · rw [hphase, hpeers, hpartner]
      refine hreaches.imp (fun h => h) fun h => h.resolve_left fun hw => ?_
      rw [hop] at hw
      cases hw.1

/-- Two connections in a match. -/
def pairMatched : List Input := script
  [(0, .connect 1 ""), (0, .connect 2 ""), (1, .frame 1 (.spin "")), (1, .frame 2 (.spin ""))]

/-- The first sees the second on its detector. -/
def detect (s : ReportHub) (now : Instant) : ReportHub :=
  s.accuse (plainReportEnv now) (fun _ => []) Ledger.compactCodec
    (.hit 1 ⟨"u2", "detector", 3, 5, none⟩)

/-- A pair without friends and mates, of whom nobody waits. -/
def plainPair (s : ReportHub) : Bool :=
  decide (s.hub.clients.keys = {1, 2} ∧ s.hub.peersOf 2 = {1} ∧ s.hub.partnerOf 2 = some 1
    ∧ s.hub.friendCallOf 2 = none ∧ s.hub.partyWithOf 2 = none ∧ s.hub.partyWithOf 1 = none
    ∧ s.hub.phaseOf 1 = some .matched)

theorem takesOut_of_plainPair {s : ReportHub} (h : plainPair s = true) (hit : GenitalHitIn) :
    s.TakesOut "u2" 2 (.hit 1 hit) := by
  obtain ⟨hkeys, hpeers, hpartner, hfriend, hmate, hmate₁, hphase₁⟩ := of_decide_eq_true h
  have hone : ∀ p, s.hub.lobby.Stranger 2 p → p = 1 := by
    rintro p ⟨-, hp, -⟩
    rw [peersOf_lobby, partnerOf_lobby, hpeers, hpartner] at hp
    rcases hp with hp | hp
    · exact Finset.mem_singleton.mp hp
    · exact (Option.some.inj hp).symm
  refine ⟨⟨?_, ?_, fun y hy hh => ?_, fun p _ hp => ?_⟩, ?_⟩
  · rw [friendCallOf_lobby, hfriend]
  · rw [partyWithOf_lobby, hmate]
  · have hkey : y ∈ s.hub.clients.keys := by
      rw [Table.mem_keys_iff]
      show (s.hub.get y).isSome
      by_contra hno
      rw [Option.not_isSome_iff_eq_none] at hno
      simp [Lobby.Holds, Lobby.peersOf, Lobby.partnerOf, hno] at hh
    rw [hkeys] at hkey
    have hy₁ : y = 1 := by simpa [hy] using hkey
    show y ∈ s.hub.peersOf 2
    rw [hpeers, hy₁]
    exact Finset.mem_singleton_self 1
  · rw [hone p (hp.resolve_right fun h => h)]
    refine ⟨fun m hm => ?_, fun hw => ?_⟩
    · rw [partyWithOf_lobby, hmate₁] at hm
      cases hm
    · rw [phaseOf_lobby, hphase₁] at hw
      cases hw
  · show (2 : ConnId) ∉ s.hub.peersOf 2
    rw [hpeers]
    simp

end ReportHub

end Ruletka
