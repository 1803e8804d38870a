/-
A reconnect as a renaming.

`adopt_ws_hold` moves the match of a held connection to the new one field by
field. `Renamed` is the hub in which the new connection stands wherever the
old one stood. The adoption gets there exactly when nothing it does not copy
makes a difference: `Movable` lists what that is.
-/
import Ruletka.Hub.Proofs.Exposure
import Ruletka.Hub.Proofs.Handlers
import Ruletka.Hub.Proofs.Matcher

namespace Ruletka

/-- The session fields of a connection. -/
structure Place where
  phase : Phase
  partner : Option ConnId
  sessionPeers : Finset ConnId
  friendCall : Option ConnId
  partyWith : Option ConnId
  lastPartner : Option ConnId
  sessionId : Option SessionId
  deriving DecidableEq

def Client.place (c : Client) : Place :=
  ⟨c.phase, c.partner, c.sessionPeers, c.friendCall, c.partyWith, c.lastPartner, c.sessionId⟩

/-- The new connection for the old one. -/
def rename (old new x : ConnId) : ConnId := if x = old then new else x

def Place.rename (old new : ConnId) (p : Place) : Place :=
  { p with
    partner := p.partner.map (Ruletka.rename old new)
    sessionPeers := p.sessionPeers.image (Ruletka.rename old new)
    friendCall := p.friendCall.map (Ruletka.rename old new)
    partyWith := p.partyWith.map (Ruletka.rename old new)
    lastPartner := p.lastPartner.map (Ruletka.rename old new) }

/-- A pointer of the place names the connection. -/
def Place.Names (x : ConnId) (p : Place) : Prop :=
  p.partner = some x ∨ x ∈ p.sessionPeers ∨ p.friendCall = some x ∨ p.partyWith = some x
    ∨ p.lastPartner = some x

def FindThirdPending.rename (old new : ConnId) (p : FindThirdPending) : FindThirdPending :=
  { p with origin := Ruletka.rename old new p.origin, target := Ruletka.rename old new p.target }

def JoinCallPending.rename (old new : ConnId) (p : JoinCallPending) : JoinCallPending :=
  { p with
    origin := Ruletka.rename old new p.origin
    target := Ruletka.rename old new p.target
    keep := Ruletka.rename old new p.keep
    keep2 := p.keep2.map (Ruletka.rename old new) }

def JoinCallPending.Names (x : ConnId) (p : JoinCallPending) : Prop :=
  p.origin = x ∨ p.target = x ∨ p.keep = x ∨ p.keep2 = some x

-- =================================================================== renaming

section

variable {old new : ConnId}

theorem rename_of_ne {x : ConnId} (hx : x ≠ old) : rename old new x = x := if_neg hx

theorem rename_ne_old (hne : old ≠ new) (x : ConnId) : rename old new x ≠ old := by
  unfold rename
  split
  · exact hne.symm
  · assumption

theorem map_rename_eq_self (hne : old ≠ new) {o : Option ConnId} :
    o.map (rename old new) = o ↔ o ≠ some old := by
  cases o with
  | none => simp
  | some x =>
    simp only [Option.map_some, Option.some.injEq, ne_eq]
    refine ⟨fun h hx => rename_ne_old hne x (h.trans hx), rename_of_ne⟩

theorem image_rename_eq_self (hne : old ≠ new) {s : Finset ConnId} :
    s.image (rename old new) = s ↔ old ∉ s := by
  constructor
  · intro h hold
    rw [← h] at hold
    obtain ⟨x, -, hx⟩ := Finset.mem_image.mp hold
    exact rename_ne_old hne x hx
  · intro hold
    ext y
    rw [Finset.mem_image]
    constructor
    · rintro ⟨x, hx, rfl⟩
      have hxo : x ≠ old := by
        rintro rfl
        exact hold hx
      rwa [rename_of_ne hxo]
    · intro hy
      have hyo : y ≠ old := by
        rintro rfl
        exact hold hy
      exact ⟨y, hy, rename_of_ne hyo⟩

theorem image_rename_of_mem {s : Finset ConnId} (hold : old ∈ s) :
    s.image (rename old new) = insert new (s.erase old) := by
  ext y
  rw [Finset.mem_image, Finset.mem_insert, Finset.mem_erase]
  constructor
  · rintro ⟨x, hx, rfl⟩
    by_cases he : x = old
    · exact .inl (if_pos he)
    · rw [rename_of_ne he]
      exact .inr ⟨he, hx⟩
  · rintro (rfl | ⟨hne, hy⟩)
    · exact ⟨old, hold, if_pos rfl⟩
    · exact ⟨y, hy, rename_of_ne hne⟩

theorem Place.rename_eq_self (hne : old ≠ new) {p : Place} :
    p.rename old new = p ↔ ¬ p.Names old := by
  unfold Place.rename Place.Names
  rw [Place.mk.injEq]
  simp only [map_rename_eq_self hne, image_rename_eq_self hne, true_and, and_true, not_or, ne_eq]

theorem FindThirdPending.rename_eq_self (hne : old ≠ new) {p : FindThirdPending} :
    p.rename old new = p ↔ p.origin ≠ old ∧ p.target ≠ old := by
  have hone : ∀ x, Ruletka.rename old new x = x ↔ x ≠ old := fun x =>
    ⟨fun h hx => rename_ne_old hne x (h.trans hx), rename_of_ne⟩
  unfold FindThirdPending.rename
  rw [FindThirdPending.mk.injEq]
  simp only [hone, and_true]

theorem JoinCallPending.rename_eq_self (hne : old ≠ new) {p : JoinCallPending} :
    p.rename old new = p ↔ ¬ p.Names old := by
  have hone : ∀ x, Ruletka.rename old new x = x ↔ x ≠ old := fun x =>
    ⟨fun h hx => rename_ne_old hne x (h.trans hx), rename_of_ne⟩
  unfold JoinCallPending.rename JoinCallPending.Names
  rw [JoinCallPending.mk.injEq]
  simp only [hone, map_rename_eq_self hne, and_true, not_or, ne_eq]

end

namespace SimpleHub

variable {h k : SimpleHub} {env : Env} {old new partner : ConnId} {oldc newc : Client}

-- ================================================================ what a run leaves

/-- Nothing that a renaming is about has changed. -/
structure Alike (k h : SimpleHub) : Prop where
  get : ∀ z, k.get z = h.get z
  findThird : k.findThirdPending = h.findThirdPending
  joinCall : k.joinCallPending = h.joinCallPending
  byUser : k.byUser = h.byUser
  shown : k.posts.shown = h.posts.shown

theorem Alike.refl (h : SimpleHub) : h.Alike h := ⟨fun _ => rfl, rfl, rfl, rfl, rfl⟩

theorem Alike.trans {l : SimpleHub} (hkl : k.Alike l) (hlh : l.Alike h) : k.Alike h :=
  ⟨fun z => (hkl.get z).trans (hlh.get z), hkl.findThird.trans hlh.findThird,
    hkl.joinCall.trans hlh.joinCall, hkl.byUser.trans hlh.byUser, hkl.shown.trans hlh.shown⟩

theorem Alike.setQueue (h : SimpleHub) (q : List QueueEntry) : (h.setQueue q).Alike h :=
  ⟨fun _ => rfl, rfl, rfl, rfl, rfl⟩

theorem Alike.status (h : SimpleHub) (x : ConnId) (d : String) : (h.status x d).Alike h := by
  obtain ⟨ms, hms⟩ := h.status_eq_emit x d
  have hshown := congrArg Posts.shown (h.posts_status x d)
  rw [hms] at hshown ⊢
  exact ⟨fun _ => rfl, rfl, rfl, rfl, hshown⟩

theorem Alike.identify (h : SimpleHub) (env : Env) (x : ConnId) (user : UserId) (msg : HelloIn) :
    (h.identify env x user msg).Alike
      ((h.reindex x user).modify x (introduce user (h.sys.friendCodeFor user) msg)) := by
  unfold SimpleHub.identify
  extract_lets code h₁ h₂ h₃ h₄
  have h₁₂ : h₂.Alike h₁ := by
    unfold h₂ onSome rememberClientIp
    split
    · dsimp only
      split
      · exact .refl h₁
      · exact ⟨fun _ => rfl, rfl, rfl, rfl, rfl⟩
    · exact .refl h₁
  have h₂₃ : h₃.Alike h₂ := by
    unfold h₃
    split
    · exact .status h₂ x _
    · exact .refl h₂
  have h₃₄ : h₄.Alike h₃ := by
    unfold h₄ onSome
    split
    · exact ⟨fun _ => rfl, rfl, rfl, rfl,
        congrArg Posts.shown (h₃.posts_send x _ (by simp))⟩
    · exact .refl h₃
  have h₅ : (h₄.broadcastLobbyInfo env).Alike h₄ :=
    ⟨fun _ => rfl, rfl, rfl, rfl, congrArg Posts.shown (h₄.posts_broadcastLobbyInfo env)⟩
  exact ((h₅.trans h₃₄).trans h₂₃).trans h₁₂

-- ================================================================ the pairing loop

/-- Without a pair that fits the loop only drops and rotates. -/
theorem alike_matchLoop (steps : Nat) (hu : h.Unmatchable env h.queue) :
    (matchLoop env steps h).Alike h := by
  induction steps generalizing h with
  | zero => exact .refl h
  | succ n ih =>
      cases hq : h.queue with
      | nil =>
          rw [matchLoop_nil hq]
          exact .refl h
      | cons first rest =>
          rw [hq] at hu
          rw [matchLoop_cons hq]
          generalize hr : (h.setQueue rest).matchTurn env n first = r
          have ht := matchTurn_cases h env n first rest
          rw [hr] at ht
          cases ht with
          | drop hdead => exact (ih hu.drop).trans (.setQueue h rest)
          | rotate hw hp hnone =>
              unfold afterTurn
              split
              · exact (ih hu.rotate).trans (.setQueue h _)
              · exact .setQueue h _
          | pair hi hm =>
              exact absurd hm ((List.pairwise_cons.mp hu).1 _ (List.mem_of_getElem? hi))

/-- A run of the loop does not touch who is not searching. -/
theorem MatchRun.get_of_not_waiting {h' : SimpleHub} {log : List Pairing}
    (hrun : MatchRun env h log h') {x : ConnId} (hx : h.phaseOf x ≠ some .waiting) :
    h'.get x = h.get x := by
  induction hrun with
  | stop h => rfl
  | drop hq hdead hrun ih => exact ih hx
  | rotate hq hrun ih => exact ih hx
  | @pair h k h' first second rest i log hq hi hm hk hrun ih =>
      obtain ⟨sid, hs⟩ := ((matchable_setQueue (q := rest.eraseIdx i)).mpr hm).links.seated
      have hout : x ∉ queueEntryIds first ++ queueEntryIds second :=
        fun hmem => hx (hm.members x hmem).1
      have hkx : k.get x = h.get x := by
        rw [hk]
        exact hs.others x hout
      rw [ih (by rwa [phaseOf, hkx]), hkx]

/-- A pairing of the run takes somebody out of the search. -/
theorem MatchRun.matched_of_pairing {h' : SimpleHub} {log : List Pairing}
    (hrun : MatchRun env h log h') (hlog : log ≠ []) :
    ∃ x, h.phaseOf x = some .waiting ∧ h'.phaseOf x = some .matched := by
  induction hrun with
  | stop h => exact absurd rfl hlog
  | drop hq hdead hrun ih => exact ih hlog
  | rotate hq hrun ih => exact ih hlog
  | @pair h k h' first second rest i log hq hi hm hk hrun ih =>
      obtain ⟨sid, hs⟩ := ((matchable_setQueue (q := rest.eraseIdx i)).mpr hm).links.seated
      obtain ⟨x, hx⟩ := exists_mem_queueEntryIds first
      have hmem : x ∈ queueEntryIds first ++ queueEntryIds second := List.mem_append_left _ hx
      obtain ⟨c, hc, hphase, -⟩ := hs.members x hmem
      rw [← hk] at hc
      have hkx : k.phaseOf x = some .matched := phaseOf_eq_some.mpr ⟨c, hc, hphase⟩
      have hlater : h'.get x = k.get x := hrun.get_of_not_waiting (by rw [hkx]; exact nofun)
      exact ⟨x, (hm.members x hmem).1, by rw [phaseOf, hlater]; exact hkx⟩

theorem not_matchable_party3 {e f : QueueEntry} (he : e.IsParty3) : ¬ h.Matchable env e f := by
  intro hm
  have hs := (entriesCompatible_iff.mp hm.compatible).1
  cases e with
  | party3 a b c => cases f <;> cases hs
  | _ => exact he

/-- A run without pairings makes nothing fit. -/
theorem MatchRun.unmatchable {h' : SimpleHub} {log : List Pairing} (hrun : MatchRun env h log h')
    (hlog : log = []) (hu : h'.Unmatchable env h'.queue) : h.Unmatchable env h.queue := by
  induction hrun with
  | stop h => exact hu
  | @drop h h' first rest log hq hdead hrun ih =>
      rw [hq]
      refine List.pairwise_cons.mpr ⟨fun e _ hm => ?_, ?_⟩
      · rcases hdead with hparty | hwait
        · exact not_matchable_party3 hparty hm
        · rw [hm.left.waiting] at hwait
          cases hwait
      · exact (ih hlog hu).imp fun hn hm => hn (matchable_setQueue.mpr hm)
  | @rotate h h' first rest log hq hrun ih =>
      have hback : h.Unmatchable env (rest ++ [first]) :=
        (ih hlog hu).imp fun hn hm => hn (matchable_setQueue.mpr hm)
      rw [hq]
      exact ((List.perm_append_singleton first rest).pairwise_iff
        fun hn hm => hn hm.symm).mp hback
  | pair hq hi hm hk hrun ih => cases hlog

-- ============================================================== the seat moves

/-- The removal of a blank record is the erasure alone. -/
theorem removeClient_blank {tm : SimpleHub → Option SimpleHub} {x : ConnId} {c : Client}
    (hc : h.get x = some (blank c)) :
    h.removeClient env tm x = tm (((h.withdraw x).eraseClient x).broadcastLobbyInfo env) := by
  have hkeep : h.shouldKeepWsHold env x = (h, false) := by
    unfold shouldKeepWsHold
    rw [hc]
    simp [blank, parkable]
  have hwithdrawn : (h.withdraw x).get x = some (blank c) := by rw [get_withdraw, hc]
  have hleave : (h.withdraw x).leaveKeepRemainingPair env tm x "partner left — still chatting"
      = some (h.withdraw x, false) := by
    unfold leaveKeepRemainingPair
    rw [hwithdrawn]
    simp [blank]
  unfold removeClient
  rw [hkeep]
  dsimp only
  rw [if_neg Bool.false_ne_true, hwithdrawn]
  dsimp only
  rw [hleave]
  show tm ((h.withdraw x).forgetClient env x (blank c) false) = _
  simp [forgetClient, releaseOthers, onSome, blank, IterOrder.run_empty]

variable (h env old new partner oldc) in
/-- The hub on which `try_match` runs at the end of an adoption. -/
def reseated : SimpleHub :=
  (((h.moveSeat env old new partner oldc).withdraw old).eraseClient old).broadcastLobbyInfo env

variable (h env old new partner oldc) in
/-- The hub after an adoption. -/
def adopted : SimpleHub :=
  (((h.reseated env old new partner oldc).rematch env).status new "still chatting").status partner
    "still chatting"

theorem get_moveSeat (hpn : partner ≠ new) {z : ConnId} (hz : z ≠ old) :
    (h.moveSeat env old new partner oldc).get z
      = if z = new then (h.get new).map (takeOver env new partner oldc)
        else if z = partner then (h.get partner).map (repoint old new) else h.get z := by
  unfold moveSeat
  rw [get_modify, if_neg hz, get_modify, get_modify]
  by_cases hzn : z = new
  · rw [if_pos hzn, if_pos hzn, hzn, if_neg hpn.symm]
  · rw [if_neg hzn, if_neg hzn]
    by_cases hzp : z = partner
    · rw [if_pos hzp, if_pos hzp, hzp]
    · rw [if_neg hzp, if_neg hzp]

theorem get_eraseClient (x z : ConnId) :
    (h.eraseClient x).get z = if z = x then none else h.get z := by
  unfold eraseClient
  cases hx : h.get x with
  | some c => exact Table.get?_del h.clients x z
  | none =>
    dsimp only
    split
    · next hz => rw [hz, hx]
    · rfl

/-- The writes of an adoption in one equation for each connection. -/
theorem get_reseated (hpn : partner ≠ new) (z : ConnId) :
    (h.reseated env old new partner oldc).get z
      = if z = old then none
        else if z = new then (h.get new).map (takeOver env new partner oldc)
        else if z = partner then (h.get partner).map (repoint old new) else h.get z := by
  unfold reseated
  rw [get_broadcastLobbyInfo, get_eraseClient, get_withdraw]
  split
  · rfl
  · next hz => exact get_moveSeat hpn hz

theorem findThird_eraseClient (x : ConnId) :
    (h.eraseClient x).findThirdPending = h.findThirdPending := by
  unfold eraseClient
  split <;> rfl

theorem joinCall_eraseClient (x : ConnId) :
    (h.eraseClient x).joinCallPending = h.joinCallPending := by
  unfold eraseClient
  split <;> rfl

theorem joinCall_dropFindThird (x : ConnId) :
    (h.dropFindThird x).joinCallPending = h.joinCallPending := by
  unfold dropFindThird
  split
  · dsimp only
    split <;> rfl
  · rfl

theorem joinCall_clearFedForClient (x : ConnId) :
    (h.clearFedForClient x).joinCallPending = h.joinCallPending := by
  unfold clearFedForClient
  split <;> rfl

theorem findThird_reseated : (h.reseated env old new partner oldc).findThirdPending
    = h.findThirdPending.filter fun p => ¬ (p.origin = old ∨ p.target = old) := by
  have hmoved : (((h.moveSeat env old new partner oldc).dequeueClient old).clearFedForClient
      old).findThirdPending = h.findThirdPending := by
    unfold clearFedForClient
    split <;> rfl
  unfold reseated
  show (((h.moveSeat env old new partner oldc).withdraw old).eraseClient old).findThirdPending = _
  rw [findThird_eraseClient]
  unfold withdraw dropFindThird
  rw [hmoved]
  cases hp : h.findThirdPending with
  | none =>
    rw [hmoved, hp]
    rfl
  | some p =>
    dsimp only
    by_cases hnames : p.origin = old ∨ p.target = old
    · rw [if_pos (by simpa using hnames)]
      simp [Option.filter, hnames]
      rfl
    · rw [if_neg (by simpa using hnames), hmoved, hp]
      simp [Option.filter, hnames]

theorem joinCall_reseated :
    (h.reseated env old new partner oldc).joinCallPending = h.joinCallPending := by
  have hwithdraw : ((h.moveSeat env old new partner oldc).withdraw old).joinCallPending
      = h.joinCallPending := by
    unfold withdraw
    rw [joinCall_dropFindThird, joinCall_clearFedForClient]
    rfl
  unfold reseated
  show (((h.moveSeat env old new partner oldc).withdraw old).eraseClient old).joinCallPending = _
  rw [joinCall_eraseClient, hwithdraw]

theorem shown_reseated :
    (h.reseated env old new partner oldc).posts.shown = h.posts.shown := by
  unfold reseated
  rw [posts_broadcastLobbyInfo, posts_eraseClient]
  show ((h.moveSeat env old new partner oldc).withdraw old).posts.shown = h.posts.shown
  unfold withdraw
  rw [posts_dropFindThird, posts_clearFedForClient, posts_dequeueClient]
  rfl

theorem sameRules_reseated : SameRules h (h.reseated env old new partner oldc) := by
  have hclear : ∀ k : SimpleHub, SameRules k (k.clearFedForClient old) := by
    intro k
    unfold clearFedForClient
    split
    · exact .refl k
    · exact ⟨rfl, rfl, rfl, rfl⟩
  have hdrop : ∀ k : SimpleHub, SameRules k (k.dropFindThird old) := by
    intro k
    unfold dropFindThird
    split
    · dsimp only
      split
      · exact ⟨rfl, rfl, rfl, rfl⟩
      · exact .refl k
    · exact .refl k
  have herase : ∀ k : SimpleHub, SameRules k (k.eraseClient old) := by
    intro k
    unfold eraseClient
    split
    · exact ⟨rfl, rfl, rfl, rfl⟩
    · exact .refl k
  have hlobby : ∀ k : SimpleHub, SameRules k (k.broadcastLobbyInfo env) := fun _ =>
    ⟨rfl, rfl, rfl, rfl⟩
  have hmove : SameRules h (h.moveSeat env old new partner oldc) := ⟨rfl, rfl, rfl, rfl⟩
  have hdequeue : SameRules (h.moveSeat env old new partner oldc)
      ((h.moveSeat env old new partner oldc).dequeueClient old) := .dequeueClient old
  unfold reseated withdraw
  exact ((((hmove.trans hdequeue).trans (hclear _)).trans (hdrop _)).trans (herase _)).trans
    (hlobby _)

theorem queue_reseated : (h.reseated env old new partner oldc).queue
    = h.queue.filter fun e => old ∉ queueEntryIds e := by
  have hclear : ∀ k : SimpleHub, (k.clearFedForClient old).queue = k.queue := by
    intro k
    unfold clearFedForClient
    split <;> rfl
  have hdrop : ∀ k : SimpleHub, (k.dropFindThird old).queue = k.queue := by
    intro k
    unfold dropFindThird
    split
    · dsimp only
      split <;> rfl
    · rfl
  have herase : ∀ k : SimpleHub, (k.eraseClient old).queue = k.queue := by
    intro k
    unfold eraseClient
    split <;> rfl
  unfold reseated
  show (((h.moveSeat env old new partner oldc).withdraw old).eraseClient old).queue = _
  rw [herase]
  unfold withdraw
  rw [hdrop, hclear]
  rfl

/-- The search reads nothing that a third connection's record changed in. -/
theorem sought_reseated (hpn : partner ≠ new) {z : ConnId} (hzo : z ≠ old) (hzn : z ≠ new) :
    ((h.reseated env old new partner oldc).get z).map sought = (h.get z).map sought := by
  rw [get_reseated hpn, if_neg hzo, if_neg hzn]
  split
  · next hzp =>
    rw [hzp, Option.map_map]
    rfl
  · rfl

-- ==================================================================== the hello

/-- A held match is moved, and `try_match` runs. -/
theorem adoptWsHold_adopted {tm : SimpleHub → Option SimpleHub} (hne : old ≠ new)
    (hold : h.get old = some oldc) (hadopt : h.adoptable env oldc new = some partner) :
    h.adoptWsHold env tm old new
      = (tm (h.reseated env old new partner oldc)).map fun k =>
          ((k.status new "still chatting").status partner "still chatting", true) := by
  obtain ⟨c, hc⟩ : ∃ c, (h.moveSeat env old new partner oldc).get old = some (blank c) := by
    unfold moveSeat
    rw [get_modify, if_pos rfl, get_modify, if_neg hne, get_modify, hold]
    split
    · exact ⟨_, rfl⟩
    · exact ⟨_, rfl⟩
  unfold adoptWsHold
  rw [if_neg hne, hold]
  dsimp only
  rw [hadopt]
  dsimp only
  rw [removeClient_blank hc]
  cases hk : tm (h.reseated env old new partner oldc) with
  | none =>
    unfold reseated at hk
    rw [hk]
    rfl
  | some k =>
    unfold reseated at hk
    rw [hk]
    rfl

/-- A live hold whose match cannot move stays where it is. -/
theorem kickPrevious_kept {tm : SimpleHub → Option SimpleHub} {user : UserId} (hne : old ≠ new)
    (huser : h.byUser.get? user = some old) (hold : h.get old = some oldc)
    (hlive : oldc.wsHoldUntil.any (env.now < ·) = true)
    (hadopt : h.adoptable env oldc new = none) :
    ∃ k, h.kickPrevious env tm new user = some k ∧ k.get old = some oldc := by
  have hno : h.adoptWsHold env tm old new = some (h, false) := by
    unfold adoptWsHold
    rw [if_neg hne, hold]
    dsimp only
    rw [hadopt]
  unfold kickPrevious
  rw [huser]
  dsimp only
  rw [if_neg hne, hno]
  dsimp only [Option.bind_eq_bind, Option.bind_some]
  rw [if_neg Bool.false_ne_true]
  generalize htold : (h.sendError old _).status old _ = k
  have hk : k.get old = some oldc := by
    rw [← htold, get_status, get_sendError, hold]
  refine ⟨k, ?_, hk⟩
  obtain ⟨deadline, hd, hnow⟩ := (Option.any_eq_true _ _).mp hlive
  unfold removeClient shouldKeepWsHold
  rw [hk]
  dsimp only
  rw [hd]
  dsimp only
  rw [if_pos hnow]

-- ================================================================ the statement

/-- A connection on a live hold, and an idle one whose `Hello` names its user. -/
structure Returns (h : SimpleHub) (env : Env) (old new : ConnId) (msg : HelloIn)
    (oldc newc : Client) : Prop where
  ne : old ≠ new
  held : h.get old = some oldc
  came : h.get new = some newc
  live : oldc.wsHoldUntil.any (env.now < ·) = true
  idle : newc.phase = .idle
  user : h.helloUserId new msg.userId = oldc.userId

/-- The hub with the new connection wherever the old one was. -/
structure Renamed (h h' : SimpleHub) (old new : ConnId) (oldc : Client) : Prop where
  gone : h'.get old = none
  others : ∀ z, z ≠ old → z ≠ new →
    (h'.get z).map Client.place = (h.get z).map fun c => c.place.rename old new
  taken : ∃ c, h'.get new = some c ∧ c.place = oldc.place.rename old new
    ∧ c.peerId = oldc.peerId ∧ c.shortId = oldc.shortId ∧ c.room = oldc.room
    ∧ c.lastOfferAt = oldc.lastOfferAt ∧ c.lastAnswerAt = oldc.lastAnswerAt
  findThird : h'.findThirdPending = h.findThirdPending.map (·.rename old new)
  joinCall : h'.joinCallPending = h.joinCallPending.map (·.rename old new)
  index : h'.byUser.get? oldc.userId = some new ∧ ∀ u, h'.byUser.get? u ≠ some old
  /-- the partner is shown no new match -/
  quiet : ∀ p, oldc.partner = some p →
    h'.posts.shown.filter (·.1 = p) = h.posts.shown.filter (·.1 = p)

/-- What makes the adoption a renaming. -/
structure Movable (h : SimpleHub) (env : Env) (old new partner : ConnId) (oldc newc : Client) :
    Prop where
  index : h.byUser.get? oldc.userId = some old
  /-- the old connection stands under no third name -/
  named : ∀ u, h.byUser.get? u = some old → u = oldc.userId ∨ u = newc.userId
  adoptable : h.adoptable env oldc new = some partner
  /-- nobody is matched by the `try_match` at the end -/
  queue : h.Unmatchable env h.queue
  seat : partner ≠ old ∧ old ∉ oldc.sessionPeers ∧ new ∉ oldc.sessionPeers
    ∧ oldc.friendCall ≠ some old
  /-- what is not copied is the same -/
  uncopied : newc.partyWith = none ∧ newc.room = oldc.room
    ∧ newc.lastPartner = oldc.lastPartner.map (rename old new)
  mate : ∀ c, h.get partner = some c → c.partyWith ≠ some old ∧ c.lastPartner ≠ some old
  thirds : ∀ z c, z ≠ old → z ≠ new → z ≠ partner → h.get z = some c → ¬ c.place.Names old
  findThird : ∀ p, h.findThirdPending = some p → p.origin ≠ old ∧ p.target ≠ old
  joinCall : ∀ p, h.joinCallPending = some p → ¬ p.Names old

-- ==================================================================== the parts

theorem adoptable_some (hadopt : h.adoptable env oldc new = some partner) :
    oldc.phase = .matched ∧ oldc.partyWith = none ∧ oldc.partner = some partner
      ∧ partner ≠ new ∧ ∃ c, h.get partner = some c := by
  unfold adoptable at hadopt
  split at hadopt
  · next hcan =>
    simp only [Bool.and_eq_true, decide_eq_true_eq, Option.isNone_iff_eq_none] at hcan
    obtain ⟨hp, hkeep⟩ := Option.filter_eq_some_iff.mp hadopt
    rw [Bool.and_eq_true, decide_eq_true_eq] at hkeep
    exact ⟨hcan.1.1.2, hcan.1.2, hp, hkeep.1, Option.isSome_iff_exists.mp hkeep.2⟩
  · cases hadopt

/-- The place that is taken over is the renamed one. -/
theorem place_takeOver_iff (hne : old ≠ new) (hphase : oldc.phase = .matched)
    (hparty : oldc.partyWith = none) (hpartner : oldc.partner = some partner) :
    (takeOver env new partner oldc newc).place = oldc.place.rename old new
      ↔ (partner ≠ old ∧ old ∉ oldc.sessionPeers ∧ new ∉ oldc.sessionPeers
          ∧ oldc.friendCall ≠ some old)
        ∧ newc.partyWith = none ∧ newc.lastPartner = oldc.lastPartner.map (rename old new) := by
  have hpeers : oldc.sessionPeers.erase new = oldc.sessionPeers.image (rename old new)
      ↔ old ∉ oldc.sessionPeers ∧ new ∉ oldc.sessionPeers := by
    constructor
    · intro he
      have hnew : new ∉ oldc.sessionPeers.image (rename old new) := by
        rw [← he]
        exact Finset.notMem_erase new _
      constructor
      · exact fun hmem => hnew (Finset.mem_image.mpr ⟨old, hmem, if_pos rfl⟩)
      · exact fun hmem => hnew (Finset.mem_image.mpr ⟨new, hmem, rename_of_ne hne.symm⟩)
    · rintro ⟨hold, hnew⟩
      rw [Finset.erase_eq_of_notMem hnew, (image_rename_eq_self hne).mpr hold]
  have hsome : some partner = (some partner).map (rename old new) ↔ partner ≠ old := by
    rw [eq_comm, map_rename_eq_self hne]
    simp
  have hfriend : oldc.friendCall = oldc.friendCall.map (rename old new)
      ↔ oldc.friendCall ≠ some old := by
    rw [eq_comm, map_rename_eq_self hne]
  unfold Client.place Place.rename takeOver
  rw [Place.mk.injEq]
  dsimp only
  rw [hphase, hparty, hpartner, hpeers, hsome, hfriend]
  simp only [Option.map_none, true_and, and_true]
  tauto

/-- The partner's place is the renamed one. -/
theorem place_repoint_iff (hne : old ≠ new) (c : Client) :
    (repoint old new c).place = c.place.rename old new
      ↔ c.partyWith ≠ some old ∧ c.lastPartner ≠ some old := by
  have hmap : ∀ o : Option ConnId,
      (if o = some old then some new else o) = o.map (rename old new) := by
    intro o
    split
    · next ho =>
      rw [ho]
      exact congrArg some (if_pos rfl).symm
    · next ho => exact ((map_rename_eq_self hne).mpr ho).symm
  have hpeers : (if old ∈ c.sessionPeers then insert new (c.sessionPeers.erase old)
      else c.sessionPeers) = c.sessionPeers.image (rename old new) := by
    split
    · next hold => exact (image_rename_of_mem hold).symm
    · next hold => exact ((image_rename_eq_self hne).mpr hold).symm
  unfold Client.place Place.rename repoint
  rw [Place.mk.injEq]
  dsimp only
  rw [hmap, hmap, hpeers, eq_comm (a := c.partyWith), eq_comm (a := c.lastPartner),
    map_rename_eq_self hne, map_rename_eq_self hne]
  simp only [true_and, and_true]

theorem filter_findThird_iff (hne : old ≠ new) (o : Option FindThirdPending) :
    (o.filter fun p => ¬ (p.origin = old ∨ p.target = old)) = o.map (·.rename old new)
      ↔ ∀ p, o = some p → p.origin ≠ old ∧ p.target ≠ old := by
  cases o with
  | none => simp
  | some p =>
    by_cases hnames : p.origin = old ∨ p.target = old
    · simp [Option.filter, hnames]
      tauto
    · have hself := (FindThirdPending.rename_eq_self (p := p) hne).mpr (not_or.mp hnames)
      simp [Option.filter, hnames, hself]
      exact not_or.mp hnames

theorem joinCall_rename_iff (hne : old ≠ new) (o : Option JoinCallPending) :
    o = o.map (·.rename old new) ↔ ∀ p, o = some p → ¬ p.Names old := by
  cases o with
  | none => simp
  | some p =>
    rw [Option.map_some, Option.some.injEq, eq_comm, JoinCallPending.rename_eq_self hne]
    simp

-- ==================================================================== the hub after

theorem expired_reseated (hn : h.expired env = ∅) (hpn : partner ≠ new) :
    (h.reseated env old new partner oldc).expired env = ∅ := by
  refine Finset.eq_empty_of_forall_notMem fun x hx => ?_
  obtain ⟨c, hc, he⟩ := mem_expired.mp hx
  have hnone : ∀ {y c'}, h.get y = some c' → c'.holdExpired env = true → False := by
    intro y c' hy hy'
    have hmem := mem_expired.mpr ⟨c', hy, hy'⟩
    rw [hn] at hmem
    exact Finset.notMem_empty y hmem
  rw [get_reseated hpn] at hc
  split at hc
  · cases hc
  split at hc
  · obtain ⟨c', -, rfl⟩ := Option.map_eq_some_iff.mp hc
    cases he
  split at hc
  · obtain ⟨c', hc', rfl⟩ := Option.map_eq_some_iff.mp hc
    exact hnone hc' he
  · exact hnone hc he

/-- Nobody fits after the adoption exactly when nobody did before: neither of the two
connections searches. -/
theorem unmatchable_reseated_iff {msg : HelloIn} (hr : h.Returns env old new msg oldc newc)
    (hadopt : h.adoptable env oldc new = some partner) :
    (h.reseated env old new partner oldc).Unmatchable env
        (h.reseated env old new partner oldc).queue
      ↔ h.Unmatchable env h.queue := by
  obtain ⟨hmatched, -, -, hpn, -⟩ := adoptable_some hadopt
  have hrules := @sameRules_reseated h env old new partner oldc
  have hback : SameRules (h.reseated env old new partner oldc) h :=
    ⟨hrules.sys.symm, hrules.blocks.symm, hrules.bans.symm, hrules.ipBans.symm⟩
  have hsame : ∀ e, old ∉ queueEntryIds e → new ∉ queueEntryIds e →
      SameSought h (h.reseated env old new partner oldc) e := fun e ho hn x hx =>
    sought_reseated hpn (ne_of_mem_of_not_mem hx ho) (ne_of_mem_of_not_mem hx hn)
  have hbefore : ∀ e, h.queueEntryWaitingOk e = true →
      old ∉ queueEntryIds e ∧ new ∉ queueEntryIds e := by
    intro e hw
    have hall := queueEntryWaitingOk_iff.mp hw
    constructor
    · intro hx
      have hphase := hall old hx
      rw [phaseOf, hr.held, Option.map_some, hmatched] at hphase
      cases hphase
    · intro hx
      have hphase := hall new hx
      rw [phaseOf, hr.came, Option.map_some, hr.idle] at hphase
      cases hphase
  have hafter : ∀ e, (h.reseated env old new partner oldc).queueEntryWaitingOk e = true →
      old ∉ queueEntryIds e ∧ new ∉ queueEntryIds e := by
    intro e hw
    have hall := queueEntryWaitingOk_iff.mp hw
    constructor
    · intro hx
      have hphase := hall old hx
      rw [phaseOf, get_reseated hpn, if_pos rfl] at hphase
      cases hphase
    · intro hx
      have hphase := hall new hx
      rw [phaseOf, get_reseated hpn, if_neg hr.ne.symm, if_pos rfl, hr.came] at hphase
      cases hphase
  rw [queue_reseated]
  unfold Unmatchable
  rw [List.pairwise_filter]
  refine List.Pairwise.iff fun e f => ⟨fun hno hm => ?_, fun hno _ _ hm => ?_⟩
  · obtain ⟨heo, hen⟩ := hbefore e hm.left.waiting
    obtain ⟨hfo, hfn⟩ := hbefore f hm.right.waiting
    exact hno (decide_eq_true heo) (decide_eq_true hfo) (hm.congr hback
      (fun x hx => (hsame e heo hen x hx).symm) fun x hx => (hsame f hfo hfn x hx).symm)
  · obtain ⟨heo, hen⟩ := hafter e hm.left.waiting
    obtain ⟨hfo, hfn⟩ := hafter f hm.right.waiting
    exact hno (hm.congr hrules (hsame e heo hen) (hsame f hfo hfn))

/-- After the last part of a `Hello` only the newcomer's record has changed. -/
theorem get_identify (k : SimpleHub) (x : ConnId) (user : UserId) (msg : HelloIn) (z : ConnId) :
    (k.identify env x user msg).get z
      = if z = x then (k.get z).map (introduce user (k.sys.friendCodeFor user) msg)
        else k.get z := by
  rw [(Alike.identify k env x user msg).get, get_modify]
  rfl

theorem kickPrevious_adopted (n : Nat) (hn : h.expired env = ∅) (hne : old ≠ new)
    (hold : h.get old = some oldc) (hindex : h.byUser.get? oldc.userId = some old)
    (hadopt : h.adoptable env oldc new = some partner) :
    h.kickPrevious env (tryMatch env (n + 1)) new oldc.userId
      = some (h.adopted env old new partner oldc) := by
  have hpn := (adoptable_some hadopt).2.2.2.1
  have htry := tryMatch_eq_rematch (@expired_reseated h env old new partner oldc hn hpn) n
  unfold kickPrevious
  rw [hindex]
  dsimp only
  rw [if_neg hne, adoptWsHold_adopted hne hold hadopt, htry]
  rfl

/-- With a queue in which nobody fits, `try_match` does nothing. -/
theorem alike_adopted (hu : (h.reseated env old new partner oldc).Unmatchable env
      (h.reseated env old new partner oldc).queue) :
    (h.adopted env old new partner oldc).Alike (h.reseated env old new partner oldc) :=
  ((Alike.status _ partner _).trans (Alike.status _ new _)).trans (alike_matchLoop _ hu)

/-- Somebody who is matched at the end of the adoption was searching before. -/
theorem exists_matched_of_matchable (hu : ¬ h.Unmatchable env h.queue) :
    ∃ x, h.phaseOf x = some .waiting ∧ (h.rematch env).phaseOf x = some .matched := by
  obtain ⟨log, hrun⟩ := matchLoop_run env (max (h.queue.length * 4) 8) h
  exact hrun.matched_of_pairing fun hlog => hu (hrun.unmatchable hlog unmatchable_rematch)

/-- If the adoption is a renaming, nobody was matched by it. -/
theorem Renamed.unmatchable {msg : HelloIn} (hr : h.Returns env old new msg oldc newc)
    (hadopt : h.adoptable env oldc new = some partner)
    (hp : h.Renamed ((h.adopted env old new partner oldc).identify env new oldc.userId msg)
      old new oldc) :
    (h.reseated env old new partner oldc).Unmatchable env
      (h.reseated env old new partner oldc).queue := by
  by_contra hu
  obtain ⟨hmatched, -, -, hpn, -⟩ := adoptable_some hadopt
  obtain ⟨x, hwait, hmatch⟩ := exists_matched_of_matchable hu
  obtain ⟨c, hc, hphase⟩ := phaseOf_eq_some.mp hwait
  rw [get_reseated hpn] at hc
  have hxo : x ≠ old := by
    rintro rfl
    rw [if_pos rfl] at hc
    cases hc
  rw [if_neg hxo] at hc
  have hxn : x ≠ new := by
    rintro rfl
    rw [if_pos rfl, hr.came] at hc
    cases hc
    cases hphase
  rw [if_neg hxn] at hc
  have hbefore : ∃ c, h.get x = some c ∧ c.phase = .waiting := by
    split at hc
    · next hxp =>
      obtain ⟨c', hc', rfl⟩ := Option.map_eq_some_iff.mp hc
      exact ⟨c', by rw [hxp, hc'], hphase⟩
    · exact ⟨c, hc, hphase⟩
  obtain ⟨c₀, hc₀, hphase₀⟩ := hbefore
  obtain ⟨c₁, hc₁, hphase₁⟩ := phaseOf_eq_some.mp hmatch
  have hsame := hp.others x hxo hxn
  rw [get_identify, if_neg hxn, adopted, get_status, get_status, hc₁, hc₀] at hsame
  have hphases : c₁.phase = c₀.phase := congrArg Place.phase (Option.some.inj hsame)
  rw [hphase₁, hphase₀] at hphases
  cases hphases

-- ==================================================================== the result

/-- The old connection stays when its user is another's by now. -/
theorem kept_of_other_index {n : Nat} {user : UserId} (hn : h.expired env = ∅)
    (hold : h.get old = some oldc) (hindex : h.byUser.get? user ≠ some old)
    (hk : h.kickPrevious env (tryMatch env (n + 1)) new user = some k) : k.get old ≠ none := by
  have hbadge : k.books.badge old ≠ none → k.get old ≠ none := by
    intro hb hg
    exact hb (congrArg (Option.map Client.badge) hg)
  have hheld : h.books.badge old ≠ none := by
    show (h.get old).map Client.badge ≠ none
    rw [hold]
    exact nofun
  obtain ⟨k', hk', -, hbooks⟩ := kickPrevious_returns (settles_tryMatch n) hn new user
  cases hk.symm.trans hk'
  apply hbadge
  rcases hbooks with hb | ⟨x, hx, -, hb⟩
  · rw [hb]
    exact hheld
  · have hxo : old ≠ x := by
      rintro rfl
      exact hindex hx
    rcases hb with hb | hb | hb
    · rw [hb]
      show ((if old = x then _ else h.books.badge old) : Option Badge) ≠ none
      rw [if_neg hxo]
      exact hheld
    · rw [hb, Books.badge_erase, if_neg hxo]
      exact hheld
    · rw [hb, Books.badge_erase, if_neg hxo, Books.badge_unpark]
      split
      · rw [ne_eq, Option.map_eq_none_iff]
        exact hheld
      · exact hheld

theorem byUser_reseated (hold : h.get old = some oldc) :
    (h.reseated env old new partner oldc).byUser = h.byUser.del oldc.userId := by
  have hbooks : (h.reseated env old new partner oldc).books
      = (h.books.unpark new).erase old := by
    unfold reseated
    rw [books_broadcastLobbyInfo, books_eraseClient, books_withdraw, books_moveSeat,
      Books.erase_unpark]
  obtain ⟨g, hg, huser⟩ : ∃ g, (h.books.unpark new).badge old = some g
      ∧ g.userId = oldc.userId := by
    have hbadge : h.books.badge old = some oldc.badge := congrArg (Option.map Client.badge) hold
    rw [Books.badge_unpark, hbadge]
    split
    · exact ⟨_, rfl, rfl⟩
    · exact ⟨_, rfl, rfl⟩
  refine (congrArg Books.byUser hbooks).trans ?_
  unfold Books.erase
  rw [hg, ← huser]
  rfl

/-- The index after a `Hello`. -/
theorem byUser_identify (k : SimpleHub) {x : ConnId} {c : Client} (hc : k.get x = some c)
    (user : UserId) (msg : HelloIn) (u : UserId) :
    (k.identify env x user msg).byUser.get? u
      = if u = user then some x else if u = c.userId then none else k.byUser.get? u := by
  rw [(Alike.identify k env x user msg).byUser]
  show (k.reindex x user).byUser.get? u = _
  unfold reindex
  rw [hc]
  dsimp only [Option.map_some]
  rw [Table.get?_set]
  split
  · rfl
  · next hu =>
    by_cases hformer : c.userId = user
    · rw [hformer, if_neg hu]
      simp [Option.filter, onSome]
    · simp [Option.filter, hformer, onSome]

/-- Given that the match moves and nobody is matched by it. -/
theorem renamed_iff {msg : HelloIn} (hr : h.Returns env old new msg oldc newc)
    (hindex : h.byUser.get? oldc.userId = some old)
    (hadopt : h.adoptable env oldc new = some partner)
    (hu : (h.reseated env old new partner oldc).Unmatchable env
      (h.reseated env old new partner oldc).queue) :
    h.Renamed ((h.adopted env old new partner oldc).identify env new oldc.userId msg)
      old new oldc ↔ h.Movable env old new partner oldc newc := by
  obtain ⟨hphase, hparty, hpartner, hpn, p, hp⟩ := adoptable_some hadopt
  have hk := alike_adopted hu
  generalize h.adopted env old new partner oldc = k at hk
  have hid := Alike.identify k env new oldc.userId msg
  have hplace := @place_takeOver_iff env old new partner oldc newc hr.ne hphase hparty hpartner
  have hget : ∀ z, (k.identify env new oldc.userId msg).get z
      = if z = old then none
        else if z = new then some (introduce oldc.userId (k.sys.friendCodeFor oldc.userId) msg
          (takeOver env new partner oldc newc))
        else if z = partner then (h.get partner).map (repoint old new) else h.get z := by
    intro z
    rw [get_identify, hk.get, get_reseated hpn]
    by_cases hzn : z = new
    · rw [if_pos hzn, hzn, if_neg hr.ne.symm, if_pos rfl, hr.came, if_neg hr.ne.symm, if_pos rfl]
      rfl
    · simp only [if_neg hzn]
  have hthird : (k.identify env new oldc.userId msg).findThirdPending
      = h.findThirdPending.filter fun p => ¬ (p.origin = old ∨ p.target = old) :=
    (hid.findThird.trans hk.findThird).trans findThird_reseated
  have hjoin : (k.identify env new oldc.userId msg).joinCallPending = h.joinCallPending :=
    (hid.joinCall.trans hk.joinCall).trans joinCall_reseated
  have hshown : (k.identify env new oldc.userId msg).posts.shown = h.posts.shown :=
    (hid.shown.trans hk.shown).trans shown_reseated
  have hnew : k.get new = some (takeOver env new partner oldc newc) := by
    rw [hk.get, get_reseated hpn, if_neg hr.ne.symm, if_pos rfl, hr.came]
    rfl
  have hbyUser : ∀ u, (k.identify env new oldc.userId msg).byUser.get? u
      = if u = oldc.userId then some new
        else if u = newc.userId then none else h.byUser.get? u := by
    intro u
    rw [byUser_identify k hnew, hk.byUser, byUser_reseated hr.held, Table.get?_del]
    split
    · rfl
    · rfl
  constructor
  · intro hren
    obtain ⟨c, hc, hpl, -, -, hroom, -, -⟩ := hren.taken
    rw [hget, if_neg hr.ne.symm, if_pos rfl] at hc
    cases hc
    obtain ⟨hseat, hpw, hlast⟩ := hplace.mp hpl
    refine ⟨hindex, ?_, hadopt, (unmatchable_reseated_iff hr hadopt).mp hu, hseat,
      ⟨hpw, hroom, hlast⟩, ?_, ?_, ?_, ?_⟩
    · intro u hold
      have hno := hren.index.2 u
      rw [hbyUser] at hno
      by_contra hneither
      obtain ⟨huo, hun⟩ := not_or.mp hneither
      rw [if_neg huo, if_neg hun] at hno
      exact hno hold
    · intro c hc
      have hmate := hren.others partner hseat.1 hpn
      rw [hget, if_neg hseat.1, if_neg hpn, if_pos rfl, hc] at hmate
      exact (place_repoint_iff hr.ne c).mp (Option.some.inj hmate)
    · intro z c hzo hzn hzp hc
      have hthird := hren.others z hzo hzn
      rw [hget, if_neg hzo, if_neg hzn, if_neg hzp, hc] at hthird
      exact (Place.rename_eq_self hr.ne).mp (Option.some.inj hthird).symm
    · exact (filter_findThird_iff hr.ne _).mp (hthird.symm.trans hren.findThird)
    · exact (joinCall_rename_iff hr.ne _).mp (hjoin.symm.trans hren.joinCall)
  · intro hm
    refine ⟨?_, ?_, ?_, ?_, ?_, ⟨(hbyUser _).trans (if_pos rfl), ?_⟩, ?_⟩
    · rw [hget, if_pos rfl]
    · intro z hzo hzn
      rw [hget, if_neg hzo, if_neg hzn]
      split
      · next hzp =>
        rw [hzp, hp]
        exact congrArg some ((place_repoint_iff hr.ne p).mpr (hm.mate p hp))
      · next hzp =>
        cases hc : h.get z with
        | none => rfl
        | some c =>
          have hself := (Place.rename_eq_self hr.ne).mpr (hm.thirds z c hzo hzn hzp hc)
          exact congrArg some hself.symm
    · rw [hget, if_neg hr.ne.symm, if_pos rfl]
      exact ⟨_, rfl, hplace.mpr ⟨hm.seat, hm.uncopied.1, hm.uncopied.2.2⟩, rfl, rfl,
        hm.uncopied.2.1, rfl, rfl⟩
    · exact hthird.trans ((filter_findThird_iff hr.ne _).mpr hm.findThird)
    · exact hjoin.trans ((joinCall_rename_iff hr.ne _).mpr hm.joinCall)
    · intro u hold
      rw [hbyUser] at hold
      split at hold
      · exact hr.ne.symm (Option.some.inj hold)
      · next huo =>
        split at hold
        · cases hold
        · next hun => exact (hm.named u hold).elim huo hun
    · intro q hq
      rw [hshown]

/-- A `Hello` that names the user of a held connection puts the new connection in its
place exactly when the held match can move and nothing that is not copied matters. -/
theorem reconnect_renames_iff (n : Nat) {msg : HelloIn} (hn : h.expired env = ∅)
    (hr : h.Returns env old new msg oldc newc) :
    ∃ h', h.handleHello env (tryMatch env (n + 1)) new msg = some h'
      ∧ (h.Renamed h' old new oldc ↔ ∃ partner, h.Movable env old new partner oldc newc) := by
  obtain ⟨k, hkick, hhello, -⟩ := handleHello_returns (settles_tryMatch n) hn new msg
  rw [hr.user] at hkick hhello
  refine ⟨_, hhello, ?_⟩
  have hkept : k.get old ≠ none →
      ¬ h.Renamed (k.identify env new oldc.userId msg) old new oldc := by
    intro hk hren
    have hgone := hren.gone
    rw [get_identify, if_neg hr.ne] at hgone
    exact hk hgone
  by_cases hindex : h.byUser.get? oldc.userId = some old
  · cases hadopt : h.adoptable env oldc new with
    | none =>
      obtain ⟨k', hk', hold⟩ := kickPrevious_kept hr.ne hindex hr.held hr.live hadopt
      cases hkick.symm.trans hk'
      have hno := hkept (by rw [hold]; exact nofun)
      refine ⟨fun hren => absurd hren hno, ?_⟩
      rintro ⟨partner, hm⟩
      cases hadopt.symm.trans hm.adoptable
    | some partner =>
      have hafter := kickPrevious_adopted n hn hr.ne hr.held hindex hadopt
      obtain rfl := Option.some.inj (hkick.symm.trans hafter)
      constructor
      · exact fun hren => ⟨partner, (renamed_iff hr hindex hadopt (hren.unmatchable hr hadopt)).mp
          hren⟩
      · rintro ⟨partner', hm⟩
        cases hadopt.symm.trans hm.adoptable
        exact (renamed_iff hr hindex hadopt
          ((unmatchable_reseated_iff hr hadopt).mpr hm.queue)).mpr hm
  · have hno := hkept (kept_of_other_index hn hr.held hindex hkick)
    refine ⟨fun hren => absurd hren hno, ?_⟩
    rintro ⟨partner, hm⟩
    exact absurd hm.index hindex

/-- Two strangers are matched, the first loses its socket and a third connects. -/
def reconnectRun : List Input := script
  [(0, .connect 1 ""), (0, .connect 2 ""), (1, .frame 1 (.spin "")), (1, .frame 2 (.spin "")),
    (2000, .close 1), (2500, .connect 3 "")]

/-- The third connection is the first user. -/
def helloAgain : HelloIn := ⟨"u1", "", "", "", [], false, ""⟩

/-- The run, read off with a test. -/
theorem exists_reconnect_run : ∃ w oldc newc h', (hubMachine plainSys).Reach w
    ∧ w.hub.expired (plainEnv 3000) = ∅
    ∧ w.hub.Returns (plainEnv 3000) 1 3 helloAgain oldc newc
    ∧ w.hub.handleHello (plainEnv 3000) (tryMatch (plainEnv 3000) 1) 3 helloAgain = some h'
    ∧ ∃ c, h'.get 2 = some c ∧ c.lastPartner = some 1 := by
  obtain ⟨w, hw, hp⟩ := @reach_of_replay plainSys 2 reconnectRun (fun w =>
    decide (w.hub.expired (plainEnv 3000) = ∅)
      && (w.hub.get 1).any (fun c => c.wsHoldUntil.any ((plainEnv 3000).now < ·)
          && w.hub.helloUserId 3 helloAgain.userId = c.userId)
      && (w.hub.get 3).any (fun c => c.phase = .idle)
      && (w.hub.handleHello (plainEnv 3000) (tryMatch (plainEnv 3000) 1) 3 helloAgain).any fun h' =>
        (h'.get 2).any fun c => c.lastPartner = some 1) (by decide)
  simp only [Bool.and_eq_true, decide_eq_true_eq, Option.any_eq_true] at hp
  obtain ⟨⟨⟨hn, oldc, hold, ⟨hd, hlive, hnow⟩, huser⟩, newc, hnew, hidle⟩, h', hh, hlast⟩ := hp
  refine ⟨w, oldc, newc, h', hw, hn, ⟨by decide, hold, hnew, ?_, hidle, huser⟩, hh, hlast⟩
  rw [hlive]
  exact decide_eq_true hnow

/-- The reconnect after a match of two strangers. -/
theorem reconnect_renames_iff_stranger : ∃ w oldc newc h', (hubMachine plainSys).Reach w
    ∧ w.hub.handleHello (plainEnv 3000) (tryMatch (plainEnv 3000) 1) 3 helloAgain = some h'
    ∧ (w.hub.Renamed h' 1 3 oldc
      ↔ ∃ partner, w.hub.Movable (plainEnv 3000) 1 3 partner oldc newc) := by
  obtain ⟨w, oldc, newc, -, hw, hn, hr, -⟩ := exists_reconnect_run
  obtain ⟨h', hh, hiff⟩ := reconnect_renames_iff 0 hn hr
  exact ⟨w, oldc, newc, h', hw, hh, hiff⟩

/-- The partner's last partner is the connection that is gone. -/
theorem adopted_partner_names_old : ∃ w oldc newc h', (hubMachine plainSys).Reach w
    ∧ w.hub.expired (plainEnv 3000) = ∅
    ∧ w.hub.Returns (plainEnv 3000) 1 3 helloAgain oldc newc
    ∧ w.hub.handleHello (plainEnv 3000) (tryMatch (plainEnv 3000) 1) 3 helloAgain = some h'
    ∧ ¬ w.hub.Renamed h' 1 3 oldc := by
  obtain ⟨w, oldc, newc, h', hw, hn, hr, hh, c, hc, hlast⟩ := exists_reconnect_run
  refine ⟨w, oldc, newc, h', hw, hn, hr, hh, fun hren => ?_⟩
  have hsame := hren.others 2 (by decide) (by decide)
  rw [hc] at hsame
  obtain ⟨c₀, -, hplace⟩ := Option.map_eq_some_iff.mp hsame.symm
  have hlast₀ : c₀.lastPartner.map (rename 1 3) = some 1 :=
    (congrArg Place.lastPartner hplace).trans hlast
  obtain ⟨x, -, hx⟩ := Option.map_eq_some_iff.mp hlast₀
  exact rename_ne_old (by decide) x hx

end SimpleHub

end Ruletka
