/-
What the session code never writes.

The session code moves people: it rewrites phases, pointers and the queue,
and it sends messages. The `Books` of a hub are everything else that a
theorem here reads: the index, the friend graph, the blocks, and of each
connection its names, its hold, its frames and its reports. Every operation
that does not write one of these or remove a connection leaves the books
alone, and one equation for each operation says so. A fact about the books
alone is then carried across the whole session code by rewriting.
-/
import Ruletka.Hub.Step

namespace Ruletka

/-- What a session operation never writes in a connection's record. -/
structure Badge where
  userId : UserId
  friendCode : String
  wsHoldUntil : Option Instant
  /-- the accepted frames of the window -/
  messages : List Instant
  /-- when the connection reported somebody -/
  reports : List Instant
  deriving DecidableEq, Repr

/-- The badge of a record. -/
def Client.badge (c : Client) : Badge :=
  ⟨c.userId, c.friendCode, c.wsHoldUntil, c.limiter.messages, c.reportTimes⟩

/-- A badge without its reports. -/
def Badge.unreported (g : Badge) : Badge := { g with reports := [] }

/-- What a session operation never writes in the hub. -/
structure Books where
  sys : Sys
  byUser : Table UserId ConnId
  codeIndex : Table String UserId
  friendships : Finset (UserId × UserId)
  blocks : Finset (UserId × UserId)
  pending : Finset (UserId × UserId)
  badge : ConnId → Option Badge

/-- The books without a connection. -/
def Books.erase (b : Books) (x : ConnId) : Books where
  sys := b.sys
  byUser := match b.badge x with
    | some g => b.byUser.del g.userId
    | none => b.byUser
  codeIndex := b.codeIndex
  friendships := b.friendships
  blocks := b.blocks
  pending := b.pending
  badge := fun y => if y = x then none else b.badge y

/-- The books once a hold is armed. -/
def Books.park (b : Books) (x : ConnId) (t : Instant) : Books where
  sys := b.sys
  byUser := b.byUser
  codeIndex := b.codeIndex
  friendships := b.friendships
  blocks := b.blocks
  pending := b.pending
  badge := fun y => if y = x
    then (b.badge y).map fun g => { g with wsHoldUntil := some t } else b.badge y

/-- The books once a hold is cleared. -/
def Books.unpark (b : Books) (x : ConnId) : Books where
  sys := b.sys
  byUser := b.byUser
  codeIndex := b.codeIndex
  friendships := b.friendships
  blocks := b.blocks
  pending := b.pending
  badge := fun y => if y = x
    then (b.badge y).map fun g => { g with wsHoldUntil := none } else b.badge y

theorem Books.badge_unpark (b : Books) (x y : ConnId) :
    (b.unpark x).badge y = if y = x
      then (b.badge y).map fun g => { g with wsHoldUntil := none } else b.badge y := rfl

/-- What a badge was before one of them was rewritten. -/
theorem Books.badge_rewritten {b b' : Books} {x : ConnId} {f : Badge → Badge}
    (hb : ∀ y, b'.badge y = if y = x then (b.badge y).map f else b.badge y) {y : ConnId}
    {g : Badge} (hg : b'.badge y = some g) : ∃ g', b.badge y = some g' ∧ (g = f g' ∨ g = g') := by
  rw [hb] at hg
  split at hg
  · obtain ⟨g', hg', rfl⟩ := Option.map_eq_some_iff.mp hg
    exact ⟨g', hg', Or.inl rfl⟩
  · exact ⟨g, hg, Or.inr rfl⟩

/-- A hold cleared just before the connection is erased makes no difference. -/
theorem Books.erase_unpark (b : Books) (x : ConnId) :
    (b.unpark x).erase x = b.erase x := by
  have hbadge : (fun y => if y = x then none else (b.unpark x).badge y)
      = fun y => if y = x then none else b.badge y := by
    funext y
    rw [Books.badge_unpark]
    split
    · rfl
    · rfl
  unfold Books.erase
  rw [hbadge, Books.badge_unpark, if_pos rfl]
  cases b.badge x
  · rfl
  · rfl

theorem Books.badge_erase (b : Books) (x y : ConnId) :
    (b.erase x).badge y = if y = x then none else b.badge y := rfl

theorem Books.erase_absent {b : Books} {x : ConnId} (hx : b.badge x = none) :
    b.erase x = b := by
  have hbadge : (fun y => if y = x then none else b.badge y) = b.badge := by
    funext y
    split
    case isTrue hy => rw [hy, hx]
    case isFalse => rfl
  unfold Books.erase
  rw [hx, hbadge]

/-- The badges once a connection has a new user. -/
def Books.renamed (b : Books) (x : ConnId) (user : UserId) (y : ConnId) : Option Badge :=
  if y = x
    then (b.badge y).map fun g =>
      { g with userId := user, friendCode := b.sys.friendCodeFor user }
    else b.badge y

/-- Name the user of a connection: its former user loses the index entry. -/
def Books.identify (b : Books) (x : ConnId) (user : UserId) : Books :=
  let former := (b.badge x).map (·.userId)
  { sys := b.sys
    byUser := (onSome (former.filter (· ≠ user)) b.byUser Table.del).set user x
    codeIndex := (SimpleHub.keepCodes (b.sys.uuidText x) user former b.codeIndex).set
      (b.sys.friendCodeFor user) user
    friendships := b.friendships
    blocks := b.blocks
    pending := b.pending
    badge := b.renamed x user }

/-- The window of accepted frames after one more, and whether that is let in. -/
def Badge.enroll (sys : Sys) (env : Env) (g : Badge) : List Instant × Bool :=
  SimpleHub.allow g.messages sys.limits.maxMessages sys.limits.messageWindow env.now

/-- Count a frame of a connection. -/
def Books.charge (b : Books) (env : Env) (x : ConnId) : Books where
  sys := b.sys
  byUser := b.byUser
  codeIndex := b.codeIndex
  friendships := b.friendships
  blocks := b.blocks
  pending := b.pending
  badge := fun y => if y = x
    then (b.badge y).map fun g => { g with messages := (g.enroll b.sys env).1 }
    else b.badge y

theorem Books.badge_charge (b : Books) (env : Env) (x y : ConnId) :
    (b.charge env x).badge y = if y = x
      then (b.badge y).map fun g => { g with messages := (g.enroll b.sys env).1 }
      else b.badge y := rfl

/-- A frame of a connection that is there gets past the limit. -/
def Books.hears (b : Books) (env : Env) (x : ConnId) : Bool :=
  (b.badge x).any fun g => (g.enroll b.sys env).2

/-- The books once the report times of a connection are written. -/
def Books.report (b : Books) (x : ConnId) (ts : List Instant) : Books where
  sys := b.sys
  byUser := b.byUser
  codeIndex := b.codeIndex
  friendships := b.friendships
  blocks := b.blocks
  pending := b.pending
  badge := fun y => if y = x
    then (b.badge y).map fun g => { g with reports := ts } else b.badge y

/-- Add a connection under its own uuid. -/
def Books.enroll (b : Books) (x : ConnId) : Books where
  sys := b.sys
  byUser := b.byUser.set (b.sys.uuidText x) x
  codeIndex := b.codeIndex
  friendships := b.friendships
  blocks := b.blocks
  pending := b.pending
  badge := fun y => if y = x then some
    ⟨b.sys.uuidText x, b.sys.friendCodeFor (b.sys.uuidText x), none, [], []⟩ else b.badge y

namespace SimpleHub

variable (h : SimpleHub) (env : Env)

/-- The books of a hub. -/
def books : Books where
  sys := h.sys
  byUser := h.byUser
  codeIndex := h.codeIndex
  friendships := h.friendships
  blocks := h.blocks
  pending := h.pending
  badge := fun x => (h.get x).map Client.badge

-- ================================================== reading a record

@[simp, grind =]
theorem get_modify (x : ConnId) (f : Client → Client) (y : ConnId) :
    (h.modify x f).get y = if y = x then (h.get y).map f else h.get y :=
  Table.get?_modify h.clients x f y

@[simp, grind =]
theorem get_emit (ms : List (ConnId × ServerMsg)) (x : ConnId) :
    (h.emit ms).get x = h.get x := rfl

@[simp, grind =]
theorem queue_modify (x : ConnId) (f : Client → Client) :
    (h.modify x f).queue = h.queue := rfl

@[simp, grind =]
theorem queue_emit (ms : List (ConnId × ServerMsg)) :
    (h.emit ms).queue = h.queue := rfl

@[simp, grind =]
theorem get_setQueue (q : List QueueEntry) (x : ConnId) :
    (h.setQueue q).get x = h.get x := rfl

@[simp, grind =]
theorem get_setFindThird (p : Option FindThirdPending) (x : ConnId) :
    (h.setFindThird p).get x = h.get x := rfl

@[simp, grind =]
theorem get_setJoinCall (p : Option JoinCallPending) (x : ConnId) :
    (h.setJoinCall p).get x = h.get x := rfl

@[simp, grind =]
theorem queue_setQueue (q : List QueueEntry) : (h.setQueue q).queue = q := rfl

@[simp, grind =]
theorem queue_setFindThird (p : Option FindThirdPending) :
    (h.setFindThird p).queue = h.queue := rfl

@[simp, grind =]
theorem queue_setJoinCall (p : Option JoinCallPending) :
    (h.setJoinCall p).queue = h.queue := rfl

@[simp, grind =]
theorem get_dequeueClient (x y : ConnId) :
    (h.dequeueClient x).get y = h.get y := rfl

@[simp, grind =]
theorem queue_dequeueClient (x : ConnId) :
    (h.dequeueClient x).queue = h.queue.filter fun e => x ∉ queueEntryIds e := rfl

theorem status_eq_emit (x : ConnId) (d : String) :
    ∃ ms, h.status x d = h.emit ms := by
  unfold status
  split
  · exact ⟨_, rfl⟩
  · exact ⟨_, rfl⟩

@[simp, grind =]
theorem get_send (x : ConnId) (m : ServerMsg) (y : ConnId) :
    (h.send x m).get y = h.get y := rfl

@[simp, grind =]
theorem get_sendError (x : ConnId) (m : String) (y : ConnId) :
    (h.sendError x m).get y = h.get y := rfl

@[simp, grind =]
theorem get_status (x : ConnId) (d : String) (y : ConnId) :
    (h.status x d).get y = h.get y := by
  obtain ⟨ms, hms⟩ := h.status_eq_emit x d
  rw [hms, get_emit]

@[simp, grind =]
theorem get_broadcastLobbyInfo (y : ConnId) :
    (h.broadcastLobbyInfo env).get y = h.get y := rfl

@[simp, grind =]
theorem queue_send (x : ConnId) (m : ServerMsg) : (h.send x m).queue = h.queue := rfl

@[simp, grind =]
theorem queue_sendError (x : ConnId) (m : String) :
    (h.sendError x m).queue = h.queue := rfl

@[simp, grind =]
theorem queue_status (x : ConnId) (d : String) : (h.status x d).queue = h.queue := by
  obtain ⟨ms, hms⟩ := h.status_eq_emit x d
  rw [hms, queue_emit]

@[simp, grind =]
theorem queue_broadcastLobbyInfo : (h.broadcastLobbyInfo env).queue = h.queue := rfl

-- ============================================ the books under each operation

@[simp]
theorem prune_userId (c : Client) (o : IterOrder ConnId) (x : ConnId) :
    (c.prune o x).userId = c.userId := rfl

@[simp]
theorem prune_friendCode (c : Client) (o : IterOrder ConnId) (x : ConnId) :
    (c.prune o x).friendCode = c.friendCode := rfl

@[simp]
theorem prune_wsHoldUntil (c : Client) (o : IterOrder ConnId) (x : ConnId) :
    (c.prune o x).wsHoldUntil = c.wsHoldUntil := rfl

@[simp]
theorem prune_reportTimes (c : Client) (o : IterOrder ConnId) (x : ConnId) :
    (c.prune o x).reportTimes = c.reportTimes := rfl

@[simp]
theorem prune_limiter (c : Client) (o : IterOrder ConnId) (x : ConnId) :
    (c.prune o x).limiter = c.limiter := rfl

/-- Equal hubs up to the session fields have equal books. -/
theorem books_congr {h h' : SimpleHub} (hs : h'.sys = h.sys)
    (hu : h'.byUser = h.byUser) (hc : h'.codeIndex = h.codeIndex)
    (hf : h'.friendships = h.friendships) (hb : h'.blocks = h.blocks)
    (hp : h'.pending = h.pending)
    (hg : ∀ x, (h'.get x).map Client.badge = (h.get x).map Client.badge) :
    h'.books = h.books := by
  unfold books
  rw [hs, hu, hc, hf, hb, hp]
  congr 1
  funext x
  exact hg x

@[simp]
theorem books_emit (ms : List (ConnId × ServerMsg)) : (h.emit ms).books = h.books :=
  rfl

@[simp]
theorem books_send (x : ConnId) (m : ServerMsg) : (h.send x m).books = h.books := rfl

@[simp]
theorem books_sendError (x : ConnId) (m : String) :
    (h.sendError x m).books = h.books := rfl

@[simp]
theorem books_status (x : ConnId) (d : String) : (h.status x d).books = h.books := by
  obtain ⟨ms, hms⟩ := h.status_eq_emit x d
  rw [hms, books_emit]

@[simp]
theorem books_broadcastLobbyInfo : (h.broadcastLobbyInfo env).books = h.books := rfl

@[simp]
theorem books_setQueue (q : List QueueEntry) : (h.setQueue q).books = h.books := rfl

@[simp]
theorem books_setFindThird (p : Option FindThirdPending) :
    (h.setFindThird p).books = h.books := rfl

@[simp]
theorem books_setJoinCall (p : Option JoinCallPending) :
    (h.setJoinCall p).books = h.books := rfl

/-- A write that keeps the badge keeps the books. -/
@[simp]
theorem books_modify (x : ConnId) (f : Client → Client)
    (hf : ∀ c, (f c).userId = c.userId ∧ (f c).friendCode = c.friendCode
      ∧ (f c).wsHoldUntil = c.wsHoldUntil
      ∧ (f c).limiter.messages = c.limiter.messages ∧ (f c).reportTimes = c.reportTimes) :
    (h.modify x f).books = h.books := by
  refine books_congr rfl rfl rfl rfl rfl rfl fun y => ?_
  rw [get_modify]
  split
  · cases h.get y with
    | none => rfl
    | some c =>
        show some (f c).badge = some c.badge
        rw [Client.badge, (hf c).1, (hf c).2.1, (hf c).2.2.1, (hf c).2.2.2.1,
          (hf c).2.2.2.2]
        rfl
  · rfl

/-- Folding operations that keep the books keeps them. -/
theorem books_foldl {α : Type} (f : SimpleHub → α → SimpleHub)
    (hf : ∀ h a, (f h a).books = h.books) (l : List α) :
    (l.foldl f h).books = h.books := by
  induction l generalizing h with
  | nil => rfl
  | cons a l ih => rw [List.foldl_cons, ih, hf]

@[simp]
theorem books_dequeueClient (x : ConnId) : (h.dequeueClient x).books = h.books := rfl

@[simp]
theorem books_enqueueSolo (x : ConnId) : (h.enqueueSolo x).books = h.books := by
  unfold enqueueSolo
  dsimp only
  split
  · rfl
  · rfl

@[simp]
theorem books_enqueueParty (a b : ConnId) : (h.enqueueParty env a b).books = h.books := by
  simp [enqueueParty, Client.startWait]

@[simp]
theorem books_takeWaitStarted (x : ConnId) :
    (h.takeWaitStarted x).books = h.books := by
  simp [takeWaitStarted]

@[simp]
theorem books_linkSolo (sid : SessionId) (a b : ConnId) :
    (h.linkSolo env sid a b).books = h.books := by
  simp [linkSolo]

@[simp]
theorem books_startSoloMatch (a b : ConnId) :
    (h.startSoloMatch env a b).books = h.books := by
  unfold startSoloMatch
  split
  · rfl
  split
  · rfl
  · simp

@[simp]
theorem books_startFriendSession (a b : ConnId) :
    (h.startFriendSession env a b).books = h.books := by
  simp [startFriendSession, linkFriends]

@[simp]
theorem joinTrio_badge (c : Client) (sid : SessionId) (same : Bool)
    (peers : List ConnId) (party : Option ConnId) (last : ConnId) :
    (c.joinTrio env sid same peers party last).userId = c.userId
      ∧ (c.joinTrio env sid same peers party last).friendCode = c.friendCode
      ∧ (c.joinTrio env sid same peers party last).wsHoldUntil = c.wsHoldUntil
      ∧ (c.joinTrio env sid same peers party last).limiter.messages = c.limiter.messages
      ∧ (c.joinTrio env sid same peers party last).reportTimes = c.reportTimes := by
  cases same
  · exact ⟨rfl, rfl, rfl, rfl, rfl⟩
  · exact ⟨rfl, rfl, rfl, rfl, rfl⟩

@[simp]
theorem books_linkPartyVsSolo (sid : SessionId) (s a b : ConnId) :
    (h.linkPartyVsSolo env sid s a b).books = h.books := by
  simp [linkPartyVsSolo]

@[simp]
theorem books_startPartyVsSolo (s a b : ConnId) :
    (h.startPartyVsSolo env s a b).books = h.books := by
  simp [startPartyVsSolo]

@[simp]
theorem books_startPartyVsParty (a1 a2 b1 b2 : ConnId) :
    (h.startPartyVsParty env a1 a2 b1 b2).books = h.books := by
  simp [startPartyVsParty, linkPartyVsParty, Client.setMatched, Client.clearSdp]

@[simp]
theorem books_startThreePersonJoin (a b c : ConnId) :
    (h.startThreePersonJoin env a b c).books = h.books := by
  simp [startThreePersonJoin, linkThree, Client.setMatched, Client.clearSdp]

@[simp]
theorem books_startFourPersonJoin (a b c d : ConnId) :
    (h.startFourPersonJoin env a b c d).books = h.books := by
  unfold startFourPersonJoin
  split
  · rfl
  · simp [linkFour, Client.setMatched, Client.clearSdp]

@[simp]
theorem books_clearFedForClient (x : ConnId) :
    (h.clearFedForClient x).books = h.books := by
  unfold clearFedForClient
  split
  · rfl
  · rfl

@[simp]
theorem books_unmatchOne (x : ConnId) (d : String) :
    (h.unmatchOne env x d).books = h.books := by
  unfold unmatchOne
  dsimp only
  split
  · split
    · simp
    · simp
  · simp

@[simp]
theorem books_forceSessionIdle (x : ConnId) (d : String) :
    (h.forceSessionIdle x d).books = h.books := by
  simp [forceSessionIdle]

@[simp]
theorem books_collapseToSolo1v1 (a b : ConnId) (d : String) :
    (h.collapseToSolo1v1 env a b d).books = h.books := by
  simp [collapseToSolo1v1]

@[simp]
theorem books_notifyPartyBrowseSearching (a b : ConnId) :
    (h.notifyPartyBrowseSearching a b).books = h.books := rfl

@[simp]
theorem books_huntAgain (x a b : ConnId) :
    (h.huntAgain env x a b).books = h.books := by
  simp [huntAgain]

@[simp]
theorem books_endFriendCall (x : ConnId) (r : String) :
    (h.endFriendCall x r).books = h.books := by
  unfold endFriendCall
  dsimp only
  split
  · simp [Client.hangUp]
  · simp [Client.hangUp]

@[simp]
theorem books_unmate (m x : ConnId) : (h.unmate m x).books = h.books := by
  simp [unmate]

@[simp]
theorem books_pruneAll (x : ConnId) (l : List ConnId) :
    (h.pruneAll env x l).books = h.books :=
  h.books_foldl _ (fun h p => by simp) l

@[simp]
theorem books_keepStrangers (m : ConnId) (d : String) (l : List ConnId) :
    (h.keepStrangers env m d l).books = h.books := by
  have idle : ∀ (k : SimpleHub) (l : List ConnId),
      (l.foldl (fun h x => h.forceSessionIdle x "partner left") k).books = k.books :=
    fun k l => k.books_foldl _ (fun h x => h.books_forceSessionIdle x _) l
  unfold keepStrangers
  split
  · simp
  · simp
  · split
    · simp [idle]
    · simp [idle]

@[simp]
theorem books_leaveMate (x m : ConnId) (ps : Finset ConnId) (d : String) :
    (h.leaveMate env x m ps d).books = h.books := by
  simp [leaveMate]

@[simp]
theorem books_dropFindThird (x : ConnId) : (h.dropFindThird x).books = h.books := by
  unfold dropFindThird
  split
  · split
    · simp
    · rfl
  · rfl

@[simp]
theorem books_dissolveParty (x p : ConnId) : (h.dissolveParty x p).books = h.books := by
  simp [dissolveParty]

/-- A conditional operation that keeps the books keeps them. -/
theorem books_onSome {α : Type} (o : Option α) (f : SimpleHub → α → SimpleHub)
    (hf : ∀ a, (f h a).books = h.books) : (onSome o h f).books = h.books := by
  cases o with
  | none => rfl
  | some a => exact hf a

@[simp]
theorem books_releaseOthers (x : ConnId) (c : Client) :
    (h.releaseOthers env x c).books = h.books := by
  unfold releaseOthers
  dsimp only
  rw [books_onSome, books_foldl, books_onSome, books_onSome]
  · exact fun f => h.books_endFriendCall f _
  · exact fun p => books_dissolveParty _ x p
  · exact fun h p => h.books_unmatchOne env p _
  · intro p
    split
    · rfl
    · simp

@[simp]
theorem books_forgive (p : Option ConnId) : (h.forgive p).books = h.books :=
  h.books_onSome p _ fun p => by simp

-- ==================================================================== matching

@[simp]
theorem books_pairEntries (e e' : QueueEntry) :
    (h.pairEntries env e e').books = h.books := by
  have requeued : ∀ (k : SimpleHub) (l : List ConnId),
      (l.foldl (fun h id => if h.phaseOf id = some .waiting then h.enqueueSolo id
        else h) k).books = k.books := by
    refine fun k l => k.books_foldl _ (fun h id => ?_) l
    split
    · simp
    · rfl
  unfold pairEntries
  split
  · split
    · simp
    · rw [requeued]
  · split
    · split
      · simp
      · rfl
    · simp
  · split
    · split
      · simp
      · rfl
    · simp
  · simp
  · rfl

@[simp]
theorem books_matchTurn (n : Nat) (e : QueueEntry) :
    (h.matchTurn env n e).1.books = h.books := by
  unfold matchTurn
  dsimp only
  split
  · rfl
  · split
    · rfl
    split
    · rfl
    split
    · rfl
    split
    · rfl
    split
    · rfl
    · simp

@[simp]
theorem books_matchLoop (n : Nat) : (matchLoop env n h).books = h.books := by
  induction n generalizing h with
  | zero => rfl
  | succ n ih =>
      unfold matchLoop
      split
      · rfl
      · next first rest hq =>
        split
        · next k hk =>
          have turn := (h.setQueue rest).books_matchTurn env n first
          rw [hk] at turn
          rw [ih]
          exact turn
        · next k hk =>
          have turn := (h.setQueue rest).books_matchTurn env n first
          rw [hk] at turn
          exact turn

@[simp]
theorem books_rematch : (h.rematch env).books = h.books := by
  unfold rematch
  rw [books_matchLoop]

-- ======================================================== leaving for the queue

@[simp]
theorem books_placeInSoloQueue (x : ConnId) (room d : String) :
    (h.placeInSoloQueue env x room d).books = h.books := by
  simp [placeInSoloQueue, Client.clearSdp, Client.startWait]

@[simp]
theorem books_releasePeer (x p : ConnId) (d : String) :
    (h.releasePeer env x d p).books = h.books := by
  unfold releasePeer
  split
  · rfl
  · dsimp only
    split
    · split
      · simp
      · simp
    · simp

@[simp]
theorem books_clearMatchStateWithPartnerMsg (x : ConnId) (d : String) :
    (h.clearMatchStateWithPartnerMsg env x d).books = h.books := by
  unfold clearMatchStateWithPartnerMsg
  dsimp only
  rw [books_foldl _ _ fun h p => books_releasePeer h env x p d]
  simp [Client.clearSdp]

@[simp]
theorem books_clearMatchState (x : ConnId) :
    (h.clearMatchState env x).books = h.books :=
  books_clearMatchStateWithPartnerMsg ..

@[simp]
theorem books_partyRequeueSide (x : ConnId) (room : String) :
    (h.partyRequeueSide env room x).books = h.books := by
  unfold partyRequeueSide
  dsimp only
  rw [books_modify, books_foldl _ _ fun h s => books_placeInSoloQueue h env s room _]
  exact fun c => ⟨rfl, rfl, rfl, rfl, rfl⟩

@[simp]
theorem books_cancelFindThird (x : ConnId) : (h.cancelFindThird x).books = h.books := by
  unfold cancelFindThird
  split
  · split
    · rfl
    · rfl
  · rfl

@[simp]
theorem books_stopKept (x : ConnId) : (h.stopKept env x).books = h.books := by
  simp [stopKept]

@[simp]
theorem books_stopAlone (x : ConnId) : (h.stopAlone env x).books = h.books := by
  unfold stopAlone
  dsimp only
  rw [books_broadcastLobbyInfo, books_status, books_modify,
    books_clearMatchStateWithPartnerMsg, books_onSome]
  · exact fun p => by simp [dropParty]
  · exact fun c => ⟨rfl, rfl, rfl, rfl, rfl⟩

@[simp]
theorem books_allowMatchCmd (x : ConnId) :
    (h.allowMatchCmd env x).1.books = h.books := by
  unfold allowMatchCmd
  split
  · rfl
  · dsimp only
    split
    · simp
    · simp

@[simp]
theorem books_denyIfMatchBanned (x : ConnId) :
    (h.denyIfMatchBanned env x).1.books = h.books := by
  unfold denyIfMatchBanned
  split
  · simp
  · rfl

/-- The refusals that spin and next share, and what lies behind them. -/
def behindGate (h : SimpleHub) (env : Env) (settle : SimpleHub → Option Nat) (x : ConnId)
    (next : SimpleHub → Option SimpleHub) : Option SimpleHub :=
  let (h, denied) := h.denyIfMatchBanned env x
  if denied then some h
  else match settle h with
    | some left => some (h.status x (settleText left))
    | none =>
      let (h, ok) := h.allowMatchCmd env x
      if !ok then some h else next h

theorem handleSpin_gate (x : ConnId) (room : String) : h.handleSpin env tm x room
    = h.behindGate env (·.matchSettleRemaining env x) x fun k => match k.partyWithOf x with
      | some pid => k.partyRequeue env tm x pid (k.roomFor x room) "party spun into lobby"
      | none => k.enterWaitingSolo env tm x (k.roomFor x room) "spun into lobby" := rfl

theorem handleNext_gate (x : ConnId) (room : String) : h.handleNext env tm x room
    = h.behindGate env (·.nextSettleRemaining env x) x fun k =>
      let left := env.noSkipSecsLeft (k.userOf x)
      if 0 < left && k.userOf x ≠ "" then
        some (k.status x ("please stay active — can't skip for " ++ toString left ++ "s more"))
      else k.nextDispatch env tm x (k.roomFor x room) := rfl

/-- A command is refused at one of three points, or goes on. -/
theorem behindGate_cases (settle : SimpleHub → Option Nat) (x : ConnId)
    (next : SimpleHub → Option SimpleHub) :
    h.behindGate env settle x next = some (h.denyIfMatchBanned env x).1
      ∨ (∃ d, h.behindGate env settle x next = some ((h.denyIfMatchBanned env x).1.status x d))
      ∨ h.behindGate env settle x next
        = some ((h.denyIfMatchBanned env x).1.allowMatchCmd env x).1
      ∨ h.behindGate env settle x next
        = next ((h.denyIfMatchBanned env x).1.allowMatchCmd env x).1 := by
  unfold behindGate
  generalize h.denyIfMatchBanned env x = d
  obtain ⟨k, denied⟩ := d
  dsimp only
  split
  · exact .inl rfl
  split
  · exact .inr (.inl ⟨_, rfl⟩)
  generalize k.allowMatchCmd env x = a
  obtain ⟨k', ok⟩ := a
  dsimp only
  split
  · exact .inr (.inr (.inl rfl))
  · exact .inr (.inr (.inr rfl))

-- ============================================================ invites and rings

@[simp]
theorem books_expireFindThirdIfNeeded : (h.expireFindThirdIfNeeded env).books = h.books := by
  unfold expireFindThirdIfNeeded
  split
  · rfl
  · split
    · rfl
    · simp

@[simp]
theorem books_handleFindThirdInvite (x : ConnId) :
    (h.handleFindThirdInvite env x).books = h.books := by
  unfold handleFindThirdInvite
  dsimp only
  split
  · simp
  · split
    · simp
    · split
      · simp
      · simp

@[simp]
theorem books_handleFindThirdCancel (x : ConnId) :
    (h.handleFindThirdCancel env x).books = h.books := by
  unfold handleFindThirdCancel
  dsimp only
  split
  · simp
  · split
    · simp
    · simp

@[simp]
theorem books_expireJoinCallIfNeeded : (h.expireJoinCallIfNeeded env).books = h.books := by
  unfold expireJoinCallIfNeeded
  split
  · rfl
  · split
    · rfl
    · simp

@[simp]
theorem books_ringJoin (x t k : ConnId) (k2 : Option ConnId) (c : Client) (d : String) :
    (h.ringJoin env x t k k2 c d).books = h.books := by
  simp [ringJoin]

@[simp]
theorem books_callJoin (x o : ConnId) (c : Client) :
    (h.callJoin env x o c).books = h.books := by
  unfold callJoin
  split
  · simp
  · split
    · simp
    split
    · simp
    split
    · simp
    split
    · simp
    · simp

@[simp]
theorem books_callClassic (x o : ConnId) (c : Client) :
    (h.callClassic env x o c).books = h.books := by
  unfold callClassic
  split
  · dsimp only
    split
    · simp
    · split
      · simp
      split
      · simp
      split
      · simp
      · simp
  · simp

@[simp]
theorem books_endOtherCall (x o : ConnId) (d : String) :
    (h.endOtherCall x o d).books = h.books := by
  unfold endOtherCall
  split
  · simp
  · rfl

@[simp]
theorem books_quiet (x : ConnId) : (h.quiet x).books = h.books := by
  unfold quiet
  rw [books_modify]
  · rfl
  · intro c
    split
    · exact ⟨rfl, rfl, rfl, rfl, rfl⟩
    · exact ⟨rfl, rfl, rfl, rfl, rfl⟩

@[simp]
theorem books_handleCallCancel (x : ConnId) (u : UserId) :
    (h.handleCallCancel x u).books = h.books := by
  unfold handleCallCancel
  split
  · rfl
  · split
    · rfl
    · dsimp only
      rw [books_status]
      split
      · rw [books_send]
        split
        · split
          · simp
          · rfl
        · rfl
      · split
        · split
          · simp
          · rfl
        · rfl

-- ===================================================== profile and moderation

@[simp]
theorem books_setClientGeo (x : ConnId) (code country city : String) :
    (h.setClientGeo x code country city).books = h.books := by
  unfold setClientGeo
  dsimp only
  split
  · simp
  · simp

@[simp]
theorem books_handleSetRoom (x : ConnId) (room : String) :
    (h.handleSetRoom env x room).books = h.books := by
  unfold handleSetRoom
  split
  · simp
  · simp

@[simp]
theorem books_kickBanned (phases : List Phase) (x : ConnId) (d n : String) :
    (h.kickBanned env phases x d n).books = h.books := by
  unfold kickBanned
  dsimp only
  rw [books_status]
  split
  · simp
  · simp

@[simp]
theorem books_raiseBan (u : UserId) (n : Nat) : (h.raiseBan u n).books = h.books := by
  unfold raiseBan
  split
  · rfl
  · rfl

@[simp]
theorem books_raiseIpBan (u : UserId) (ip : String) :
    (h.raiseIpBan u ip).books = h.books := by
  unfold raiseIpBan
  split
  · rfl
  · rfl

@[simp]
theorem books_applyPriorityModBan (u : UserId) (ip : String) :
    (h.applyPriorityModBan u ip).books = h.books := by
  unfold applyPriorityModBan
  dsimp only
  rw [books_raiseIpBan]
  split
  · exact books_raiseBan h u _
  · rfl

@[simp]
theorem books_priorityReport (x : ConnId) (u : UserId) :
    (h.priorityReport env x u).books = h.books := by
  unfold priorityReport
  dsimp only
  rw [books_status, books_foldl]
  · split
    · simp
    · simp
  · intro k y
    split
    · rfl
    · simp

@[simp]
theorem books_scoredReport (x : ConnId) (r u : UserId) (why : String) :
    (h.scoredReport env x r u why).books = h.books := by
  unfold scoredReport
  dsimp only
  rw [books_send, books_status]
  split
  · split
    · rw [books_kickBanned]
      rfl
    · rfl
  · rfl

/-- The report times of a connection once a report of it is heard: those of
the last hour, and the moment of one that is taken. -/
def reportsAfter (x : ConnId) (raw : String) : List Instant :=
  match h.get x with
  | none => []
  | some c =>
    let recent := c.reportTimes.filter fun t => env.elapsed t < secs 3600
    match h.resolveTargetUserId env raw with
    | none => c.reportTimes
    | some user =>
        if c.userId = user then c.reportTimes
        else if reportRatePerHour ≤ recent.length then recent
        else recent ++ [env.now]

/-- A report writes the report times of its sender. -/
theorem books_handleReportUser (x : ConnId) (t r : String) :
    (h.handleReportUser env x t r).books = h.books.report x (h.reportsAfter env x t) := by
  have hsame : ∀ ts, (∀ c, h.get x = some c → c.reportTimes = ts) →
      h.books = h.books.report x ts := by
    intro ts hts
    unfold books Books.report
    congr 1
    funext y
    dsimp only
    split
    · next hy =>
      subst hy
      cases hc : h.get y with
      | none => rfl
      | some c =>
          rw [← hts c hc]
          rfl
    · rfl
  have hwrite : ∀ ts, (h.modify x fun c => { c with reportTimes := ts }).books
      = h.books.report x ts := by
    intro ts
    unfold books Books.report
    congr 1
    funext y
    rw [get_modify]
    dsimp only
    split
    · rw [Option.map_map, Option.map_map]
      rfl
    · rfl
  unfold handleReportUser reportsAfter
  cases hc : h.get x with
  | none =>
      have hnone : h.books = h.books.report x [] := hsame [] fun c hc' => by
        rw [hc] at hc'
        cases hc'
      split
      · exact hnone
      · exact hnone
  | some c =>
      have hkeep : h.books = h.books.report x c.reportTimes := hsame _ fun c' hc' => by
        rw [hc] at hc'
        cases hc'
        rfl
      cases h.resolveTargetUserId env t with
      | none => exact hkeep
      | some user =>
          dsimp only
          split
          · exact hkeep
          split
          · exact hwrite _
          · rw [← hwrite]
            split
            · exact books_priorityReport ..
            · exact books_scoredReport ..

@[simp]
theorem books_genitalBan (x t : ConnId) (u : UserId) (s : Nat) (p : Bool) :
    (h.genitalBan env x t u s p).books = h.books := by
  unfold genitalBan
  dsimp only
  rw [books_send, books_status, books_clearMatchStateWithPartnerMsg, books_send,
    books_foldl _ _ fun h v => books_send h v _, books_raiseBan]

@[simp]
theorem books_handleGenitalHit (x : ConnId) (t : String) :
    (h.handleGenitalHit env x t).books = h.books := by
  unfold handleGenitalHit
  dsimp only
  split
  · simp
  · split
    · simp
    · split
      · simp
      · split
        · simp
        · split
          · simp
          · simp
          · simp

@[simp]
theorem books_adminBan (u : String) (s : Nat) : (h.adminBan env u s).books = h.books := by
  unfold adminBan
  dsimp only
  split
  · rfl
  · split
    · rw [books_kickBanned]
      rfl
    · rfl

@[simp]
theorem books_adminUnban (u : String) : (h.adminUnban u).books = h.books := by
  unfold adminUnban
  dsimp only
  split
  · rfl
  · rfl

@[simp]
theorem books_adminUnbanIp (ip : String) : (h.adminUnbanIp ip).books = h.books := by
  unfold adminUnbanIp
  dsimp only
  split
  · rfl
  · rfl

-- ==================================================== federation and dispatch

@[simp]
theorem books_startFederatedMatch (x : ConnId) (sid : SessionId × String)
    (r : FedPeerDesc) (base : String) (o : Bool) :
    (h.startFederatedMatch env x sid r base o).books = h.books := by
  unfold startFederatedMatch
  dsimp only
  rw [books_broadcastLobbyInfo, books_send]
  exact books_modify h x _ fun c => ⟨rfl, rfl, rfl, rfl, rfl⟩

@[simp]
theorem books_federationClaim (r : ClaimRequest) :
    (h.federationClaim env r).books = h.books := by
  unfold federationClaim
  dsimp only
  split
  · rfl
  · split
    · rfl
    · simp

@[simp]
theorem books_federationApplyClaim (x : ConnId) (base : String) (r : ClaimResponse) :
    (h.federationApplyClaim env x base r).books = h.books := by
  unfold federationApplyClaim
  split
  · rfl
  · simp

theorem books_allowMessage {x : ConnId} {c : Client} (hc : h.get x = some c) :
    (h.allowMessage env x c).1.books = h.books.charge env x
      ∧ (h.allowMessage env x c).2 = h.books.hears env x := by
  have hcount : (h.modify x fun c' => { c' with limiter := { c'.limiter with messages :=
      (allow c.limiter.messages h.sys.limits.maxMessages h.sys.limits.messageWindow
        env.now).1 } }).books = h.books.charge env x := by
    unfold books Books.charge
    congr 1
    funext y
    rw [get_modify]
    dsimp only
    split
    · next hy =>
      subst hy
      rw [hc]
      rfl
    · rfl
  have hhear : h.books.hears env x = (allow c.limiter.messages h.sys.limits.maxMessages
      h.sys.limits.messageWindow env.now).2 := by
    unfold Books.hears
    rw [show h.books.badge x = some c.badge by simp [books, hc], Option.any_some]
    rfl
  unfold allowMessage
  dsimp only
  rw [hhear]
  split
  · next hok => exact ⟨hcount, hok.symm⟩
  · next hok => exact ⟨by rw [books_sendError, hcount], (Bool.eq_false_iff.mpr hok).symm⟩

@[simp]
theorem books_noteClientRx (x : ConnId) (p : Bool) :
    (h.noteClientRx env x p).1.books = h.books := by
  simp [noteClientRx]

@[simp]
theorem books_handleBrowseTogether (x : ConnId) :
    (h.handleBrowseTogether x).books = h.books := by
  unfold handleBrowseTogether
  dsimp only
  split
  · simp
  · split
    · simp
    · split
      · simp
      · simp

@[simp]
theorem books_handleHangupFriend (x : ConnId) :
    (h.handleHangupFriend x).books = h.books := by
  unfold handleHangupFriend
  split
  · simp
  · simp

@[simp]
theorem books_noteSdp (x : ConnId) (kind key : String) :
    (h.noteSdp env x kind key).books = h.books := by
  unfold noteSdp
  split
  · simp
  · split
    · simp
    · rfl

@[simp]
theorem books_relaySignal (x : ConnId) (kind payload toPeer : String) :
    (h.relaySignal x kind payload toPeer).books = h.books := by
  unfold relaySignal
  split
  · simp
  · split
    · rfl
    · rfl

@[simp]
theorem books_deliverSignal (x : ConnId) (kind payload toPeer : String) :
    (h.deliverSignal env x kind payload toPeer).books = h.books := by
  unfold deliverSignal
  split
  · simp
  · dsimp only
    split
    · split
      · simp
      · exact h.books_foldl _ (fun k t => by simp) _
    · simp

@[simp]
theorem books_handleSignal (x : ConnId) (kind payload toPeer : String) :
    (h.handleSignal env x kind payload toPeer).books = h.books := by
  unfold handleSignal
  dsimp only
  split
  · simp
  · split
    · rfl
    · split
      · simp
      · simp

-- ===================================================================== identity

theorem books_reindex (x : ConnId) (user : UserId) :
    (h.reindex x user).books = { h.books.identify x user with badge := h.books.badge } := by
  unfold reindex books Books.identify
  simp only [Option.map_map]
  rfl

theorem books_identify (x : ConnId) (user : UserId) (msg : HelloIn) :
    (h.identify env x user msg).books = h.books.identify x user := by
  have hname : ∀ k : SimpleHub, k.sys = h.sys →
      (k.modify x (introduce user (h.sys.friendCodeFor user) msg)).books
        = { k.books with badge := k.books.renamed x user } := by
    intro k hk
    rw [← hk]
    unfold books Books.renamed
    congr 1
    funext y
    rw [get_modify]
    dsimp only
    split
    · rw [Option.map_map, Option.map_map]
      rfl
    · rfl
  have hip : ∀ (k : SimpleHub) (c : Client),
      (k.rememberClientIp user c.clientIp).books = k.books := by
    intro k c
    unfold rememberClientIp
    dsimp only
    split
    · rfl
    · rfl
  unfold identify
  dsimp only
  rw [books_broadcastLobbyInfo, books_onSome _ _ _ fun c => books_send ..]
  have hnotice : ∀ (k : SimpleHub) (p : Bool) (d : String),
      (if p then k.status x d else k).books = k.books := by
    intro k p d
    split
    · exact k.books_status x d
    · rfl
  rw [hnotice, books_onSome _ _ _ fun c => hip _ c, hname (h.reindex x user) rfl,
    books_reindex]
  rfl

theorem books_enroll (x : ConnId) (ip : String) :
    ({ h with clients := h.clients.set x (freshClient h.sys env x ip)
              byUser := h.byUser.set (freshClient h.sys env x ip).userId x }
      : SimpleHub).books = h.books.enroll x := by
  unfold books Books.enroll
  congr 1
  funext y
  show ((h.clients.set x (freshClient h.sys env x ip)).get? y).map Client.badge = _
  rw [Table.get?_set]
  split
  · rfl
  · rfl

end SimpleHub

end Ruletka
