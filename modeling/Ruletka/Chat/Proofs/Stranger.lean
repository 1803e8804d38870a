/-
What strangers hear of each other.

The filter remembers one time for a connection and a pruned list of times for
a user. Over a run in which the clocks do not go back, the one time answers
whether any line about an age came in the last ten minutes, since it is the
latest of them, and the pruned list counts the user's grooming lines of the
last week, since what is pruned is out of every later week.
-/
import Ruletka.Chat.Stranger
import Ruletka.Chat.Proofs.Filter
import Ruletka.Hub.Run

namespace Ruletka

open Text

variable {T : CharTable}

/-- Whether a line is about an age does not depend on the lines before it. -/
theorem ageContext_classify (body : String) (recent : Bool) :
    (classify T body recent).ageContext = aboutAge T body := by
  have hage : ∀ r, (classify T body r).ageContext
      = ((ChatText.new T body).ageQuestion T || (ChatText.new T body).minorMarker T) := by
    intro r
    unfold classify
    dsimp only
    split
    · next h => exact (Bool.and_eq_true_iff.mp h).2.symm
    split
    · next h h' =>
      -- an earlier age counts only for a line that is explicit, and about no age itself
      cases hr : (ChatText.new T body).explicitRule T <;>
        cases hs : (ChatText.new T body).sexualSoft T <;> simp_all
    · split <;> rfl
  rw [aboutAge, hage, hage]

namespace ChatHub

variable {s : ChatHub} {past : ChatPast} {env : Env} {id : ConnId} {raw body : String}
  {c : Client}

-- ==================================================================== the fields

/-- What the filter remembers. -/
def memory (s : ChatHub) : Table ConnId Instant × Table UserId (List Nat) :=
  (s.ageCtxAt, s.groomingFlags)

theorem say_eq (s : ChatHub) (x : ConnId) (m : ChatMsg) :
    ∃ out, s.say x m = { s with chatOut := out } := by
  unfold say
  split
  · exact ⟨_, rfl⟩
  · exact ⟨s.chatOut, rfl⟩

@[simp]
theorem memory_say (x : ConnId) (m : ChatMsg) : (s.say x m).memory = s.memory := by
  obtain ⟨out, h⟩ := s.say_eq x m
  rw [h]
  rfl

@[simp]
theorem fedChats_say (x : ConnId) (m : ChatMsg) : (s.say x m).fedChats = s.fedChats := by
  obtain ⟨out, h⟩ := s.say_eq x m
  rw [h]

@[simp]
theorem safetyLog_say (x : ConnId) (m : ChatMsg) : (s.say x m).safetyLog = s.safetyLog := by
  obtain ⟨out, h⟩ := s.say_eq x m
  rw [h]

/-- What a connection that is there is sent. -/
theorem chatOut_say (hx : s.dm.hub.has id = true) (m : ChatMsg) :
    (s.say id m).chatOut = s.chatOut ++ [(id, m)] := by
  rw [say, if_pos hx]

/-- What many are sent: those that are there get it, in their order. -/
theorem say_foldl (m : ChatMsg) (l : List ConnId) (s : ChatHub) :
    l.foldl (fun s t => s.say t m) s
      = { s with chatOut := s.chatOut ++ (l.filter s.dm.hub.has).map (·, m) } := by
  induction l generalizing s with
  | nil => simp
  | cons t l ih =>
      rw [List.foldl_cons, ih]
      unfold say
      by_cases ht : s.dm.hub.has t = true
      · simp [ht]
      · simp [ht]

-- ================================================================== the limiter

@[simp]
theorem hub_limited : (s.limited env id).dm.hub = s.dm.hub := by
  unfold limited DmHub.allowChat
  dsimp only
  split <;> rfl

@[simp]
theorem nameOf_limited : (s.limited env id).dm.nameOf = s.dm.nameOf := by
  unfold limited DmHub.allowChat
  dsimp only
  split <;> rfl

@[simp]
theorem memory_limited : (s.limited env id).memory = s.memory := rfl

@[simp]
theorem betweenStrangers_limited :
    (s.limited env id).betweenStrangers = s.betweenStrangers := by
  unfold betweenStrangers
  rw [hub_limited]

@[simp]
theorem fedSessionOf_limited : (s.limited env id).fedSessionOf = s.fedSessionOf := by
  unfold fedSessionOf
  rw [hub_limited]

-- ============================================================= behind the filter

@[simp]
theorem memory_relayChat (sid : SessionId) (sess : FedSession) :
    (s.relayChat id sid sess body).memory = s.memory := by
  unfold relayChat
  exact s.memory_say id _

@[simp]
theorem memory_deliverChat : (s.deliverChat env id body).memory = s.memory := by
  unfold deliverChat
  split
  · rw [memory_say]
  split
  · dsimp only
    rw [say_foldl]
    exact s.memory_say id _
  · rw [memory_say]

@[simp]
theorem memory_forward : (s.forward env id body).memory = s.memory := by
  unfold forward
  split
  · exact memory_relayChat _ _
  · exact memory_deliverChat

/-- **Spec** of a line that the filter does not read: nothing is remembered. -/
theorem memory_of_unread (h : s.strangersLine env id raw = none) :
    (s.handleChat T env id raw).memory = s.memory := by
  unfold strangersLine at h
  unfold handleChat
  dsimp only
  split
  · rw [memory_say, memory_limited]
  split
  · exact memory_limited
  split
  · rw [memory_say, memory_limited]
  next hok hne hlen =>
  have hread : (s.withinLimit env id && decide (trim raw ≠ "")
      && decide ((trim raw).length ≤ DmHub.maxChatChars)) = true := by
    simp only [Bool.and_eq_true, decide_eq_true_eq]
    exact ⟨⟨by simpa using hok, hne⟩, Nat.le_of_not_lt hlen⟩
  rw [if_pos hread] at h
  have hfilter : (s.limited env id).chatFilterBlocks T env id (trim raw)
      = (s.limited env id, false) := by
    unfold chatFilterBlocks
    rw [hub_limited]
    cases hc : s.dm.hub.get id with
    | none => rfl
    | some c =>
        rw [hc, Option.bind_some] at h
        dsimp only
        rw [betweenStrangers_limited, if_neg]
        intro hstr
        rw [if_pos hstr] at h
        cases h
  unfold pass
  rw [hfilter]
  change ((s.limited env id).forward env id (trim raw)).memory = s.memory
  rw [memory_forward, memory_limited]

/-- A line that the filter reads. -/
structure Heeds (s : ChatHub) (env : Env) (id : ConnId) (raw body : String) (c : Client) :
    Prop where
  body_eq : trim raw = body
  nonempty : body ≠ ""
  short : body.length ≤ DmHub.maxChatChars
  sender : s.dm.hub.get id = some c
  strange : s.betweenStrangers id c = true
  limit : s.withinLimit env id = true

theorem heeds (h : s.strangersLine env id raw = some (c, body)) : s.Heeds env id raw body c := by
  unfold strangersLine at h
  split at h
  · next hread =>
    simp only [Bool.and_eq_true, decide_eq_true_eq] at hread
    obtain ⟨c', hc, h⟩ := Option.bind_eq_some_iff.mp h
    split at h
    · next hstr =>
      cases h
      exact ⟨rfl, hread.1.2, hread.2, hc, hstr, hread.1.1⟩
    · cases h
  · cases h

/-- The hub after the verdict on a line. -/
def judged (s : ChatHub) (T : CharTable) (env : Env) (id : ConnId) (body : String) : ChatHub :=
  (s.limited env id).noteAge env id (classify T body (s.ageContextRecent env id))

theorem handleChat_of_heeds (h : s.Heeds env id raw body c) :
    s.handleChat T env id raw = (s.limited env id).pass T env id body := by
  unfold handleChat
  dsimp only
  rw [h.body_eq, if_neg (by simp [h.limit]), if_neg h.nonempty,
    if_neg (Nat.not_lt_of_le h.short)]

/-- **Spec** of a line that the filter lets through. -/
theorem handleChat_clean (h : s.Heeds env id raw body c)
    (hv : (classify T body (s.ageContextRecent env id)).category = none) :
    s.handleChat T env id raw = (s.judged T env id body).forward env id body := by
  have hrecent : (s.limited env id).ageContextRecent env id = s.ageContextRecent env id := rfl
  rw [handleChat_of_heeds h]
  unfold pass chatFilterBlocks
  rw [hub_limited, h.sender]
  dsimp only
  rw [betweenStrangers_limited, if_pos h.strange, hrecent, hv]
  rfl

/-- **Spec** of a line that the filter blocks. -/
theorem handleChat_blocked (h : s.Heeds env id raw body c) {category : ChatCategory}
    (hv : (classify T body (s.ageContextRecent env id)).category = some category) :
    s.handleChat T env id raw = (s.judged T env id body).block env id c body category
      (classify T body (s.ageContextRecent env id)).rule := by
  have hrecent : (s.limited env id).ageContextRecent env id = s.ageContextRecent env id := rfl
  rw [handleChat_of_heeds h]
  unfold pass chatFilterBlocks
  rw [hub_limited, h.sender]
  dsimp only
  rw [betweenStrangers_limited, if_pos h.strange, hrecent, hv]
  rfl

@[simp]
theorem hub_judged : (s.judged T env id body).dm.hub = s.dm.hub := by
  unfold judged noteAge
  split <;> exact hub_limited

@[simp]
theorem ageCtxAt_judged : (s.judged T env id body).ageCtxAt
    = if aboutAge T body then s.ageCtxAt.set id env.now else s.ageCtxAt := by
  unfold judged noteAge
  rw [ageContext_classify]
  split <;> rfl

theorem judged_eq : ∃ t, s.judged T env id body = { s.limited env id with ageCtxAt := t } := by
  unfold judged noteAge
  split
  · exact ⟨_, rfl⟩
  · exact ⟨s.ageCtxAt, rfl⟩

/-- How the flags of all users stand after a verdict. -/
def flagged (s : ChatHub) (env : Env) (user : UserId) (category : Option ChatCategory) :
    Table UserId (List Nat) :=
  if category = some .grooming && user ≠ "" then
    s.groomingFlags.set user (s.raiseFlag env user)
  else s.groomingFlags

/-- **Step** on the memory: what a line that is read leaves behind. -/
theorem memory_of_heeds (h : s.Heeds env id raw body c) :
    (s.handleChat T env id raw).memory
      = (if aboutAge T body then s.ageCtxAt.set id env.now else s.ageCtxAt,
        s.flagged env c.userId (classify T body (s.ageContextRecent env id)).category) := by
  obtain ⟨t, ht⟩ := @judged_eq T s env id body
  have hages : t = if aboutAge T body then s.ageCtxAt.set id env.now else s.ageCtxAt := by
    rw [← ageCtxAt_judged, ht]
  cases hv : (classify T body (s.ageContextRecent env id)).category with
  | none =>
      rw [handleChat_clean h hv, memory_forward, ht, hages]
      rfl
  | some category =>
      rw [handleChat_blocked h hv]
      unfold block
      dsimp only
      rw [memory_say, ht, hages]
      unfold countGrooming flagged memory
      simp only [Option.some.injEq]
      split <;> rfl

-- ===================================================================== invariant

/-- What the filter remembers of a run is what it needs of it. -/
structure Remembers (s : ChatHub) (past : ChatPast) : Prop where
  noted : ∀ x t, (x, t) ∈ past.ages →
    t ≤ past.now ∧ ∃ u, s.ageCtxAt.get? x = some u ∧ t ≤ u
  kept : ∀ x u, s.ageCtxAt.get? x = some u → (x, u) ∈ past.ages
  flags : ∀ user, user ≠ "" → ∀ later, past.unix ≤ later →
    Window.recent chatFlagWindowSecs later ((s.groomingFlags.get? user).getD [])
      = Window.recent chatFlagWindowSecs later (past.groomings user)

/-- The one time that is kept answers for all of them: it is the latest. -/
theorem Remembers.ageContextRecent (hr : s.Remembers past) :
    s.ageContextRecent env id = past.ageRecent env id := by
  rw [Bool.eq_iff_iff]
  unfold ChatHub.ageContextRecent ChatPast.ageRecent
  rw [Option.any_eq_true, List.any_eq_true]
  constructor
  · rintro ⟨u, hu, hrecent⟩
    exact ⟨(id, u), hr.kept id u hu, by simpa using hrecent⟩
  · rintro ⟨⟨x, t⟩, ht, hrecent⟩
    simp only [Bool.and_eq_true, decide_eq_true_eq] at hrecent
    obtain ⟨rfl, hrecent⟩ := hrecent
    obtain ⟨-, u, hu, htu⟩ := hr.noted x t ht
    refine ⟨u, hu, decide_eq_true ?_⟩
    exact Nat.lt_of_le_of_lt (Nat.sub_le_sub_left htu env.now) hrecent

/-- The pruned flags of a user count its grooming lines of the last week. -/
theorem Remembers.length_raiseFlag (hr : s.Remembers past) (hunix : past.unix ≤ env.unix)
    {user : UserId} (huser : user ≠ "") :
    (s.raiseFlag env user).length
      = Window.recent chatFlagWindowSecs env.unix (past.groomings user) + 1 := by
  rw [← hr.flags user huser env.unix hunix]
  unfold raiseFlag Window.recent
  rw [List.length_append, List.length_singleton, List.countP_eq_length_filter]

theorem Remembers.verdict (hr : s.Remembers past) :
    past.verdict T env id body = classify T body (s.ageContextRecent env id) := by
  rw [ChatPast.verdict, hr.ageContextRecent]

theorem groomings_append (past : ChatPast) (g : UserId × Nat) (user : UserId) :
    ({ past with grooming := past.grooming ++ [g] } : ChatPast).groomings user
      = past.groomings user ++ if g.1 = user then [g.2] else [] := by
  unfold ChatPast.groomings
  rw [List.filter_append, List.map_append]
  by_cases hg : g.1 = user <;> simp [hg]

/-- One more grooming line, and one more flag. -/
theorem Remembers.flagged (hr : s.Remembers past) (hunix : past.unix ≤ env.unix)
    {category : Option ChatCategory} {sender user : UserId} (huser : user ≠ "") {later : Nat}
    (hlater : env.unix ≤ later) :
    Window.recent chatFlagWindowSecs later
        (((s.flagged env sender category).get? user).getD [])
      = Window.recent chatFlagWindowSecs later
        (({ past with
          grooming := if category = some .grooming && sender ≠ "" then
            past.grooming ++ [(sender, env.unix)] else past.grooming } : ChatPast).groomings
          user) := by
  have hold := hr.flags user huser later (Nat.le_trans hunix hlater)
  unfold ChatHub.flagged
  split
  · rw [groomings_append, Window.recent_append, ← hold, Table.get?_set]
    by_cases hs : user = sender
    · rw [if_pos hs, if_pos hs.symm, Option.getD_some, raiseFlag, Window.recent_append,
        Window.recent_retain hlater, hs]
    · rw [if_neg hs, if_neg (Ne.symm hs)]
      rfl
  · exact hold

/-- **Step**: a line that is read is remembered. -/
theorem Remembers.read (hr : s.Remembers past) (hnow : past.now ≤ env.now)
    (hunix : past.unix ≤ env.unix) (h : s.Heeds env id raw body c) :
    (s.handleChat T env id raw).Remembers (past.hear T env id c body) := by
  have hmem := memory_of_heeds (T := T) h
  have hages : (s.handleChat T env id raw).ageCtxAt = _ := congrArg Prod.fst hmem
  have hflags : (s.handleChat T env id raw).groomingFlags = _ := congrArg Prod.snd hmem
  have hnoted : ∀ x t, (x, t) ∈ past.ages →
      t ≤ env.now ∧ ∃ u, s.ageCtxAt.get? x = some u ∧ t ≤ u := fun x t ht =>
    ⟨Nat.le_trans (hr.noted x t ht).1 hnow, (hr.noted x t ht).2⟩
  refine ⟨fun x t ht => ?_, fun x u hu => ?_, fun user huser later hlater => ?_⟩
  · rw [hages]
    unfold ChatPast.hear at ht
    dsimp only at ht ⊢
    split at ht
    · next hage =>
      rw [if_pos hage, Table.get?_set]
      rcases List.mem_append.mp ht with ht | ht
      · refine ⟨(hnoted x t ht).1, ?_⟩
        split
        · exact ⟨env.now, rfl, (hnoted x t ht).1⟩
        · exact (hnoted x t ht).2
      · cases List.mem_singleton.mp ht
        exact ⟨Nat.le_refl _, env.now, if_pos rfl, Nat.le_refl _⟩
    · next hage =>
      rw [if_neg hage]
      exact hnoted x t ht
  · rw [hages] at hu
    unfold ChatPast.hear
    dsimp only at hu ⊢
    split at hu
    · next hage =>
      rw [if_pos hage]
      rw [Table.get?_set] at hu
      split at hu
      · next hx =>
        cases hu
        rw [hx]
        exact List.mem_append_right _ (List.mem_singleton.mpr rfl)
      · exact List.mem_append_left _ (hr.kept x u hu)
    · next hage =>
      rw [if_neg hage]
      exact hr.kept x u hu
  · rw [hflags]
    dsimp only
    rw [hr.flagged hunix huser hlater, ← hr.verdict]
    rfl

theorem note_read {s' : ChatHub} (h : s.strangersLine env id raw = some (c, body)) :
    past.note T s (.chat env id raw) s' = past.hear T env id c body := by
  simp only [ChatPast.note, h]

theorem note_unread {s' : ChatHub} (h : s.strangersLine env id raw = none) :
    past.note T s (.chat env id raw) s' = { past with now := env.now, unix := env.unix } := by
  simp only [ChatPast.note, h]

/-- **Step**: every event keeps the memory. -/
theorem Remembers.step (hr : s.Remembers past) {e : ChatEvent} (he : past.Allows e) :
    (s.step T e).Remembers (past.note T s e (s.step T e)) := by
  cases e with
  | chat env id raw =>
      obtain ⟨hnow, hunix⟩ := he
      cases hline : s.strangersLine env id raw with
      | some line =>
          rw [note_read hline]
          exact hr.read hnow hunix (heeds hline)
      | none =>
          rw [note_unread hline]
          have hmem : (s.handleChat T env id raw).memory = s.memory := memory_of_unread hline
          have hages : (s.handleChat T env id raw).ageCtxAt = s.ageCtxAt := congrArg Prod.fst hmem
          have hflags : (s.handleChat T env id raw).groomingFlags = s.groomingFlags :=
            congrArg Prod.snd hmem
          refine ⟨fun x t ht => ?_, fun x u hu => ?_, fun user huser later hlater => ?_⟩
          · change _ ∧ ∃ u, (s.handleChat T env id raw).ageCtxAt.get? x = some u ∧ _
            rw [hages]
            exact ⟨Nat.le_trans (hr.noted x t ht).1 hnow, (hr.noted x t ht).2⟩
          · change (s.handleChat T env id raw).ageCtxAt.get? x = some u at hu
            rw [hages] at hu
            exact hr.kept x u hu
          · change Window.recent _ later (((s.handleChat T env id raw).groomingFlags.get?
              user).getD []) = _
            rw [hflags]
            exact hr.flags user huser later (Nat.le_trans hunix hlater)
  | other rest =>
      have hget : ∀ x, (s.step T (.other rest)).ageCtxAt.get? x
          = (s.ageCtxAt.get? x).filter fun _ => rest.hub.has x := fun x =>
        Table.get?_retain s.ageCtxAt _ x
      refine ⟨fun x t ht => ?_, fun x u hu => ?_, fun user huser later hlater => ?_⟩
      · obtain ⟨hmem, hhas⟩ := List.mem_filter.mp ht
        obtain ⟨hle, u, hu, htu⟩ := hr.noted x t hmem
        refine ⟨hle, u, ?_, htu⟩
        rw [hget, hu]
        exact Option.filter_eq_some_iff.mpr ⟨rfl, hhas⟩
      · rw [hget] at hu
        obtain ⟨hu, hhas⟩ := Option.filter_eq_some_iff.mp hu
        exact List.mem_filter.mpr ⟨hr.kept x u hu, hhas⟩
      · exact hr.flags user huser later hlater

theorem remembers_reach (h : (chatMachine T).Reach (s, past)) : s.Remembers past := by
  refine h.invariant (I := fun q => q.1.Remembers q.2) ?_ ?_
  · rintro ⟨s, past⟩ ⟨⟨hages, hflags⟩, hpast⟩
    dsimp only at hages hflags hpast
    subst hpast
    refine ⟨fun x t ht => ?_, fun x u hu => ?_, fun user huser later hlater => ?_⟩
    · cases ht
    · rw [hages, Table.get?_empty] at hu
      cases hu
    · change Window.recent _ later ((s.groomingFlags.get? user).getD []) = _
      rw [hflags, Table.get?_empty]
      rfl
  · rintro ⟨s, past⟩ e ⟨s', past'⟩ - hr ⟨hallows, hstep, hpast⟩
    dsimp only at hr hallows hstep hpast
    rw [hstep] at hpast
    rw [hstep, hpast]
    exact hr.step hallows

-- ==================================================================== the main result

/-- Whom a line reaches, and what is queued for another hub, when the filter
lets it through. -/
structure Passed (s s' : ChatHub) (env : Env) (id : ConnId) (c : Client) (body : String) :
    Prop where
  unlogged : s'.safetyLog = s.safetyLog
  abroad : ∀ sid sess, s.fedSessionOf id = some (sid, sess) →
    s'.chatOut = s.chatOut ++ [(id, .chat (s.dm.nameOf id c) body c.userId)]
      ∧ s'.fedChats = s.fedChats ++ [⟨sess.remoteBaseUrl, sid, s.dm.nameOf id c, body⟩]
  here : s.fedSessionOf id = none → c.phase = .matched →
    s'.chatOut = s.chatOut ++ ((id :: listeners env id c).filter s.dm.hub.has).map
        (·, .chat (s.dm.nameOf id c) body c.userId)
      ∧ s'.fedChats = s.fedChats

/-- A line that is blocked: its sender alone hears of it. -/
structure Blocked (s s' : ChatHub) (id : ConnId) (c : Client) (category : ChatCategory)
    (flags : Nat) : Prop where
  answered : s'.chatOut = s.chatOut ++ [(id, .error (notice category))]
  kept : s'.fedChats = s.fedChats
  logged : ∃ line, s'.safetyLog = s.safetyLog ++ [line] ∧ line.category = category
    ∧ line.senderUserId = c.userId
    ∧ line.groomingFlags7d = if category = .grooming then some flags else none

theorem passed (h : s.Heeds env id raw body c)
    (hv : (classify T body (s.ageContextRecent env id)).category = none) :
    s.Passed (s.handleChat T env id raw) env id c body := by
  obtain ⟨t, ht⟩ := @judged_eq T s env id body
  have hhas : s.dm.hub.has id = true := Option.isSome_iff_exists.mpr ⟨c, h.sender⟩
  have hhub : ({ s.limited env id with ageCtxAt := t } : ChatHub).dm.hub = s.dm.hub := hub_limited
  have hname : ({ s.limited env id with ageCtxAt := t } : ChatHub).dm.nameOf = s.dm.nameOf :=
    nameOf_limited
  have hfed : ({ s.limited env id with ageCtxAt := t } : ChatHub).fedSessionOf
      = s.fedSessionOf := fedSessionOf_limited
  have huser : s.dm.hub.userOf id = c.userId := by
    rw [SimpleHub.userOf, h.sender]
    rfl
  rw [handleChat_clean h hv, ht]
  unfold forward
  rw [hfed]
  cases hs : s.fedSessionOf id with
  | some q =>
      obtain ⟨sid, sess⟩ := q
      unfold relayChat
      dsimp only
      rw [hhub, hname, huser, h.sender, Option.map_some, Option.getD_some]
      refine ⟨?_, fun sid' sess' heq => ?_, fun hnone => ?_⟩
      · exact safetyLog_say id _
      · cases hs.symm.trans heq
        refine ⟨chatOut_say (by rw [hhub, hhas]) _, ?_⟩
        rw [fedChats_say]
        rfl
      · cases hs.symm.trans hnone
  | none =>
      unfold deliverChat
      dsimp only
      rw [hhub, hname, h.sender]
      dsimp only
      refine ⟨?_, fun sid sess heq => ?_, fun _ hm => ?_⟩
      · split
        · rw [say_foldl]
          exact safetyLog_say id _
        · exact safetyLog_say id _
      · cases hs.symm.trans heq
      · rw [if_pos (by simp [hm]), say_foldl]
        obtain ⟨out, hout⟩ := say_eq ({ s.limited env id with ageCtxAt := t } : ChatHub) id
          (.chat (s.dm.nameOf id c) body c.userId)
        have hthere : ({ s.limited env id with ageCtxAt := t } : ChatHub).dm.hub.has id = true :=
          by rw [hhub, hhas]
        have hsaid := chatOut_say hthere (.chat (s.dm.nameOf id c) body c.userId)
        rw [hout] at hsaid ⊢
        dsimp only at hsaid ⊢
        refine ⟨?_, rfl⟩
        rw [hsaid, hub_limited, List.filter_cons, if_pos hhas, List.map_cons, List.append_assoc]
        rfl

theorem blocked (hr : s.Remembers past) (hunix : past.unix ≤ env.unix)
    (h : s.Heeds env id raw body c) {category : ChatCategory}
    (hv : (classify T body (s.ageContextRecent env id)).category = some category) :
    s.Blocked (s.handleChat T env id raw) id c category (if c.userId = "" then 0 else
      Window.recent chatFlagWindowSecs env.unix (past.groomings c.userId) + 1) := by
  obtain ⟨t, ht⟩ := @judged_eq T s env id body
  have hhas : s.dm.hub.has id = true := Option.isSome_iff_exists.mpr ⟨c, h.sender⟩
  rw [handleChat_blocked h hv, ht]
  unfold block countGrooming
  dsimp only
  split
  · next hg =>
    simp only [Bool.and_eq_true, decide_eq_true_eq] at hg
    dsimp only
    refine ⟨chatOut_say ?_ _, fedChats_say _ _, ?_⟩
    · change (s.limited env id).dm.hub.has id = true
      rw [hub_limited, hhas]
    · rw [safetyLog_say]
      refine ⟨_, rfl, rfl, rfl, ?_⟩
      dsimp only
      rw [if_pos hg.1, if_pos hg.1, if_neg hg.2, ← hr.length_raiseFlag hunix hg.2]
      rfl
  · next hg =>
    dsimp only
    refine ⟨chatOut_say ?_ _, fedChats_say _ _, ?_⟩
    · change (s.limited env id).dm.hub.has id = true
      rw [hub_limited, hhas]
    · rw [safetyLog_say]
      refine ⟨_, rfl, rfl, rfl, ?_⟩
      dsimp only
      split
      · next hcat =>
        have huser : c.userId = "" := by
          by_contra hne
          exact hg (by simp [hcat, hne])
        rw [if_pos huser]
      · rfl

/-- **Strangers hear what passes**: over any run whose clocks do not go back, a
line of a stranger is judged with the lines about an age that this connection
said in the last ten minutes, however many lines came between. What is blocked
reaches nobody and is logged with the number of the sender's grooming lines of
the last seven days; what passes reaches the session, or the other hub. -/
theorem strangers_filtered (hreach : (chatMachine T).Reach (s, past))
    (hunix : past.unix ≤ env.unix) (hline : s.strangersLine env id raw = some (c, body)) :
    ((past.verdict T env id body).category = none →
      s.Passed (s.handleChat T env id raw) env id c body)
    ∧ ∀ category, (past.verdict T env id body).category = some category →
      s.Blocked (s.handleChat T env id raw) id c category (if c.userId = "" then 0 else
        Window.recent chatFlagWindowSecs env.unix (past.groomings c.userId) + 1) := by
  have hr := remembers_reach hreach
  rw [hr.verdict]
  exact ⟨passed (heeds hline), fun category hv => blocked hr hunix (heeds hline) hv⟩

/-- A hub nobody has written on. -/
def silent (h : SimpleHub) : ChatHub := ⟨⟨h, ⟨10, 10000⟩, ∅, ∅, ∅, ∅, []⟩, ∅, ∅, [], [], []⟩

/-- Two strangers; one asks for the age, and then says what would pass alone. -/
theorem strangers_filtered_later : ∃ s past, (chatMachine bareTable).Reach (s, past)
    ∧ (classify bareTable "a virgin" false).category = none
    ∧ (s.handleChat bareTable (plainEnv 9000) 1 "a virgin").chatOut
      = s.chatOut ++ [(1, .error "message not sent — explicit content")] := by
  let next := Machine.guardNext (fun (q : ChatHub × ChatPast) e => q.2.Allows e)
    (Machine.watchNext (fun s e => some (s.step bareTable e)) (ChatPast.note bareTable))
  let read : ChatHub × ChatPast → Bool := fun q =>
    (q.1.strangersLine (plainEnv 9000) 1 "a virgin").any (·.2 = "a virgin")
      && q.2.unix ≤ 9 && (q.2.verdict bareTable (plainEnv 9000) 1 "a virgin").category
        = some .grooming
  obtain ⟨w, -, hw⟩ := @reach_of_replay plainSys 2
    (script [(0, .connect 1 "ip1"), (0, .connect 2 "ip2"), (1, .frame 1 (.spin "")),
      (2, .frame 2 (.spin ""))])
    (fun w => (Machine.follow next (silent w.hub, .start)
      [.chat (plainEnv 8000) 1 "how old are you"]).any read)
    (by decide +kernel)
  obtain ⟨⟨s, past⟩, hreach, hread⟩ := Machine.exists_reach (M := chatMachine bareTable)
    (Machine.guardNext_step (Machine.watchNext_step fun _ _ _ h => (Option.some.inj h).symm))
    ⟨⟨rfl, rfl⟩, rfl⟩ hw
  simp only [read, Bool.and_eq_true, decide_eq_true_eq] at hread
  obtain ⟨⟨c, body⟩, hline, hbody⟩ := (Option.any_eq_true _ _).mp hread.1.1
  obtain rfl := of_decide_eq_true hbody
  have hblocked := (strangers_filtered hreach hread.1.2 hline).2 .grooming hread.2
  exact ⟨s, past, hreach, by decide +kernel, hblocked.answered⟩

end ChatHub

end Ruletka
