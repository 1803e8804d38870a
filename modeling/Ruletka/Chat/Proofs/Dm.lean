/-
Whose messages a history shows.

# The rows

A row is the last hundred of the messages sent under its key, whatever their
pairs (`Rows`, by induction over the run). A history about a pair shows the
row under the pair's key, so it shows the pair's own last messages exactly
when none of the last hundred under that key is of another pair.

# The keys

A key is two ids and the bar between them. Without another bar in it the ids
are read back from it; with one there is more than one bar to cut at.
-/
import Ruletka.Chat.Dm
import Ruletka.Hub.Proofs.Friends
import Mathlib.Data.List.DropRight

namespace Ruletka

open Text

section Tails

variable {α : Type}

/-- Cutting a list before it grows makes no difference to its tail. -/
theorem rtake_push (l : List α) (n : Nat) (a : α) :
    (l.rtake n ++ [a]).rtake n = (l ++ [a]).rtake n := by
  simp only [List.rtake_eq_reverse_take_reverse, List.reverse_append, List.reverse_reverse,
    List.reverse_singleton, List.singleton_append, List.reverse_inj]
  cases n with
  | zero => rfl
  | succ n => simp only [List.take_succ_cons, List.take_take, min_eq_left (Nat.le_succ n)]

theorem rtake_suffix (l : List α) (n : Nat) : l.rtake n <:+ l := List.drop_suffix _ _

/-- A tail that passes a test whole is the tail of what passes. -/
theorem rtake_filter_of_all {l : List α} {n : Nat} {p : α → Bool}
    (hall : ∀ a ∈ l.rtake n, p a = true) : (l.filter p).rtake n = l.rtake n := by
  obtain ⟨front, hfront⟩ := rtake_suffix l n
  have hkept : (l.rtake n).filter p = l.rtake n := List.filter_eq_self.mpr hall
  have hsplit : l.filter p = front.filter p ++ l.rtake n := by
    rw [← hfront, List.filter_append, hfront, hkept]
  rcases Nat.lt_or_ge l.length n with hshort | hlong
  · have hwhole : l.rtake n = l := by
      rw [List.rtake, Nat.sub_eq_zero_of_le hshort.le, List.drop_zero]
    rw [hwhole] at hkept ⊢
    rw [hkept, hwhole]
  · have hlen : (l.rtake n).length = n := by
      rw [List.rtake, List.length_drop]
      omega
    rw [hsplit, List.rtake, List.length_append, hlen, Nat.add_sub_cancel, List.drop_left]

end Tails

-- ========================================================================== keys

/-- The key is the ids in one order or the other. -/
theorem dmConvKey_eq_or (a b : UserId) :
    (dmConvKey a b).toList = a.toList ++ '|' :: b.toList
      ∨ (dmConvKey a b).toList = b.toList ++ '|' :: a.toList := by
  unfold dmConvKey
  split_ifs <;> simp

/-- Two ids without bars share their key with no other pair. -/
theorem pair_of_dmConvKey {a b c d : UserId} (ha : '|' ∉ a.toList) (hb : '|' ∉ b.toList)
    (h : dmConvKey a b = dmConvKey c d) : (a = c ∧ b = d) ∨ (a = d ∧ b = c) := by
  have hcut : ∀ u v x y : UserId, '|' ∉ u.toList → '|' ∉ v.toList →
      u.toList ++ '|' :: v.toList = x.toList ++ '|' :: y.toList → u = x ∧ v = y := by
    intro u v x y hu hv heq
    obtain ⟨hux, -, hvy⟩ := (List.append_cons_inj_of_notMem hu hv).mp heq
    exact ⟨String.toList_inj.mp hux, String.toList_inj.mp hvy⟩
  rcases dmConvKey_eq_or a b with hab | hab <;> rcases dmConvKey_eq_or c d with hcd | hcd <;>
    rw [h, hcd] at hab
  · exact .inl (hcut a b c d ha hb hab.symm)
  · exact .inr (hcut a b d c ha hb hab.symm)
  · obtain ⟨hbc, had⟩ := hcut b a c d hb ha hab.symm
    exact .inr ⟨had, hbc⟩
  · obtain ⟨hbd, hac⟩ := hcut b a d c hb ha hab.symm
    exact .inl ⟨hac, hbd⟩

-- ========================================================================== rows

/-- Sent by one of the two to the other. -/
def StoredDm.Between (m : StoredDm) (x y : UserId) : Prop :=
  (m.from = x ∧ m.to = y) ∨ (m.from = y ∧ m.to = x)

instance (m : StoredDm) (x y : UserId) : Decidable (m.Between x y) :=
  inferInstanceAs (Decidable (_ ∨ _))

def StoredDm.key (m : StoredDm) : String := dmConvKey m.from m.to

theorem StoredDm.Between.key_eq {m : StoredDm} {x y : UserId} (h : m.Between x y) :
    m.key = dmConvKey x y := by
  rcases h with ⟨rfl, rfl⟩ | ⟨rfl, rfl⟩
  · rfl
  · exact dmConvKey_comm _ _

namespace DmHub

variable {s s' : DmHub} {sent : List StoredDm}

theorem row_say (id : ConnId) (msg : DmMsg) (key : String) :
    (s.say id msg).row key = s.row key := by
  unfold say
  split_ifs <;> rfl

theorem row_deliver (id : ConnId) (m : StoredDm) (key : String) :
    (s.deliver id m).row key = s.row key := by
  unfold deliver
  cases s.hub.get id with
  | none => rfl
  | some c =>
      dsimp only
      generalize hwire : DmMsg.friendChat m.id m.from (s.nameOf id c) m.to m.body m.ts = wire
      cases (s.say id wire).hub.byUser.get? m.to with
      | none => exact row_say _ _ _
      | some tid => exact (row_say _ _ _).trans (row_say _ _ _)

theorem row_keep (m : StoredDm) (key : String) :
    (s.keep m).row key
      = if key = m.key then (s.row key ++ [m]).rtake maxDmPerConv else s.row key := by
  unfold keep row
  dsimp only
  by_cases hkey : key = m.key
  · subst hkey
    simp [StoredDm.key]
  · rw [if_neg hkey, Table.get?_set]
    exact congrArg (Option.getD · []) (if_neg hkey)

/-- A row is the last hundred of the messages under its key. -/
def Rows (s : DmHub) (sent : List StoredDm) : Prop :=
  ∀ key, s.row key = (sent.filter fun m => m.key = key).rtake maxDmPerConv

/-- A row after an event. -/
theorem row_step {e : DmEvent} (h : s.step e = some s') (key : String) :
    s'.row key = match s.stored e with
      | some m => if key = m.key then (s.row key ++ [m]).rtake maxDmPerConv else s.row key
      | none => s.row key := by
  cases e with
  | chat env id toUserId body =>
      cases Option.some.inj h
      have hlimit : ∀ key, (s.allowChat env id).1.row key = s.row key := by
        intro key
        unfold allowChat
        split_ifs <;> rfl
      unfold handleFriendChat stored
      dsimp only
      generalize s.allowChat env id = r at hlimit
      obtain ⟨t, ok⟩ := r
      dsimp only at hlimit ⊢
      cases ok with
      | false => exact (row_say _ _ _).trans (hlimit key)
      | true =>
          rw [if_neg (by decide), if_neg (by decide)]
          cases t.judge env id toUserId body with
          | drop => exact hlimit key
          | refuse message => exact (row_say _ _ _).trans (hlimit key)
          | store m =>
              dsimp only
              rw [row_deliver, row_keep, hlimit]
  | history id withUserId =>
      change s'.row key = s.row key
      unfold step handleFriendChatHistory at h
      dsimp only at h
      split at h
      · cases h
        rfl
      · split_ifs at h
        · cases h
          exact row_say _ _ _
        · cases h
          exact row_say _ _ _
        · obtain ⟨lines, -, rfl⟩ := Option.map_eq_some_iff.mp h
          exact row_say _ _ _
  | other rest =>
      cases Option.some.inj h
      rfl

/-- **Step**: an event keeps the rows. -/
theorem Rows.step (hrows : s.Rows sent) {e : DmEvent} (h : s.step e = some s') :
    s'.Rows (noteSent sent s e s') := by
  intro key
  rw [row_step h, noteSent, List.filter_append, hrows key]
  cases s.stored e with
  | none => simp
  | some m =>
      by_cases hkey : m.key = key
      · simp only [hkey, if_true, Option.toList_some, List.filter_cons, decide_true,
          List.filter_nil]
        exact rtake_push _ _ _
      · simp [Ne.symm hkey, hkey]

/-- **Run**: the rows of every reached state. -/
theorem rows_of_reach {q : DmHub × List StoredDm}
    (h : (dmMachine.watch [] noteSent).Reach q) : q.1.Rows q.2 := by
  refine h.invariant (I := fun q => q.1.Rows q.2) ?_ ?_
  · rintro ⟨s, sent⟩ ⟨hstart, rfl⟩ key
    have hnone : s.dms = ∅ := hstart
    simp [row, hnone]
  · rintro ⟨s, sent⟩ e ⟨s', sent'⟩ - hrows ⟨hstep, hsent⟩
    obtain rfl : sent' = noteSent sent s e s' := hsent
    exact Rows.step hrows hstep

-- ======================================================================= answers

/-- The lines are those of messages of the pair, in the order they were sent, out of the
last hundred. -/
def Private (s : DmHub) (sent : List StoredDm) (x y : UserId) (lines : List FriendChatLine) :
    Prop :=
  ∃ ms : List StoredDm, ms.mapM s.lineOf = some lines
    ∧ ms.Sublist ((sent.filter fun m => m.Between x y).rtake maxDmPerConv)

/-- No other pair sent one of the last messages under the key of the two. -/
def Unshared (sent : List StoredDm) (x y : UserId) : Prop :=
  ∀ m ∈ (sent.filter fun m => m.key = dmConvKey x y).rtake maxDmPerConv, m.Between x y

/-- The row of a pair is of the pair's last messages when nobody shares its key, and only
then. -/
theorem Rows.sublist_iff (hrows : s.Rows sent) (x y : UserId) :
    (s.row (dmConvKey x y)).Sublist ((sent.filter fun m => m.Between x y).rtake maxDmPerConv)
      ↔ Unshared sent x y := by
  rw [hrows]
  constructor
  · intro hsub m hm
    have hmem := (rtake_suffix _ _).subset (hsub.subset hm)
    exact of_decide_eq_true (List.mem_filter.mp hmem).2
  · intro hall
    have hown : sent.filter (fun m => m.Between x y)
        = (sent.filter fun m => m.key = dmConvKey x y).filter fun m => m.Between x y := by
      rw [List.filter_filter]
      refine List.filter_congr fun m _ => ?_
      by_cases hm : m.Between x y
      · simp [hm, hm.key_eq]
      · simp [hm]
    rw [hown, rtake_filter_of_all fun m hm => decide_eq_true (hall m hm)]

/-- What a request adds is at most one message, to who asked; a history is of the row of
the two, or empty. -/
theorem history_reply {id : ConnId} {withUserId : String}
    (h : s.handleFriendChatHistory id withUserId = some s') :
    ∀ id' w lines, (id', .friendChatHistory w lines) ∈ s'.dmOut.drop s.dmOut.length →
      id' = id ∧ ∃ c ms, s.hub.get id = some c ∧ (ms = [] ∨ ms = s.row (dmConvKey c.userId w))
        ∧ ms.mapM s.lineOf = some lines := by
  have hsay : ∀ msg id' w lines,
      (id', .friendChatHistory w lines) ∈ (s.say id msg).dmOut.drop s.dmOut.length →
        id' = id ∧ msg = .friendChatHistory w lines := by
    intro msg id' w lines hmem
    unfold say at hmem
    split_ifs at hmem
    · rw [List.drop_left, List.mem_singleton, Prod.mk.injEq] at hmem
      exact ⟨hmem.1, hmem.2.symm⟩
    · rw [List.drop_length] at hmem
      cases hmem
  intro id' w lines hmem
  unfold handleFriendChatHistory at h
  dsimp only at h
  split at h
  · cases h
    rw [List.drop_length] at hmem
    cases hmem
  · next c hc =>
    split_ifs at h
    · cases h
      obtain ⟨rfl, hmsg⟩ := hsay _ _ _ _ hmem
      cases hmsg
      exact ⟨rfl, c, [], hc, .inl rfl, rfl⟩
    · cases h
      obtain ⟨-, hmsg⟩ := hsay _ _ _ _ hmem
      cases hmsg
    · obtain ⟨lines', hlines, rfl⟩ := Option.map_eq_some_iff.mp h
      obtain ⟨rfl, hmsg⟩ := hsay _ _ _ _ hmem
      cases hmsg
      exact ⟨rfl, c, _, hc, .inr rfl, hlines⟩

/-- Only messages between ids without bars are stored. -/
def PlainPairs (s : DmHub) (e : DmEvent) : Prop :=
  ∀ m, s.stored e = some m → '|' ∉ m.from.toList ∧ '|' ∉ m.to.toList

instance (s : DmHub) (e : DmEvent) : Decidable (PlainPairs s e) :=
  inferInstanceAs (Decidable (∀ m ∈ s.stored e, _))

/-- Then nobody shares a key. -/
theorem unshared_of_plain {q : DmHub × List StoredDm}
    (h : ((dmMachine.watch [] noteSent).guard fun q e => PlainPairs q.1 e).Reach q)
    (x y : UserId) : Unshared q.2 x y := by
  have hplain : ∀ m ∈ q.2, '|' ∉ m.from.toList ∧ '|' ∉ m.to.toList := by
    refine h.invariant (I := fun q => ∀ m ∈ q.2, '|' ∉ m.from.toList ∧ '|' ∉ m.to.toList) ?_ ?_
    · rintro ⟨s, sent⟩ ⟨-, rfl⟩ m hm
      cases hm
    · rintro ⟨s, sent⟩ e ⟨s', sent'⟩ - hall ⟨hguard, -, hsent⟩ m hm
      obtain rfl : sent' = noteSent sent s e s' := hsent
      rcases List.mem_append.mp hm with hm | hm
      · exact hall m hm
      · exact hguard m (Option.mem_toList.mp hm)
  intro m hm
  obtain ⟨hmem, hkey⟩ := List.mem_filter.mp ((rtake_suffix _ _).subset hm)
  obtain ⟨hfrom, hto⟩ := hplain m hmem
  exact pair_of_dmConvKey hfrom hto (of_decide_eq_true hkey)

-- ==================================================================== the main result

/-- **Privacy of threads**: ids without bars share no key; in every run whose messages
are between such ids, every history is private to its pair; and in any run the row a
history reads is so exactly when no other pair sent one of the last messages under
its key. -/
theorem dm_threads_private (s : DmHub) (sent : List StoredDm) :
    (∀ a b c d : UserId, '|' ∉ a.toList → '|' ∉ b.toList → dmConvKey a b = dmConvKey c d →
      (a = c ∧ b = d) ∨ (a = d ∧ b = c))
    ∧ (((dmMachine.watch [] noteSent).guard fun q e => PlainPairs q.1 e).Reach (s, sent) →
      ∀ id withUserId s', s.handleFriendChatHistory id withUserId = some s' →
        ∀ id' w lines, (id', .friendChatHistory w lines) ∈ s'.dmOut.drop s.dmOut.length →
          id' = id ∧ ∃ c, s.hub.get id = some c ∧ s.Private sent c.userId w lines)
    ∧ ((dmMachine.watch [] noteSent).Reach (s, sent) → ∀ x y,
        (s.row (dmConvKey x y)).Sublist
            ((sent.filter fun m => m.Between x y).rtake maxDmPerConv)
          ↔ Unshared sent x y) := by
  refine ⟨fun a b c d ha hb h => pair_of_dmConvKey ha hb h, ?_, ?_⟩
  · intro hreach id withUserId s' h id' w lines hmem
    obtain ⟨hid, c, ms, hc, hms, hlines⟩ := history_reply h id' w lines hmem
    refine ⟨hid, c, hc, ms, hlines, ?_⟩
    rcases hms with rfl | rfl
    · exact List.nil_sublist _
    · have hrows : s.Rows sent := rows_of_reach hreach.of_guard
      exact (hrows.sublist_iff c.userId w).mpr (unshared_of_plain hreach c.userId w)
  · intro hreach x y
    have hrows : s.Rows sent := rows_of_reach hreach
    exact hrows.sublist_iff x y

/-- The threads of a hub that has none yet. -/
def opened (h : SimpleHub) : DmHub := ⟨h, ⟨10, 10000⟩, ∅, ∅, ∅, ∅, []⟩

/-- Someone writes to a friend. -/
def writes (id : ConnId) (toUserId body : String) : DmEvent :=
  .chat { plainEnv 4000 with msgId := "m1" } id toUserId body

/-- Two friends, and the first writes to the second. -/
theorem dm_threads_private_two : ∃ (s : DmHub) (sent : _) (lines : _),
    lines ≠ [] ∧ s.Private sent "2" "1" lines := by
  let next := Machine.guardNext (fun q e => PlainPairs q.1 e)
    (Machine.watchNext (step : DmHub → DmEvent → Option DmHub) noteSent)
  let asked : DmHub × List StoredDm → Bool := fun q =>
    (q.1.hub.get 2).any (·.userId = "2")
      && (q.1.handleFriendChatHistory 2 "1").any fun t =>
        t.dmOut.drop q.1.dmOut.length
          = [(2, .friendChatHistory "1" [⟨"m1", "1", "p1", "hi", 4⟩])]
  obtain ⟨w, -, hw⟩ := @reach_of_replay plainSys 2 SimpleHub.twoFriends
    (fun w => (Machine.follow next (opened w.hub, []) [writes 1 "2" "hi"]).any asked)
    (by decide +kernel)
  have hstart : (dmMachine.watch [] noteSent).start (opened w.hub, []) :=
    ⟨(rfl : (opened w.hub).dms = ∅), rfl⟩
  obtain ⟨⟨s, sent⟩, hreach, hasked⟩ := Machine.exists_reach
    (M := (dmMachine.watch [] noteSent).guard fun q e => PlainPairs q.1 e)
    (Machine.guardNext_step (Machine.watchNext_step fun _ _ _ h => h)) hstart hw
  obtain ⟨huser, hreply⟩ := Bool.and_eq_true_iff.mp hasked
  obtain ⟨s', hs', hout⟩ := (Option.any_eq_true _ _).mp hreply
  obtain ⟨c, hc, hcuser⟩ := (Option.any_eq_true _ _).mp huser
  obtain ⟨-, c', hc', hprivate⟩ := (dm_threads_private s sent).2.1 hreach 2 "1" s' hs' 2 "1" _
    (by rw [of_decide_eq_true hout]; exact List.mem_singleton_self _)
  obtain rfl : c = c' := Option.some.inj (hc.symm.trans hc')
  exact ⟨s, sent, _, List.cons_ne_nil _ _, of_decide_eq_true hcuser ▸ hprivate⟩

/-- Two pairs of friends whose ids join to one text. -/
def twoPairs : List Input := script
  [(0, .connect 1 "ip1"), (0, .connect 2 "ip2"), (0, .connect 3 "ip3"), (0, .connect 4 "ip4"),
    (1, .frame 1 (.hello ⟨"A|B", "", "", "", [], false, ""⟩)),
    (1, .frame 2 (.hello ⟨"C", "", "", "", [], false, ""⟩)),
    (1, .frame 3 (.hello ⟨"A", "", "", "", [], false, ""⟩)),
    (1, .frame 4 (.hello ⟨"B|C", "", "", "", [], false, ""⟩)),
    (2, .frame 1 (.addFriend "CC")), (3, .frame 2 (.acceptFriend "A|B")),
    (4, .frame 3 (.addFriend "CB|C")), (5, .frame 4 (.acceptFriend "A"))]

/-- `A|B` writes to `C`; the history of `A` about `B|C` shows it. -/
theorem joined_ids_leak : ∃ w, (hubMachine plainSys).Reach w ∧ ∃ s sent s',
    Machine.follow (Machine.watchNext (step : DmHub → DmEvent → Option DmHub) noteSent)
        (opened w.hub, []) [writes 1 "C" "hi"] = some (s, sent)
      ∧ (dmMachine.watch [] noteSent).Reach (s, sent)
      ∧ sent = [⟨"m1", "A|B", "C", "hi", 4⟩] ∧ (s.hub.get 3).map (·.userId) = some "A"
      ∧ s.handleFriendChatHistory 3 "B|C" = some s'
      ∧ (3, .friendChatHistory "B|C" [⟨"m1", "A|B", "p1", "hi", 4⟩]) ∈ s'.dmOut := by
  let next := Machine.watchNext (step : DmHub → DmEvent → Option DmHub) noteSent
  let leaked : DmHub × List StoredDm → Bool := fun q =>
    q.2 = [⟨"m1", "A|B", "C", "hi", 4⟩] && (q.1.hub.get 3).map (·.userId) = some "A"
      && (q.1.handleFriendChatHistory 3 "B|C").any fun t =>
        (3, .friendChatHistory "B|C" [⟨"m1", "A|B", "p1", "hi", 4⟩]) ∈ t.dmOut
  obtain ⟨w, hreach, hw⟩ := @reach_of_replay plainSys 2 twoPairs
    (fun w => (Machine.follow next (opened w.hub, []) [writes 1 "C" "hi"]).any leaked)
    (by decide +kernel)
  obtain ⟨⟨s, sent⟩, hrun, hleaked⟩ := (Option.any_eq_true _ _).mp hw
  simp only [leaked, Bool.and_eq_true, decide_eq_true_eq] at hleaked
  obtain ⟨⟨hsent, hasker⟩, hreply⟩ := hleaked
  obtain ⟨s', hs', hout⟩ := (Option.any_eq_true _ _).mp hreply
  have hstart : (dmMachine.watch [] noteSent).start (opened w.hub, []) :=
    ⟨(rfl : (opened w.hub).dms = ∅), rfl⟩
  exact ⟨w, hreach, s, sent, s', hrun,
    Machine.follow_reach (M := dmMachine.watch [] noteSent)
      (Machine.watchNext_step fun _ _ _ h => h) _ (.start hstart) hrun,
    hsent, hasker, hs', of_decide_eq_true hout⟩

end DmHub

end Ruletka
