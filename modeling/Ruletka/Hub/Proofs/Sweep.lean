/-
The sweep of expired holds, unrolled.

`try_match` sweeps before it matches, the sweep removes clients, and every
removal calls `try_match` again. Unrolled, the first expired connection of
the sweep is removed, the nested call sweeps all the others, and the rest of
the outer sweep meets connections that are gone. One shape escapes this: a
connection whose hold ran out while it is the third of a linked pair calls
`try_match` before it is erased, so the nested sweep starts over at the very
same connection.

`tryMatch_induct` is the rule every invariant of the hub uses: what a
removal without that call preserves, and what the pairing loop preserves on
a hub without expired holds, `try_match` preserves.
-/
import Ruletka.Hub.Proofs.Books

namespace Ruletka

namespace SimpleHub

variable (h : SimpleHub) (env : Env)

-- ============================================================ expired holds

/-- The connections whose hold has run out. -/
def expired : Finset ConnId := h.connsWhere (Client.holdExpired env)

variable {h env}

theorem has_iff {x : ConnId} : h.has x = true ↔ ∃ c, h.get x = some c :=
  Option.isSome_iff_exists

theorem mem_connsWhere {p : Client → Bool} {x : ConnId} :
    x ∈ h.connsWhere p ↔ ∃ c, h.get x = some c ∧ p c = true := by
  unfold connsWhere
  rw [Finset.mem_filter, Table.mem_keys_iff, Option.any_eq_true]
  constructor
  · rintro ⟨-, c, hc, hp⟩
    exact ⟨c, hc, hp⟩
  · rintro ⟨c, hc, hp⟩
    exact ⟨Option.isSome_iff_exists.mpr ⟨c, hc⟩, c, hc, hp⟩

theorem mem_expired {x : ConnId} :
    x ∈ h.expired env ↔ ∃ c, h.get x = some c ∧ c.holdExpired env = true :=
  mem_connsWhere

/-- Expiry is read off the books. -/
theorem mem_expired_books {x : ConnId} :
    x ∈ h.expired env ↔
      ∃ g, h.books.badge x = some g ∧ g.wsHoldUntil.any (· ≤ env.now) = true := by
  rw [mem_expired]
  constructor
  · rintro ⟨c, hc, he⟩
    exact ⟨c.badge, by simp [books, hc], he⟩
  · rintro ⟨g, hg, he⟩
    obtain ⟨c, hc, rfl⟩ := Option.map_eq_some_iff.mp hg
    exact ⟨c, hc, he⟩

theorem expired_congr {h' : SimpleHub} (hb : h'.books = h.books) :
    h'.expired env = h.expired env := by
  ext x
  rw [mem_expired_books, mem_expired_books, hb]

/-- Presence is read off the books. -/
theorem has_books {x : ConnId} : h.has x = (h.books.badge x).isSome := by
  simp [has, books]

theorem has_congr {h' : SimpleHub} (hb : h'.books = h.books) (x : ConnId) :
    h'.has x = h.has x := by
  rw [has_books, has_books, hb]

-- ==================================================== the third of a pair

variable (h env) in
/-- The connection is matched without a party mate, and its two session
peers are there and linked: `leave_keep_remaining_pair` calls `try_match`
before the leaver is gone. -/
def linkedThird (x : ConnId) : Bool :=
  (h.get x).any fun c =>
    c.phase = .matched && c.partyWith.isNone && c.sessionPeers.card = 2
      && decide (∀ a ∈ c.sessionPeers, h.has a)
      && decide (∃ a ∈ c.sessionPeers, ∃ b ∈ c.sessionPeers,
        a ≠ b ∧ h.partyWithOf a = some b)

/-- Two listed members and no more: the listing of a pair. -/
theorem run_eq_pair {o : IterOrder ConnId} {s : Finset ConnId} {a b : ConnId}
    (hr : o.run s = [a, b]) : a ≠ b ∧ s = {a, b} := by
  have hn := o.nodup_run s
  rw [hr] at hn
  refine ⟨by simpa using hn, ?_⟩
  ext y
  rw [← o.mem_run, hr]
  simp

theorem linkedThird_of_run {x a b : ConnId} {c : Client} {o : IterOrder ConnId}
    (hc : h.get x = some c) (hp : c.partyWith = none) (hm : c.phase = .matched)
    (hcard : c.sessionPeers.card = 2) (hr : o.run c.sessionPeers = [a, b])
    (hl : h.partyLinked a b = true) (ha : h.has a = true) (hb : h.has b = true) :
    h.linkedThird x = true := by
  obtain ⟨hab, hs⟩ := run_eq_pair hr
  have hlink : ∃ p ∈ c.sessionPeers, ∃ q ∈ c.sessionPeers,
      p ≠ q ∧ h.partyWithOf p = some q := by
    unfold partyLinked at hl
    rw [Bool.or_eq_true, decide_eq_true_eq, decide_eq_true_eq] at hl
    rcases hl with hl | hl
    · exact ⟨a, by simp [hs], b, by simp [hs], hab, hl⟩
    · exact ⟨b, by simp [hs], a, by simp [hs], hab.symm, hl⟩
  have hthere : ∀ p ∈ c.sessionPeers, h.has p = true := by
    intro p hp'
    rw [hs] at hp'
    rcases Finset.mem_insert.mp hp' with rfl | hp'
    · exact ha
    · rw [Finset.mem_singleton.mp hp']
      exact hb
  unfold linkedThird
  rw [hc, Option.any_some]
  simp only [Bool.and_eq_true, decide_eq_true_eq, hm, hp, hcard, Option.isNone_none,
    and_self, true_and]
  exact ⟨hthere, hlink⟩

variable (h env) in
/-- The trio leave of a client that is not a linked third: `try_match` is
not called, so any continuation gives the same. -/
def leaveQuiet (x : ConnId) (detail : String) : SimpleHub × Bool :=
  (h.leaveKeepRemainingPair env some x detail).getD (h, false)

/-- Only a linked third re-enters `try_match` on leaving. -/
theorem leaveKeepRemainingPair_quiet {x : ConnId} (hx : h.linkedThird x = false)
    (tm : SimpleHub → Option SimpleHub) (d : String) :
    h.leaveKeepRemainingPair env tm x d = some (h.leaveQuiet env x d) := by
  unfold leaveQuiet leaveKeepRemainingPair
  cases hc : h.get x with
  | none => rfl
  | some c =>
    dsimp only
    cases hp : c.partyWith with
    | some m =>
        dsimp only
        split
        · rfl
        · rfl
    | none =>
        dsimp only
        split
        case isFalse => rfl
        case isTrue hcm =>
          simp only [Bool.and_eq_true, decide_eq_true_eq] at hcm
          unfold leaveThird
          split
          · next a b hr =>
            split
            · next hl =>
              simp only [Bool.and_eq_true] at hl
              have := linkedThird_of_run hc hp hcm.2 hcm.1 hr hl.1.1 hl.1.2 hl.2
              rw [hx] at this
              cases this
            · split
              · rfl
              · rfl
          · rfl

/-- A linked third leaves by sending its pair to hunt, and re-enters. -/
theorem leaveKeepRemainingPair_hunt {x : ConnId} (hx : h.linkedThird x = true)
    (d : String) :
    ∃ c a b, h.get x = some c ∧ c.sessionPeers = {a, b} ∧ a ≠ b
      ∧ h.partyLinked a b = true ∧ h.has a = true ∧ h.has b = true
      ∧ c.phase = .matched ∧ c.partyWith = none
      ∧ ∀ tm, h.leaveKeepRemainingPair env tm x d
        = (tm (h.huntAgain env x a b)).bind fun h' => some (h', true) := by
  unfold linkedThird at hx
  obtain ⟨c, hc, hx⟩ := (Option.any_eq_true _ _).mp hx
  simp only [Bool.and_eq_true, decide_eq_true_eq, Option.isNone_iff_eq_none] at hx
  obtain ⟨⟨⟨⟨hm, hp⟩, hcard⟩, hthere⟩, p, hpm, q, hqm, hpq, hlink⟩ := hx
  have hlen : ((env.peerOrder x).run c.sessionPeers).length = 2 := by
    rw [IterOrder.length_run, hcard]
  obtain ⟨a, b, hr⟩ := List.length_eq_two.mp hlen
  obtain ⟨hab, hs⟩ := run_eq_pair hr
  have hl : h.partyLinked a b = true := by
    unfold partyLinked
    rw [Bool.or_eq_true, decide_eq_true_eq, decide_eq_true_eq]
    rw [hs, Finset.mem_insert, Finset.mem_singleton] at hpm hqm
    rcases hpm with rfl | rfl
    · rcases hqm with rfl | rfl
      · exact absurd rfl hpq
      · exact Or.inl hlink
    · rcases hqm with rfl | rfl
      · exact Or.inr hlink
      · exact absurd rfl hpq
  have ha : h.has a = true := hthere a (by simp [hs])
  have hb : h.has b = true := hthere b (by simp [hs])
  refine ⟨c, a, b, hc, hs, hab, hl, ha, hb, hm, hp, fun tm => ?_⟩
  unfold leaveKeepRemainingPair
  rw [hc]
  dsimp only
  rw [hp]
  dsimp only
  rw [if_pos (by simp [hcard, hm])]
  unfold leaveThird
  rw [hr]
  dsimp only
  rw [if_pos (by simp [hl, ha, hb])]
  rfl

-- ============================================================== one removal

variable (h env) in
/-- The removal of a client that is not a linked third, up to the matching
that follows it. -/
def expel (x : ConnId) : SimpleHub :=
  match h.get x with
  | none => h.withdraw x
  | some c =>
      let r := (h.withdraw x).leaveQuiet env x "partner left — still chatting"
      r.1.forgetClient env x c r.2

@[simp]
theorem get_clearFedForClient (x y : ConnId) :
    (h.clearFedForClient x).get y = h.get y := by
  unfold clearFedForClient
  split
  · rfl
  · rfl

@[simp]
theorem get_dropFindThird (x y : ConnId) : (h.dropFindThird x).get y = h.get y := by
  unfold dropFindThird
  split
  · split
    · rfl
    · rfl
  · rfl

@[simp]
theorem get_withdraw (x y : ConnId) : (h.withdraw x).get y = h.get y := by
  simp [withdraw]

@[simp]
theorem books_withdraw (x : ConnId) : (h.withdraw x).books = h.books := by
  simp [withdraw]

theorem linkedThird_withdraw (x y : ConnId) :
    (h.withdraw x).linkedThird y = h.linkedThird y := by
  unfold linkedThird has partyWithOf
  simp only [get_withdraw]

/-- An expired hold is not kept. -/
theorem shouldKeepWsHold_expired {x : ConnId} (hx : x ∈ h.expired env) :
    h.shouldKeepWsHold env x = (h, false) := by
  obtain ⟨c, hc, he⟩ := mem_expired.mp hx
  unfold Client.holdExpired at he
  obtain ⟨t, ht, hle⟩ := (Option.any_eq_true _ _).mp he
  unfold shouldKeepWsHold
  rw [hc]
  dsimp only
  rw [ht]
  have : ¬ env.now < t := Nat.not_lt.mpr (of_decide_eq_true hle)
  simp [this]

/-- What the hold decides: it runs or is armed now, or nothing is kept. -/
theorem shouldKeepWsHold_cases (x : ConnId) :
    (h.shouldKeepWsHold env x = (h, true)
        ∧ ∃ c t, h.get x = some c ∧ c.wsHoldUntil = some t ∧ env.now < t)
      ∨ (h.shouldKeepWsHold env x = (h.modify x fun c =>
          { c with wsHoldUntil := some (env.now + secs wsHoldSecs) }, true)
        ∧ ∃ c, h.get x = some c ∧ c.wsHoldUntil = none ∧ h.parkable x c = true)
      ∨ h.shouldKeepWsHold env x = (h, false) := by
  unfold shouldKeepWsHold
  cases hc : h.get x with
  | none => exact Or.inr (Or.inr rfl)
  | some c =>
      dsimp only
      cases hw : c.wsHoldUntil with
      | some t =>
          dsimp only
          by_cases ht : env.now < t
          · exact Or.inl ⟨by simp [ht], c, t, rfl, hw, ht⟩
          · exact Or.inr (Or.inr (by simp [ht]))
      | none =>
          dsimp only
          split
          · next hp => exact Or.inr (Or.inl ⟨rfl, c, rfl, hw, hp⟩)
          · exact Or.inr (Or.inr rfl)

theorem removeClient_expired {x : ConnId} (hx : x ∈ h.expired env)
    (hthird : h.linkedThird x = false) (tm : SimpleHub → Option SimpleHub) :
    h.removeClient env tm x = tm (h.expel env x) := by
  obtain ⟨c, hc, -⟩ := mem_expired.mp hx
  have hthird' : (h.withdraw x).linkedThird x = false := by
    rw [linkedThird_withdraw, hthird]
  unfold removeClient expel
  rw [shouldKeepWsHold_expired hx]
  simp only [get_withdraw, hc, Bool.false_eq_true, if_false]
  rw [leaveKeepRemainingPair_quiet hthird']
  rfl

/-- Removing a connection that is gone only withdraws its name. -/
theorem removeClient_absent {x : ConnId} (hx : h.get x = none)
    (tm : SimpleHub → Option SimpleHub) :
    h.removeClient env tm x = some (h.withdraw x) := by
  unfold removeClient shouldKeepWsHold
  rw [hx]
  simp [hx]

theorem expireHold_absent {x : ConnId} (hx : h.get x = none)
    (tm : SimpleHub → Option SimpleHub) :
    h.expireHold env tm x = some (h.withdraw x) := by
  unfold expireHold
  rw [removeClient_absent hx, partnerOf, hx]
  rfl

/-- The rest of a sweep whose connections are gone. -/
theorem sweep_absent (tm : SimpleHub → Option SimpleHub) (l : List ConnId) :
    ∀ h : SimpleHub, (∀ x ∈ l, h.get x = none) →
      l.foldlM (fun h id => h.expireHold env tm id) h = some (l.foldl withdraw h) := by
  induction l with
  | nil => intro h _; rfl
  | cons x l ih =>
      intro h habs
      rw [List.foldlM_cons, expireHold_absent (habs x (by simp)), List.foldl_cons]
      exact ih (h.withdraw x) fun y hy => by
        rw [get_withdraw]
        exact habs y (by simp [hy])

-- ============================================================== the books

theorem books_leaveKeepRemainingPair {tm : SimpleHub → Option SimpleHub} {x : ConnId}
    {d : String} {r : SimpleHub × Bool}
    (htm : ∀ k k', k.books = h.books → tm k = some k' → k'.books = h.books)
    (hr : h.leaveKeepRemainingPair env tm x d = some r) : r.1.books = h.books := by
  unfold leaveKeepRemainingPair at hr
  split at hr
  · cases hr; rfl
  · split at hr
    · split at hr
      · cases hr
        exact books_leaveMate ..
      · cases hr; rfl
    · split at hr
      · unfold leaveThird at hr
        split at hr
        · split at hr
          · obtain ⟨k, hk, hr⟩ := Option.bind_eq_some_iff.mp hr
            cases hr
            exact htm _ _ (by simp) hk
          · split at hr
            · cases hr
              simp
            · cases hr; rfl
        · cases hr; rfl
      · cases hr; rfl

@[simp]
theorem books_leaveQuiet (x : ConnId) (d : String) :
    (h.leaveQuiet env x d).1.books = h.books := by
  unfold leaveQuiet
  cases hr : h.leaveKeepRemainingPair env some x d with
  | none => rfl
  | some r =>
      refine books_leaveKeepRemainingPair ?_ hr
      intro k k' hk hkk
      cases hkk
      exact hk

theorem books_eraseClient (x : ConnId) :
    (h.eraseClient x).books = h.books.erase x := by
  unfold eraseClient
  cases hx : h.get x with
  | none =>
      have hb : h.books.badge x = none := by simp [books, hx]
      rw [Books.erase_absent hb]
  | some c =>
      have hb : h.books.badge x = some c.badge := by simp [books, hx]
      unfold Books.erase
      rw [hb]
      unfold books
      congr 1
      funext y
      show ((h.clients.del x).get? y).map Client.badge = _
      rw [Table.get?_del]
      split
      · rfl
      · rfl

theorem books_forgetClient (x : ConnId) (c : Client) (kept : Bool) :
    (h.forgetClient env x c kept).books = h.books.erase x := by
  unfold forgetClient
  rw [books_broadcastLobbyInfo, books_eraseClient]
  cases kept
  · simp
  · simp

/-- A removal erases the connection from the books, and nothing else. -/
theorem books_expel (x : ConnId) : (h.expel env x).books = h.books.erase x := by
  unfold expel
  cases hx : h.get x with
  | none =>
      have hb : h.books.badge x = none := by simp [books, hx]
      rw [Books.erase_absent hb]
      exact books_withdraw x
  | some c =>
      dsimp only
      rw [books_forgetClient, books_leaveQuiet, books_withdraw]

theorem expired_expel (x : ConnId) :
    (h.expel env x).expired env = (h.expired env).erase x := by
  ext y
  rw [Finset.mem_erase, mem_expired_books, mem_expired_books, books_expel,
    Books.badge_erase]
  by_cases hy : y = x
  · simp [hy]
  · simp [hy]

-- ==================================================== the sweep, unrolled

/-- Forgiving writes no absent record. -/
theorem get_forgive_absent {y : ConnId} (hy : h.get y = none) (p : Option ConnId) :
    (h.forgive p).get y = none := by
  cases p with
  | none => exact hy
  | some p => simp [forgive, onSome, hy]

/-- `try_match` is a sweep and a run of the pairing loop. -/
theorem tryMatch_succ (n : Nat) :
    tryMatch env (n + 1) h
      = (h.expireWsHolds env (tryMatch env n)).map fun k => k.rematch env := by
  rw [tryMatch]
  cases h.expireWsHolds env (tryMatch env n) with
  | none => rfl
  | some k => rfl

theorem expireWsHolds_eq_self (hnone : h.expired env = ∅)
    (tm : SimpleHub → Option SimpleHub) : h.expireWsHolds env tm = some h := by
  unfold expireWsHolds
  rw [show h.connsWhere (Client.holdExpired env) = ∅ from hnone, IterOrder.run_empty]
  rfl

/-- Without expired holds, `try_match` is the pairing loop. -/
theorem tryMatch_eq_rematch (hnone : h.expired env = ∅) (n : Nat) :
    tryMatch env (n + 1) h = some (h.rematch env) := by
  rw [tryMatch_succ, expireWsHolds_eq_self hnone]
  rfl

/-- With expired holds, the first of them is removed, the nested call does
the rest of the sweep, and the others are gone when their turn comes. -/
theorem expireWsHolds_eq_expel {x : ConnId} {l : List ConnId}
    {tm : SimpleHub → Option SimpleHub}
    (hl : env.mapOrder.run (h.expired env) = x :: l)
    (hthird : h.linkedThird x = false)
    (hrest : ∀ k, tm (h.expel env x) = some k → ∀ y ∈ l, k.get y = none) :
    h.expireWsHolds env tm = (tm (h.expel env x)).map fun k =>
      l.foldl withdraw (k.forgive (h.partnerOf x)) := by
  have hx : x ∈ h.expired env := by
    rw [← env.mapOrder.mem_run, hl]
    exact List.mem_cons_self
  unfold expireWsHolds
  rw [show h.connsWhere (Client.holdExpired env) = h.expired env from rfl, hl,
    List.foldlM_cons]
  unfold expireHold
  rw [removeClient_expired hx hthird]
  cases hk : tm (h.expel env x) with
  | none => rfl
  | some k =>
      have hsweep := @sweep_absent env tm l
        (k.forgive (h.partnerOf x)) fun y hy => get_forgive_absent (hrest k hk y hy) _
      show l.foldlM (fun (h : SimpleHub) id => h.expireHold env tm id)
        (k.forgive (h.partnerOf x)) = _
      rw [hsweep]
      rfl

/-- A linked third at the head of the sweep is met again by the nested
call, for ever. -/
theorem tryMatch_eq_none {x : ConnId} {l : List ConnId}
    (hself : x ∉ h.peersOf x)
    (hl : env.mapOrder.run (h.expired env) = x :: l)
    (hthird : h.linkedThird x = true) (n : Nat) : tryMatch env n h = none := by
  induction n generalizing h with
  | zero => rfl
  | succ n ih =>
      have hx : x ∈ h.expired env := by
        rw [← env.mapOrder.mem_run, hl]
        exact List.mem_cons_self
      have hthird' : (h.withdraw x).linkedThird x = true := by
        rw [linkedThird_withdraw, hthird]
      obtain ⟨c, a, b, hc, hs, hab, hlink, ha, hb, hm, hp, heq⟩ :=
        leaveKeepRemainingPair_hunt hthird'
          "partner left — still chatting"
      rw [get_withdraw] at hc
      have hxa : x ≠ a := by
        rintro rfl
        exact hself (by simp [peersOf, hc, hs])
      have hxb : x ≠ b := by
        rintro rfl
        exact hself (by simp [peersOf, hc, hs])
      -- the nested call starts from the same sweep
      have hbooks : ((h.withdraw x).huntAgain env x a b).books = h.books := by simp
      have hget : ((h.withdraw x).huntAgain env x a b).get x = some c := by
        simp [huntAgain, enqueueParty, notifyPartyBrowseSearching, hxa, hxb, hc]
      have hnext : tryMatch env n ((h.withdraw x).huntAgain env x a b) = none := by
        apply ih
        · simp only [peersOf, hget, Option.map_some, Option.getD_some]
          simpa [peersOf, hc] using hself
        · rw [expired_congr hbooks, hl]
        · have hpa : ((h.withdraw x).huntAgain env x a b).partyWithOf a = some b := by
            obtain ⟨ca, hca⟩ := has_iff.mp ha
            rw [get_withdraw] at hca
            simp [partyWithOf, huntAgain, enqueueParty, notifyPartyBrowseSearching, hab,
              hca]
          have hthere : ∀ p ∈ c.sessionPeers,
              ((h.withdraw x).huntAgain env x a b).has p = true := by
            intro p hpm
            rw [has_congr hbooks]
            rw [hs, Finset.mem_insert, Finset.mem_singleton] at hpm
            rw [has_congr (books_withdraw x)] at ha hb
            rcases hpm with rfl | rfl
            · exact ha
            · exact hb
          have hcard : c.sessionPeers.card = 2 := by rw [hs, Finset.card_pair hab]
          unfold linkedThird
          rw [hget, Option.any_some]
          simp only [Bool.and_eq_true, decide_eq_true_eq, hm, hp, hcard,
            Option.isNone_none, and_self, true_and]
          exact ⟨hthere, a, by simp [hs], b, by simp [hs], hab, hpa⟩
      rw [tryMatch]
      unfold expireWsHolds
      rw [show h.connsWhere (Client.holdExpired env) = h.expired env from rfl, hl,
        List.foldlM_cons]
      unfold expireHold removeClient
      rw [shouldKeepWsHold_expired hx]
      simp only [get_withdraw, hc, Bool.false_eq_true, if_false]
      rw [heq, hnext]
      rfl

theorem expireWsHolds_eq_none {x : ConnId} {l : List ConnId}
    (hself : x ∉ h.peersOf x)
    (hl : env.mapOrder.run (h.expired env) = x :: l)
    (hthird : h.linkedThird x = true) (n : Nat) :
    h.expireWsHolds env (tryMatch env n) = none := by
  have hnone := tryMatch_eq_none hself hl hthird (n + 1)
  rw [tryMatch_succ, Option.map_eq_none_iff] at hnone
  exact hnone

/-- Every badge of the left hub is in the right one: nobody was renamed,
parked or added. -/
def Sheds (h' h : SimpleHub) : Prop :=
  ∀ y g, h'.books.badge y = some g → h.books.badge y = some g

theorem Sheds.of_books {h' : SimpleHub} (hb : h'.books = h.books) : h'.Sheds h := by
  intro y g hg
  rw [← hb]
  exact hg

theorem Sheds.trans {h₁ h₂ h₃ : SimpleHub} (h12 : h₁.Sheds h₂) (h23 : h₂.Sheds h₃) :
    h₁.Sheds h₃ :=
  fun y g hg => h23 y g (h12 y g hg)

theorem Sheds.expel (x : ConnId) : (h.expel env x).Sheds h := by
  intro y g hg
  rw [books_expel, Books.badge_erase] at hg
  split at hg
  · cases hg
  · exact hg

/-- The connections a sweep still has to visit are gone once the nested
call has swept. -/
theorem Sheds.absent {k : SimpleHub} (hs : k.Sheds h) (hnone : k.expired env = ∅)
    {y : ConnId} (hy : y ∈ h.expired env) : k.get y = none := by
  cases hk : k.get y with
  | none => rfl
  | some c =>
      have hbk : k.books.badge y = some c.badge := by simp [books, hk]
      obtain ⟨g, hg, he⟩ := mem_expired_books.mp hy
      rw [hs y _ hbk] at hg
      injection hg with hg
      have : y ∈ k.expired env := mem_expired_books.mpr ⟨c.badge, hbk, by rw [hg]; exact he⟩
      rw [hnone] at this
      exact absurd this (Finset.notMem_empty y)

theorem books_foldl_withdraw (l : List ConnId) : (l.foldl withdraw h).books = h.books :=
  h.books_foldl withdraw (fun _ x => books_withdraw x) l

section Induction

variable {P : SimpleHub → Prop}

theorem foldl_withdraw_induct
    (hwithdraw : ∀ h x, P h → h.get x = none → P (h.withdraw x)) (l : List ConnId) :
    ∀ h, P h → (∀ y ∈ l, h.get y = none) → P (l.foldl withdraw h) := by
  induction l with
  | nil => exact fun h hP _ => hP
  | cons x l ih =>
      intro h hP habs
      refine ih _ (hwithdraw h x hP (habs x (by simp))) fun y hy => ?_
      rw [get_withdraw]
      exact habs y (by simp [hy])

variable
    (hself : ∀ h x, P h → x ∈ h.expired env → h.linkedThird x = true → x ∉ h.peersOf x)
    (hexpel : ∀ h x, P h → x ∈ h.expired env → h.linkedThird x = false →
      P (h.expel env x))
    (hforgive : ∀ h p, P h → P (h.forgive p))
    (hwithdraw : ∀ h x, P h → h.get x = none → P (h.withdraw x))

include hself hexpel hforgive hwithdraw

/-- One level of the sweep: what the nested `try_match` does, the sweep
does. -/
theorem expireWsHolds_level {n : Nat}
    (ih : ∀ k k' : SimpleHub, P k → tryMatch env n k = some k' →
      P k' ∧ k'.expired env = ∅ ∧ k'.Sheds k)
    {h h' : SimpleHub} (hP : P h) (hr : h.expireWsHolds env (tryMatch env n) = some h') :
    P h' ∧ h'.expired env = ∅ ∧ h'.Sheds h := by
  cases hl : env.mapOrder.run (h.expired env) with
  | nil =>
      have hnone : h.expired env = ∅ := by
        ext y
        rw [← env.mapOrder.mem_run, hl]
        simp
      rw [expireWsHolds_eq_self hnone] at hr
      cases hr
      exact ⟨hP, hnone, Sheds.of_books rfl⟩
  | cons x l =>
      have hx : x ∈ h.expired env := by
        rw [← env.mapOrder.mem_run, hl]
        exact List.mem_cons_self
      have hthird : h.linkedThird x = false := by
        rw [Bool.eq_false_iff]
        intro ht
        rw [expireWsHolds_eq_none (hself h x hP hx ht) hl ht] at hr
        cases hr
      have hnodup := env.mapOrder.nodup_run (h.expired env)
      rw [hl] at hnodup
      have hPe := hexpel h x hP hx hthird
      have hrest : ∀ k, tryMatch env n (h.expel env x) = some k →
          ∀ y ∈ l, k.get y = none := by
        intro k hk y hy
        obtain ⟨-, hnone, hsheds⟩ := ih _ _ hPe hk
        refine hsheds.absent hnone ?_
        rw [expired_expel, Finset.mem_erase]
        refine ⟨?_, ?_⟩
        · rintro rfl
          exact (List.nodup_cons.mp hnodup).1 hy
        · rw [← env.mapOrder.mem_run, hl]
          exact List.mem_cons_of_mem x hy
      rw [expireWsHolds_eq_expel hl hthird hrest] at hr
      obtain ⟨k, hk, rfl⟩ := Option.map_eq_some_iff.mp hr
      obtain ⟨hPk, hnone, hsheds⟩ := ih _ _ hPe hk
      have habs : ∀ y ∈ l, (k.forgive (h.partnerOf x)).get y = none :=
        fun y hy => get_forgive_absent (hrest k hk y hy) _
      have hbooks : (l.foldl withdraw (k.forgive (h.partnerOf x))).books = k.books := by
        rw [books_foldl_withdraw, books_forgive]
      refine ⟨foldl_withdraw_induct hwithdraw l _ (hforgive k _ hPk) habs, ?_, ?_⟩
      · rw [expired_congr hbooks, hnone]
      · exact (Sheds.of_books hbooks).trans (hsheds.trans (Sheds.expel x))

variable (hrematch : ∀ h, P h → h.expired env = ∅ → P (h.rematch env))

include hrematch

/-- What survives the removal of an expired connection and a run of the
pairing loop survives `try_match`; and `try_match` leaves no expired hold. -/
theorem tryMatch_induct {n : Nat} {h h' : SimpleHub} (hP : P h)
    (hr : tryMatch env n h = some h') : P h' ∧ h'.expired env = ∅ ∧ h'.Sheds h := by
  induction n generalizing h h' with
  | zero => cases hr
  | succ n ih =>
      rw [tryMatch_succ] at hr
      obtain ⟨k, hk, rfl⟩ := Option.map_eq_some_iff.mp hr
      obtain ⟨hPk, hnone, hsheds⟩ :=
        expireWsHolds_level hself hexpel hforgive hwithdraw (fun _ _ => ih) hP hk
      refine ⟨hrematch k hPk hnone, ?_, ?_⟩
      · rw [expired_congr (books_rematch _ _), hnone]
      · exact (Sheds.of_books (books_rematch _ _)).trans hsheds

end Induction

section Books

variable {Q : Books → Prop}
    (herase : ∀ b x, Q b → (b.badge x).any (fun g => g.wsHoldUntil.any (· ≤ env.now)) →
      Q (b.erase x))

include herase

/-- One turn of the sweep, whatever shape the leaver is in: the nested calls
have swept everybody by the time it is erased. -/
theorem expireHold_books {n : Nat} {x : ConnId}
    (ih : ∀ k k' : SimpleHub, Q k.books → tryMatch env n k = some k' →
      Q k'.books ∧ k'.expired env = ∅ ∧ k'.Sheds k)
    {h k : SimpleHub} (hQ : Q h.books) (hx : x ∈ h.expired env)
    (hk : h.expireHold env (tryMatch env n) x = some k) :
    Q k.books ∧ k.expired env = ∅ ∧ k.Sheds h := by
  unfold expireHold at hk
  obtain ⟨k₁, hk₁, hk⟩ := Option.bind_eq_some_iff.mp hk
  cases hk
  have hfor : ∀ {k₁ : SimpleHub}, Q k₁.books ∧ k₁.expired env = ∅ ∧ k₁.Sheds h →
      Q (k₁.forgive (h.partnerOf x)).books ∧ (k₁.forgive (h.partnerOf x)).expired env = ∅
        ∧ (k₁.forgive (h.partnerOf x)).Sheds h := by
    rintro k₁ ⟨hQ₁, hn₁, hs₁⟩
    have hb := books_forgive k₁ (h.partnerOf x)
    refine ⟨by rw [hb]; exact hQ₁, by rw [expired_congr hb, hn₁], ?_⟩
    exact (Sheds.of_books hb).trans hs₁
  apply hfor
  have hQe : Q (h.books.erase x) := by
    obtain ⟨g, hg, he⟩ := mem_expired_books.mp hx
    exact herase _ x hQ (by rw [hg]; exact he)
  cases hthird : h.linkedThird x with
  | false =>
      rw [removeClient_expired hx hthird] at hk₁
      obtain ⟨hQ₁, hn₁, hs₁⟩ := ih _ _ (by rw [books_expel]; exact hQe) hk₁
      exact ⟨hQ₁, hn₁, hs₁.trans (Sheds.expel x)⟩
  | true =>
      have hthird' : (h.withdraw x).linkedThird x = true := by
        rw [linkedThird_withdraw, hthird]
      obtain ⟨c, a, b, hc, -, -, -, -, -, -, -, heq⟩ :=
        leaveKeepRemainingPair_hunt hthird' "partner left — still chatting"
      unfold removeClient at hk₁
      rw [shouldKeepWsHold_expired hx] at hk₁
      rw [get_withdraw] at hc
      simp only [get_withdraw, hc, Bool.false_eq_true, if_false] at hk₁
      rw [heq] at hk₁
      obtain ⟨r, hr, hk₁⟩ := Option.bind_eq_some_iff.mp hk₁
      obtain ⟨k₂, hk₂, hr⟩ := Option.bind_eq_some_iff.mp hr
      cases hr
      have hb₂ : ((h.withdraw x).huntAgain env x a b).books = h.books := by simp
      obtain ⟨hQ₂, hn₂, hs₂⟩ := ih _ _ (by rw [hb₂]; exact hQ) hk₂
      -- the nested sweep has erased the leaver
      have hgone : k₂.books.badge x = none := by
        have := hs₂.absent hn₂ (y := x) (by rw [expired_congr hb₂]; exact hx)
        simp [books, this]
      have hb₃ : (k₂.forgetClient env x c true).books = k₂.books := by
        rw [books_forgetClient, Books.erase_absent hgone]
      obtain ⟨hQ₁, hn₁, hs₁⟩ := ih _ _ (by rw [hb₃]; exact hQ₂) hk₁
      exact ⟨hQ₁, hn₁, hs₁.trans ((Sheds.of_books hb₃).trans
        (hs₂.trans (Sheds.of_books hb₂)))⟩

/-- The sweep on the books: what the erasure of an expired connection
preserves, whatever shape it left. -/
theorem expireWsHolds_books_level {n : Nat}
    (ih : ∀ k k' : SimpleHub, Q k.books → tryMatch env n k = some k' →
      Q k'.books ∧ k'.expired env = ∅ ∧ k'.Sheds k)
    {h h' : SimpleHub} (hQ : Q h.books)
    (hr : h.expireWsHolds env (tryMatch env n) = some h') :
    Q h'.books ∧ h'.expired env = ∅ ∧ h'.Sheds h := by
  cases hl : env.mapOrder.run (h.expired env) with
  | nil =>
      have hnone : h.expired env = ∅ := by
        ext y
        rw [← env.mapOrder.mem_run, hl]
        simp
      rw [expireWsHolds_eq_self hnone] at hr
      cases hr
      exact ⟨hQ, hnone, Sheds.of_books rfl⟩
  | cons x l =>
      have hmem : ∀ y ∈ x :: l, y ∈ h.expired env := by
        intro y hy
        rwa [← env.mapOrder.mem_run, hl]
      unfold expireWsHolds at hr
      rw [show h.connsWhere (Client.holdExpired env) = h.expired env from rfl, hl,
        List.foldlM_cons] at hr
      obtain ⟨k, hk, hr⟩ := Option.bind_eq_some_iff.mp hr
      obtain ⟨hQk, hnk, hsk⟩ := expireHold_books herase ih hQ (hmem x (by simp)) hk
      rw [sweep_absent (tryMatch env n) l k fun y hy =>
        hsk.absent hnk (hmem y (by simp [hy]))] at hr
      cases hr
      have hb := books_foldl_withdraw (h := k) l
      refine ⟨by rw [hb]; exact hQk, by rw [expired_congr hb, hnk], ?_⟩
      exact (Sheds.of_books hb).trans hsk

theorem tryMatch_books {n : Nat} {h h' : SimpleHub} (hQ : Q h.books)
    (hr : tryMatch env n h = some h') :
    Q h'.books ∧ h'.expired env = ∅ ∧ h'.Sheds h := by
  induction n generalizing h h' with
  | zero => cases hr
  | succ n ih =>
      rw [tryMatch_succ] at hr
      obtain ⟨k, hk, rfl⟩ := Option.map_eq_some_iff.mp hr
      obtain ⟨hQk, hnone, hsheds⟩ :=
        expireWsHolds_books_level herase (fun _ _ => ih) hQ hk
      have hb := books_rematch k env
      refine ⟨by rw [hb]; exact hQk, by rw [expired_congr hb, hnone], ?_⟩
      exact (Sheds.of_books hb).trans hsheds

theorem expireWsHolds_books {n : Nat} {h h' : SimpleHub} (hQ : Q h.books)
    (hr : h.expireWsHolds env (tryMatch env n) = some h') :
    Q h'.books ∧ h'.expired env = ∅ ∧ h'.Sheds h :=
  expireWsHolds_books_level herase (fun _ _ => tryMatch_books herase) hQ hr

/-- A removal on the books: the hold keeps the connection, or it is erased
between two sweeps. -/
theorem removeClient_books {n : Nat} {x : ConnId} (hx : ∀ b, Q b → Q (b.erase x))
    {h k : SimpleHub} (hQ : Q h.books) (hk : h.removeClient env (tryMatch env n) x = some k) :
    h.shouldKeepWsHold env x = (k, true) ∨
      (h.shouldKeepWsHold env x = (h, false) ∧ Q k.books ∧ k.Sheds h
        ∧ (h.has x = true → k.has x = false ∧ k.expired env = ∅)) := by
  unfold removeClient at hk
  have hkeep : (h.shouldKeepWsHold env x).2 = true ∨ h.shouldKeepWsHold env x = (h, false) := by
    rcases shouldKeepWsHold_cases (h := h) x with ⟨hk, -⟩ | ⟨hk, -⟩ | hk
    · exact Or.inl (by rw [hk])
    · exact Or.inl (by rw [hk])
    · exact Or.inr hk
  rcases hkeep with hkeep | hkeep
  · left
    generalize h.shouldKeepWsHold env x = r at hk hkeep ⊢
    obtain ⟨r, kept⟩ := r
    cases hkeep
    cases hk
    rfl
  · right
    refine ⟨hkeep, ?_⟩
    rw [hkeep] at hk
    simp only [get_withdraw, Bool.false_eq_true, if_false] at hk
    have hbw := books_withdraw (h := h) x
    cases hc : h.get x with
    | none =>
        rw [hc] at hk
        cases hk
        refine ⟨by rw [hbw]; exact hQ, Sheds.of_books hbw, fun hx => ?_⟩
        rw [has, hc] at hx
        cases hx
    | some c =>
        rw [hc] at hk
        dsimp only at hk
        obtain ⟨⟨r, kept⟩, hr, hk⟩ := Option.bind_eq_some_iff.mp hk
        dsimp only at hk
        have hstage : Q r.books ∧ r.Sheds h := by
          cases hthird : (h.withdraw x).linkedThird x with
          | false =>
              rw [leaveKeepRemainingPair_quiet hthird] at hr
              have hb : r.books = h.books := by
                have := congrArg (fun p => p.1.books) (Option.some.inj hr)
                rw [← this]
                exact (books_leaveQuiet x _).trans hbw
              exact ⟨by rw [hb]; exact hQ, Sheds.of_books hb⟩
          | true =>
              obtain ⟨-, a, b, -, -, -, -, -, -, -, -, heq⟩ :=
                leaveKeepRemainingPair_hunt hthird
                  "partner left — still chatting"
              rw [heq] at hr
              obtain ⟨k₂, hk₂, hr⟩ := Option.bind_eq_some_iff.mp hr
              cases hr
              have hb₂ : ((h.withdraw x).huntAgain env x a b).books = h.books := by simp
              obtain ⟨hQ₂, -, hs₂⟩ := tryMatch_books herase (by rw [hb₂]; exact hQ) hk₂
              exact ⟨hQ₂, hs₂.trans (Sheds.of_books hb₂)⟩
        have hbf : (r.forgetClient env x c kept).books = r.books.erase x :=
          books_forgetClient x c kept
        obtain ⟨hQk, hnk, hsk⟩ := tryMatch_books herase
          (by rw [hbf]; exact hx _ hstage.1) hk
        have hsf : (r.forgetClient env x c kept).Sheds r := by
          intro y g hg
          rw [hbf, Books.badge_erase] at hg
          split at hg
          · cases hg
          · exact hg
        refine ⟨hQk, hsk.trans (hsf.trans hstage.2), fun _ => ⟨?_, hnk⟩⟩
        rw [has_books, Bool.eq_false_iff]
        intro hthere
        obtain ⟨g, hg⟩ := Option.isSome_iff_exists.mp hthere
        have := hsk x g hg
        rw [hbf, Books.badge_erase, if_pos rfl] at this
        cases this

end Books

end SimpleHub

end Ruletka
