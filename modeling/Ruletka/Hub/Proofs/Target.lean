/-
When a text names one user.

# The live connections

A text that is no online user id and no friend code is compared with the live
connections, in the order of a hash map, and the first that fits answers.
Every connection that fits is first in some order, so the answer is one
answer exactly when all that fit are connections of one user.

# What fits

The whole peer id, the whole short id, and either of text and peer id as an
end of the other. A text that ends in a whole peer id is what a federated id
looks like; the other way around any text fits that happens to be the end of
somebody's peer id.
-/
import Ruletka.Hub.Run

namespace Ruletka

namespace IterOrder

variable {α : Type} [DecidableEq α]

/-- An order with one element in front, where it occurs. -/
def firstly (a : α) (o : IterOrder α) : IterOrder α where
  run s := if a ∈ s then a :: (o.run s).erase a else o.run s
  mem_run s b := by
    split_ifs with ha
    · rw [List.mem_cons, (o.nodup_run s).mem_erase_iff, o.mem_run]
      by_cases hb : b = a
      · simp [hb, ha]
      · simp [hb]
    · exact o.mem_run s b
  nodup_run s := by
    split_ifs with ha
    · exact List.nodup_cons.mpr ⟨(o.nodup_run s).not_mem_erase, (o.nodup_run s).erase a⟩
    · exact o.nodup_run s

theorem find_firstly {a : α} {s : Finset α} (ha : a ∈ s) (o : IterOrder α) {p : α → Bool}
    (hp : p a = true) : ((firstly a o).run s).find? p = some a := by
  change (if a ∈ s then a :: (o.run s).erase a else o.run s).find? p = some a
  rw [if_pos ha, List.find?_cons_of_pos hp]

end IterOrder

open Text

/-- The text is the connection's own: its peer id, its short id, or an id from another
hub that ends in its peer id. -/
def Client.NamedBy (c : Client) (t : String) : Prop :=
  c.peerId = t ∨ c.shortId = t ∨ (c.peerId ≠ "" ∧ hasSuffix t c.peerId = true)

namespace SimpleHub

variable {h : SimpleHub} {t : String}

-- ==================================================================== the live match

/-- The comparison of `resolve_target_user_id` with a live connection. -/
def fits (h : SimpleHub) (t : String) (id : ConnId) : Bool :=
  match h.get id with
  | none => false
  | some c =>
      c.userId ≠ "" && (c.peerId = t || c.shortId = t || hasSuffix c.peerId t
        || hasSuffix t c.peerId)

/-- The text is empty, an online user id or a friend code. -/
def Settled (h : SimpleHub) (t : String) : Prop :=
  t = "" ∨ (h.byUser.get? t).isSome = true
    ∨ ((h.codeIndex.get? (upper t)).filter (· ≠ "")).isSome = true

instance (h : SimpleHub) (t : String) : Decidable (h.Settled t) :=
  inferInstanceAs (Decidable (_ ∨ _ ∨ _))

/-- The live connection that a text is answered through. -/
def answeredBy (h : SimpleHub) (env : Env) (raw : String) : Option ConnId :=
  if h.Settled (trim raw) then none
  else (env.mapOrder.run h.clients.keys).find? (h.fits (trim raw))

/-- A settled text is looked up without the connections. -/
theorem resolve_of_settled (hset : h.Settled (trim t)) (env env' : Env) :
    h.resolveTargetUserId env t = h.resolveTargetUserId env' t := by
  unfold resolveTargetUserId
  dsimp only
  rcases hset with hempty | hby | hcode
  · rw [if_pos hempty, if_pos hempty]
  · rw [if_pos hby, if_pos hby]
  · obtain ⟨uid, huid⟩ := Option.isSome_iff_exists.mp hcode
    rw [huid]

/-- What the search over the connections finds is the user of the first that fits. -/
theorem findSome_eq (h : SimpleHub) (t : String) (l : List ConnId) :
    l.findSome? (fun id =>
        match h.get id with
        | none => none
        | some c =>
            if c.userId = "" then none
            else if c.peerId = t || c.shortId = t || hasSuffix c.peerId t
                || hasSuffix t c.peerId then some c.userId
            else none)
      = (l.find? (h.fits t)).bind fun id => (h.get id).map Client.userId := by
  induction l with
  | nil => rfl
  | cons id l ih =>
      rw [List.findSome?_cons]
      cases hfit : h.fits t id with
      | true =>
          rw [List.find?_cons_of_pos hfit]
          unfold fits at hfit
          cases hc : h.get id with
          | none =>
              rw [hc] at hfit
              cases hfit
          | some c =>
              rw [hc] at hfit
              obtain ⟨hname, hmatch⟩ := Bool.and_eq_true_iff.mp hfit
              simp only [of_decide_eq_true hname, if_false, hmatch, if_true, Option.bind_some, hc,
                Option.map_some]
      | false =>
          rw [List.find?_cons_of_neg (by simp [hfit]), ← ih]
          unfold fits at hfit
          cases hc : h.get id with
          | none => rfl
          | some c =>
              rw [hc] at hfit
              dsimp only
              by_cases hname : c.userId = ""
              · rw [if_pos hname]
              · have hmatch := (Bool.and_eq_false_iff.mp hfit).resolve_left (by simp [hname])
                rw [if_neg hname, hmatch]
                rfl

/-- A text that is not settled, answered through a connection or as an offline id. -/
theorem resolve_of_not_settled (hset : ¬ h.Settled (trim t)) (env : Env) :
    h.resolveTargetUserId env t
      = (((h.answeredBy env t).bind fun id => (h.get id).map Client.userId).or
          (if 16 ≤ (trim t).utf8ByteSize then some (trim t) else none)) := by
  have hset' := hset
  unfold Settled at hset'
  push Not at hset'
  obtain ⟨hempty, hby, hcode⟩ := hset'
  unfold resolveTargetUserId
  dsimp only
  rw [if_neg hempty, if_neg hby, Option.not_isSome_iff_eq_none.mp hcode]
  dsimp only
  rw [answeredBy, if_neg hset, ← findSome_eq]
  split
  · next hlive => exact (congrArg (Option.or · _) hlive).symm
  · next hlive => exact (congrArg (Option.or · _) hlive).symm

theorem fits_client {id : ConnId} (hfit : h.fits t id = true) :
    ∃ c, h.get id = some c ∧ id ∈ h.clients.keys := by
  unfold fits at hfit
  cases hc : h.get id with
  | none =>
      rw [hc] at hfit
      cases hfit
  | some c => exact ⟨c, rfl, (Table.mem_keys_iff _ _).mpr (by rw [← get, hc]; rfl)⟩

-- ==================================================================== the condition

/-- The order of the connections does not matter, and the one that answers was named. -/
structure Unambiguous (h : SimpleHub) (raw : String) : Prop where
  single : ∀ env env', h.resolveTargetUserId env raw = h.resolveTargetUserId env' raw
  named : ∀ env id c, h.answeredBy env raw = some id → h.get id = some c →
    c.NamedBy (trim raw)

/-- The text ends no peer id but one it names, and fits the connections of one user. -/
structure Distinct (h : SimpleHub) (t : String) : Prop where
  own : ∀ id c, h.get id = some c → c.userId ≠ "" →
    hasSuffix c.peerId t = true ∨ hasSuffix t c.peerId = true → c.NamedBy t
  one : ∀ id id' c c', h.fits t id = true → h.fits t id' = true → h.get id = some c →
    h.get id' = some c' → c.userId = c'.userId

/-- Any connection that fits answers in some order. -/
theorem answers_firstly (hset : ¬ h.Settled (trim t)) {id : ConnId}
    (hfit : h.fits (trim t) id = true) (env : Env) :
    h.answeredBy { env with mapOrder := env.mapOrder.firstly id } t = some id := by
  obtain ⟨-, -, hmem⟩ := fits_client hfit
  rw [answeredBy, if_neg hset]
  exact env.mapOrder.find_firstly hmem hfit

/-- **Resolution**: one answer, by the whole name of the connection, exactly for the texts
that need no connection and for those that fit one user by name. -/
theorem unambiguous_iff (h : SimpleHub) (raw : String) :
    h.Unambiguous raw ↔ h.Settled (trim raw) ∨ h.Distinct (trim raw) := by
  constructor
  · intro hun
    by_cases hset : h.Settled (trim raw)
    · exact .inl hset
    refine .inr ⟨fun id c hc hname hend => ?_, fun id id' c c' hfit hfit' hc hc' => ?_⟩
    · have hfit : h.fits (trim raw) id = true := by
        unfold fits
        rw [hc]
        rcases hend with hend | hend <;> simp [hname, hend]
      exact hun.named _ id c (answers_firstly hset hfit (plainEnv 0)) hc
    · have hsingle := hun.single
        { plainEnv 0 with mapOrder := (plainEnv 0).mapOrder.firstly id }
        { plainEnv 0 with mapOrder := (plainEnv 0).mapOrder.firstly id' }
      rw [resolve_of_not_settled hset, resolve_of_not_settled hset,
        answers_firstly hset hfit (plainEnv 0), answers_firstly hset hfit' (plainEnv 0),
        Option.bind_some, Option.bind_some, hc, hc'] at hsingle
      exact Option.some.inj hsingle
  · rintro (hset | hdist)
    · refine ⟨resolve_of_settled hset, fun env id c hans => ?_⟩
      rw [answeredBy, if_pos hset] at hans
      cases hans
    by_cases hset : h.Settled (trim raw)
    · refine ⟨resolve_of_settled hset, fun env id c hans => ?_⟩
      rw [answeredBy, if_pos hset] at hans
      cases hans
    have hfound : ∀ env id, h.answeredBy env raw = some id → h.fits (trim raw) id = true := by
      intro env id hans
      rw [answeredBy, if_neg hset] at hans
      exact List.find?_some hans
    refine ⟨fun env env' => ?_, fun env id c hans hc => ?_⟩
    · rw [resolve_of_not_settled hset, resolve_of_not_settled hset]
      have hboth : ∀ e e' : Env, h.answeredBy e raw = none → h.answeredBy e' raw = none := by
        intro e e' hnone
        rw [answeredBy, if_neg hset, List.find?_eq_none] at hnone ⊢
        intro id hid
        exact hnone id ((e.mapOrder.mem_run _ _).mpr ((e'.mapOrder.mem_run _ _).mp hid))
      cases hans : h.answeredBy env raw with
      | none => rw [hboth env env' hans]
      | some id =>
          cases hans' : h.answeredBy env' raw with
          | none => rw [hboth env' env hans'] at hans; cases hans
          | some id' =>
              obtain ⟨c, hc, -⟩ := fits_client (hfound env id hans)
              obtain ⟨c', hc', -⟩ := fits_client (hfound env' id' hans')
              rw [Option.bind_some, Option.bind_some, hc, hc', Option.map_some, Option.map_some,
                hdist.one id id' c c' (hfound env id hans) (hfound env' id' hans') hc hc']
    · have hfit := hfound env id hans
      unfold fits at hfit
      rw [hc] at hfit
      simp only [ne_eq, decide_not, Bool.and_eq_true, Bool.not_eq_true', decide_eq_false_iff_not,
        Bool.or_eq_true, decide_eq_true_eq] at hfit
      obtain ⟨hname, ((hpeer | hshort) | hend) | hend⟩ := hfit
      · exact .inl hpeer
      · exact .inr (.inl hshort)
      · exact hdist.own id c hc hname (.inl hend)
      · exact hdist.own id c hc hname (.inr hend)

/-- A connection number in 32 digits. -/
def hexOf (id : ConnId) : String :=
  String.ofList (List.replicate 30 '0' ++ [hexDigit (id / 16 % 16), hexDigit (id % 16)])

/-- A hub whose peer ids are as long as the source's. -/
def hexSys : Sys := { plainSys with peerIdHex := hexOf }

/-- Two strangers whose peer ids end in the same digit. -/
def twoStrangers : List Input :=
  script [(0, .connect 1 "203.0.113.1"), (0, .connect 17 "198.51.100.2")]

/-- That digit alone is one or the other of them. -/
theorem digit_names_either : ∃ w, (hubMachine hexSys).Reach w ∧ ∃ env,
    w.hub.resolveTargetUserId (plainEnv 0) "1" = some "u1"
      ∧ w.hub.resolveTargetUserId env "1" = some "u17" := by
  let late : Env := { plainEnv 0 with mapOrder := IterOrder.increasing.firstly 17 }
  let p : World → Bool := fun w =>
    w.hub.resolveTargetUserId (plainEnv 0) "1" = some "u1"
      && w.hub.resolveTargetUserId late "1" = some "u17"
  have hreplay : (replay hexSys 10 twoStrangers).any p = true := by decide +kernel
  obtain ⟨w, hreach, hp⟩ := reach_of_replay hreplay
  simp only [p, Bool.and_eq_true, decide_eq_true_eq] at hp
  exact ⟨w, hreach, late, hp.1, hp.2⟩

end SimpleHub

end Ruletka
