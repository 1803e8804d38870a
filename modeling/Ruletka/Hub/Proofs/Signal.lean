/-
Where signals go.

A signal without a target, or with one that names nobody, goes to the
session of its sender. One that names a connection goes there, in the
session or not: a call of `handle_signal` that names a stranger `Strays`,
and a run keeps its signals within the sessions exactly as long as none of
its calls does.
-/
import Ruletka.Hub.Run
import Ruletka.Hub.Proofs.Books

namespace Ruletka

namespace SimpleHub

variable {h k : SimpleHub} {env : Env}

/-- `y` is in the session of `x`. -/
def InSession (h : SimpleHub) (x y : ConnId) : Prop :=
  y ∈ h.peersOf x ∨ h.partnerOf x = some y ∨ h.friendCallOf x = some y

instance (h : SimpleHub) (x y : ConnId) : Decidable (h.InSession x y) :=
  inferInstanceAs (Decidable (_ ∨ _ ∨ _))

/-- In a stranger match or a friend call. -/
def isLive (h : SimpleHub) (x : ConnId) : Bool :=
  h.phaseOf x = some .matched || h.phaseOf x = some .friendCall

/-- Neither too large nor an offer that comes too soon. -/
def acceptsSignal (h : SimpleHub) (env : Env) (x : ConnId) (kind payload toPeer : String) :
    Bool :=
  kind.utf8ByteSize ≤ maxSignalKind && payload.utf8ByteSize ≤ maxSignalBytes
    && !(kind = "offer" && h.offerDropped env x (h.signalPairKey env toPeer))

-- ============================================================ the SDP times

/-- What routing reads of the records is the same. -/
structure SameRoutes (h k : SimpleHub) : Prop where
  keys : k.clients.keys = h.clients.keys
  fedByClient : k.fedByClient = h.fedByClient
  out : k.out = h.out
  /-- the same connections, with the same ids and sessions -/
  record : ∀ y, (k.get y).map (fun c => (c.peerId, c.shortId, c.phase, c.sessionPeers, c.partner))
    = (h.get y).map fun c => (c.peerId, c.shortId, c.phase, c.sessionPeers, c.partner)

theorem sameRoutes_modify (x : ConnId) (f : Client → Client)
    (hf : ∀ c, (f c).peerId = c.peerId ∧ (f c).shortId = c.shortId ∧ (f c).phase = c.phase
      ∧ (f c).sessionPeers = c.sessionPeers ∧ (f c).partner = c.partner) :
    h.SameRoutes (h.modify x f) where
  keys := by
    ext y
    rw [Table.mem_keys_iff, Table.mem_keys_iff]
    show ((h.modify x f).get y).isSome ↔ (h.get y).isSome
    rw [get_modify]
    split
    · rw [Option.isSome_map]
    · rfl
  fedByClient := rfl
  out := rfl
  record y := by
    rw [get_modify]
    split
    · cases h.get y with
      | none => rfl
      | some c =>
          obtain ⟨h₁, h₂, h₃, h₄, h₅⟩ := hf c
          simp only [Option.map_some, h₁, h₂, h₃, h₄, h₅]
    · rfl

/-- Noting the time of an offer or an answer changes no route. -/
theorem sameRoutes_noteSdp (x : ConnId) (kind key : String) :
    h.SameRoutes (h.noteSdp env x kind key) := by
  unfold noteSdp
  split
  · exact sameRoutes_modify x _ fun c => ⟨rfl, rfl, rfl, rfl, rfl⟩
  · split
    · exact sameRoutes_modify x _ fun c => ⟨rfl, rfl, rfl, rfl, rfl⟩
    · exact ⟨rfl, rfl, rfl, fun y => rfl⟩

namespace SameRoutes

theorem has_eq (hs : h.SameRoutes k) (y : ConnId) : k.has y = h.has y := by
  have hy := congrArg Option.isSome (hs.record y)
  rw [Option.isSome_map, Option.isSome_map] at hy
  exact hy

theorem namedBy_eq (hs : h.SameRoutes k) (s : String) : k.namedBy env s = h.namedBy env s := by
  unfold namedBy
  rw [hs.keys]
  congr 1
  funext y
  have hy := hs.record y
  cases hk : k.get y with
  | none =>
      rw [hk, eq_comm, Option.map_none, Option.map_eq_none_iff] at hy
      rw [hy]
  | some c' =>
      rw [hk, eq_comm, Option.map_some, Option.map_eq_some_iff] at hy
      obtain ⟨c, hc, heq⟩ := hy
      simp only [Prod.mk.injEq] at heq
      simp only [hc, Option.any_some, heq.1, heq.2.1]

theorem signalIsFederated_eq (hs : h.SameRoutes k) (x : ConnId) (s : String) :
    k.signalIsFederated x s = h.signalIsFederated x s := by
  unfold signalIsFederated
  rw [hs.fedByClient]

/-- A record and the one it was before. -/
theorem get_some (hs : h.SameRoutes k) {x : ConnId} {c : Client} (hc : h.get x = some c) :
    ∃ c', k.get x = some c' ∧ c'.phase = c.phase ∧ c'.sessionPeers = c.sessionPeers
      ∧ c'.partner = c.partner := by
  have hx := hs.record x
  rw [hc, Option.map_some, Option.map_eq_some_iff] at hx
  obtain ⟨c', hc', heq⟩ := hx
  simp only [Prod.mk.injEq] at heq
  exact ⟨c', hc', heq.2.2.1, heq.2.2.2.1, heq.2.2.2.2⟩

end SameRoutes

-- =============================================================== one call

/-- The named connection, else the session of the sender. -/
def routes (h : SimpleHub) (env : Env) (x : ConnId) (toPeer : String) : List ConnId :=
  match h.get x with
  | some c => h.signalTargets env x c toPeer
  | none => []

theorem SameRoutes.signalTargets_eq (hs : h.SameRoutes k) {x : ConnId} {c c' : Client}
    (hp : c'.sessionPeers = c.sessionPeers) (hq : c'.partner = c.partner) (s : String) :
    k.signalTargets env x c' s = h.signalTargets env x c s := by
  unfold signalTargets
  rw [hs.namedBy_eq, hp, hq]

/-- A connection that is there has the name that finds it. -/
theorem has_of_namedBy {s : String} {y : ConnId} (hy : h.namedBy env s = some y) :
    h.has y = true := by
  have hmem := List.mem_of_find?_eq_some hy
  rw [IterOrder.mem_run, Table.mem_keys_iff] at hmem
  exact hmem

/-- A target is the named connection, or one of the session. -/
theorem mem_signalTargets {x y : ConnId} {c : Client} {s : String} (hc : h.get x = some c)
    (hy : y ∈ h.signalTargets env x c s) :
    (s ≠ "" ∧ h.namedBy env s = some y) ∨ h.InSession x y := by
  have hsession : y ∈ (if ((env.peerOrder x).run c.sessionPeers).isEmpty then c.partner.toList
      else (env.peerOrder x).run c.sessionPeers) → h.InSession x y := by
    intro hy
    split at hy
    · exact Or.inr (Or.inl (by rw [partnerOf, hc]; exact Option.mem_toList.mp hy))
    · exact Or.inl (by rw [peersOf, hc]; exact ((env.peerOrder x).mem_run _ _).mp hy)
  unfold signalTargets at hy
  dsimp only at hy
  by_cases hs : s = ""
  · rw [if_pos hs, List.isEmpty_nil, if_pos rfl] at hy
    exact Or.inr (hsession hy)
  · rw [if_neg hs] at hy
    cases hn : h.namedBy env s with
    | none =>
        rw [hn] at hy
        exact Or.inr (hsession hy)
    | some z =>
        rw [hn] at hy
        exact Or.inl ⟨hs, by rw [List.mem_singleton.mp hy]⟩

theorem signalTargets_of_namedBy {x y : ConnId} {c : Client} {s : String} (hs : s ≠ "")
    (hy : h.namedBy env s = some y) : h.signalTargets env x c s = [y] := by
  unfold signalTargets
  rw [if_neg hs, hy]
  rfl

/-- Sending to several: the connections that are there get the message. -/
theorem out_foldl_send (m : ServerMsg) (l : List ConnId) :
    (l.foldl (fun h t => h.send t m) h).out
      = h.out ++ (l.filter fun t => h.has t).map fun t => (t, m) := by
  induction l generalizing h with
  | nil => simp
  | cons t l ih =>
      have hsend : (h.send t m).out = h.out ++ if h.has t then [(t, m)] else [] := rfl
      have hhas : ∀ y, (h.send t m).has y = h.has y := fun y => rfl
      rw [List.foldl_cons, ih, hsend]
      simp only [hhas, List.filter_cons, List.append_assoc]
      split
      · rfl
      · rfl

end SimpleHub

/-- One call of `handle_signal`. -/
structure SignalCall where
  hub : SimpleHub
  env : Env
  sender : ConnId
  kind : String
  payload : String
  toPeer : String

namespace SignalCall

open SimpleHub

/-- The hub after the call. -/
def after (c : SignalCall) : SimpleHub :=
  c.hub.handleSignal c.env c.sender c.kind c.payload c.toPeer

/-- The call hands `y` a `Signal`. -/
def Delivers (c : SignalCall) (y : ConnId) : Prop :=
  ∃ author kind payload fromPeer,
    (y, ServerMsg.signal author kind payload fromPeer) ∈ c.after.out.drop c.hub.out.length

/-- Let in, and routed among the local connections of a live sender. -/
def Local (c : SignalCall) : Prop :=
  c.hub.acceptsSignal c.env c.sender c.kind c.payload c.toPeer = true
    ∧ c.hub.signalIsFederated c.sender c.toPeer = false ∧ c.hub.isLive c.sender = true

/-- The target of a local signal names a connection outside the session of
its sender. -/
def Strays (c : SignalCall) : Prop :=
  c.Local ∧ c.toPeer ≠ ""
    ∧ ∃ y, c.hub.namedBy c.env c.toPeer = some y ∧ ¬ c.hub.InSession c.sender y

/-- Everybody handed a `Signal` is in the session of its sender. -/
def Confined (c : SignalCall) : Prop := ∀ y, c.Delivers y → c.hub.InSession c.sender y

/-- What a call sends when it delivers nothing. -/
theorem not_delivers_of_out {c : SignalCall} {y : ConnId} {ms : List (ConnId × ServerMsg)}
    (hout : c.after.out = c.hub.out ++ ms) (hms : ∀ m ∈ ms, ∃ x e, m = (x, .error e)) :
    ¬ c.Delivers y := by
  rintro ⟨author, kind, payload, fromPeer, hm⟩
  rw [hout, List.drop_left] at hm
  obtain ⟨x, e, he⟩ := hms _ hm
  cases he

theorem not_delivers_sendError {c : SignalCall} {y x : ConnId} {e : String} {k : SimpleHub}
    (hk : k.out = c.hub.out) (hafter : c.after = k.sendError x e) : ¬ c.Delivers y := by
  refine @not_delivers_of_out c y (if k.has x then [(x, .error e)] else []) ?_ ?_
  · rw [hafter, ← hk]
    rfl
  · intro m hm
    split at hm
    · exact ⟨x, e, List.mem_singleton.mp hm⟩
    · cases hm

theorem not_delivers_quiet {c : SignalCall} {y : ConnId} (hafter : c.after.out = c.hub.out) :
    ¬ c.Delivers y :=
  @not_delivers_of_out c y [] (by rw [hafter, List.append_nil]) (by simp)

/-- The hub once the times of the call are noted. -/
def noted (c : SignalCall) : SimpleHub :=
  c.hub.noteSdp c.env c.sender c.kind (c.hub.signalPairKey c.env c.toPeer)

theorem sameRoutes_noted (c : SignalCall) : c.hub.SameRoutes c.noted :=
  sameRoutes_noteSdp c.sender c.kind _

/-- A signal that is not let in reaches nobody. -/
theorem not_delivers_of_refused {c : SignalCall} {y : ConnId}
    (hc : c.hub.acceptsSignal c.env c.sender c.kind c.payload c.toPeer = false) :
    ¬ c.Delivers y := by
  by_cases hbig : (maxSignalKind < c.kind.utf8ByteSize
      || maxSignalBytes < c.payload.utf8ByteSize : Bool) = true
  · exact not_delivers_sendError rfl (if_pos hbig)
  · refine not_delivers_quiet (congrArg SimpleHub.out ?_)
    have hdrop : (c.kind = "offer" && c.hub.offerDropped c.env c.sender
        (c.hub.signalPairKey c.env c.toPeer) : Bool) = true := by
      by_contra hno
      simp only [Bool.or_eq_true, decide_eq_true_eq, not_or, not_lt] at hbig
      rw [acceptsSignal, Bool.eq_false_iff.mpr hno, decide_eq_true hbig.1,
        decide_eq_true hbig.2] at hc
      cases hc
    exact (if_neg hbig).trans (if_pos hdrop)

/-- A signal that is let in takes one of the two paths. -/
theorem after_of_accepted {c : SignalCall}
    (hc : c.hub.acceptsSignal c.env c.sender c.kind c.payload c.toPeer = true) :
    c.after = if c.hub.signalIsFederated c.sender c.toPeer
      then c.noted.relaySignal c.sender c.kind c.payload c.toPeer
      else c.noted.deliverSignal c.env c.sender c.kind c.payload c.toPeer := by
  rw [acceptsSignal, Bool.and_eq_true, Bool.and_eq_true, decide_eq_true_eq, decide_eq_true_eq,
    Bool.not_eq_true'] at hc
  obtain ⟨⟨hkind, hpayload⟩, hdrop⟩ := hc
  have hbig : ¬ (maxSignalKind < c.kind.utf8ByteSize
      || maxSignalBytes < c.payload.utf8ByteSize : Bool) = true := by
    simp only [Bool.or_eq_true, decide_eq_true_eq, not_or, not_lt]
    exact ⟨hkind, hpayload⟩
  rw [← c.sameRoutes_noted.signalIsFederated_eq]
  exact (if_neg hbig).trans (if_neg (Bool.eq_false_iff.mp hdrop))

/-- A federated signal reaches no local connection. -/
theorem not_delivers_of_federated {c : SignalCall} {y : ConnId}
    (hafter : c.after = c.noted.relaySignal c.sender c.kind c.payload c.toPeer) :
    ¬ c.Delivers y := by
  have hout := c.sameRoutes_noted.out
  unfold relaySignal at hafter
  split at hafter
  · exact not_delivers_sendError hout hafter
  · split at hafter
    · exact not_delivers_quiet (by rw [hafter, hout])
    · exact not_delivers_quiet (by rw [hafter]; exact hout)

theorem isLive_eq {h : SimpleHub} {x : ConnId} {r : Client} (hr : h.get x = some r) :
    h.isLive x = (r.phase = .matched || r.phase = .friendCall : Bool) := by
  unfold isLive phaseOf
  rw [hr]
  simp only [Option.map_some, Option.some.injEq]

/-- A local signal reaches the targets that are there, if its sender is live. -/
theorem delivers_local {c : SignalCall} {y : ConnId}
    (hafter : c.after = c.noted.deliverSignal c.env c.sender c.kind c.payload c.toPeer) :
    c.Delivers y ↔ c.hub.isLive c.sender = true ∧ c.hub.has y = true
      ∧ y ∈ c.hub.routes c.env c.sender c.toPeer := by
  have hs := c.sameRoutes_noted
  cases hr : c.hub.get c.sender with
  | none =>
      have hk : c.noted.get c.sender = none := by
        rw [← Option.not_isSome_iff_eq_none]
        have hhas := hs.has_eq c.sender
        rw [has, has, hr] at hhas
        rw [hhas]
        exact Bool.false_ne_true
      rw [deliverSignal, hk] at hafter
      refine iff_of_false (not_delivers_sendError hs.out hafter) ?_
      rintro ⟨hlive, -⟩
      rw [isLive, phaseOf, hr] at hlive
      cases hlive
  | some r =>
      obtain ⟨r', hr', hphase, hpeers, hpartner⟩ := hs.get_some hr
      have htargets : c.noted.signalTargets c.env c.sender r' c.toPeer
          = c.hub.routes c.env c.sender c.toPeer := by
        rw [hs.signalTargets_eq hpeers hpartner, routes, hr]
      rw [deliverSignal, hr'] at hafter
      dsimp only at hafter
      rw [htargets, hphase] at hafter
      rw [isLive_eq hr]
      split at hafter
      · next hlive =>
        rw [hlive]
        split at hafter
        · next hempty =>
          refine iff_of_false (not_delivers_sendError hs.out hafter) ?_
          rw [List.isEmpty_iff.mp hempty]
          exact fun hy => List.not_mem_nil hy.2.2
        · unfold Delivers
          rw [hafter, out_foldl_send, hs.out, List.drop_left]
          simp only [List.mem_map, List.mem_filter, Prod.mk.injEq, hs.has_eq]
          constructor
          · rintro ⟨a, k, p, f, t, ⟨ht, hhas⟩, rfl, -⟩
            exact ⟨trivial, hhas, ht⟩
          · rintro ⟨-, hhas, ht⟩
            exact ⟨_, _, _, _, y, ⟨ht, hhas⟩, rfl, rfl⟩
      · next hidle =>
        exact iff_of_false (not_delivers_sendError hs.out hafter) fun hy => hidle hy.1

/-- **Spec of a call**: a local signal reaches the targets that are there,
and no other signal reaches anybody. -/
theorem delivers_iff (c : SignalCall) (y : ConnId) :
    c.Delivers y ↔ c.Local ∧ c.hub.has y = true
      ∧ y ∈ c.hub.routes c.env c.sender c.toPeer := by
  unfold Local
  by_cases hc : c.hub.acceptsSignal c.env c.sender c.kind c.payload c.toPeer = true
  · have hafter := after_of_accepted hc
    split at hafter
    · next hf =>
      refine iff_of_false (not_delivers_of_federated hafter) fun hy => ?_
      rw [hf] at hy
      exact Bool.false_ne_true hy.1.2.1.symm
    · next hf =>
      rw [delivers_local hafter]
      simp only [hc, Bool.eq_false_iff.mpr hf, true_and]
  · exact iff_of_false (not_delivers_of_refused (Bool.eq_false_iff.mpr hc)) fun hy => hc hy.1.1

/-- A call is confined unless it strays. -/
theorem confined_iff (c : SignalCall) : c.Confined ↔ ¬ c.Strays := by
  constructor
  · rintro hc ⟨hlocal, hto, y, hy, hno⟩
    refine hno (hc y ((c.delivers_iff y).mpr ⟨hlocal, has_of_namedBy hy, ?_⟩))
    obtain ⟨r, hr⟩ : ∃ r, c.hub.get c.sender = some r := by
      have hlive := hlocal.2.2
      unfold isLive phaseOf at hlive
      cases hr : c.hub.get c.sender with
      | none =>
          rw [hr] at hlive
          cases hlive
      | some r => exact ⟨r, rfl⟩
    rw [routes, hr]
    dsimp only
    rw [signalTargets_of_namedBy hto hy]
    exact List.mem_singleton_self y
  · intro hno y hy
    obtain ⟨hlocal, -, hroute⟩ := (c.delivers_iff y).mp hy
    unfold routes at hroute
    split at hroute
    · next r hr =>
      rcases mem_signalTargets hr hroute with ⟨hto, hnamed⟩ | hin
      · by_contra hout
        exact hno ⟨hlocal, hto, y, hnamed, hout⟩
      · exact hin
    · cases hroute

end SignalCall

-- ================================================================= the runs

/-- A `Signal` handed to a channel, and the hub of that moment. -/
structure Delivery where
  hub : SimpleHub
  sender : ConnId
  receiver : ConnId

/-- The receiver is in the sender's session. -/
def Delivery.Confined (d : Delivery) : Prop := d.hub.InSession d.sender d.receiver

/-- The calls of `handle_signal` so far, and the signals they delivered. -/
structure SignalHistory where
  calls : Set SignalCall
  deliveries : Set Delivery

/-- The event between these two worlds makes this call. -/
def World.Makes (w : World) (i : Input) (w' : World) (c : SignalCall) : Prop :=
  i.event = .frame c.sender (.signal c.kind c.payload c.toPeer) ∧ i.env = c.env
    ∧ (∃ fuel, w.hub.preamble i.env (SimpleHub.tryMatch i.env (fuel + 1)) c.sender
        (.signal c.kind c.payload c.toPeer) = some (c.hub, true))
    ∧ w'.hub = c.after

namespace SignalHistory

/-- Nothing was signalled. -/
def empty : SignalHistory := ⟨∅, ∅⟩

/-- The history after one more event. -/
def record (g : SignalHistory) (w : World) (i : Input) (w' : World) : SignalHistory where
  calls := g.calls ∪ {c | w.Makes i w' c}
  deliveries := g.deliveries ∪ {d | ∃ c, w.Makes i w' c ∧ c.hub = d.hub ∧ c.sender = d.sender
    ∧ c.Delivers d.receiver}

end SignalHistory

/-- The hub with the history of its signals. -/
def signalMachine (sys : Sys) : Machine (World × SignalHistory) Input :=
  (hubMachine sys).watch .empty SignalHistory.record

variable {sys : Sys}

/-- A signal frame whose handler is reached makes a call. -/
theorem signal_makes {w w' : World} {i : Input} {x : ConnId} {kind payload toPeer : String}
    (hi : i.event = .frame x (.signal kind payload toPeer))
    (hs : (hubMachine sys).step w i w') :
    (∃ c, w.Makes i w' c) ∨ ∃ fuel, w.hub.preamble i.env (SimpleHub.tryMatch i.env (fuel + 1)) x
      (.signal kind payload toPeer) = some (w'.hub, false) := by
  obtain ⟨-, fuel, hub, hstep, rfl⟩ := hs
  rw [hi] at hstep
  obtain ⟨⟨k, go⟩, hk, hstep⟩ := Option.bind_eq_some_iff.mp hstep
  cases go with
  | false =>
      cases hstep
      exact Or.inr ⟨fuel, hk⟩
  | true =>
      cases hstep
      exact Or.inl ⟨⟨k, i.env, x, kind, payload, toPeer⟩, hi, rfl, ⟨fuel, hk⟩, rfl⟩

/-- In every run the signals stay within the sessions of their senders as
long as no call names a connection outside, and no longer. -/
theorem signals_confined_iff {p : World × SignalHistory} (hr : (signalMachine sys).Reach p) :
    (∀ d ∈ p.2.deliveries, d.Confined) ↔ ∀ c ∈ p.2.calls, ¬ c.Strays := by
  refine hr.invariant (I := fun p => (∀ d ∈ p.2.deliveries, d.Confined) ↔
    ∀ c ∈ p.2.calls, ¬ c.Strays) ?_ ?_
  · rintro ⟨w, g⟩ ⟨-, rfl⟩
    exact iff_of_true (fun _ hd => hd.elim) fun _ hc => hc.elim
  · rintro ⟨w, g⟩ i ⟨w', g'⟩ - ih ⟨-, hrecord⟩
    obtain rfl : g' = g.record w i w' := hrecord
    have hnew : (∀ d : Delivery, (∃ c, w.Makes i w' c ∧ c.hub = d.hub ∧ c.sender = d.sender
        ∧ c.Delivers d.receiver) → d.Confined) ↔ ∀ c, w.Makes i w' c → ¬ c.Strays := by
      constructor
      · intro hd c hc
        refine c.confined_iff.mp fun y hy => ?_
        exact hd ⟨c.hub, c.sender, y⟩ ⟨c, hc, rfl, rfl, hy⟩
      · rintro hc ⟨hub, x, y⟩ ⟨c, hmakes, rfl, rfl, hy⟩
        exact c.confined_iff.mpr (hc c hmakes) y hy
    constructor
    · rintro hd c (hc | hc)
      · exact ih.mp (fun d hold => hd d (Or.inl hold)) c hc
      · exact hnew.mp (fun d hnow => hd d (Or.inr hnow)) c hc
    · rintro hc d (hd | hd)
      · exact ih.mpr (fun c hold => hc c (Or.inl hold)) d hd
      · exact hnew.mpr (fun c hnow => hc c (Or.inr hnow)) d hd

/-- A call that may come now does come in some run. -/
theorem reach_call {w : World} (hw : (hubMachine sys).Reach w) {c : SignalCall} {fuel : Nat}
    (ha : w.Admits ⟨c.env, .frame c.sender (.signal c.kind c.payload c.toPeer)⟩)
    (hk : w.hub.preamble c.env (SimpleHub.tryMatch c.env (fuel + 1)) c.sender
      (.signal c.kind c.payload c.toPeer) = some (c.hub, true)) :
    ∃ p, (signalMachine sys).Reach p ∧ c ∈ p.2.calls
      ∧ ∀ y, c.Delivers y → ⟨c.hub, c.sender, y⟩ ∈ p.2.deliveries := by
  obtain ⟨g, hg⟩ : ∃ g, (signalMachine sys).Reach (w, g) := hw.exists_watch
  let i : Input := ⟨c.env, .frame c.sender (.signal c.kind c.payload c.toPeer)⟩
  have hstep : w.hub.step c.env fuel i.event = some c.after := by
    show w.hub.handle c.env _ c.sender _ = _
    unfold SimpleHub.handle
    rw [hk]
    rfl
  have hmakes : w.Makes i (w.after i c.after) c := ⟨rfl, rfl, ⟨fuel, hk⟩, rfl⟩
  exact ⟨(w.after i c.after, g.record w i (w.after i c.after)),
    hg.step ⟨⟨ha, fuel, c.after, hstep, rfl⟩, rfl⟩, Or.inr hmakes,
    fun y hy => Or.inr ⟨c, hmakes, rfl, rfl, hy⟩⟩

/-- Two connections in a match and a third that only looks on. -/
def matchAndOnlooker : List Input := script
  [(0, .connect 1 ""), (0, .connect 2 ""), (0, .connect 3 ""),
    (1, .frame 1 (.spin "")), (1, .frame 2 (.spin ""))]

/-- The first may send an offer, and it is heard. -/
def offers (w : World) (toPeer : String) (test : SignalCall → Bool) : Bool :=
  decide (w.Admits ⟨plainEnv 2, .frame 1 (.signal "offer" "sdp" toPeer)⟩)
    && (w.hub.preamble (plainEnv 2) (SimpleHub.tryMatch (plainEnv 2) 3) 1
      (.signal "offer" "sdp" toPeer)).any fun r =>
        r.2 && test ⟨r.1, plainEnv 2, 1, "offer", "sdp", toPeer⟩

theorem reach_of_offers {toPeer : String} {test : SignalCall → Bool}
    (h : (replay plainSys 2 matchAndOnlooker).any (fun w => offers w toPeer test) = true) :
    ∃ p c, (signalMachine plainSys).Reach p ∧ c ∈ p.2.calls ∧ test c = true
      ∧ ∀ y, c.Delivers y → ⟨c.hub, c.sender, y⟩ ∈ p.2.deliveries := by
  obtain ⟨w, hw, hp⟩ := reach_of_replay h
  unfold offers at hp
  rw [Bool.and_eq_true, decide_eq_true_eq, Option.any_eq_true] at hp
  obtain ⟨ha, ⟨k, go⟩, hk, hp⟩ := hp
  rw [Bool.and_eq_true] at hp
  obtain ⟨rfl, ht⟩ := hp
  let c : SignalCall := ⟨k, plainEnv 2, 1, "offer", "sdp", toPeer⟩
  obtain ⟨p, hp, hc, hd⟩ := @reach_call _ w hw c 2 ha hk
  exact ⟨p, c, hp, hc, ht, hd⟩

/-- The call hands `y` one `Signal`, with the session or outside it. -/
def reaches (y : ConnId) (inside : Bool) (c : SignalCall) : Bool :=
  decide (c.hub.InSession c.sender y) == inside
    && decide (c.after.out.drop c.hub.out.length = [(y, .signal "p1" "offer" "sdp" "p1")])

theorem delivers_of_reaches {y : ConnId} {inside : Bool} {c : SignalCall}
    (h : reaches y inside c = true) :
    c.Delivers y ∧ decide (c.hub.InSession c.sender y) = inside := by
  unfold reaches at h
  rw [Bool.and_eq_true, beq_iff_eq, decide_eq_true_eq] at h
  refine ⟨⟨"p1", "offer", "sdp", "p1", ?_⟩, h.1⟩
  rw [h.2]
  exact List.mem_singleton_self _

/-- An offer to the partner reaches it, within the session. -/
theorem signals_confined_iff_partner : ∃ p, (signalMachine plainSys).Reach p
    ∧ (∃ d ∈ p.2.deliveries, d.receiver = 2)
    ∧ ((∀ d ∈ p.2.deliveries, d.Confined) ↔ ∀ c ∈ p.2.calls, ¬ c.Strays) := by
  obtain ⟨p, c, hp, -, ht, hd⟩ := @reach_of_offers "p2" (reaches 2 true) (by decide +kernel)
  exact ⟨p, hp, ⟨_, hd 2 (delivers_of_reaches ht).1, rfl⟩, signals_confined_iff hp⟩

/-- An offer that names the onlooker reaches the onlooker. -/
theorem signal_to_onlooker : ∃ p, (signalMachine plainSys).Reach p
    ∧ ∃ d ∈ p.2.deliveries, d.receiver = 3 ∧ ¬ d.Confined := by
  obtain ⟨p, c, hp, -, ht, hd⟩ := @reach_of_offers "p3" (reaches 3 false) (by decide +kernel)
  obtain ⟨hy, hout⟩ := delivers_of_reaches ht
  have hno : ¬ c.hub.InSession c.sender 3 := of_decide_eq_false hout
  exact ⟨p, hp, ⟨c.hub, c.sender, 3⟩, hd 3 hy, rfl, hno⟩

end Ruletka
