/-
Whose records a lobby takes.

Merging and sweeping invent no record: each one of the outcome was in the
lobby or in a patch, under its own id or under the key it had there. So a
lobby stays authentic as long as the patches are. The contract checks no
claim and no leave mark, and no offer whose signature is all zeros, so the
patches need not be.
-/
import Ruletka.Contract.Proofs.Sweep
import Ruletka.Contract.Proofs.Valid

namespace Ruletka.Contract

-- =================================================================== where records come from

namespace LobbyState

/-- A record of a sweep stands where it stood, or under its own id. -/
structure Swept (s t : LobbyState) : Prop where
  offers : ∀ k, ∀ o ∈ t.offers.get? k, ∃ k', o ∈ s.offers.get? k' ∧ (k = k' ∨ k = o.peerId)
  leaves : ∀ k, ∀ m ∈ t.leaves.get? k, ∃ k', m ∈ s.leaves.get? k' ∧ (k = k' ∨ k = m.peerId)
  claims : ∀ k, ∀ c ∈ t.claims.get? k, ∃ k', c ∈ s.claims.get? k' ∧ (k = k' ∨ k = c.claimId)

variable {s t u : LobbyState}

theorem Swept.trans (h : Swept s t) (h' : Swept t u) : Swept s u where
  offers k o ho := by
    obtain ⟨k₁, ho₁, rfl | hk⟩ := h'.offers k o ho
    · exact h.offers _ o ho₁
    · obtain ⟨k₂, ho₂, -⟩ := h.offers k₁ o ho₁
      exact ⟨k₂, ho₂, .inr hk⟩
  leaves k m hm := by
    obtain ⟨k₁, hm₁, rfl | hk⟩ := h'.leaves k m hm
    · exact h.leaves _ m hm₁
    · obtain ⟨k₂, hm₂, -⟩ := h.leaves k₁ m hm₁
      exact ⟨k₂, hm₂, .inr hk⟩
  claims k c hc := by
    obtain ⟨k₁, hc₁, rfl | hk⟩ := h'.claims k c hc
    · exact h.claims _ c hc₁
    · obtain ⟨k₂, hc₂, -⟩ := h.claims k₁ c hc₁
      exact ⟨k₂, hc₂, .inr hk⟩

theorem mem_retain {V : Type} {t : Table Bytes32 V} {p : Bytes32 → V → Bool} {k : Bytes32} {v : V}
    (h : v ∈ (t.retain p).get? k) : v ∈ t.get? k := by
  rw [Table.get?_retain] at h
  exact (Option.filter_eq_some_iff.mp h).1

theorem swept_sweepOffers (nowMs : Nat) : Swept s (s.sweepOffers nowMs) where
  offers k _ ho := ⟨k, mem_retain ho, .inl rfl⟩
  leaves k _ hm := ⟨k, hm, .inl rfl⟩
  claims k _ hc := ⟨k, hc, .inl rfl⟩

theorem swept_sweepClaims (nowMs : Nat) : Swept s (s.sweepClaims nowMs) where
  offers k _ ho := ⟨k, ho, .inl rfl⟩
  leaves k _ hm := ⟨k, hm, .inl rfl⟩
  claims k _ hc := ⟨k, mem_retain hc, .inl rfl⟩

theorem mem_valuesOf {V : Type} {t : Table Bytes32 V} {v : V} :
    v ∈ valuesOf t ↔ ∃ k, t.get? k = some v := by
  unfold valuesOf
  rw [List.mem_filterMap]
  constructor
  · rintro ⟨k, -, hk⟩
    exact ⟨k, hk⟩
  · rintro ⟨k, hk⟩
    refine ⟨k, ?_, hk⟩
    rw [Finset.mem_sort, Table.mem_keys_iff]
    exact Option.isSome_iff_exists.mpr ⟨v, hk⟩

/-- What a map rebuilt from some of its values holds. -/
theorem mem_rebuilt {V : Type} {t : Table Bytes32 V} {id : V → Bytes32} {r : V → V → Bool}
    {n : Nat} {k : Bytes32} {v : V}
    (h : v ∈ ((((valuesOf t).mergeSort r).take n).foldl
      (fun (t : Table Bytes32 V) v => t.set (id v) v) ∅).get? k) :
    ∃ k', v ∈ t.get? k' ∧ (k = k' ∨ k = id v) := by
  obtain ⟨hkey, hmem⟩ := @Recent.held_some _ _ _ id _ k v h
  have hvals := List.mem_mergeSort.mp (List.mem_of_mem_take hmem)
  obtain ⟨k', hk'⟩ := mem_valuesOf.mp hvals
  exact ⟨k', hk', .inr hkey.symm⟩

theorem swept_capOffers : Swept s s.capOffers := by
  unfold capOffers
  split
  · exact ⟨fun _ _ ho => mem_rebuilt ho, fun k _ hm => ⟨k, hm, .inl rfl⟩,
      fun k _ hc => ⟨k, hc, .inl rfl⟩⟩
  · exact ⟨fun k _ ho => ⟨k, ho, .inl rfl⟩, fun k _ hm => ⟨k, hm, .inl rfl⟩,
      fun k _ hc => ⟨k, hc, .inl rfl⟩⟩

theorem swept_capClaims : Swept s s.capClaims := by
  unfold capClaims
  split
  · exact ⟨fun k _ ho => ⟨k, ho, .inl rfl⟩, fun k _ hm => ⟨k, hm, .inl rfl⟩,
      fun _ _ hc => mem_rebuilt hc⟩
  · exact ⟨fun k _ ho => ⟨k, ho, .inl rfl⟩, fun k _ hm => ⟨k, hm, .inl rfl⟩,
      fun k _ hc => ⟨k, hc, .inl rfl⟩⟩

theorem swept_cleanup (s : LobbyState) : Swept s s.cleanup :=
  (((swept_sweepOffers _).trans (swept_sweepClaims _)).trans swept_capOffers).trans
    swept_capClaims

/-- The sweep leaves the leave marks alone. -/
theorem leaves_cleanup (s : LobbyState) : s.cleanup.leaves = s.leaves := by
  have hoffers : ∀ t : LobbyState, t.capOffers.leaves = t.leaves := by
    intro t
    unfold capOffers
    split
    · rfl
    · rfl
  have hclaims : ∀ t : LobbyState, t.capClaims.leaves = t.leaves := by
    intro t
    unfold capClaims
    split
    · rfl
    · rfl
  unfold cleanup
  rw [hclaims, hoffers]
  rfl

end LobbyState

-- =================================================================== authentic records

namespace Ed25519

variable (ed : Ed25519)

/-- Under its own id, and signed by a key of its peer. -/
def AuthenticOffer (k : PeerId) (o : WaitingOffer) : Prop :=
  k = o.peerId ∧ ed.verifyOffer o = true

def AuthenticLeave (k : PeerId) (m : LeaveMark) : Prop :=
  k = m.peerId ∧ ∃ key, ed.isKey key = true ∧ ed.verifyLeave m key = true

def AuthenticClaim (k : Bytes32) (c : Claim) : Prop :=
  k = c.claimId ∧ c.claimId = ed.computeId c.claimer c.target c.sessionId c.createdMs
    ∧ ∃ key, ed.isKey key = true ∧ ed.verifyClaim c key = true

/-- Every record that the old lobby does not hold in its place is authentic. -/
structure Vouches (old s : LobbyState) : Prop where
  offers : ∀ k, ∀ o ∈ s.offers.get? k, o ∉ old.offers.get? k → ed.AuthenticOffer k o
  leaves : ∀ k, ∀ m ∈ s.leaves.get? k, m ∉ old.leaves.get? k → ed.AuthenticLeave k m
  claims : ∀ k, ∀ c ∈ s.claims.get? k, c ∉ old.claims.get? k → ed.AuthenticClaim k c

/-- What stands in another's place is signed all the same: a cap that stores it
under its own id makes it authentic. -/
structure Filed (s : LobbyState) : Prop where
  offers : ∀ k, ∀ o ∈ s.offers.get? k, k ≠ o.peerId → ed.AuthenticOffer o.peerId o
  claims : ∀ k, ∀ c ∈ s.claims.get? k, k ≠ c.claimId → ed.AuthenticClaim c.claimId c

variable {ed} {old s p : LobbyState}

theorem filed_of_keyed (h : s.Keyed) : ed.Filed s where
  offers k o ho hne := absurd (h.offers k o ho).symm hne
  claims k c hc hne := absurd (h.claims k c hc).symm hne

theorem vouches_self : ed.Vouches old old where
  offers _ _ ho hnew := absurd ho hnew
  leaves _ _ hm hnew := absurd hm hnew
  claims _ _ hc hnew := absurd hc hnew

theorem Vouches.merge (hs : ed.Vouches old s) (hp : ed.Vouches old p) :
    ed.Vouches old (s.merge p) where
  offers k o ho hnew := (LobbyState.mem_mergeBy ho).elim (fun h => hs.offers k o h hnew)
    fun h => hp.offers k o h hnew
  leaves k m hm hnew := (LobbyState.mem_mergeBy hm).elim (fun h => hs.leaves k m h hnew)
    fun h => hp.leaves k m h hnew
  claims k c hc hnew := (LobbyState.mem_mergeBy hc).elim (fun h => hs.claims k c h hnew)
    fun h => hp.claims k c h hnew

/-- What the old lobby vouches for is filed as the old lobby is. -/
theorem Vouches.filed (hs : ed.Vouches old s) (hold : ed.Filed old) : ed.Filed s where
  offers k o ho hne := by
    by_cases hmem : o ∈ old.offers.get? k
    · exact hold.offers k o hmem hne
    · exact absurd (hs.offers k o ho hmem).1 hne
  claims k c hc hne := by
    by_cases hmem : c ∈ old.claims.get? k
    · exact hold.claims k c hmem hne
    · exact absurd (hs.claims k c hc hmem).1 hne

theorem Vouches.cleanup (hold : ed.Filed old) (hs : ed.Vouches old s) :
    ed.Vouches old s.cleanup where
  offers k o ho hnew := by
    obtain ⟨k', ho', hk⟩ := (LobbyState.swept_cleanup s).offers k o ho
    by_cases hkey : k = k'
    · rw [← hkey] at ho'
      exact hs.offers k o ho' hnew
    · obtain rfl := hk.resolve_left hkey
      exact (hs.filed hold).offers k' o ho' (Ne.symm hkey)
  leaves k m hm hnew := hs.leaves k m (LobbyState.leaves_cleanup s ▸ hm) hnew
  claims k c hc hnew := by
    obtain ⟨k', hc', hk⟩ := (LobbyState.swept_cleanup s).claims k c hc
    by_cases hkey : k = k'
    · rw [← hkey] at hc'
      exact hs.claims k c hc' hnew
    · obtain rfl := hk.resolve_left hkey
      exact (hs.filed hold).claims k' c hc' (Ne.symm hkey)

/-- One update, then all of them. -/
theorem Vouches.update (hold : ed.Filed old) (hs : ed.Vouches old s) (hp : ed.Vouches old p) :
    ed.Vouches old (s.update p) := (hs.merge hp).cleanup hold

theorem Vouches.updates {ps : List LobbyState} (hold : ed.Filed old) (hs : ed.Vouches old s)
    (hps : ∀ p ∈ ps, ed.Vouches old p) : ed.Vouches old (ps.foldl LobbyState.update s) := by
  induction ps generalizing s with
  | nil => exact hs
  | cons p ps ih =>
      obtain ⟨hp, hps⟩ := List.forall_mem_cons.mp hps
      exact ih (hs.update hold hp) hps

end Ed25519

theorem readable_of_reads {S : Type} {r : Rules S} {codec : Codec S} {payloads : List Bytes}
    {ps : List S} (hps : r.Reads codec payloads ps) :
    ∀ p ∈ ps, ∃ bytes ∈ payloads, r.decodeState codec bytes = .ok p := by
  induction hps with
  | nil => exact fun _ hp => absurd hp List.not_mem_nil
  | cons hp _ ih =>
      rw [List.forall_mem_cons]
      refine ⟨⟨_, List.mem_cons_self, (Rules.readPatch_ok.mp hp).1⟩, fun p hp' => ?_⟩
      obtain ⟨bytes, hb, hread⟩ := ih p hp'
      exact ⟨bytes, List.mem_cons_of_mem _ hb, hread⟩

-- ================================================================== what is accepted

theorem forM_ok {α : Type} {f : α → Except ContractError Unit} {l : List α} :
    l.forM f = .ok () ↔ ∀ a ∈ l, f a = .ok () := by
  induction l with
  | nil => exact ⟨fun _ _ ha => absurd ha List.not_mem_nil, fun _ => rfl⟩
  | cons a l ih =>
      rw [List.forall_mem_cons, ← ih]
      refine bind_eq_ok_iff.trans ⟨?_, fun ⟨ha, hl⟩ => ⟨(), ha, hl⟩⟩
      rintro ⟨⟨⟩, ha, hl⟩
      exact ⟨ha, hl⟩

/-- A lobby is valid when each of its offers is. -/
theorem validateLobby_ok {ed : Ed25519} {s : LobbyState} :
    validateLobby ed s = .ok ()
      ↔ ∀ k, ∀ o ∈ s.offers.get? k, validateOffer ed o = .ok () := by
  unfold validateLobby
  rw [forM_ok]
  constructor
  · intro h k o ho
    exact h o (LobbyState.mem_valuesOf.mpr ⟨k, ho⟩)
  · intro h o ho
    obtain ⟨k, hk⟩ := LobbyState.mem_valuesOf.mp ho
    exact h k o hk

/-- Updates keep offers valid. -/
theorem valid_update {ed : Ed25519} {s p : LobbyState} (hs : validateLobby ed s = .ok ())
    (hp : validateLobby ed p = .ok ()) : validateLobby ed (s.update p) = .ok () := by
  rw [validateLobby_ok] at hs hp ⊢
  intro k o ho
  obtain ⟨k', ho', -⟩ := (LobbyState.swept_cleanup _).offers k o ho
  exact (LobbyState.mem_mergeBy ho').elim (hs k' o) (hp k' o)

/-- An update merges the leave marks. -/
theorem leaves_update (s p : LobbyState) :
    (s.update p).leaves = s.leaves.mergeBy LeaveMark.beats p.leaves :=
  LobbyState.leaves_cleanup _

-- ==================================================================== a forged leave mark

def prefsFrame : Frame Preferences :=
  (Frame.string.option.pair (Frame.string.list.pair (Frame.bool.pair Frame.bool))).map
    (fun p => ⟨p.1, p.2.1, p.2.2.1, p.2.2.2⟩)
    (fun p => (p.lang, p.tags, p.wantsText, p.wantsVideo)) fun _ => rfl

def bytesFrame : Frame Bytes := Frame.byte.list

def offerFrame : Frame WaitingOffer :=
  (idFrame.pair (bytesFrame.pair (Frame.nat.pair (Frame.nat.pair (prefsFrame.pair
    (idFrame.pair bytesFrame)))))).map
    (fun p => ⟨p.1, p.2.1, p.2.2.1, p.2.2.2.1, p.2.2.2.2.1, p.2.2.2.2.2.1, p.2.2.2.2.2.2⟩)
    (fun o => (o.peerId, o.verifyingKey, o.version, o.heartbeatMs, o.prefs, o.sessionSeed, o.sig))
    fun _ => rfl

def claimFrame : Frame Claim :=
  (idFrame.pair (idFrame.pair (idFrame.pair (idFrame.pair (Frame.nat.pair bytesFrame))))).map
    (fun p => ⟨p.1, p.2.1, p.2.2.1, p.2.2.2.1, p.2.2.2.2.1, p.2.2.2.2.2⟩)
    (fun c => (c.claimId, c.claimer, c.target, c.sessionId, c.createdMs, c.sig)) fun _ => rfl

def leaveFrame : Frame LeaveMark :=
  (idFrame.pair (Frame.nat.pair (Frame.nat.pair bytesFrame))).map
    (fun p => ⟨p.1, p.2.1, p.2.2.1, p.2.2.2⟩)
    (fun m => (m.peerId, m.version, m.leftMs, m.sig)) fun _ => rfl

def configFrame : Frame LobbyConfig :=
  (Frame.nat.pair (Frame.nat.pair (Frame.nat.pair (Frame.nat.pair Frame.nat)))).map
    (fun p => ⟨p.1, p.2.1, p.2.2.1, p.2.2.2.1, p.2.2.2.2⟩)
    (fun c => (c.maxOffers, c.maxClaims, c.offerTtlMs, c.claimTtlMs, c.epochMs)) fun _ => rfl

def lobbyFrame : Frame LobbyState :=
  (configFrame.pair ((Frame.table idFrame leaveFrame).pair ((Frame.table idFrame offerFrame).pair
    (Frame.table idFrame claimFrame)))).map
    (fun p => ⟨p.1, p.2.1, p.2.2.1, p.2.2.2⟩)
    (fun s => (s.config, s.leaves, s.offers, s.claims)) fun _ => rfl

/-- A scheme with one byte to a key: the peer is that byte, and a signature
repeats it. -/
def byteScheme : Ed25519 where
  sha256 bytes := Fin.ofNat _ (bytes.getLastD 0).toNat
  isKey key := key.length = 32
  verify key _ sig := sig = List.replicate 64 (key.getLastD 0)

theorem byteScheme_peerOf {key : Bytes} (hkey : byteScheme.isKey key = true) :
    byteScheme.peerOf key = Fin.ofNat _ (key.getLastD 0).toNat := by
  have hne : key ≠ [] := by
    rintro rfl
    cases hkey
  change Fin.ofNat _ ((text _ ++ key).getLastD 0).toNat = _
  rw [List.getLastD_eq_getLast?, List.getLastD_eq_getLast?, List.getLast?_append_of_ne_nil _ hne]

/-- The offer of the peer 1, signed. -/
def signedOffer : WaitingOffer :=
  ⟨1, List.replicate 32 1, 1, 1000, ⟨none, [], true, false⟩, 5, List.replicate 64 1⟩

/-- A leave mark for the peer 1 that nobody signed. -/
def forgedLeave : LeaveMark := ⟨1, 9, 2000, List.replicate 64 0⟩

def leaving (m : LeaveMark) : LobbyState := (LobbyState.new .default).upsertLeave m

theorem valid_leaving (ed : Ed25519) (m : LeaveMark) : validateLobby ed (leaving m) = .ok () :=
  validateLobby_ok.mpr fun _ _ ho => nomatch ho

/-- The offer of the peer 2, signed. -/
def secondOffer : WaitingOffer :=
  ⟨2, List.replicate 32 2, 1, 1200, ⟨none, [], true, false⟩, 6, List.replicate 64 2⟩

theorem verify_signedOffer : byteScheme.verifyOffer signedOffer = true := by
  unfold Ed25519.verifyOffer
  rw [byteScheme_peerOf rfl]
  rfl

theorem verify_secondOffer : byteScheme.verifyOffer secondOffer = true := by
  unfold Ed25519.verifyOffer
  rw [byteScheme_peerOf rfl]
  rfl

/-- A signed offer may be sent. -/
theorem valid_offering {ed : Ed25519} {o : WaitingOffer} (ho : ed.verifyOffer o = true) :
    validateLobby ed (LobbyState.offering o) = .ok () := by
  rw [validateLobby_ok]
  intro k o' ho'
  obtain ⟨-, rfl⟩ := LobbyState.mem_offering ho'
  have hkey : o'.verifyingKey.length = 32 := by
    unfold Ed25519.verifyOffer at ho
    simp only [Bool.and_eq_true, decide_eq_true_eq] at ho
    exact ho.1.1.1
  unfold validateOffer
  rw [ho, hkey]
  simp

end Ruletka.Contract
