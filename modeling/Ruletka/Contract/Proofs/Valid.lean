/-
What an update makes of a state.

An update that is accepted folds the patches of its payloads, each of them
checked, into the state, and what comes out is checked again; so both
contracts would keep what they check. The session contract without
parameters checks nothing on update, but validates states: there it keeps
its word exactly for what nobody wrote in.
-/
import Ruletka.Contract.Update
import Ruletka.Lib.Frame

namespace Ruletka.Contract

theorem bind_eq_ok_iff {ε α β : Type} {x : Except ε α} {f : α → Except ε β} {b : β} :
    (x >>= f) = .ok b ↔ ∃ a, x = .ok a ∧ f a = .ok b := by
  cases x with
  | error e =>
      constructor
      · intro h
        cases h
      · rintro ⟨a, h, -⟩
        cases h
  | ok a =>
      constructor
      · intro h
        exact ⟨a, rfl, h⟩
      · rintro ⟨a', h, hf⟩
        cases h
        exact hf

-- ======================================================================= updates

/-- The patches of an update, in the order they are merged. -/
def UpdateData.payloads : UpdateData → List Bytes
  | .state bytes | .delta bytes => [bytes]
  | .stateAndDelta bytes patch => [bytes, patch]
  | .related => []

namespace Rules

variable {S : Type} {r : Rules S} {codec : Codec S}

theorem decodeState_encode (s : S) : r.decodeState codec (codec.encode s) = .ok s := by
  unfold decodeState
  rw [if_neg (codec.encode_ne_nil s), codec.decode_encode]
  rfl

theorem readPatch_ok {bytes : Bytes} {p : S} :
    r.readPatch codec bytes = .ok p
      ↔ r.decodeState codec bytes = .ok p ∧ r.check p = .ok () := by
  unfold readPatch
  rw [bind_eq_ok_iff]
  constructor
  · rintro ⟨s, hs, h⟩
    obtain ⟨⟨⟩, hcheck, hp⟩ := bind_eq_ok_iff.mp h
    cases hp
    exact ⟨hs, hcheck⟩
  · rintro ⟨hs, hcheck⟩
    exact ⟨p, hs, bind_eq_ok_iff.mpr ⟨(), hcheck, rfl⟩⟩

/-- The payloads, read and checked. -/
def Reads (r : Rules S) (codec : Codec S) (payloads : List Bytes) (patches : List S) : Prop :=
  List.Forall₂ (fun bytes p => r.readPatch codec bytes = .ok p) payloads patches

theorem applyUpdate_ok {s s' : S} {u : UpdateData} :
    r.applyUpdate codec s u = .ok s'
      ↔ ∃ ps, r.Reads codec u.payloads ps ∧ s' = ps.foldl r.join s := by
  have one : ∀ bytes, (∃ p, r.readPatch codec bytes = .ok p
        ∧ (pure (r.join s p) : Except ContractError S) = .ok s')
      ↔ ∃ ps, r.Reads codec [bytes] ps ∧ s' = ps.foldl r.join s := by
    intro bytes
    constructor
    · rintro ⟨p, hp, h⟩
      cases h
      exact ⟨[p], .cons hp .nil, rfl⟩
    · rintro ⟨ps, hps, rfl⟩
      obtain ⟨p, ps, hp, hnil, rfl⟩ := List.forall₂_cons_left_iff.mp hps
      cases hnil
      exact ⟨p, hp, rfl⟩
  cases u with
  | state bytes => exact bind_eq_ok_iff.trans (one bytes)
  | delta bytes => exact bind_eq_ok_iff.trans (one bytes)
  | stateAndDelta bytes delta =>
      refine bind_eq_ok_iff.trans ?_
      constructor
      · rintro ⟨p, hp, h⟩
        obtain ⟨q, hq, h⟩ := bind_eq_ok_iff.mp h
        cases h
        exact ⟨[p, q], .cons hp (.cons hq .nil), rfl⟩
      · rintro ⟨ps, hps, rfl⟩
        obtain ⟨p, qs, hp, hqs, rfl⟩ := List.forall₂_cons_left_iff.mp hps
        obtain ⟨q, rs, hq, hnil, rfl⟩ := List.forall₂_cons_left_iff.mp hqs
        cases hnil
        exact ⟨p, hp, bind_eq_ok_iff.mpr ⟨q, hq, rfl⟩⟩
  | related =>
      constructor
      · intro h
        cases h
        exact ⟨[], .nil, rfl⟩
      · rintro ⟨ps, hps, rfl⟩
        cases hps
        rfl

theorem applyUpdates_ok {s s' : S} {data : List UpdateData} :
    data.foldlM (r.applyUpdate codec) s = .ok s'
      ↔ ∃ ps, r.Reads codec (data.flatMap UpdateData.payloads) ps ∧ s' = ps.foldl r.join s := by
  induction data generalizing s with
  | nil =>
      constructor
      · intro h
        cases h
        exact ⟨[], .nil, rfl⟩
      · rintro ⟨ps, hps, rfl⟩
        cases hps
        rfl
  | cons u data ih =>
      rw [List.foldlM_cons, bind_eq_ok_iff, List.flatMap_cons]
      constructor
      · rintro ⟨s₁, hu, h⟩
        obtain ⟨ps, hps, rfl⟩ := applyUpdate_ok.mp hu
        obtain ⟨qs, hqs, rfl⟩ := ih.mp h
        exact ⟨ps ++ qs, List.rel_append hps hqs, (List.foldl_append ..).symm⟩
      · rintro ⟨ps, hps, rfl⟩
        have hqs := (List.forall₂_take_append ps _ _ hps.flip).flip
        have hrest := (List.forall₂_drop_append ps _ _ hps.flip).flip
        refine ⟨_, applyUpdate_ok.mpr ⟨_, hqs, rfl⟩, ih.mpr ⟨_, hrest, ?_⟩⟩
        rw [← List.foldl_append, List.take_append_drop]

/-- **Update**: the checked patches are folded into the state, and the outcome
is checked. -/
theorem updateState_ok {state : Bytes} {data : List UpdateData} {bytes : Bytes} :
    r.updateState codec state data = .ok bytes
      ↔ ∃ s ps, r.decodeState codec state = .ok s
        ∧ r.Reads codec (data.flatMap UpdateData.payloads) ps
        ∧ r.check (ps.foldl r.join s) = .ok () ∧ bytes = codec.encode (ps.foldl r.join s) := by
  unfold updateState
  rw [bind_eq_ok_iff]
  constructor
  · rintro ⟨s, hs, h⟩
    obtain ⟨s', hs', h⟩ := bind_eq_ok_iff.mp h
    obtain ⟨⟨⟩, hcheck, h⟩ := bind_eq_ok_iff.mp h
    obtain ⟨ps, hps, rfl⟩ := applyUpdates_ok.mp hs'
    cases h
    exact ⟨s, ps, hs, hps, hcheck, rfl⟩
  · rintro ⟨s, ps, hs, hps, hcheck, rfl⟩
    exact ⟨s, hs, bind_eq_ok_iff.mpr ⟨_, applyUpdates_ok.mpr ⟨ps, hps, rfl⟩,
      bind_eq_ok_iff.mpr ⟨(), hcheck, rfl⟩⟩⟩

/-- An update by one delta. -/
theorem updateState_delta {state payload : Bytes} {s p : S}
    (hs : r.decodeState codec state = .ok s) (hp : r.readPatch codec payload = .ok p)
    (hcheck : r.check (r.join s p) = .ok ()) :
    r.updateState codec state [.delta payload] = .ok (codec.encode (r.join s p)) :=
  updateState_ok.mpr ⟨s, [p], hs, .cons hp .nil, hcheck, rfl⟩

theorem validateState_ok {state : Bytes} :
    r.validateState codec state = .ok ()
      ↔ ∃ s, r.decodeState codec state = .ok s ∧ r.check s = .ok () := bind_eq_ok_iff

/-- What an accepted update leaves passes the check. -/
theorem valid_of_update {state : Bytes} {data : List UpdateData} {bytes : Bytes}
    (h : r.updateState codec state data = .ok bytes) :
    ∃ s, r.decodeState codec bytes = .ok s ∧ r.check s = .ok () := by
  obtain ⟨s, ps, -, -, hcheck, rfl⟩ := updateState_ok.mp h
  exact ⟨_, decodeState_encode _, hcheck⟩

end Rules

-- ======================================================================= session

theorem ChatMessage.separates : Recent.Separates ChatMessage.key ChatMessage.rank := by
  intro v w h
  obtain ⟨-, h⟩ := Prod.mk.inj (toLex_inj.mp h)
  obtain ⟨hseq, hauthor⟩ := Prod.mk.inj (toLex_inj.mp h)
  unfold key
  rw [hseq, hauthor]

theorem SignalMessage.separates : Recent.Separates SignalMessage.key SignalMessage.rank := by
  intro v w h
  obtain ⟨-, h⟩ := Prod.mk.inj (toLex_inj.mp h)
  obtain ⟨hseq, hauthor⟩ := Prod.mk.inj (toLex_inj.mp h)
  unfold key
  rw [hseq, hauthor]

namespace SessionState

/-- Nobody wrote anything. -/
def Silent (s : SessionState) : Prop := s.messages = [] ∧ s.signals = []

theorem silent_merge {a b : SessionState} : (a.merge b).Silent ↔ a.Silent ∧ b.Silent := by
  unfold Silent merge
  simp only
  rw [Recent.newest_eq_nil_iff ChatMessage.separates (by omega),
    Recent.newest_eq_nil_iff SignalMessage.separates (by omega), List.append_eq_nil_iff,
    List.append_eq_nil_iff]
  exact and_and_and_comm

theorem silent_foldl {s : SessionState} {ps : List SessionState} :
    (ps.foldl merge s).Silent ↔ s.Silent ∧ ∀ p ∈ ps, p.Silent := by
  induction ps generalizing s with
  | nil => simp
  | cons p ps ih => rw [List.foldl_cons, ih, silent_merge, List.forall_mem_cons, and_assoc]

end SessionState

theorem validateSession_ok {params : SessionParams} {state : SessionState}
    (h : validateSession params state = .ok ()) :
    (∀ m ∈ state.messages, params.allows m.author = true)
      ∧ ∀ s ∈ state.signals, params.allows s.author = true := by
  unfold validateSession at h
  split at h
  case isTrue => cases h
  case isFalse =>
    split at h
    case isTrue => cases h
    case isFalse hm =>
      split at h
      case isTrue => cases h
      case isFalse hs =>
        rw [Bool.not_eq_true, List.any_eq_false] at hm hs
        exact ⟨fun m hmem => by simpa using hm m hmem, fun s hmem => by simpa using hs s hmem⟩

namespace Session

variable (paramsCodec : Codec SessionParams) (codec : Codec SessionState)

/-- The parameters allow an author; none allow nobody. -/
def Allows (parameters : Bytes) (author : PeerId) : Prop :=
  parameters ≠ [] ∧ ∃ p, decodeParams paramsCodec parameters = .ok p ∧ p.allows author = true

/-- Everyone who wrote was allowed to. -/
def Authored (parameters : Bytes) (s : SessionState) : Prop :=
  (∀ m ∈ s.messages, Allows paramsCodec parameters m.author)
    ∧ ∀ m ∈ s.signals, Allows paramsCodec parameters m.author

/-- What an update returns is valid under the same parameters, and written by
those they allow. -/
def StaysValid (parameters state : Bytes) (data : List UpdateData) : Prop :=
  ∀ bytes, updateState paramsCodec codec parameters state data = .ok bytes →
    validateState paramsCodec codec parameters bytes = .ok ()
      ∧ ∀ s, (sessionRules none).decodeState codec bytes = .ok s →
        Authored paramsCodec parameters s

/-- The state of some bytes. -/
def Reading (bytes : Bytes) (s : SessionState) : Prop :=
  (sessionRules none).decodeState codec bytes = .ok s

/-- Parameters are given, or some bytes are no state, or nobody wrote anything
in the state or the update. -/
def Guarded (parameters state : Bytes) (data : List UpdateData) : Prop :=
  parameters ≠ []
    ∨ (∃ bytes ∈ state :: data.flatMap UpdateData.payloads, ∀ s, ¬ Reading codec bytes s)
    ∨ ∀ bytes ∈ state :: data.flatMap UpdateData.payloads, ∀ s, Reading codec bytes s → s.Silent

variable {paramsCodec codec}

theorem reads_iff_reading {bytes : Bytes} {s : SessionState} :
    (sessionRules none).readPatch codec bytes = .ok s ↔ Reading codec bytes s := by
  rw [Rules.readPatch_ok]
  exact and_iff_left rfl

theorem stays_valid_of_params {parameters state : Bytes} {data : List UpdateData}
    (hp : parameters ≠ []) : StaysValid paramsCodec codec parameters state data := by
  intro bytes h
  unfold updateState at h
  rw [if_neg hp] at h
  obtain ⟨p, hparams, h⟩ := bind_eq_ok_iff.mp h
  obtain ⟨s, hs, hcheck⟩ := Rules.valid_of_update h
  constructor
  · unfold validateState
    rw [if_neg hp]
    exact bind_eq_ok_iff.mpr ⟨p, hparams, Rules.validateState_ok.mpr ⟨s, hs, hcheck⟩⟩
  · intro s' hs'
    cases hs.symm.trans hs'
    obtain ⟨hm, hsig⟩ := validateSession_ok hcheck
    exact ⟨fun m hmem => ⟨hp, p, hparams, hm m hmem⟩,
      fun m hmem => ⟨hp, p, hparams, hsig m hmem⟩⟩

theorem authored_bootstrap {s : SessionState} : Authored paramsCodec [] s ↔ s.Silent := by
  unfold Authored Allows SessionState.Silent
  simp [List.eq_nil_iff_forall_not_mem]

/-- Without parameters an update stays valid exactly when its outcome is
silent. -/
theorem stays_valid_bootstrap {state : Bytes} {data : List UpdateData} {s : SessionState}
    {ps : List SessionState} (hs : Reading codec state s)
    (hps : (sessionRules none).Reads codec (data.flatMap UpdateData.payloads) ps) :
    StaysValid paramsCodec codec [] state data ↔ s.Silent ∧ ∀ p ∈ ps, p.Silent := by
  rw [← SessionState.silent_foldl]
  have hupdate : updateState paramsCodec codec [] state data
      = .ok (codec.encode (ps.foldl SessionState.merge s)) :=
    Rules.updateState_ok.mpr ⟨s, ps, hs, hps, rfl, rfl⟩
  have hread : Reading codec (codec.encode (ps.foldl SessionState.merge s)) _ :=
    Rules.decodeState_encode _
  constructor
  · intro h
    exact authored_bootstrap.mp ((h _ hupdate).2 _ hread)
  · intro hsil bytes h
    cases hupdate.symm.trans h
    refine ⟨?_, fun s' hs' => ?_⟩
    · unfold validateState
      rw [if_pos rfl]
      exact bind_eq_ok_iff.mpr ⟨_, hread, if_pos hsil.1⟩
    · cases hread.symm.trans hs'
      exact authored_bootstrap.mpr hsil

theorem exists_reads {payloads : List Bytes}
    (h : ∀ bytes ∈ payloads, ∃ s, Reading codec bytes s) :
    ∃ ps, (sessionRules none).Reads codec payloads ps := by
  induction payloads with
  | nil => exact ⟨[], .nil⟩
  | cons bytes payloads ih =>
      obtain ⟨hbytes, hrest⟩ := List.forall_mem_cons.mp h
      obtain ⟨p, hp⟩ := hbytes
      obtain ⟨ps, hps⟩ := ih hrest
      exact ⟨p :: ps, .cons (reads_iff_reading.mpr hp) hps⟩

theorem reading_of_reads {payloads : List Bytes} {ps : List SessionState}
    (hps : (sessionRules none).Reads codec payloads ps) :
    ∀ bytes ∈ payloads, ∃ s, Reading codec bytes s := by
  induction hps with
  | nil => exact fun _ hb => absurd hb List.not_mem_nil
  | cons hp _ ih => exact List.forall_mem_cons.mpr ⟨⟨_, reads_iff_reading.mp hp⟩, ih⟩

theorem silent_reads {payloads : List Bytes} {ps : List SessionState}
    (hps : (sessionRules none).Reads codec payloads ps) :
    (∀ p ∈ ps, p.Silent) ↔ ∀ bytes ∈ payloads, ∀ s, Reading codec bytes s → s.Silent := by
  induction hps with
  | nil => simp
  | cons hp _ ih =>
      rw [List.forall_mem_cons, List.forall_mem_cons, ih]
      refine and_congr_left fun _ => ⟨fun hsil s hs => ?_, fun h => ?_⟩
      · cases (reads_iff_reading.mp hp).symm.trans hs
        exact hsil
      · exact h _ (reads_iff_reading.mp hp)

theorem stays_valid_iff (parameters state : Bytes) (data : List UpdateData) :
    StaysValid paramsCodec codec parameters state data ↔ Guarded codec parameters state data := by
  by_cases hp : parameters = []
  · subst hp
    unfold Guarded
    rw [or_iff_right (by simp)]
    by_cases hread : ∀ bytes ∈ state :: data.flatMap UpdateData.payloads,
        ∃ s, Reading codec bytes s
    · obtain ⟨hstate, hdata⟩ := List.forall_mem_cons.mp hread
      obtain ⟨s, hs⟩ := hstate
      obtain ⟨ps, hps⟩ := exists_reads hdata
      rw [stays_valid_bootstrap hs hps, silent_reads hps, List.forall_mem_cons, or_iff_right]
      · refine and_congr_left fun _ => ⟨fun hsil s' hs' => ?_, fun h => h s hs⟩
        cases hs.symm.trans hs'
        exact hsil
      · rintro ⟨bytes, hb, hno⟩
        obtain ⟨s', hs'⟩ := hread bytes hb
        exact hno s' hs'
    · -- an update that cannot be read returns nothing
      push Not at hread
      refine iff_of_true (fun out h => ?_) (.inl hread)
      obtain ⟨s, ps, hs, hps, -, -⟩ := Rules.updateState_ok.mp h
      obtain ⟨bytes, hb, hno⟩ := hread
      rcases List.mem_cons.mp hb with rfl | hb
      · exact absurd hs (hno s)
      · obtain ⟨p, hp⟩ := reading_of_reads hps bytes hb
        exact absurd hp (hno p)
  · exact iff_of_true (stays_valid_of_params hp) (.inl hp)

end Session

/-- What the lobby contract returns is valid. -/
def LobbyStaysValid (ed : Ed25519) (codec : Codec LobbyState) (state : Bytes)
    (data : List UpdateData) : Prop :=
  ∀ bytes, (lobbyRules ed).updateState codec state data = .ok bytes →
    (lobbyRules ed).validateState codec bytes = .ok ()

/-- **Closure**: the lobby contract keeps its states valid; the session contract
does exactly when it has parameters, or something it is sent cannot be read, or
nobody wrote anything. -/
theorem updates_stay_valid_iff (ed : Ed25519) (lobbyCodec : Codec LobbyState)
    (paramsCodec : Codec SessionParams) (codec : Codec SessionState)
    (parameters state : Bytes) (data : List UpdateData) :
    LobbyStaysValid ed lobbyCodec state data
      ∧ (Session.StaysValid paramsCodec codec parameters state data
          ↔ Session.Guarded codec parameters state data) :=
  ⟨fun _ h => Rules.validateState_ok.mpr (Rules.valid_of_update h),
    Session.stays_valid_iff parameters state data⟩

-- ================================================================ without parameters

/-- A tag, and what a frame writes after it. -/
def Codec.ofFrame {S : Type} (f : Frame S) : Codec S where
  encode s := 0xa5 :: f.put s
  decode
    | 0xa5 :: rest => match f.get rest with
        | some (s, []) => .ok s
        | _ => .error "trailing bytes"
    | _ => .error "no map"
  decode_encode s := by
    have h := f.get_put s []
    rw [List.append_nil] at h
    simp only [h]
  encode_ne_nil _ := List.cons_ne_nil _ _

def idFrame : Frame Bytes32 := Frame.fin _

def paramsFrame : Frame SessionParams :=
  (idFrame.pair (idFrame.pair idFrame)).map (fun p => ⟨p.1, p.2.1, p.2.2⟩)
    (fun p => (p.sessionId, p.peerA, p.peerB)) fun _ => rfl

def metaFrame : Frame SessionMeta :=
  (idFrame.pair (idFrame.pair (idFrame.pair Frame.nat))).map
    (fun p => ⟨p.1, p.2.1, p.2.2.1, p.2.2.2⟩)
    (fun m => (m.sessionId, m.peerA, m.peerB, m.createdMs)) fun _ => rfl

def messageFrame : Frame ChatMessage :=
  (idFrame.pair (Frame.nat.pair (Frame.nat.pair Frame.string))).map
    (fun p => ⟨p.1, p.2.1, p.2.2.1, p.2.2.2⟩)
    (fun m => (m.author, m.seq, m.sentMs, m.body)) fun _ => rfl

def kindFrame : Frame SignalKind :=
  Frame.nat.map
    (fun n => match n with
      | 0 => .offer
      | 1 => .answer
      | 2 => .ice
      | _ => .bye)
    (fun k => match k with
      | .offer => 0
      | .answer => 1
      | .ice => 2
      | .bye => 3) fun k => by cases k <;> rfl

def signalFrame : Frame SignalMessage :=
  (idFrame.pair (Frame.nat.pair (Frame.nat.pair (kindFrame.pair Frame.string)))).map
    (fun p => ⟨p.1, p.2.1, p.2.2.1, p.2.2.2.1, p.2.2.2.2⟩)
    (fun m => (m.author, m.seq, m.sentMs, m.kind, m.payload)) fun _ => rfl

def sessionFrame : Frame SessionState :=
  (metaFrame.option.pair (messageFrame.list.pair (signalFrame.list.pair
    (Frame.nat.pair Frame.nat)))).map
    (fun p => ⟨p.1, p.2.1, p.2.2.1, p.2.2.2.1, p.2.2.2.2⟩)
    (fun s => (s.«meta», s.messages, s.signals, s.maxMessages, s.maxSignals)) fun _ => rfl

/-- What a stranger to every session writes. -/
def strayMessage : SessionState := ⟨none, [⟨7, 1, 10, "hi"⟩], [], 100, 64⟩

/-- Without parameters the empty state is valid and takes a message, and is
then not valid any more. -/
theorem stray_message_invalid :
    let codec := Codec.ofFrame sessionFrame
    let params := Codec.ofFrame paramsFrame
    Session.validateState params codec [] [] = .ok ()
      ∧ ∃ bytes, Session.updateState params codec [] [] [.delta (codec.encode strayMessage)]
          = .ok bytes
        ∧ Session.validateState params codec [] bytes = .error .invalidState := by
  intro codec params
  have hempty : Session.Reading codec [] (sessionRules none).bootstrap := rfl
  have hstray : Session.Reading codec (codec.encode strayMessage) strayMessage :=
    Rules.decodeState_encode _
  refine ⟨rfl, _, Rules.updateState_ok.mpr ⟨_, [strayMessage], hempty,
    .cons (Session.reads_iff_reading.mpr hstray) .nil, rfl, rfl⟩, ?_⟩
  have hloud : ¬ ([strayMessage].foldl (sessionRules none).join
      (sessionRules none).bootstrap).messages = [] := by
    intro h
    have hlist := (Recent.newest_eq_nil_iff ChatMessage.separates (by decide)).mp h
    cases hlist
  unfold Session.validateState
  rw [if_pos rfl, Rules.decodeState_encode]
  exact if_neg hloud

end Ruletka.Contract
