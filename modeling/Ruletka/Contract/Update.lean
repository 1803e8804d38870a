/-
The two contracts: which states they take, and how they update one.

Both decode the state, then every payload of the update in turn, check it,
merge it in, check what came out and encode it. They differ in the state
that no bytes stand for, in the check and in the merge; the session contract
checks nothing without parameters. The codec is the library's, and what is
relied on is that it reads back what it wrote.
-/
import Ruletka.Contract.Identity
import Ruletka.Contract.Session

namespace Ruletka.Contract

/-- A serialiser. -/
structure Codec (S : Type) where
  encode : S → Bytes
  decode : Bytes → Except String S
  decode_encode : ∀ s, decode (encode s) = .ok s
  encode_ne_nil : ∀ s, encode s ≠ []

inductive ContractError where
  | deser (cause : String)
  | invalidState
  deriving DecidableEq, Repr

/-- What a host sends. -/
inductive UpdateData where
  | state (bytes : Bytes)
  | delta (bytes : Bytes)
  | stateAndDelta (state delta : Bytes)
  /-- states of related contracts, which neither contract reads -/
  | related
  deriving DecidableEq, Repr

/-- Where the two contracts differ. -/
structure Rules (S : Type) where
  /-- what no bytes stand for -/
  bootstrap : S
  check : S → Except ContractError Unit
  join : S → S → S

namespace Rules

variable {S : Type} (r : Rules S) (codec : Codec S)

/-- `decode_state`. -/
def decodeState (bytes : Bytes) : Except ContractError S :=
  if bytes = [] then .ok r.bootstrap
  else (codec.decode bytes).mapError .deser

/-- Decode a payload and check it. -/
def readPatch (bytes : Bytes) : Except ContractError S := do
  let incoming ← r.decodeState codec bytes
  r.check incoming
  return incoming

def applyUpdate (s : S) : UpdateData → Except ContractError S
  | .state bytes | .delta bytes => do
      let incoming ← r.readPatch codec bytes
      return r.join s incoming
  | .stateAndDelta bytes delta => do
      let incoming ← r.readPatch codec bytes
      let s := r.join s incoming
      let patch ← r.readPatch codec delta
      return r.join s patch
  | .related => return s

/-- `update_state`. -/
def updateState (state : Bytes) (data : List UpdateData) : Except ContractError Bytes := do
  let s ← r.decodeState codec state
  let s ← data.foldlM (r.applyUpdate codec) s
  r.check s
  return codec.encode s

/-- `validate_state`, for a contract that has its parameters. -/
def validateState (state : Bytes) : Except ContractError Unit := do
  let s ← r.decodeState codec state
  r.check s

end Rules

-- ========================================================================= lobby

/-- Signatures that are there must be good. -/
def validateOffer (ed : Ed25519) (offer : WaitingOffer) : Except ContractError Unit :=
  let sigNonzero := offer.sig.any fun b => b ≠ 0
  if sigNonzero && !ed.verifyOffer offer then .error .invalidState
  else if sigNonzero && offer.verifyingKey.length ≠ 32 then .error .invalidState
  else .ok ()

/-- `validate_lobby`: the offers, one after the other. -/
def validateLobby (ed : Ed25519) (state : LobbyState) : Except ContractError Unit :=
  (LobbyState.valuesOf state.offers).forM (validateOffer ed)

def lobbyRules (ed : Ed25519) : Rules LobbyState where
  bootstrap := .new .default
  check := validateLobby ed
  join := .update

-- ======================================================================= session

/-- The pair of the parameters, or that pair put in order. -/
def SessionParams.fits (params : SessionParams) (m : SessionMeta) : Bool :=
  if m.peerA ≠ params.peerA || m.peerB ≠ params.peerB then
    let (a, b) :=
      if params.peerA ≤ params.peerB then (params.peerA, params.peerB)
      else (params.peerB, params.peerA)
    !(m.peerA ≠ a || m.peerB ≠ b)
  else true

/-- `validate`. -/
def validateSession (params : SessionParams) (state : SessionState) :
    Except ContractError Unit :=
  if state.«meta».any fun m => m.sessionId ≠ params.sessionId || !params.fits m then
    .error .invalidState
  else if state.messages.any fun m => !params.allows m.author then .error .invalidState
  else if state.signals.any fun s => !params.allows s.author then .error .invalidState
  else .ok ()

/-- Without parameters nothing is checked. -/
def sessionRules (params : Option SessionParams) : Rules SessionState where
  bootstrap := { SessionState.default with maxMessages := 100 }
  check state := match params with
    | some p => validateSession p state
    | none => .ok ()
  join := .merge

namespace Session

variable (paramsCodec : Codec SessionParams) (codec : Codec SessionState)

def decodeParams (bytes : Bytes) : Except ContractError SessionParams :=
  (paramsCodec.decode bytes).mapError .deser

/-- `validate_state`: without parameters, a state without messages. -/
def validateState (parameters state : Bytes) : Except ContractError Unit :=
  if parameters = [] then do
    let st ← (sessionRules none).decodeState codec state
    if st.messages = [] then .ok () else .error .invalidState
  else do
    let params ← decodeParams paramsCodec parameters
    (sessionRules (some params)).validateState codec state

/-- `update_state`. -/
def updateState (parameters state : Bytes) (data : List UpdateData) :
    Except ContractError Bytes :=
  if parameters = [] then (sessionRules none).updateState codec state data
  else do
    let params ← decodeParams paramsCodec parameters
    (sessionRules (some params)).updateState codec state data

end Session

end Ruletka.Contract
