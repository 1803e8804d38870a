/-
Signalling: SDP and ICE from one connection to its peers.

The text in the `to` field of a signal, here `toPeer`, is looked up among
all connections. Offers that come too soon after the last one to the same
target are dropped; offers and answers leave their time in the sender's
record. What only the logs read (latencies, the first ICE, the direction of
the video) is left out.
-/
import Ruletka.Hub.Basic

namespace Ruletka

open Text

def maxSignalBytes : Nat := 64 * 1024
def maxSignalKind : Nat := 32

/-- The session and the peer of `fed/{session}/{peer}`. -/
def parseFederatedPeerId (fed : String) : Option (String × String) :=
  if hasPrefix fed "fed/" then
    let rest := fed.toList.drop 4
    let session := rest.takeWhile (· ≠ '/')
    match rest.drop session.length with
    | [] => none
    | _ :: peer =>
        if session.isEmpty || peer.isEmpty then none
        else some (String.ofList session, String.ofList peer)
  else none

def federatedPeerId (session peer : String) : String := "fed/" ++ session ++ "/" ++ peer

def offerDebounce : Nat := 3500
def answererGraceSecs : Nat := 30

/-- Why an offer is dropped, if it is. -/
def offerDropReason (lastOfferElapsed : Option Nat) (answeredThis offeredThis : Bool)
    (matchAge : Option Nat) : Option String :=
  if lastOfferElapsed.any (· < offerDebounce) then some "debounce"
  else if answeredThis && !offeredThis && matchAge.any (· < secs answererGraceSecs) then
    some "answerer_grace"
  else none

namespace SimpleHub

/-- The first connection whose peer id or short id is this text. -/
def namedBy (h : SimpleHub) (env : Env) (toPeer : String) : Option ConnId :=
  (env.mapOrder.run h.clients.keys).find? fun y =>
    (h.get y).any fun c => c.peerId = toPeer || c.shortId = toPeer

/-- One key for a target, named by its peer id or by its short id. -/
def signalPairKey (h : SimpleHub) (env : Env) (raw : String) : String :=
  let toPeer := trim raw
  if toPeer = "" then ""
  else match h.namedBy env toPeer with
    | some y => h.peerIdOf y
    | none => toPeer

/-- The offer comes too soon for this target. -/
def offerDropped (h : SimpleHub) (env : Env) (id : ConnId) (key : String) : Bool :=
  (h.get id).any fun c =>
    (offerDropReason ((c.lastOfferAt.get? key).map env.elapsed)
      (c.lastAnswerAt.get? key).isSome (c.lastOfferAt.get? key).isSome
      (c.matchStarted.map env.elapsed)).isSome

/-- The times of the last offer and answer for a target. -/
def noteSdp (h : SimpleHub) (env : Env) (id : ConnId) (kind key : String) : SimpleHub :=
  if kind = "offer" then
    h.modify id fun c => { c with lastOfferAt := c.lastOfferAt.set key env.now }
  else if kind = "answer" then
    h.modify id fun c => { c with lastAnswerAt := c.lastAnswerAt.set key env.now }
  else h

/-- The federated path: the signal waits for the sender's other hub. -/
def relaySignal (h : SimpleHub) (id : ConnId) (kind payload toPeer : String) : SimpleHub :=
  match h.fedByClient.get? id with
  | none => h.sendError id "not matched"
  | some sid =>
    match h.fedSessions.get? sid with
    | none => h
    | some sess =>
      let request : FedOutbound :=
        { baseUrl := sess.remoteBaseUrl
          sessionId := sid
          fromPeer := federatedPeerId sid sess.localPeerId
          toPeer := if toPeer = "" then federatedPeerId sid sess.remotePeerId else toPeer
          signalKind := kind
          payload := payload
          author := ((h.get id).map (·.shortId)).getD "" }
      { h with fedOutbox := h.fedOutbox ++ [request] }

/-- Whom a signal goes to: the connection `toPeer` names, else the session. -/
def signalTargets (h : SimpleHub) (env : Env) (id : ConnId) (c : Client) (toPeer : String) :
    List ConnId :=
  -- a connection outside the session is only warned about, and served as well
  let named := if toPeer = "" then [] else (h.namedBy env toPeer).toList
  if named.isEmpty then
    let peers := (env.peerOrder id).run c.sessionPeers
    if peers.isEmpty then c.partner.toList else peers
  else named

/-- The local path. -/
def deliverSignal (h : SimpleHub) (env : Env) (id : ConnId) (kind payload toPeer : String) :
    SimpleHub :=
  match h.get id with
  | none => h.sendError id "not matched"
  | some c =>
    if c.phase = .matched || c.phase = .friendCall then
      let targets := h.signalTargets env id c toPeer
      if targets.isEmpty then h.sendError id "signal: no peer target (re-match?)"
      else targets.foldl (fun h t => h.send t (.signal c.shortId kind payload c.peerId)) h
    else h.sendError id "not matched"

/-- A federated sender, or a federated target. -/
def signalIsFederated (h : SimpleHub) (id : ConnId) (toPeer : String) : Bool :=
  (h.fedByClient.get? id).isSome || (parseFederatedPeerId toPeer).isSome

/-- `handle_signal`. -/
def handleSignal (h : SimpleHub) (env : Env) (id : ConnId) (kind payload toPeer : String) :
    SimpleHub :=
  if maxSignalKind < kind.utf8ByteSize || maxSignalBytes < payload.utf8ByteSize then
    h.sendError id "signal too large"
  else
    let key := h.signalPairKey env toPeer
    if kind = "offer" && h.offerDropped env id key then h
    else
      let h := h.noteSdp env id kind key
      if h.signalIsFederated id toPeer then h.relaySignal id kind payload toPeer
      else h.deliverSignal env id kind payload toPeer

end SimpleHub

end Ruletka
