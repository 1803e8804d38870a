/-
The mobile client's connection to its hub.

A `HubClient` holds one web socket at a time and opens another when that one
closes. The sockets it made live on in the runtime, and so do the timers it
set: an event of a socket runs the handlers that are still on it, whether
the client has let go of the socket or not. Sockets and timers are numbered
in the order they are made.

The addresses come from the configuration. What the handlers of the app do
with an event is left out, and so are the delay of a reconnect and the ICE
servers.
-/
import Ruletka.Lib.Machine
import Ruletka.Lib.Table

namespace Ruletka.Mobile

abbrev SocketId := Nat
abbrev TimerId := Nat

/-- `WebSocket.readyState`. -/
inductive ReadyState where
  | connecting
  | open
  | closing
  | closed
  deriving DecidableEq, Repr

/-- A web socket and what is set on it. -/
structure Socket where
  url : String
  readyState : ReadyState
  /-- `onclose` is set; the other three handlers are never taken off -/
  hasOnclose : Bool
  /-- the frames it was given, oldest first -/
  sent : List String
  deriving DecidableEq, Repr

namespace Socket

def fresh (url : String) : Socket := ⟨url, .connecting, true, []⟩

/-- `WebSocket.close`. -/
def close (k : Socket) : Socket :=
  { k with readyState := if k.readyState = .closed then .closed else .closing }

/-- Neither side has closed it. -/
def Live (k : Socket) : Prop := k.readyState = .connecting ∨ k.readyState = .open

instance (k : Socket) : Decidable k.Live := inferInstanceAs (Decidable (_ ∨ _))

end Socket

/-- The configuration: `hubBase`, `siblingHubBase` and `wsUrl`, which throws
on an address that is none. -/
structure HubAddresses where
  hubBase : String
  siblingHubBase : String → String
  wsUrl : String → Option String

/-- The fields of a `HubClient`. -/
structure HubClient where
  ws : Option SocketId
  base : String
  pingTimer : Option TimerId
  reconnectTimer : Option TimerId
  shouldReconnect : Bool
  reconnectAttempt : Nat
  intentionalClose : Bool
  lastSiblingSwapAt : Nat
  sessionOpened : Bool
  deriving DecidableEq, Repr

/-- A client and its runtime. -/
structure Page where
  client : HubClient
  sockets : Table SocketId Socket
  /-- how many sockets were made -/
  made : SocketId
  /-- set by `setTimeout` and not run -/
  timeouts : Finset TimerId
  /-- set by `setInterval` -/
  intervals : Finset TimerId
  nextTimer : TimerId

namespace Page

variable (hubs : HubAddresses) (p : Page)

/-- Without a trailing slash. -/
def dropSlash (base : String) : String :=
  match base.toList.getLast? with
  | some '/' => String.ofList base.toList.dropLast
  | _ => base

/-- A new `HubClient`. -/
def new (base : String) : Page where
  client := ⟨none, dropSlash base, none, none, false, 0, false, 0, false⟩
  sockets := ∅
  made := 0
  timeouts := ∅
  intervals := ∅
  nextTimer := 1

-- ===================================================================== the runtime

/-- Change a socket. -/
def onSocket (s : SocketId) (f : Socket → Socket) : Page :=
  { p with sockets := p.sockets.modify s f }

/-- `setTimeout`, kept as the reconnect timer. -/
def setReconnect : Page :=
  { p with
    client := { p.client with reconnectTimer := some p.nextTimer }
    timeouts := insert p.nextTimer p.timeouts
    nextTimer := p.nextTimer + 1 }

-- ====================================================================== the client

def setBase (base : String) : Page :=
  let base := dropSlash base
  { p with client := { p.client with base := if base = "" then hubs.hubBase else base } }

/-- `connected`. -/
def connected : Bool :=
  (p.client.ws.bind p.sockets.get?).any fun k => k.readyState = .open

/-- `send`, which throws without an open socket. -/
def send (json : String) : Option Page :=
  match p.client.ws with
  | none => none
  | some s =>
      if p.connected then some (p.onSocket s fun k => { k with sent := k.sent ++ [json] })
      else none

/-- A ping, when there is a socket for it. -/
def ping : Page := (p.send "\x7b\"type\":\"ping\"\x7d").getD p

def stopPing : Page :=
  match p.client.pingTimer with
  | none => p
  | some t => { p with
      client := { p.client with pingTimer := none }
      intervals := p.intervals.erase t }

def startPing : Page :=
  let p := p.stopPing.ping
  { p with
    client := { p.client with pingTimer := some p.nextTimer }
    intervals := insert p.nextTimer p.intervals
    nextTimer := p.nextTimer + 1 }

def clearReconnect : Page :=
  match p.client.reconnectTimer with
  | none => p
  | some t => { p with
      client := { p.client with reconnectTimer := none }
      timeouts := p.timeouts.erase t }

/-- Let go of the socket without hearing of its close. -/
def dropSocket : Page :=
  match p.client.ws with
  | none => p
  | some s =>
      let p := p.onSocket s fun k => { k with hasOnclose := false }.close
      { p with client := { p.client with ws := none } }

/-- `new WebSocket` with all four handlers. -/
def makeSocket (url : String) : Page :=
  { p with
    client := { p.client with ws := some p.made }
    sockets := p.sockets.set p.made (.fresh url)
    made := p.made + 1 }

def openSocket : Page :=
  let p := p.clearReconnect.dropSocket
  match hubs.wsUrl p.client.base with
  | none => p
  | some url => p.makeSocket url

def connect (autoReconnect : Bool) : Page :=
  openSocket hubs { p with
    client := { p.client with shouldReconnect := autoReconnect, intentionalClose := false } }

/-- `maybeSwapSiblingHub`. -/
def maybeSwapSiblingHub (now : Nat) : Page :=
  if p.client.sessionOpened then p
  else if p.client.reconnectAttempt ≠ 0 then p
  else if now - p.client.lastSiblingSwapAt < 20000 then p
  else
    let sibling := hubs.siblingHubBase p.client.base
    if sibling = "" ∨ sibling = p.client.base then p
    else
      let p := p.setBase hubs sibling
      { p with client := { p.client with lastSiblingSwapAt := now } }

def scheduleReconnect (now : Nat) : Page :=
  let p := p.clearReconnect.maybeSwapSiblingHub hubs now
  setReconnect { p with
    client := { p.client with reconnectAttempt := p.client.reconnectAttempt + 1 } }

def disconnect : Page :=
  let p : Page := { p with client := { p.client with
    intentionalClose := true, shouldReconnect := false, sessionOpened := false } }
  let p := p.clearReconnect.stopPing
  match p.client.ws with
  | none => p
  | some s =>
      let p := p.onSocket s Socket.close
      { p with client := { p.client with ws := none } }

-- ====================================================================== the events

/-- `ws.onopen`. -/
def onopen : Page :=
  startPing { p with client := { p.client with reconnectAttempt := 0, sessionOpened := true } }

/-- The client reconnects when its socket closes. -/
def reconnects : Bool := p.client.shouldReconnect && !p.client.intentionalClose

/-- `ws.onclose`. -/
def onclose (now : Nat) : Page :=
  let p := p.stopPing
  let p := { p with client := { p.client with ws := none } }
  if p.reconnects then p.scheduleReconnect hubs now else p

end Page

/-- What happens to a page: a call of the client, an event of a socket, or a
timer. A call that throws changes nothing more. -/
inductive PageEvent where
  | connect (autoReconnect : Bool)
  | disconnect
  | setBase (base : String)
  | send (json : String)
  | opened (s : SocketId)
  | message (s : SocketId)
  | errored (s : SocketId)
  /-- the server or the network closes it; its `close` event comes later -/
  | lost (s : SocketId)
  | closed (s : SocketId) (now : Nat)
  | reconnect (t : TimerId)
  | ping (t : TimerId)
  deriving DecidableEq, Repr

namespace Page

variable (hubs : HubAddresses)

/-- The page after an event that can happen. Events come of any socket that has
not been reported closed. -/
def step (p : Page) : PageEvent → Option Page
  | .connect autoReconnect => some (p.connect hubs autoReconnect)
  | .disconnect => some p.disconnect
  | .setBase base => some (p.setBase hubs base)
  | .send json => some ((p.send json).getD p)
  | .opened s => match p.sockets.get? s with
    | none => none
    | some k =>
      if k.readyState = .closed then none
      else some (onopen (p.onSocket s fun k =>
        { k with readyState := if k.readyState = .connecting then .open else k.readyState }))
  | .message s | .errored s => match p.sockets.get? s with
    | none => none
    | some k => if k.readyState = .closed then none else some p
  | .lost s => match p.sockets.get? s with
    | none => none
    | some k => if k.Live then some (p.onSocket s Socket.close) else none
  | .closed s now => match p.sockets.get? s with
    | none => none
    | some k =>
      if k.readyState = .closed then none
      else
        let p := p.onSocket s fun k => { k with readyState := .closed }
        some (if k.hasOnclose then p.onclose hubs now else p)
  | .reconnect t =>
      if t ∈ p.timeouts then
        let p := { p with timeouts := p.timeouts.erase t }
        some (if p.reconnects then p.openSocket hubs else p)
      else none
  | .ping t => if t ∈ p.intervals then some p.ping else none

end Page

/-- The client through any events. Beside the page stands how many sockets were
made by the last `disconnect()`. -/
def pageMachine (hubs : HubAddresses) : Machine (Page × SocketId) PageEvent where
  start q := ∃ base, q = (.new base, 0)
  step q e q' := q.1.step hubs e = some q'.1
    ∧ q'.2 = if e = .disconnect then q.1.made else q.2

end Ruletka.Mobile
