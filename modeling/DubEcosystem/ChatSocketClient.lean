import Mathlib.Logic.Relation

/-!
# fe6-chat: the socket of the chat client

`WsChatClient` of `ws-client.ts` with the sockets, timers and ticket requests that it leaves
behind, and the callbacks that the platform may make.
-/

namespace DubEcosystem.ChatSocket

inductive RealtimeStatus where
  | connecting
  | opened
  | reconnecting
  | closed
  deriving DecidableEq

/-- A socket that is closed is not kept. -/
inductive ReadyState where
  | connecting
  | opened
  | closing
  deriving DecidableEq

structure WsTicketResponse where
  channelId : String
  ticket : String
  doUrl : String
  deriving DecidableEq

structure Socket where
  id : Nat
  ticket : WsTicketResponse
  readyState : ReadyState
  deriving DecidableEq

structure Client where
  ws : Option Nat
  channelId : Option String
  attempt : Nat
  closedByUser : Bool
  reconnectTimer : Option Nat
  status : RealtimeStatus

/-- The client and what the platform holds for it. -/
structure World where
  client : Client
  /-- The sockets that are not closed. -/
  sockets : List Socket
  nextSocket : Nat
  /-- The timers that are running. -/
  timers : List Nat
  nextTimer : Nat
  /-- The calls of `getTicket` that are not settled, with their channels. -/
  requests : List (Nat × String)
  nextRequest : Nat
  /-- The channel of the latest `connect`. -/
  latest : Option String
  /-- `disconnect` was called, and `connect` was not called since. -/
  ended : Bool
  /-- The events that the handlers were given, each with its socket, the latest first. -/
  delivered : List (Nat × String)

def Socket.isLive (socket : Socket) : Prop :=
  socket.readyState ≠ .closing

def World.initial : World where
  client := ⟨none, none, 0, false, none, .closed⟩
  sockets := []
  nextSocket := 0
  timers := []
  nextTimer := 0
  requests := []
  nextRequest := 0
  latest := none
  ended := false
  delivered := []

def isRealtimeEvent (kind : String) : Bool :=
  kind ∈ ["message.created", "message.deleted", "member.added", "member.removed",
    "reaction.updated"]

namespace World

variable (world : World)

def setStatus (status : RealtimeStatus) : World :=
  { world with client := { world.client with status } }

def setReadyState (id : Nat) (readyState : ReadyState) : World :=
  { world with
    sockets := world.sockets.map fun socket =>
      if socket.id = id then { socket with readyState } else socket }

/-- `ws.close()`: the socket is closed only later. -/
def closeSocket (id : Nat) : World :=
  world.setReadyState id .closing

def openSocket (ticket : WsTicketResponse) : World :=
  let world := world.setStatus (if world.client.attempt = 0 then .connecting else .reconnecting)
  { world with
    client := { world.client with ws := some world.nextSocket }
    sockets := ⟨world.nextSocket, ticket, .connecting⟩ :: world.sockets
    nextSocket := world.nextSocket + 1 }

def connect (channelId : String) (ticket : WsTicketResponse) : World :=
  openSocket
    { world with
      client :=
        { world.client with channelId := some channelId, closedByUser := false, attempt := 0 }
      latest := some channelId
      ended := false }
    ticket

/-- No attempts left; 0 is no limit. -/
def exhausted (maxAttempts : Nat) : Bool :=
  0 < maxAttempts ∧ maxAttempts ≤ world.client.attempt

def scheduleReconnect (maxAttempts : Nat) : World :=
  let world := { world with client := { world.client with ws := none } }
  if world.client.closedByUser ∨ world.client.channelId = none then world.setStatus .closed
  else if world.exhausted maxAttempts then world.setStatus .closed
  else
    let world := world.setStatus .reconnecting
    { world with
      client :=
        { world.client with
          attempt := world.client.attempt + 1, reconnectTimer := some world.nextTimer }
      timers := world.nextTimer :: world.timers
      nextTimer := world.nextTimer + 1 }

/-- The timer of a reconnection has run out. -/
def requestTicket : World :=
  match world.client.channelId with
  | none => world
  | some channelId =>
    { world with
      requests := (world.nextRequest, channelId) :: world.requests
      nextRequest := world.nextRequest + 1 }

def clearReconnectTimer : World :=
  match world.client.reconnectTimer with
  | none => world
  | some timer =>
    { world with
      client := { world.client with reconnectTimer := none }
      timers := world.timers.erase timer }

def closeCurrent : World :=
  match world.client.ws with
  | none => world
  | some id =>
    let world := world.closeSocket id
    { world with client := { world.client with ws := none } }

def disconnect : World :=
  let world :=
    { world with
      client := { world.client with closedByUser := true, channelId := none }
      ended := true }
  (world.clearReconnectTimer.closeCurrent).setStatus .closed

end World

inductive Event where
  | connect (channelId : String) (ticket : WsTicketResponse)
  | disconnect
  | timer (timer : Nat)
  | resolved (request : Nat) (ticket : WsTicketResponse)
  | rejected (request : Nat) (channelId : String)
  | socketOpen (id : Nat)
  /-- A frame; `kind` is that of the object in it. -/
  | message (id : Nat) (kind : Option String)
  | socketClose (id : Nat)
  | socketError (id : Nat)

namespace World

variable (world : World)

def inState (id : Nat) (states : List ReadyState) : Bool :=
  world.sockets.any fun socket => socket.id = id ∧ socket.readyState ∈ states

/-- What happens when the client is called or called back, if the platform allows it. -/
def handle (maxAttempts : Nat) : Event → Option World
  | .connect channelId ticket =>
    if ticket.channelId = channelId then some (world.connect channelId ticket) else none
  | .disconnect => some world.disconnect
  | .timer timer =>
    if timer ∈ world.timers then
      some (requestTicket { world with timers := world.timers.erase timer })
    else none
  | .resolved request ticket =>
    if (request, ticket.channelId) ∈ world.requests then
      let world := { world with requests := world.requests.erase (request, ticket.channelId) }
      some (if world.client.closedByUser then world else world.openSocket ticket)
    else none
  | .rejected request channelId =>
    if (request, channelId) ∈ world.requests then
      some (scheduleReconnect
        { world with requests := world.requests.erase (request, channelId) } maxAttempts)
    else none
  | .socketOpen id =>
    if world.inState id [.connecting] then
      let world := world.setReadyState id .opened
      some (setStatus { world with client := { world.client with attempt := 0 } } .opened)
    else none
  | .message id kind =>
    if world.inState id [.opened] then
      some
        { world with
          delivered := ((kind.filter isRealtimeEvent).toList.map fun kind => (id, kind)) ++
            world.delivered }
    else none
  | .socketClose id =>
    if world.inState id [.connecting, .opened, .closing] then
      some (scheduleReconnect
        { world with sockets := world.sockets.filter fun socket => socket.id ≠ id } maxAttempts)
    else none
  | .socketError id =>
    if world.inState id [.connecting, .opened, .closing] then some (world.closeSocket id)
    else none

end World

/-- A condition on the state that a call or a callback finds. -/
abbrev Condition := World → Event → Prop

def Step (maxAttempts : Nat) (condition : Condition) (before after : World) : Prop :=
  ∃ event, condition before event ∧ before.handle maxAttempts event = some after

def Reachable (maxAttempts : Nat) (condition : Condition) (world : World) : Prop :=
  Relation.ReflTransGen (Step maxAttempts condition) .initial world

end DubEcosystem.ChatSocket
