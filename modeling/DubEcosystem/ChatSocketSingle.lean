import DubEcosystem.ChatSocketClient

/-!
# fe6-chat: one socket at a time

A client that is connected only when nothing of the connection before is left has one thing
going on at a time: a socket, a timer or a request for a ticket.
-/

namespace DubEcosystem.ChatSocket

open Relation List Option

/-- At most one socket is neither closed nor closing, it is for the channel of the latest
`connect`, and after `disconnect` no timer is running. -/
structure Single (world : World) : Prop where
  single : ∀ first ∈ world.sockets, ∀ second ∈ world.sockets,
    first.isLive → second.isLive → first = second
  current : ∀ socket ∈ world.sockets, socket.isLive →
    world.latest = some socket.ticket.channelId
  silent : world.ended = true → world.timers = []

/-- What a call or a callback may do: it gives the handlers an event of the only socket, if
any, and opens none after `disconnect`. -/
structure Proper (before : World) (event : Event) (after : World) : Prop where
  delivered : after.delivered = before.delivered ∨
    ∃ socket ∈ before.sockets, socket.isLive ∧
      (∀ other ∈ before.sockets, other.isLive → other = socket) ∧
        ∃ kind, after.delivered = (socket.id, kind) :: before.delivered
  opened : before.ended = true → (∀ channelId ticket, event ≠ .connect channelId ticket) →
    after.nextSocket = before.nextSocket

/-- There is at most one socket at any time, and only it is heard. -/
def SingleSocket (condition : Condition) (maxAttempts : Nat) : Prop :=
  ∀ world, Reachable maxAttempts condition world →
    Single world ∧ ∀ event after, condition world event →
      world.handle maxAttempts event = some after → Proper world event after

/-- Nothing of a connection is left. -/
def World.Over (world : World) : Prop :=
  world.sockets = [] ∧ world.timers = [] ∧ world.requests = []

/-- The client is connected only when the connection before is over. -/
def connectsAfresh : Condition :=
  fun world event => ∀ channelId ticket, event = .connect channelId ticket → world.Over

variable {world after : World} {maxAttempts : Nat}

/-- One thing goes on at a time. -/
structure Sole (world : World) : Prop where
  activity : world.sockets.length + world.timers.length + world.requests.length ≤ 1
  live : ∀ socket ∈ world.sockets, socket.isLive →
    world.client.ws = some socket.id ∧ world.ended = false ∧
      world.latest = some socket.ticket.channelId
  running : ∀ timer ∈ world.timers,
    world.client.reconnectTimer = some timer ∧ world.ended = false
  asked : ∀ request ∈ world.requests, world.ended = true ∨ world.latest = some request.2
  closedByUser : world.client.closedByUser = world.ended
  channel : world.ended = false → world.client.channelId = world.latest

theorem Sole.setStatus (sole : Sole world) (status : RealtimeStatus) :
    Sole (world.setStatus status) :=
  ⟨sole.activity, sole.live, sole.running, sole.asked, sole.closedByUser, sole.channel⟩

theorem singleton_of_mem {α β γ : Type} {items : List α} {others : List β} {rest : List γ}
    {item : α} (member : item ∈ items)
    (atMostOne : items.length + others.length + rest.length ≤ 1) :
    items = [item] ∧ others = [] ∧ rest = [] := by
  have positive := length_pos_of_mem member
  obtain ⟨only, rfl⟩ := length_eq_one_iff.mp (show items.length = 1 by omega)
  rw [mem_singleton.mp member]
  exact ⟨rfl, eq_nil_of_length_eq_zero (by omega), eq_nil_of_length_eq_zero (by omega)⟩

theorem Sole.only_socket (sole : Sole world) {socket : Socket} (member : socket ∈ world.sockets) :
    world.sockets = [socket] ∧ world.timers = [] ∧ world.requests = [] :=
  singleton_of_mem member sole.activity

theorem Sole.only_timer (sole : Sole world) {timer : Nat} (member : timer ∈ world.timers) :
    world.timers = [timer] ∧ world.sockets = [] ∧ world.requests = [] := by
  have activity := sole.activity
  exact singleton_of_mem member (by omega)

theorem Sole.only_request (sole : Sole world) {request : Nat × String}
    (member : request ∈ world.requests) :
    world.requests = [request] ∧ world.sockets = [] ∧ world.timers = [] := by
  have activity := sole.activity
  exact singleton_of_mem member (by omega)

theorem Sole.single (sole : Sole world) : Single world := by
  constructor
  · intro first firstMem second secondMem _ _
    rw [(sole.only_socket firstMem).1] at secondMem
    exact (mem_singleton.mp secondMem).symm
  · exact fun socket member isLive => (sole.live socket member isLive).2.2
  · intro isEnded
    apply eq_nil_iff_forall_not_mem.mpr
    intro timer member
    rw [(sole.running timer member).2] at isEnded
    cases isEnded

theorem sole_of_over (idle : world.Over) (closedByUser : world.client.closedByUser = world.ended)
    (channel : world.ended = false → world.client.channelId = world.latest) : Sole world := by
  obtain ⟨noSocket, noTimer, noRequest⟩ := idle
  constructor
  · simp [noSocket, noTimer, noRequest]
  · simp [noSocket]
  · simp [noTimer]
  · simp [noRequest]
  · exact closedByUser
  · exact channel

/-- With nothing else going on, the client gives up or waits for the timer. -/
theorem sole_scheduleReconnect (idle : world.Over)
    (closedByUser : world.client.closedByUser = world.ended)
    (channel : world.ended = false → world.client.channelId = world.latest) :
    Sole (world.scheduleReconnect maxAttempts) := by
  have alone : Sole { world with client := { world.client with ws := none } } :=
    sole_of_over idle closedByUser channel
  unfold World.scheduleReconnect
  simp only []
  split
  · exact alone.setStatus .closed
  · rename_i goesOn
    split
    · exact alone.setStatus .closed
    · obtain ⟨noSocket, noTimer, noRequest⟩ := idle
      have notEnded : world.ended = false := by
        rw [← closedByUser]
        simpa using not_or.mp goesOn |>.1
      constructor
      · simp [World.setStatus, noSocket, noTimer, noRequest]
      · simp [World.setStatus, noSocket]
      · intro timer member
        simp only [World.setStatus, noTimer, mem_singleton] at member
        exact ⟨congrArg some member.symm, notEnded⟩
      · simp [World.setStatus, noRequest]
      · exact closedByUser
      · exact channel

theorem sole_openSocket (idle : world.Over) {ticket : WsTicketResponse}
    (notEnded : world.ended = false) (isLatest : world.latest = some ticket.channelId)
    (closedByUser : world.client.closedByUser = world.ended)
    (channel : world.ended = false → world.client.channelId = world.latest) :
    Sole (world.openSocket ticket) := by
  obtain ⟨noSocket, noTimer, noRequest⟩ := idle
  constructor
  · simp [World.openSocket, World.setStatus, noSocket, noTimer, noRequest]
  · intro socket member _
    simp only [World.openSocket, World.setStatus, noSocket, mem_singleton] at member
    subst member
    exact ⟨rfl, notEnded, isLatest⟩
  · simp [World.openSocket, World.setStatus, noTimer]
  · simp [World.openSocket, World.setStatus, noRequest]
  · exact closedByUser
  · exact channel

variable {id : Nat}

theorem exists_of_inState {states : List ReadyState} (isState : world.inState id states = true) :
    ∃ socket ∈ world.sockets, socket.id = id ∧ socket.readyState ∈ states := by
  simpa [World.inState] using isState

theorem Sole.setReadyState (sole : Sole world) {readyState : ReadyState}
    (wasLive : ∀ socket ∈ world.sockets, socket.id = id → readyState ≠ .closing →
      socket.isLive) : Sole (world.setReadyState id readyState) := by
  refine ⟨?_, ?_, sole.running, sole.asked, sole.closedByUser, sole.channel⟩
  · simpa [World.setReadyState] using sole.activity
  · intro socket member isLive
    obtain ⟨before, beforeMem, rfl⟩ := List.mem_map.mp member
    by_cases isSocket : before.id = id
    · simp only [isSocket, if_true] at isLive ⊢
      have live := sole.live before beforeMem (wasLive before beforeMem isSocket isLive)
      rw [isSocket] at live
      exact live
    · simp only [isSocket, if_false] at isLive ⊢
      exact sole.live before beforeMem isLive

/-- The only timer that may be running is the one that is cleared. -/
theorem Sole.erase_timer (sole : Sole world) {timer : Nat}
    (isTimer : world.client.reconnectTimer = some timer) : world.timers.erase timer = [] := by
  cases timers : world.timers with
  | nil => rfl
  | cons first rest =>
    have member : first ∈ world.timers := timers ▸ (.head _)
    have isRunning := (sole.running first member).1
    rw [isTimer] at isRunning
    rw [← timers, (sole.only_timer member).1, some.inj isRunning]
    simp

theorem Sole.noTimer (sole : Sole world) (isTimer : world.client.reconnectTimer = none) :
    world.timers = [] := by
  apply eq_nil_iff_forall_not_mem.mpr
  intro timer member
  have isRunning := (sole.running timer member).1
  rw [isTimer] at isRunning
  cases isRunning

theorem Sole.quiet_disconnect (sole : Sole world) :
    world.disconnect.timers = [] ∧ (∀ socket ∈ world.disconnect.sockets, ¬socket.isLive) ∧
      world.disconnect.sockets.length = world.sockets.length ∧
        world.disconnect.requests = world.requests := by
  have notLive : ∀ socket ∈ world.sockets, world.client.ws ≠ some socket.id → ¬socket.isLive :=
    fun socket member isOther isLive => isOther (sole.live socket member isLive).1
  have closed : ∀ id, world.client.ws = some id → ∀ socket ∈ world.sockets.map fun socket =>
        if socket.id = id then { socket with readyState := .closing } else socket,
        ¬socket.isLive := by
    intro id isCurrent socket member isLive
    obtain ⟨before, beforeMem, rfl⟩ := List.mem_map.mp member
    by_cases isSocket : before.id = id
    · simp [isSocket, Socket.isLive] at isLive
    · simp only [isSocket, if_false] at isLive
      apply notLive before beforeMem _ isLive
      rw [isCurrent]
      exact fun same => isSocket (some.inj same).symm
  cases isTimer : world.client.reconnectTimer with
  | none =>
    have noTimer := sole.noTimer isTimer
    cases isCurrent : world.client.ws with
    | none =>
      simp only [World.disconnect, World.clearReconnectTimer, World.closeCurrent,
        World.setStatus, isTimer, isCurrent]
      exact ⟨noTimer, fun socket member => notLive socket member (by simp [isCurrent]),
        trivial, trivial⟩
    | some id =>
      simp only [World.disconnect, World.clearReconnectTimer, World.closeCurrent,
        World.closeSocket, World.setReadyState, World.setStatus, isTimer, isCurrent]
      exact ⟨noTimer, closed id isCurrent, length_map _, trivial⟩
  | some timer =>
    have noTimer := sole.erase_timer isTimer
    cases isCurrent : world.client.ws with
    | none =>
      simp only [World.disconnect, World.clearReconnectTimer, World.closeCurrent,
        World.setStatus, isTimer, isCurrent]
      exact ⟨noTimer, fun socket member => notLive socket member (by simp [isCurrent]),
        trivial, trivial⟩
    | some id =>
      simp only [World.disconnect, World.clearReconnectTimer, World.closeCurrent,
        World.closeSocket, World.setReadyState, World.setStatus, isTimer, isCurrent]
      exact ⟨noTimer, closed id isCurrent, length_map _, trivial⟩

theorem ended_disconnect :
    world.disconnect.ended = true ∧ world.disconnect.client.closedByUser = true := by
  unfold World.disconnect World.clearReconnectTimer World.closeCurrent
  simp only []
  split
  · split
    · exact ⟨rfl, rfl⟩
    · exact ⟨rfl, rfl⟩
  · split
    · exact ⟨rfl, rfl⟩
    · exact ⟨rfl, rfl⟩

theorem Sole.disconnect (sole : Sole world) : Sole world.disconnect := by
  obtain ⟨noTimer, noLive, sameLength, sameRequests⟩ := sole.quiet_disconnect
  obtain ⟨isEnded, isClosed⟩ := @ended_disconnect world
  have activity := sole.activity
  constructor
  · rw [noTimer, sameLength, sameRequests, length_nil]
    omega
  · exact fun socket member isLive => absurd isLive (noLive socket member)
  · simp [noTimer]
  · exact fun _ _ => .inl isEnded
  · rw [isClosed, isEnded]
  · intro notEnded
    rw [isEnded] at notEnded
    cases notEnded

variable {event : Event}

theorem Sole.handle (sole : Sole world) (afresh : connectsAfresh world event)
    (handled : world.handle maxAttempts event = some after) : Sole after := by
  cases event with
  | connect channelId ticket =>
    have idle := afresh channelId ticket rfl
    obtain ⟨rfl, ⟨⟩⟩ := ite_none_right_eq_some.mp handled
    apply sole_openSocket
    · exact idle
    · rfl
    · rfl
    · rfl
    · exact fun _ => rfl
  | disconnect =>
    cases handled
    exact sole.disconnect
  | timer timer =>
    obtain ⟨member, ⟨⟩⟩ := ite_none_right_eq_some.mp handled
    obtain ⟨isTimer, noSocket, noRequest⟩ := sole.only_timer member
    have notEnded := (sole.running timer member).2
    have channel := sole.channel notEnded
    have noTimer : world.timers.erase timer = [] := by simp [isTimer]
    unfold World.requestTicket
    simp only []
    cases isChannel : world.client.channelId with
    | none => exact sole_of_over ⟨noSocket, noTimer, noRequest⟩ sole.closedByUser sole.channel
    | some channelId =>
      constructor
      · simp [noSocket, noTimer, noRequest]
      · simp [noSocket]
      · simp [noTimer]
      · intro request member
        simp only [noRequest, mem_singleton] at member
        subst member
        exact .inr (channel.symm.trans isChannel)
      · exact sole.closedByUser
      · exact sole.channel
  | resolved request ticket =>
    obtain ⟨member, ⟨⟩⟩ := ite_none_right_eq_some.mp handled
    obtain ⟨isRequest, noSocket, noTimer⟩ := sole.only_request member
    have noRequest : world.requests.erase (request, ticket.channelId) = [] := by
      simp [isRequest]
    split
    · exact sole_of_over ⟨noSocket, noTimer, noRequest⟩ sole.closedByUser sole.channel
    · rename_i goesOn
      have notEnded : world.ended = false := by
        rw [← sole.closedByUser]
        exact Bool.eq_false_iff.mpr goesOn
      have isLatest : world.latest = some ticket.channelId :=
        (sole.asked _ member).resolve_left (by simp [notEnded])
      apply sole_openSocket
      · exact ⟨noSocket, noTimer, noRequest⟩
      · exact notEnded
      · exact isLatest
      · exact sole.closedByUser
      · exact sole.channel
  | rejected request channelId =>
    obtain ⟨member, ⟨⟩⟩ := ite_none_right_eq_some.mp handled
    obtain ⟨isRequest, noSocket, noTimer⟩ := sole.only_request member
    have noRequest : world.requests.erase (request, channelId) = [] := by simp [isRequest]
    exact sole_scheduleReconnect ⟨noSocket, noTimer, noRequest⟩ sole.closedByUser sole.channel
  | socketOpen id =>
    obtain ⟨isState, ⟨⟩⟩ := ite_none_right_eq_some.mp handled
    obtain ⟨socket, member, isId, isConnecting⟩ := exists_of_inState isState
    have opened : Sole (world.setReadyState id .opened) := by
      apply sole.setReadyState
      intro other otherMem _ _
      rw [(sole.only_socket member).1] at otherMem
      rw [mem_singleton.mp otherMem]
      intro isClosing
      rw [isClosing] at isConnecting
      simp at isConnecting
    exact ⟨opened.activity, opened.live, opened.running, opened.asked, opened.closedByUser,
      opened.channel⟩
  | message id kind =>
    obtain ⟨-, ⟨⟩⟩ := ite_none_right_eq_some.mp handled
    exact ⟨sole.activity, sole.live, sole.running, sole.asked, sole.closedByUser, sole.channel⟩
  | socketClose id =>
    obtain ⟨isState, ⟨⟩⟩ := ite_none_right_eq_some.mp handled
    obtain ⟨socket, member, rfl, -⟩ := exists_of_inState isState
    obtain ⟨isSocket, noTimer, noRequest⟩ := sole.only_socket member
    have noSocket : (world.sockets.filter fun other => other.id ≠ socket.id) = [] := by
      simp [isSocket]
    exact sole_scheduleReconnect ⟨noSocket, noTimer, noRequest⟩ sole.closedByUser sole.channel
  | socketError id =>
    obtain ⟨-, ⟨⟩⟩ := ite_none_right_eq_some.mp handled
    exact sole.setReadyState fun _ _ _ isOther => absurd rfl isOther

theorem same_scheduleReconnect : (world.scheduleReconnect maxAttempts).delivered = world.delivered ∧
      (world.scheduleReconnect maxAttempts).nextSocket = world.nextSocket := by
  unfold World.scheduleReconnect
  simp only []
  split
  · exact ⟨rfl, rfl⟩
  · split
    · exact ⟨rfl, rfl⟩
    · exact ⟨rfl, rfl⟩

theorem same_disconnect : world.disconnect.delivered = world.delivered ∧
      world.disconnect.nextSocket = world.nextSocket := by
  unfold World.disconnect World.clearReconnectTimer World.closeCurrent
  simp only []
  split
  · split
    · exact ⟨rfl, rfl⟩
    · exact ⟨rfl, rfl⟩
  · split
    · exact ⟨rfl, rfl⟩
    · exact ⟨rfl, rfl⟩

theorem same_requestTicket : world.requestTicket.delivered = world.delivered ∧
      world.requestTicket.nextSocket = world.nextSocket := by
  unfold World.requestTicket
  split
  · exact ⟨rfl, rfl⟩
  · exact ⟨rfl, rfl⟩

theorem proper_of_same (same : after.delivered = world.delivered ∧
    after.nextSocket = world.nextSocket) : Proper world event after :=
  ⟨.inl same.1, fun _ _ => same.2⟩

theorem Sole.proper_message (sole : Sole world) {kind : Option String}
    (isOpen : world.inState id [.opened] = true)
    (isAfter : after = { world with delivered :=
      ((kind.filter isRealtimeEvent).toList.map fun kind => (id, kind)) ++ world.delivered }) :
    Proper world (.message id kind) after := by
  subst isAfter
  obtain ⟨socket, member, rfl, isState⟩ := exists_of_inState isOpen
  refine ⟨?_, fun _ _ => rfl⟩
  cases isKind : kind.filter isRealtimeEvent with
  | none => exact .inl rfl
  | some given =>
    right
    have isOpened : socket.readyState = .opened := by simpa using isState
    refine ⟨socket, member, ?_, ?_, given, rfl⟩
    · intro isClosing
      rw [isOpened] at isClosing
      cases isClosing
    · intro other otherMem _
      rw [(sole.only_socket member).1] at otherMem
      exact mem_singleton.mp otherMem

theorem Sole.proper (sole : Sole world)
    (handled : world.handle maxAttempts event = some after) : Proper world event after := by
  cases event with
  | connect channelId ticket =>
    obtain ⟨-, ⟨⟩⟩ := ite_none_right_eq_some.mp handled
    exact ⟨.inl rfl, fun _ isOther => absurd rfl (isOther channelId ticket)⟩
  | disconnect =>
    cases handled
    exact proper_of_same same_disconnect
  | timer timer =>
    obtain ⟨-, ⟨⟩⟩ := ite_none_right_eq_some.mp handled
    exact proper_of_same same_requestTicket
  | resolved request ticket =>
    obtain ⟨-, ⟨⟩⟩ := ite_none_right_eq_some.mp handled
    split
    · exact proper_of_same ⟨rfl, rfl⟩
    · rename_i goesOn
      refine ⟨.inl rfl, ?_⟩
      intro isEnded _
      exact absurd (sole.closedByUser.trans isEnded) goesOn
  | rejected request channelId | socketClose id =>
    obtain ⟨-, ⟨⟩⟩ := ite_none_right_eq_some.mp handled
    exact proper_of_same same_scheduleReconnect
  | socketOpen id | socketError id =>
    obtain ⟨-, ⟨⟩⟩ := ite_none_right_eq_some.mp handled
    exact proper_of_same ⟨rfl, rfl⟩
  | message id kind =>
    simp only [World.handle, ite_none_right_eq_some, Option.some.injEq] at handled
    obtain ⟨isOpen, isAfter⟩ := handled
    exact sole.proper_message isOpen isAfter.symm

theorem Sole.reachable (reached : Reachable maxAttempts connectsAfresh world) : Sole world := by
  induction reached with
  | refl => exact sole_of_over ⟨rfl, rfl, rfl⟩ rfl fun _ => rfl
  | tail _ step ih =>
    obtain ⟨event, afresh, handled⟩ := step
    exact ih.handle afresh handled

/-- A client that is connected afresh each time has at most one socket. -/
theorem singleSocket_of_connectsAfresh (maxAttempts : Nat) :
    SingleSocket connectsAfresh maxAttempts := by
  intro world reached
  have sole := Sole.reachable reached
  exact ⟨sole.single, fun _ _ _ handled => sole.proper handled⟩

def ticketFor (channelId : String) : WsTicketResponse :=
  ⟨channelId, "ticket", "wss://chat-rt.developershub.jp/ws"⟩

/-- Handle events in order; `none` when the platform would not make one of them. -/
def World.handleAll (world : World) (maxAttempts : Nat) (events : List Event) : Option World :=
  events.foldlM (fun world event => world.handle maxAttempts event) world

theorem reachable_of_handleAll {events : List Event}
    {start : World} (reached : Reachable maxAttempts (fun _ _ => True) start)
    (handled : start.handleAll maxAttempts events = some world) :
    Reachable maxAttempts (fun _ _ => True) world := by
  induction events generalizing start with
  | nil =>
    cases handled
    exact reached
  | cons event events ih =>
    rw [World.handleAll, foldlM_cons] at handled
    obtain ⟨middle, first, rest⟩ := bind_eq_some_iff.mp handled
    exact ih (reached.tail ⟨event, trivial, first⟩) rest

/-- A ticket that was asked for before `disconnect` comes after the next `connect`: the
client has two sockets, of which one is for the channel before. -/
theorem not_singleSocket : ¬SingleSocket (fun _ _ => True) 0 := by
  intro single
  have handled : ∃ world, World.initial.handleAll 0 [.connect "chn_a" (ticketFor "chn_a"),
      .socketClose 0, .timer 0, .disconnect, .connect "chn_b" (ticketFor "chn_b"),
      .resolved 0 (ticketFor "chn_a")] = some world ∧ ∃ socket ∈ world.sockets, socket.isLive ∧
          world.latest ≠ some socket.ticket.channelId := by
    refine ⟨_, rfl, ⟨2, ticketFor "chn_a", .connecting⟩, ?_, nofun, ?_⟩
    · decide
    · decide
  obtain ⟨world, handled, socket, member, isLive, notLatest⟩ := handled
  have reached := reachable_of_handleAll .refl handled
  exact notLatest ((single world reached).1.current socket member isLive)

end DubEcosystem.ChatSocket
