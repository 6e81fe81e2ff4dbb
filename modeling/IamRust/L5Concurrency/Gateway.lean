import IamRust.L0Core.Interleave
import IamRust.L3Service.Signals
import IamRust.L4Properties.Suspension

/-!
# The server's tasks

What runs on the server at the same time: requests, sockets and the delivery
worker, one atomic step at a time. A request is authenticated when it arrives and
takes the lock later. A socket is opened with a ticket; the ticket is obtained by
a request, and from then on only the user it names counts: nobody asks for the
session again. A transaction and the channels it feeds are as in the service.

`session` in a ticket and a socket says whose request obtained the ticket. The
code does not keep it, and no step looks at it.
-/
namespace IamRust

open Core

/-! ## Frames -/

/-- mirrors crates/protocol/src/lib.rs:654-687 -/
inductive ClientFrame where
  | hello (protocolVersion : Nat) (clientVersion accessToken : String) (lastCursor : Nat)
  | ping (nonce : Uuid)
  | sendMessage (requestId : Uuid) (conversationId : ConversationId)
    (message : SendMessageRequest)
  | markRead (requestId : Uuid) (conversationId : ConversationId) (throughSequence : Nat)
  | typing (conversationId : ConversationId) (active : Bool)
  | callSignal (conversationId : ConversationId) (callId : Uuid) (target : Option UserId)
    (signal : CallSignal)

/-- The two codes a socket answers with. -/
inductive ErrorCode where
  | validation | protocolMismatch
  deriving DecidableEq, Repr

/-- What the server sends. A `Close` frame is never sent.
mirrors crates/protocol/src/lib.rs:689-728 -/
inductive ServerFrame where
  | welcome (protocolVersion : Nat) (userId : UserId) (serverTime : DateTime)
    (latestCursor : Nat)
  | pong (nonce : Uuid)
  | ack (requestId : Uuid) (ack : MessageAck)
  | event (event : SyncEvent)
  | typing (signal : TypingSignal)
  | callSignal (delivery : CallSignalDelivery)
  | error (requestId : Option Uuid) (code : ErrorCode) (messageKey : String)

/-- mirrors crates/protocol/src/lib.rs:13 -/
def wsProtocolVersion : Nat := 1

/-- mirrors apps/server/src/websocket.rs:219-235 -/
def protocolError (requestId : Option Uuid) (key : String) : ServerFrame :=
  .error requestId (if key = "protocol_mismatch" then .protocolMismatch else .validation)
    ("error." ++ key)

/-! ## What the tasks share -/

/-- The monotonic clock. -/
abbrev Instant := Nat

/-- mirrors apps/server/src/api.rs:181-185 -/
structure WebSocketTicket where
  userId : UserId
  expiresAt : Instant
  session : TokenRecord

/-- mirrors apps/server/src/api.rs:2154 -/
def ticketTtl : Instant := 30 * 1000000000

/-- `sent`: how many events of the log are on the channel. -/
structure Gateway where
  world : World
  sent : Nat
  typing : List (List UserId × TypingSignal)
  calls : List (List UserId × CallSignalDelivery)
  callRooms : CallRooms
  connections : Connections
  tickets : Map Uuid WebSocketTicket
  clock : Instant

/-- `Receiver::recv` at a place of a channel that keeps so many entries: the next entry, if it is
still there. A receiver too far behind loses its oldest entries instead. -/
def recv {α : Type} (capacity : Nat) (channel : List α) (next : Nat) : Option (Option α × Nat) :=
  if capacity < channel.length - next then some (none, channel.length - capacity)
  else (channel[next]?).map fun a => (some a, next + 1)

/-! ## Tasks -/

/-- What a request with a session asks for: a transaction, or a ticket. -/
inductive Request where
  | call (op : Op)
  | ticket

/-- An open socket: the places of its receivers, and the frames it was sent. -/
structure Socket where
  userId : UserId
  session : TokenRecord
  events : Nat
  typing : Nat
  calls : Nat
  outgoing : List ServerFrame

/-- Where a task is. -/
inductive Task where
  | idle
  | requesting (session : TokenRecord) (request : Request)
  | upgrading (userId : UserId) (session : TokenRecord)
  | counted (userId : UserId) (session : TokenRecord) (first : Bool)
  | refused (userId : UserId)
  | opened (userId : UserId) (session : TokenRecord)
  | subscribed (socket : Socket)
  | serving (socket : Socket)
  | handling (socket : Socket) (frame : Option ClientFrame)
  | closing (userId : UserId)
  | uncounted (userId : UserId) (last : Bool)
  | delivering (due : List ScheduledMessage) (now : DateTime)
  | delivered (id : Uuid) (due : List ScheduledMessage) (now : DateTime)

inductive TaskStep where
  | wait (d : Instant)
  | publish
  | drop
  | transaction (op : Op)
  | authenticate (accessToken : String) (request : Request) (now : DateTime)
  | call
  | issueTicket (ticket : Uuid)
  | upgrade (ticket : Uuid)
  | count
  | presence (now : DateTime)
  | subscribe
  | welcome (now : DateTime)
  | receiveEvent
  | receiveTyping
  | receiveCall
  | frame (frame : Option ClientFrame)
  | binary
  | handle (now : DateTime)
  | hangUp
  | due (now : DateTime)
  | deliver
  | removeDelivered

/-- Requests that need no session, the administrator's, and the cleanup worker's. -/
def Op.isPublic : Op → Bool
  | .register _ _ | .loginWithSecondFactor _ _ _ | .pollQrLogin _ _ _ _ _ | .refresh _ _
  | .logout _ | .requestPasswordReset _ _ | .resetPassword _ _ _ | .adminSetUserSuspended _ _ _
  | .adminRevokeUserSessions _ _ | .cleanupExpiredAttachments _ => true
  | _ => false

/-- The handler passes the user of the session as the actor. -/
def Request.admits (userId : UserId) : Request → Bool
  | .call op => op.actor == some userId
  | .ticket => true

section
variable (env : Env)

/-- The service after a frame, and the answer. `none`: the text is no frame.
mirrors apps/server/src/websocket.rs:144-208 -/
def Gateway.handleFrame (g : Gateway) (userId : UserId) (now : DateTime) :
    Option ClientFrame → Gateway × List ServerFrame
  | none => (g, [protocolError none "invalid_frame"])
  | some (.hello protocolVersion _ _ _) =>
    if protocolVersion ≠ wsProtocolVersion then (g, [protocolError none "protocol_mismatch"])
    else (g, [])
  | some (.typing conversationId active) =>
    match publishTyping g.world.toStore userId conversationId active now with
    | .error _ => (g, [protocolError none "typing_forbidden"])
    | .ok signal => ({ g with typing := g.typing ++ [signal] }, [])
  | some (.callSignal conversationId callId target signal) =>
    match publishCallSignal g.world.toStore userId conversationId callId target signal now
        g.callRooms with
    | (.error _, rooms) =>
      ({ g with callRooms := rooms }, [protocolError none "call_signal_forbidden"])
    | (.ok deliveries, rooms) =>
      ({ g with callRooms := rooms, calls := g.calls ++ deliveries }, [])
  | some (.ping nonce) => (g, [.pong nonce])
  | some (.sendMessage requestId conversationId message) =>
    match sendMessageRequest env userId conversationId message now g.world with
    | .error _ => (g, [protocolError (some requestId) "send_failed"])
    | .ok ((_, ack), world) => ({ g with world := world }, [.ack requestId ack])
  | some (.markRead requestId conversationId throughSequence) =>
    match markRead env userId conversationId throughSequence now g.world with
    | .error _ => (g, [protocolError (some requestId) "mark_read_failed"])
    | .ok (_, world) => ({ g with world := world }, [])

/-- mirrors apps/server/src/api.rs:228-250 (`CurrentUser`) -/
def Gateway.authenticate (g : Gateway) (accessToken : String) (request : Request)
    (now : DateTime) : Option Task :=
  match authenticateIdentity env g.world.toStore accessToken now,
      g.world.accessTokens.get (hashToken env accessToken) with
  | .ok (userId, _), some session =>
    if request.admits userId then some (.requesting session request) else none
  | _, _ => none

/-- mirrors apps/server/src/api.rs:2149-2170 -/
def Gateway.issueTicket (g : Gateway) (session : TokenRecord) (ticket : Uuid) : Gateway :=
  let live := g.tickets.retain fun _ value => decide (value.expiresAt > g.clock)
  { g with tickets := live.insert ticket ⟨session.userId, g.clock + ticketTtl, session⟩ }

/-- An expired ticket is used up too.
mirrors apps/server/src/api.rs:2177-2188 -/
def Gateway.upgrade (g : Gateway) (ticket : Uuid) : Gateway × Task :=
  match g.tickets.get ticket with
  | none => (g, .idle)
  | some value =>
    ({ g with tickets := g.tickets.remove ticket },
      if value.expiresAt > g.clock then .upgrading value.userId value.session else .idle)

/-- A transaction, its result dropped. A failed one leaves the store as it was. -/
def Gateway.commit (g : Gateway) (op : Op) : Gateway :=
  { g with world := ((op.run env).commit g.world).2 }

def Socket.sending (socket : Socket) (frames : List ServerFrame) : Socket :=
  { socket with outgoing := socket.outgoing ++ frames }

/-- The frame for an entry of a channel, if there is an entry and it is for the user. -/
def Socket.forward {α : Type} (socket : Socket) (entry : Option α) (isFor : α → Bool)
    (frame : α → ServerFrame) : Socket :=
  socket.sending ((entry.filter isFor).map frame).toList

/-- What one task can do. The message of a schedule is sent for its author, then the schedule is
removed.
mirrors apps/server/src/websocket.rs:12-107, apps/server/src/api.rs:2149-2214,
crates/application/src/service.rs:587-630, 3490-3532 -/
def Task.step (g : Gateway) : Task → TaskStep → Option (Gateway × Task)
  | task, .wait d => some ({ g with clock := g.clock + d }, task)
  | task, .publish =>
    if g.sent < g.world.events.length then some ({ g with sent := g.sent + 1 }, task) else none
  | .idle, .transaction op => if op.isPublic then some (g.commit env op, .idle) else none
  | .idle, .authenticate accessToken request now =>
    (g.authenticate env accessToken request now).map fun task => (g, task)
  | .requesting _ _, .drop => some (g, .idle)
  | .requesting _ (.call op), .call => some (g.commit env op, .idle)
  | .requesting session .ticket, .issueTicket ticket =>
    some (g.issueTicket session ticket, .idle)
  | .idle, .upgrade ticket => some (g.upgrade ticket)
  | .upgrading _ _, .drop => some (g, .idle)
  | .upgrading userId session, .count =>
    let counted := countConnection userId g.connections
    some ({ g with connections := counted.2 }, .counted userId session counted.1)
  | .counted userId session false, .presence _ => some (g, .opened userId session)
  | .counted userId session true, .presence now =>
    match setConnectionPresence env userId true now g.world with
    | .error _ => some (g, .refused userId)
    | .ok (_, world) => some ({ g with world := world }, .opened userId session)
  | .refused userId, .count => some ({ g with connections := g.connections.remove userId }, .idle)
  | .opened userId session, .subscribe =>
    some (g, .subscribed ⟨userId, session, g.sent, g.typing.length, g.calls.length, []⟩)
  | .subscribed socket, .welcome now =>
    some (g, .serving (socket.sending
      [.welcome wsProtocolVersion socket.userId now g.world.cursor]))
  | .subscribed socket, .hangUp => some (g, .closing socket.userId)
  | .serving socket, .receiveEvent =>
    (recv 512 (g.world.events.take g.sent) socket.events).map fun r =>
      (g, .serving ({ socket with events := r.2 }.forward r.1 (·.addressedTo socket.userId)
        fun entry => .event entry.event))
  | .serving socket, .receiveTyping =>
    (recv 256 g.typing socket.typing).map fun r =>
      (g, .serving ({ socket with typing := r.2 }.forward r.1 (·.1.contains socket.userId)
        fun entry => .typing entry.2))
  | .serving socket, .receiveCall =>
    (recv 512 g.calls socket.calls).map fun r =>
      (g, .serving ({ socket with calls := r.2 }.forward r.1 (·.1.contains socket.userId)
        fun entry => .callSignal entry.2))
  | .serving socket, .frame frame => some (g, .handling socket frame)
  | .serving socket, .binary =>
    some (g, .serving (socket.sending [protocolError none "binary_not_supported"]))
  | .serving socket, .hangUp => some (g, .closing socket.userId)
  | .handling socket frame, .handle now =>
    let handled := g.handleFrame env socket.userId now frame
    some (handled.1, .serving (socket.sending handled.2))
  | .closing userId, .count =>
    let uncounted := uncountConnection userId g.connections
    some ({ g with connections := uncounted.2 }, .uncounted userId uncounted.1)
  | .uncounted _ false, .presence _ => some (g, .idle)
  | .uncounted userId true, .presence now =>
    some (g.commit env (.setConnectionPresence userId false now), .idle)
  | .idle, .due now =>
    some (g, .delivering
      (g.world.scheduledMessages.filter fun message => decide (message.scheduledFor ≤ now)) now)
  | .delivering [] _, .deliver => some (g, .idle)
  | .delivering (message :: due) now, .deliver =>
    match sendMessageRequest env message.actor message.conversationId message.request now
        g.world with
    | .error _ => some (g, .delivering due now)
    | .ok (_, world) => some ({ g with world := world }, .delivered message.id due now)
  | .delivered id due now, .removeDelivered =>
    some (g.commit env (.removeScheduledMessage id), .delivering due now)
  | _, _ => none

end

/-- A server that has just started, with an empty store. -/
def Gateway.fresh (clock : Instant) : Gateway where
  world := World.init
  sent := 0
  typing := []
  calls := []
  callRooms := .empty
  connections := .empty
  tickets := .empty
  clock := clock

def gateway (ι : Type) (env : Env) : Threads ι Gateway Task TaskStep where
  init g tasks := (∃ clock, g = .fresh clock) ∧ ∀ i, tasks i = .idle
  step _ := Task.step env

/-! ## What a step can do -/

/-- A transaction that may store messages of its actor, or schedule them. -/
def Op.speaks : Op → Bool
  | .updateGroup _ _ _ _ | .addGroupMembers _ _ _ _ | .leaveGroup _ _ _
  | .updateGroupMember _ _ _ _ _ | .removeGroupMember _ _ _ _ | .transferGroupOwnership _ _ _ _
  | .setGroupMute _ _ _ _ | .createGroupAnnouncement _ _ _ _ | .decideGroupJoinRequest _ _ _ _
  | .createGroupPoll _ _ _ _ | .scheduleMessage _ _ _ | .sendMessageRequest _ _ _ _
  | .forwardMessages _ _ _ _ _ => true
  | _ => false

/-- The session the task has a socket by, or is about to. -/
def Task.session : Task → Option TokenRecord
  | .requesting session .ticket | .upgrading _ session | .counted _ session _
  | .opened _ session => some session
  | .subscribed socket | .serving socket | .handling socket _ => some socket.session
  | _ => none

/-- The task may still store or schedule messages for the user. -/
def Task.SpeaksFor (u : UserId) : Task → Prop
  | .requesting session (.call op) => session.userId = u ∧ op.speaks = true
  | .requesting session .ticket => session.userId = u
  | .upgrading userId _ | .counted userId _ _ | .opened userId _ => userId = u
  | .subscribed socket | .serving socket | .handling socket _ => socket.userId = u
  | .delivering due _ | .delivered _ due _ => ∃ message ∈ due, message.actor = u
  | _ => False

/-- The transaction the step runs. -/
def Task.Performs (op : Op) : Task → TaskStep → Prop
  | .idle, .transaction op' => op' = op ∧ op.isPublic = true
  | .requesting _ (.call op'), .call => op' = op
  | .handling socket _, .handle _ => op.actor = some socket.userId
  | .counted userId _ _, .presence now => op = .setConnectionPresence userId true now
  | .uncounted userId _, .presence now => op = .setConnectionPresence userId false now
  | .delivering (message :: _) now, .deliver =>
    op = .sendMessageRequest message.actor message.conversationId message.request now
  | .delivered id _ _, .removeDelivered => op = .removeScheduledMessage id
  | _, _ => False

/-- The task goes on for nobody new, by no other session. -/
structure Task.Continues (t t' : Task) : Prop where
  session : ∀ session, t'.session = some session → t.session = some session
  speaks : ∀ u, t'.SpeaksFor u → t.SpeaksFor u
  call : ∀ session op, t' = .requesting session (.call op) → t = t'

/-- What a step does, as far as sessions and messages go. -/
inductive Advances (env : Env) (g : Gateway) : Task → TaskStep → Gateway → Task → Prop where
  | quiet {t l g' t'} (hworld : g'.world = g.world) (htickets : g'.tickets = g.tickets)
    (hclock : g.clock ≤ g'.clock) (htask : t.Continues t') : Advances env g t l g' t'
  | ran {t l g' t' op} (hrun : (op.run env).Runs g.world () g'.world) (hop : t.Performs op l)
    (htickets : g'.tickets = g.tickets) (hclock : g.clock ≤ g'.clock)
    (htask : t.Continues t') : Advances env g t l g' t'
  | authenticated {accessToken request now userId deviceId session}
    (hok : authenticateIdentity env g.world.toStore accessToken now = .ok (userId, deviceId))
    (hsession : g.world.accessTokens.get (hashToken env accessToken) = some session)
    (hadmits : request.admits userId = true) :
    Advances env g .idle (.authenticate accessToken request now) g (.requesting session request)
  | issued {session ticket} : Advances env g (.requesting session .ticket) (.issueTicket ticket)
    (g.issueTicket session ticket) .idle
  | upgraded {ticket value} (hget : g.tickets.get ticket = some value)
    (hlive : g.clock < value.expiresAt) : Advances env g .idle (.upgrade ticket)
    { g with tickets := g.tickets.remove ticket } (.upgrading value.userId value.session)
  | expired {ticket} : Advances env g .idle (.upgrade ticket)
    { g with tickets := g.tickets.remove ticket } .idle
  | due {now} : Advances env g .idle (.due now) g (.delivering
    (g.world.scheduledMessages.filter fun message => decide (message.scheduledFor ≤ now)) now)

section
variable {env : Env} {g g' : Gateway} {t t' : Task} {l : TaskStep}

theorem Task.Continues.same (t : Task) : t.Continues t where
  session _ h := h
  speaks _ h := h
  call _ _ _ := rfl

/-- The task has no socket any more. -/
theorem Task.Continues.silent {t' : Task} (t : Task) (hsession : t'.session = none)
    (hspeaks : ∀ u, ¬ t'.SpeaksFor u)
    (hcall : ∀ session op, t' ≠ .requesting session (.call op)) : t.Continues t' where
  session _ h := by simp [hsession] at h
  speaks u h := absurd h (hspeaks u)
  call _ _ h := absurd h (hcall _ _)

theorem Task.Continues.idle (t : Task) : t.Continues .idle :=
  .silent t rfl (fun _ h => h) (by simp)

/-- A committed transaction ran, or left the world as it was. -/
theorem Advances.committed {op : Op} (hop : t.Performs op l) (htask : t.Continues t') :
    Advances env g t l (g.commit env op) t' := by
  have hcommit : (g.commit env op).world = g.world ∨
      (op.run env).Runs g.world () (g.commit env op).world := by
    unfold Gateway.commit Tx.commit
    dsimp only
    split
    · exact .inr ‹_›
    · exact .inl rfl
  rcases hcommit with hworld | hrun
  · exact .quiet hworld rfl (Nat.le_refl _) htask
  · exact .ran hrun hop rfl (Nat.le_refl _) htask

/-- A frame leaves the tickets alone; it runs a transaction of the socket's user, or none. -/
theorem handleFrame_cases (g : Gateway) (userId : UserId) (now : DateTime)
    (frame : Option ClientFrame) :
    (g.handleFrame env userId now frame).1.tickets = g.tickets ∧
    (g.handleFrame env userId now frame).1.clock = g.clock ∧
    ((g.handleFrame env userId now frame).1.world = g.world ∨
      ∃ op : Op, (op.run env).Runs g.world () (g.handleFrame env userId now frame).1.world ∧
        op.actor = some userId) := by
  cases frame with
  | none => exact ⟨rfl, rfl, .inl rfl⟩
  | some frame =>
    cases frame <;> dsimp only [Gateway.handleFrame]
    case hello protocolVersion clientVersion accessToken lastCursor =>
      split <;> exact ⟨rfl, rfl, .inl rfl⟩
    case ping nonce => exact ⟨rfl, rfl, .inl rfl⟩
    case sendMessage requestId conversationId message =>
      split
      · exact ⟨rfl, rfl, .inl rfl⟩
      · rename_i m ack world hr
        exact ⟨rfl, rfl, .inr ⟨.sendMessageRequest userId conversationId message now,
          Tx.runs_void.mpr ⟨_, hr⟩, rfl⟩⟩
    case markRead requestId conversationId throughSequence =>
      split
      · exact ⟨rfl, rfl, .inl rfl⟩
      · rename_i u world hr
        exact ⟨rfl, rfl, .inr ⟨.markRead userId conversationId throughSequence now,
          Tx.runs_void.mpr ⟨_, hr⟩, rfl⟩⟩
    case typing conversationId active => split <;> exact ⟨rfl, rfl, .inl rfl⟩
    case callSignal conversationId callId target signal =>
      split <;> exact ⟨rfl, rfl, .inl rfl⟩

/-- The task goes on with the socket it has. -/
theorem Task.Continues.of_eq {t t' : Task} (hsession : t'.session = t.session)
    (hspeaks : ∀ u, t'.SpeaksFor u = t.SpeaksFor u)
    (hcall : ∀ session op, t' ≠ .requesting session (.call op)) : t.Continues t' where
  session _ h := hsession ▸ h
  speaks u h := hspeaks u ▸ h
  call _ _ h := absurd h (hcall _ _)

theorem advances_of_step (h : t.step env g l = some (g', t')) : Advances env g t l g' t' := by
  have hle := Nat.le_refl g.clock
  unfold Task.step at h
  split at h
  · cases h
    exact .quiet rfl rfl (Nat.le_add_right ..) (.same _)
  · split at h <;> cases h
    exact .quiet rfl rfl hle (.same _)
  · split at h <;> cases h
    exact .committed ⟨rfl, ‹_›⟩ (.idle _)
  · obtain ⟨task, htask, heq⟩ := Option.map_eq_some_iff.mp h
    cases heq
    unfold Gateway.authenticate at htask
    split at htask
    · split at htask <;> cases htask
      exact .authenticated ‹_› ‹_› ‹_›
    · cases htask
  · cases h
    exact .quiet rfl rfl hle (.idle _)
  · cases h
    exact .committed rfl (.idle _)
  · cases h
    exact .issued
  · unfold Gateway.upgrade at h
    split at h
    · cases h
      exact .quiet rfl rfl hle (.idle _)
    · split at h <;> cases h
      · exact .upgraded ‹_› ‹_›
      · exact .expired
  · cases h
    exact .quiet rfl rfl hle (.idle _)
  · cases h
    exact .quiet rfl rfl hle (.of_eq rfl (fun _ => rfl) (by simp))
  · cases h
    exact .quiet rfl rfl hle (.of_eq rfl (fun _ => rfl) (by simp))
  · split at h <;> cases h
    · exact .quiet rfl rfl hle (.silent _ rfl (fun _ h => h) (by simp))
    · rename_i userId session now _ u world hr
      have hrun : ((Op.setConnectionPresence userId true now).run env).Runs g.world () world :=
        Tx.runs_void.mpr ⟨u, hr⟩
      exact .ran hrun rfl rfl hle (.of_eq rfl (fun _ => rfl) (by simp))
  · cases h
    exact .quiet rfl rfl hle (.idle _)
  · cases h
    exact .quiet rfl rfl hle (.of_eq rfl (fun _ => rfl) (by simp))
  · cases h
    exact .quiet rfl rfl hle (.of_eq rfl (fun _ => rfl) (by simp))
  · cases h
    exact .quiet rfl rfl hle (.silent _ rfl (fun _ h => h) (by simp))
  · obtain ⟨r, -, heq⟩ := Option.map_eq_some_iff.mp h
    cases heq
    exact .quiet rfl rfl hle (.of_eq rfl (fun _ => rfl) (by simp))
  · obtain ⟨r, -, heq⟩ := Option.map_eq_some_iff.mp h
    cases heq
    exact .quiet rfl rfl hle (.of_eq rfl (fun _ => rfl) (by simp))
  · obtain ⟨r, -, heq⟩ := Option.map_eq_some_iff.mp h
    cases heq
    exact .quiet rfl rfl hle (.of_eq rfl (fun _ => rfl) (by simp))
  · cases h
    exact .quiet rfl rfl hle (.of_eq rfl (fun _ => rfl) (by simp))
  · cases h
    exact .quiet rfl rfl hle (.of_eq rfl (fun _ => rfl) (by simp))
  · cases h
    exact .quiet rfl rfl hle (.silent _ rfl (fun _ h => h) (by simp))
  · rename_i socket frame now
    cases h
    obtain ⟨htickets, hclock, hworld | ⟨op, hrun, hop⟩⟩ :=
      @handleFrame_cases env g socket.userId now frame
    · exact .quiet hworld htickets (Nat.le_of_eq hclock.symm)
        (.of_eq rfl (fun _ => rfl) (by simp))
    · exact .ran hrun hop htickets (Nat.le_of_eq hclock.symm)
        (.of_eq rfl (fun _ => rfl) (by simp))
  · cases h
    exact .quiet rfl rfl hle (.silent _ rfl (fun _ h => h) (by simp))
  · cases h
    exact .quiet rfl rfl hle (.idle _)
  · cases h
    exact .committed rfl (.idle _)
  · cases h
    exact .due
  · cases h
    exact .quiet rfl rfl hle (.idle _)
  · rename_i message due now
    have htask : ∀ id, (Task.delivering (message :: due) now).Continues (.delivered id due now) :=
      fun id => ⟨fun _ h => h, fun u ⟨m, hm, hu⟩ => ⟨m, List.mem_cons_of_mem _ hm, hu⟩, by simp⟩
    split at h <;> cases h
    · exact .quiet rfl rfl hle
        ⟨fun _ h => h, fun u ⟨m, hm, hu⟩ => ⟨m, List.mem_cons_of_mem _ hm, hu⟩, by simp⟩
    · rename_i r world hr
      have hrun : ((Op.sendMessageRequest message.actor message.conversationId message.request
          now).run env).Runs g.world () world := Tx.runs_void.mpr ⟨r, hr⟩
      exact .ran hrun rfl rfl hle (htask _)
  · cases h
    exact .committed rfl (.of_eq rfl (fun _ => rfl) (by simp))
  · cases h

theorem Advances.clock_le (h : Advances env g t l g' t') : g.clock ≤ g'.clock := by
  cases h with
  | quiet _ _ hclock => exact hclock
  | ran _ _ _ hclock => exact hclock
  | authenticated => exact Nat.le_refl _
  | issued => exact Nat.le_refl _
  | upgraded => exact Nat.le_refl _
  | expired => exact Nat.le_refl _
  | due => exact Nat.le_refl _

/-- Where a ticket comes from. -/
theorem Advances.ticket_source (h : Advances env g t l g' t') {k : Uuid} {value : WebSocketTicket}
    (hget : g'.tickets.get k = some value) : g.tickets.get k = some value ∨
      t = .requesting value.session .ticket ∧ value.userId = value.session.userId := by
  cases h with
  | quiet _ htickets => exact .inl (htickets ▸ hget)
  | ran _ _ htickets => exact .inl (htickets ▸ hget)
  | issued =>
    dsimp only [Gateway.issueTicket] at hget
    rw [Map.get_insert] at hget
    split at hget
    · cases hget
      exact .inr ⟨rfl, rfl⟩
    · exact .inl (Map.get_of_retain hget)
  | authenticated => exact .inl hget
  | upgraded => exact .inl (Map.get_of_remove hget)
  | expired => exact .inl (Map.get_of_remove hget)
  | due => exact .inl hget

/-- Where the session of a task comes from: a ticket, or a token that is not revoked. -/
theorem Advances.session_source (h : Advances env g t l g' t') {session : TokenRecord}
    (hs : t'.session = some session) : t.session = some session ∨
      (∃ k value, g.tickets.get k = some value ∧ g.clock < value.expiresAt ∧
        value.session = session) ∨
      ∃ accessToken request now, l = .authenticate accessToken request now ∧
        g.world.accessTokens.get (hashToken env accessToken) = some session ∧
        session.revoked = false := by
  cases h with
  | quiet _ _ _ htask => exact .inl (htask.session _ hs)
  | ran _ _ _ _ htask => exact .inl (htask.session _ hs)
  | @authenticated _ request _ _ _ _ hok hsession =>
    cases request with
    | call op => cases hs
    | ticket =>
      cases hs
      obtain ⟨r, hr, -, hlive, -⟩ := authenticateIdentity_ok.mp hok
      cases hsession.symm.trans hr
      exact .inr (.inr ⟨_, _, _, rfl, hsession, hlive⟩)
  | issued => cases hs
  | upgraded hget hlive => exact .inr (.inl ⟨_, _, hget, hlive, Option.some.inj hs⟩)
  | expired => cases hs
  | due => cases hs

end

/-- A state that a schedule leads a fresh server to. -/
theorem gateway_reaches {ι : Type} [DecidableEq ι] (env : Env) (ls : List (ι × TaskStep))
    (p : Gateway × (ι → Task) → Bool)
    (h : (LTS.exec (gateway ι env).next ls (.fresh 0, fun _ => .idle)).any p = true) :
    ∃ x, (gateway ι env).lts.Reachable x ∧ p x = true :=
  (gateway ι env).reaches _ ⟨⟨0, rfl⟩, fun _ => rfl⟩ ls p h

end IamRust
