import IamRust.L0Core.Interleave
import IamRust.L3Service.System
import IamRust.L6Client.LocalStore

/-!
# The outbox

`send_pending_message` caches and enqueues a message before it sends it;
`flush_ready_outbox` sends the entries that are due, again and again until the
server answers. Calls run side by side against one store and one server, and
are cut off by a restart at any of their steps. A request that the client has
given up may still reach the server, once.

One user is signed in; `pending i` is the `i`-th message the user composes.
-/
namespace IamRust

open Core

/-! ## The calls -/

/-- The request of the desktop client.
mirrors apps/desktop/src/ui.rs:6960-6967 -/
def Message.sendRequest (pending : Message) : SendMessageRequest where
  clientMessageId := pending.clientMessageId
  content := pending.content
  replyTo := pending.replyTo
  mentions := []
  mentionAll := false
  expiresInSeconds := none

/-- mirrors crates/domain/src/message.rs:182-191 -/
def Message.markFailed (m : Message) : Except DomainError Message :=
  if m.status ≠ .pending then .error (.invalidTransition "final" "failed")
  else .ok { m with status := .failed }

abbrev OutboxEntry := MessageId × OutboxRow (Option SendMessageRequest)

/-- The message a call works on: its copy, in `send_pending_message`; the entries behind it, in
`flush_ready_outbox`. -/
structure OutboxItem where
  own : Option Message
  clientMessageId : MessageId
  rest : List OutboxEntry

/-- Where a call is. `marking` and `failing` are about to cache a copy. -/
inductive OutboxTask where
  | idle
  | enqueueing (pending : Message)
  | posting (item : OutboxItem) (conversationId : ConversationId) (request : SendMessageRequest)
  | answered (item : OutboxItem) (conversationId : ConversationId) (ack : MessageAck)
  | marking (item : OutboxItem) (copy : Message)
  | acknowledging (item : OutboxItem)
  | failing (item : OutboxItem) (copy : Message)
  | counting (item : OutboxItem)
  | rescheduling (item : OutboxItem) (attempts : Nat)
  | done

/-- `late` are the requests on their way that nobody waits for. -/
structure OutboxState where
  world : World
  cache : Cache
  late : List (ConversationId × SendMessageRequest)

/-- A call's own step: `ok` says whether the local database works. A request is answered, or it or
its answer is lost. A restart ends the call. Of the others: a transaction of the server, a late
request, what the user asks for, and what other calls write to the other tables. -/
inductive OutboxStep where
  | next (ok : Bool) (random : Nat) (now : DateTime)
  | answer (now : DateTime)
  | lose
  | restart
  | server (op : Op)
  | late (i : Nat) (now : DateTime)
  | retry (clientMessageId : MessageId) (now : DateTime)
  | discard (clientMessageId : MessageId)
  | clear
  | write (f : Cache → Cache)

/-- Who takes a step: the call that sends a composed message, a flush, or somebody else. -/
inductive OutboxParty (ι φ : Type) where
  | sender (i : ι)
  | flush (f : φ)
  | others
  deriving DecidableEq

/-- An entry whose payload is not its own request is dropped.
mirrors apps/desktop/src/ui.rs:6834-6858 -/
def OutboxTask.begin : List OutboxEntry → OutboxTask
  | [] => .idle
  | (clientMessageId, row) :: rest =>
    match row.payload with
    | none => .acknowledging ⟨none, clientMessageId, rest⟩
    | some request =>
      if request.clientMessageId = clientMessageId then
        .posting ⟨none, clientMessageId, rest⟩ row.conversationId request
      else .acknowledging ⟨none, clientMessageId, rest⟩

namespace OutboxItem

/-- Behind the message. -/
def after (item : OutboxItem) : OutboxTask :=
  match item.own with
  | some _ => .done
  | none => .begin item.rest

/-- The call failed.
mirrors apps/desktop/src/ui.rs:7012-7019, 6887-6891 -/
def failed (item : OutboxItem) : OutboxTask :=
  match item.own with
  | some pending => .failing item (pending.markFailed.toOption.getD pending)
  | none => .counting item

/-- The copy with the server's id and sequence; a flush looks it up in the cache.
mirrors apps/desktop/src/ui.rs:6860-6876, 6988-6999 -/
def marked (item : OutboxItem) (s : Cache) (conversationId : ConversationId) (ack : MessageAck)
    (ok : Bool) : OutboxTask :=
  match item.own with
  | some pending =>
    match ({ pending with id := ack.messageId }).markSent ack.sequence ack.serverTime with
    | .ok copy => .marking item copy
    | .error _ => .done
  | none =>
    match ok, (loadMessages s conversationId).find? (·.clientMessageId == item.clientMessageId) with
    | true, some found =>
      match ({ found with id := ack.messageId }).markSent ack.sequence ack.serverTime with
      | .ok copy => .marking item copy
      | .error _ => .acknowledging item
    | _, _ => .acknowledging item

end OutboxItem

/-- A transaction of the local database, if it works. -/
def OutboxState.commit (s : OutboxState) (ok : Bool) (t : Tx String Cache Unit) : OutboxState :=
  if ok then { s with cache := (t.commit s.cache).2 } else s

section
variable {ι φ : Type} (env : Env) (user : UserId)
  (rfc3339 : DateTime → String) (keyed : Bool)

/-- mirrors apps/desktop/src/ui.rs:6818-6899, 6954-7036 -/
def OutboxTask.next (start : Option Message) (s : OutboxState) (ok : Bool) (random : Nat)
    (now : DateTime) : OutboxTask → Option (OutboxState × OutboxTask)
  | .idle =>
    match start with
    | some pending =>
      some (s.commit ok (cacheMessages rfc3339 keyed [pending]), .enqueueing pending)
    | none => some (s, if ok then .begin (readyOutbox rfc3339 s.cache now) else .idle)
  | .enqueueing pending =>
    some (s.commit ok (enqueueOutbox rfc3339 pending.clientMessageId pending.conversationId
        (some pending.sendRequest) now),
      .posting ⟨some pending, pending.clientMessageId, []⟩ pending.conversationId
        pending.sendRequest)
  | .posting _ _ _ => none
  | .answered item conversationId ack => some (s, item.marked s.cache conversationId ack ok)
  | .marking item copy =>
    some (s.commit ok (cacheMessages rfc3339 keyed [copy]), .acknowledging item)
  | .acknowledging item => some (s.commit ok (acknowledgeOutbox item.clientMessageId), item.after)
  | .failing item copy => some (s.commit ok (cacheMessages rfc3339 keyed [copy]), .counting item)
  | .counting item =>
    match ok, outboxAttempts s.cache item.clientMessageId "send_failed" with
    | true, .ok attempts => some (s, .rescheduling item attempts)
    | _, _ => some (s, item.after)
  | .rescheduling item attempts =>
    some (s.commit ok (rescheduleOutbox rfc3339 item.clientMessageId "send_failed" attempts random
      now), item.after)
  | .done => none

/-- The server takes the request. -/
def OutboxTask.answer (s : OutboxState) (now : DateTime) :
    OutboxTask → Option (OutboxState × OutboxTask)
  | .posting item conversationId request =>
    let r := (sendMessageRequest env user conversationId request now).commit s.world
    some ({ s with world := r.2 }, match r.1 with
      | .ok a => .answered item conversationId a.2
      | .error _ => item.failed)
  | _ => none

/-- A request that is given up may still be on its way. -/
def OutboxTask.lose (s : OutboxState) : OutboxTask → Option (OutboxState × OutboxTask)
  | .posting item conversationId request =>
    some ({ s with late := (conversationId, request) :: s.late }, item.failed)
  | .answered item _ _ => some (s, item.failed)
  | _ => none

def OutboxTask.restart (start : Option Message) (s : OutboxState) (t : OutboxTask) :
    OutboxState × OutboxTask :=
  (match t with
    | .posting _ conversationId request =>
      { s with late := (conversationId, request) :: s.late }
    | _ => s,
  match start, t with
  | some _, .idle | none, _ => .idle
  | some _, _ => .done)

def OutboxTask.step (start : Option Message) (s : OutboxState) (t : OutboxTask) :
    OutboxStep → Option (OutboxState × OutboxTask)
  | .next ok random now => t.next rfc3339 keyed start s ok random now
  | .answer now => t.answer env user s now
  | .lose => t.lose s
  | .restart => some (t.restart start s)
  | _ => none

/-- The steps of the others. -/
def OutboxState.others (s : OutboxState) : OutboxStep → Option OutboxState
  | .server op => some { s with world := ((op.run env).commit s.world).2 }
  | .late i now =>
    match s.late[i]? with
    | none => none
    | some (conversationId, request) => some { s with
        world := ((sendMessageRequest env user conversationId request now).commit s.world).2
        late := s.late.eraseIdx i }
  | .retry clientMessageId now => some (s.commit true (retryOutboxNow rfc3339 clientMessageId now))
  | .discard clientMessageId => some (s.commit true (discardPendingMessage clientMessageId))
  | .clear => some (s.commit true clearAccountCache)
  | .write f => some { s with cache := { f s.cache with outbox := s.cache.outbox } }
  | _ => none

/-- Any number of calls; `pending i` is the `i`-th message the user composes. -/
def sendingOutbox (pending : ι → Message) : Threads (OutboxParty ι φ) OutboxState OutboxTask
    OutboxStep where
  init s f := s.world = World.init ∧ s.cache.outbox = .empty ∧ s.late = [] ∧ ∀ p, f p = .idle
  step p s t l :=
    match p with
    | .sender i => t.step env user rfc3339 keyed (some (pending i)) s l
    | .flush _ => t.step env user rfc3339 keyed none s l
    | .others => (s.others env user rfc3339 l).map fun s' => (s', t)

end

end IamRust
