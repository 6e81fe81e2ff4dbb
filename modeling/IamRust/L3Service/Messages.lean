import IamRust.L3Service.Settings
import Mathlib.Data.Finset.Sort

/-!
# Message operations and sync

The operations of service.rs on stored messages, and the page of the event log
a client reads with `sync`.
-/
namespace IamRust

open Core
open Core.Tx (failIf okOr ofExcept whenTrue whenSome forEach mapEach)

structure SyncResponse where
  events : List SyncEvent
  nextCursor : Nat
  hasMore : Bool

def maxSyncPage : Nat := 500

/-- What a recall leaves of a message.
mirrors crates/application/src/service.rs:3819-3823 -/
def Message.recalled (message : Message) (now : DateTime) : Message :=
  { message with
    status := .recalled
    content := .system "消息已撤回"
    editedAt := some now }

/-- The first message of the list with the id, recalled in place. -/
def recallIn (messageId : MessageId) (now : DateTime) : List Message → List Message
  | [] => []
  | m :: ms => if m.id = messageId then m.recalled now :: ms else m :: recallIn messageId now ms

/-- mirrors crates/application/src/service.rs:3860-3867 -/
def react (reactions : Map String (Finset UserId)) (emoji : String) (actor : UserId)
    (active : Bool) : Map String (Finset UserId) :=
  (reactions.upsert emoji ∅ fun users => if active then insert actor users else users.erase actor)
    |>.retain fun _ users => decide (users ≠ ∅)

section
variable (env : Env)

/-- The check of the expiry comes before the transaction.
mirrors crates/application/src/service.rs:3559-3578 -/
def sendMessageRequest (actor : UserId) (conversationId : ConversationId)
    (request : SendMessageRequest) (now : DateTime) : Service (Message × MessageAck) := do
  failIf (invalidExpiry request.expiresInSeconds) (invalid "expires_in_seconds" "invalid_range")
  sendMessageInStore env actor conversationId request now

/-- The request of a scheduled message that is due.
mirrors crates/application/src/service.rs:3507-3514 -/
def ScheduledMessage.request (scheduled : ScheduledMessage) : SendMessageRequest where
  clientMessageId := scheduled.clientMessageId
  content := scheduled.content
  replyTo := scheduled.replyTo
  mentions := scheduled.mentions
  mentionAll := scheduled.mentionAll
  expiresInSeconds := scheduled.expiresInSeconds

/-- mirrors crates/application/src/service.rs:3750-3783 -/
def acknowledgeDelivery (actor : UserId) (messageId : MessageId) (now : DateTime) :
    Service Unit := do
  let w ← get
  let message ← okOr (findMessage w.toStore messageId) .notFound
  let conversation ← okOr (w.conversations.get message.conversationId) .notFound
  failIf (conversation.canRead actor = false ∨ message.senderId = actor) forbidden
  recordDelivery messageId actor
  appendEvent env [message.senderId] .messageUpdated (.messageDelivered messageId actor) now

/-- In a group the actor has to be a member, their own message or not.
mirrors crates/application/src/service.rs:3785-3836 -/
def recallMessage (actor : UserId) (messageId : MessageId) (now : DateTime) :
    Service Message := do
  let w ← get
  let original ← okOr (findMessage w.toStore messageId) .notFound
  let conversation ← okOr (w.conversations.get original.conversationId) .notFound
  let canModerate ←
    if conversation.isGroup then
      ofExcept ((requireMember conversation actor).map fun m => decide (.administrator ≤ m.role))
    else pure false
  failIf (original.senderId ≠ actor ∧ canModerate = false) forbidden
  failIf (original.status = .recalled ∨
    (original.senderId = actor ∧ now - original.createdAt > Duration.minutes 2)) .conflict
  update .messages fun w =>
    w.messages.modify original.conversationId (recallIn messageId now)
  let message := original.recalled now
  update .messageExpirations fun w => w.messageExpirations.remove messageId
  appendEvent env conversation.members.keys .messageUpdated (.message message) now
  pure message

/-- mirrors crates/application/src/service.rs:3838-3894 -/
def reactToMessage (actor : UserId) (messageId : MessageId) (emoji : String) (active : Bool)
    (now : DateTime) : Service (List MessageReaction) := do
  let emoji := Text.trim emoji
  failIf (emoji.isEmpty ∨ emoji.length > 8) (invalid "emoji" "invalid_length")
  let w ← get
  let message ← okOr (findMessage w.toStore messageId) .notFound
  let conversation ← okOr (w.conversations.get message.conversationId) .notFound
  failIf (conversation.canRead actor = false) forbidden
  let reactions := react ((w.messageReactions.get messageId).getD .empty) emoji actor active
  update .messageReactions fun w => w.messageReactions.insert messageId reactions
  let output := reactions.entries.map fun entry =>
    (⟨entry.1, entry.2.sort (· ≤ ·)⟩ : MessageReaction)
  appendEvent env conversation.members.keys .messageUpdated (.messageReactions messageId output)
    now
  pure output

/-- mirrors crates/application/src/service.rs:3896-3919 -/
def setMessageFavorite (actor : UserId) (messageId : MessageId) (favorite : Bool) :
    Service Unit := do
  let w ← get
  let message ← okOr (findMessage w.toStore messageId) .notFound
  let conversation ← okOr (w.conversations.get message.conversationId) .notFound
  failIf (conversation.canRead actor = false) forbidden
  update .favoriteMessages fun w =>
    if favorite then insert (actor, messageId) w.favoriteMessages
    else w.favoriteMessages.erase (actor, messageId)

/-- mirrors crates/application/src/service.rs:3934-3961 -/
def forwardMessages (actor : UserId) (messageIds : List MessageId)
    (targetConversationId : ConversationId) (mode : ForwardMode) (now : DateTime) :
    Service (List Message) := do
  let unique := messageIds.toFinset.card
  failIf (unique = 0 ∨ unique ≠ messageIds.length ∨ unique > 100)
    (invalid "message_ids" "invalid_count")
  failIf (mode = .merged ∧ unique < 2) (invalid "message_ids" "bundle_requires_multiple_messages")
  forwardMessagesInStore env actor messageIds targetConversationId mode now

end

/-! ## Sync -/

/-- The events addressed to the actor above the cursor. -/
def eventsAfter (s : Store) (actor : UserId) (after : Nat) : List SyncEvent :=
  (s.events.filter fun entry => decide (after < entry.event.cursor) && entry.addressedTo actor).map
    (·.event)

/-- mirrors crates/application/src/service.rs:4029-4048 -/
def sync (s : Store) (actor : UserId) (after limit : Nat) : SyncResponse :=
  let limit := max 1 (min limit maxSyncPage)
  let taken := (eventsAfter s actor after).take (limit + 1)
  let events := taken.take limit
  { events := events
    nextCursor := (events.getLast?.map (·.cursor)).getD after
    hasMore := decide (taken.length > limit) }

/-! ## Footprints -/

set_option synthInstance.maxSize 1000000000000

/-- `R` is kept when a message is recalled in place. -/
class Recalling (R : World → World → Prop) : Prop where
  recalled : ∀ (w : World) conversationId messageId now, R w
    (w.set .messages (w.messages.modify conversationId (recallIn messageId now)))

instance recalling_of_ignores {R : World → World → Prop} [hi : Ignores R .messages] :
    Recalling R := ⟨fun w _ _ _ => hi.set w _⟩

section
variable {env : Env} {R : World → World → Prop} [IsPreorder World R] {actor : UserId}
  {conversationId : ConversationId} {id : Uuid} {now : DateTime}

instance keeps_setMessageFavorite [Ignores R .favoriteMessages] {favorite : Bool} :
    Tx.Keeps R (setMessageFavorite actor id favorite) := by
  unfold setMessageFavorite; infer_instance

variable [Logged env R]

instance keeps_acknowledgeDelivery [Ignores R .messageReceipts] :
    Tx.Keeps R (acknowledgeDelivery env actor id now) := by
  unfold acknowledgeDelivery; infer_instance

instance keeps_recallMessage [hr : Recalling R] [Ignores R .messageExpirations] :
    Tx.Keeps R (recallMessage env actor id now) := by
  have : ∀ c, Tx.Keeps R (update .messages fun w =>
      w.messages.modify c (recallIn id now)) := fun c =>
    Tx.keeps_modify fun w => hr.recalled w c id now
  unfold recallMessage; infer_instance

instance keeps_reactToMessage [Ignores R .messageReactions] {emoji : String} {active : Bool} :
    Tx.Keeps R (reactToMessage env actor id emoji active now) := by
  unfold reactToMessage; infer_instance

variable [Ignores R .messages] [Touching R] [Ignores R .messageDedup]
  [Ignores R .messageReceipts]

instance keeps_sendMessageRequest [Ignores R .messageExpirations] {request : SendMessageRequest} :
    Tx.Keeps R (sendMessageRequest env actor conversationId request now) := by
  unfold sendMessageRequest; infer_instance

instance keeps_forwardMessages {messageIds : List MessageId} {mode : ForwardMode} :
    Tx.Keeps R (forwardMessages env actor messageIds conversationId mode now) := by
  unfold forwardMessages; infer_instance

end

end IamRust
