import IamRust.L3Service.Events
import Mathlib.Data.List.Destutter
import Mathlib.Data.List.Sort

/-!
# Timelines

A conversation's timeline is the list of its stored messages. Three functions
append to it: `sendMessageInStore` (a user's message), `appendForwardedMessage`
(a copy) and `appendSystemMessage` (a notice). Each takes its sequence from the
last stored message.
-/
namespace IamRust

open Core
open Core.Tx (failIf okOr ofExcept whenTrue whenSome forEach mapEach)

structure SendMessageRequest where
  clientMessageId : MessageId
  content : MessageContent
  replyTo : Option MessageId
  mentions : List UserId
  mentionAll : Bool
  expiresInSeconds : Option Nat

structure MessageAck where
  clientMessageId : MessageId
  messageId : MessageId
  sequence : Nat
  serverTime : DateTime
  deriving DecidableEq

inductive ForwardMode where
  | individually | merged
  deriving DecidableEq, Repr

/-! ## Checks -/

/-- `mentions.sort_unstable(); mentions.dedup();`. -/
def normalizeMentions (mentions : List UserId) : List UserId :=
  (mentions.insertionSort (· ≤ ·)).destutter (· ≠ ·)

/-- mirrors crates/application/src/service.rs:4451-4477 -/
def validateMessageAttachment (s : Store) (actor : UserId) (content : MessageContent) :
    Except ApplicationError Unit :=
  if content.isForwardBundle then .error forbidden
  else
    match content.attachment? with
    | none => .ok ()
    | some attachment =>
      match (s.attachments.get attachment.id).filter fun pending =>
          pending.ownerId == actor && pending.available with
      | none => .error forbidden
      | some pending =>
        if pending.attachment ≠ attachment then .error (invalid "attachment" "metadata_mismatch")
        else .ok ()

/-- mirrors crates/application/src/service.rs:4574-4612 -/
def validateMessageMentions (s : Store) (actor : UserId) (conversationId : ConversationId)
    (content : MessageContent) (mentions : List UserId) (mentionAll : Bool) :
    Except ApplicationError Unit :=
  if mentions.isEmpty ∧ mentionAll = false then .ok ()
  else if content.isText = false ∨ mentions.length > 50 then
    .error (invalid "mentions" "invalid_mentions")
  else
    match s.conversations.get conversationId with
    | none => .error .notFound
    | some conversation =>
      if conversation.isGroup = false then .error .notFound
      else
        match conversation.members.get actor with
        | none => .error forbidden
        | some member =>
          if mentions.any fun u => u == actor || !conversation.members.containsKey u then
            .error (invalid "mentions" "member_required")
          else if mentionAll ∧ member.role = .member then .error forbidden
          else .ok ()

/-- The check of a direct conversation: friends, no block, and files only where the peer takes
them.
mirrors crates/application/src/service.rs:4635-4660 -/
def directRefuses (s : Store) (actor peer : UserId) (content : MessageContent) : Bool :=
  !areFriends s actor peer || decide ((actor, peer) ∈ s.blocks) ||
    decide ((peer, actor) ∈ s.blocks) ||
    (content.attachment?.isSome &&
      (s.friendSettings.get (peer, actor)).any fun settings => !settings.allowFiles)

/-- mirrors crates/application/src/service.rs:4614-4662 -/
def messageRecipientsForSend (s : Store) (actor : UserId) (conversationId : ConversationId)
    (content : MessageContent) (now : DateTime) : Except ApplicationError (List UserId) :=
  match s.conversations.get conversationId with
  | none => .error .notFound
  | some conversation =>
    if conversation.canSend actor now = false then .error forbidden
    else if conversation.isGroup then
      if conversationId ∈ s.groupMuteAll ∧
          (conversation.members.get actor).map (·.role) = some .member then .error forbidden
      else .ok conversation.members.keys
    else
      match conversation.members.keys.find? (· ≠ actor) with
      | none => .error .notFound
      | some peer =>
        if directRefuses s actor peer content then .error forbidden
        else .ok conversation.members.keys

/-! ## Appending to a timeline -/

/-- The sequence of the last stored message, or 0. -/
def lastSequence (s : Store) (conversationId : ConversationId) : Nat :=
  (((s.messages.get conversationId).bind (·.getLast?)).bind (·.sequence)).getD 0

/-- `store.messages.entry(conversation_id).or_default().push(message)`. -/
def pushMessage (conversationId : ConversationId) (message : Message) : Service Unit :=
  update .messages fun w => w.messages.upsert conversationId [] (· ++ [message])

/-- `store.message_receipts.entry(message_id).or_default().delivered_to.insert(user_id)`. -/
def recordDelivery (messageId : MessageId) (userId : UserId) : Service Unit :=
  update .messageReceipts fun w => w.messageReceipts.upsert messageId .default fun receipts =>
    { receipts with deliveredTo := insert userId receipts.deliveredTo }

/-- `conversation.updated_at = now`, where the conversation exists. -/
def touchConversation (conversationId : ConversationId) (now : DateTime) : Service Unit :=
  update .conversations fun w => w.conversations.modify conversationId fun conversation =>
    { conversation with updatedAt := now }

section
variable (env : Env)

/-- A message with the sequence given, not yet stored: `Message::pending` and `mark_sent`. -/
def sentMessage (clientMessageId : MessageId) (conversationId : ConversationId)
    (senderId : UserId) (content : MessageContent) (sequence : Nat) (now : DateTime) :
    Service Message := do
  let id ← newUuid env
  let message ← ofExcept (liftDomain
    (Message.pending id clientMessageId conversationId senderId content now))
  ofExcept (liftDomain (message.markSent sequence now))

end

/-- The message `sentMessage` returns when `id` is drawn for it. -/
def Message.sent (id clientMessageId : MessageId) (conversationId : ConversationId)
    (senderId : UserId) (content : MessageContent) (sequence : Nat) (now : DateTime) : Message where
  id := id
  clientMessageId := clientMessageId
  conversationId := conversationId
  senderId := senderId
  sequence := some sequence
  content := content
  status := .sent
  replyTo := none
  mentions := []
  mentionAll := false
  createdAt := now
  serverCreatedAt := some now
  editedAt := none

theorem sentMessage_runs {env : Env} {clientMessageId : MessageId}
    {conversationId : ConversationId} {senderId : UserId} {content : MessageContent}
    {sequence : Nat} {now : DateTime} {w w' : World} {m : Message} :
    (sentMessage env clientMessageId conversationId senderId content sequence now).Runs w m w' ↔
      content.validate = .ok () ∧ w' = w.set .nextUuid (w.nextUuid + 1) ∧
      m = .sent (env.uuid w.nextUuid) clientMessageId conversationId senderId content sequence
        now := by
  unfold sentMessage
  simp only [Tx.runs_bind, newUuid_runs, Tx.runs_ofExcept, liftDomain_ok]
  cases hv : content.validate with
  | error e => simp [Message.pending, hv, Except.map]
  | ok u =>
    simp only [Message.pending, hv, Except.map, Except.ok.injEq, true_and]
    constructor
    · rintro ⟨id, w₁, ⟨rfl, rfl⟩, p, w₂, ⟨rfl, rfl⟩, hm, rfl⟩
      simp only [Message.markSent, ne_eq, not_true_eq_false, false_and, if_false,
        Except.ok.injEq] at hm
      exact ⟨rfl, hm.symm⟩
    · rintro ⟨rfl, rfl⟩
      exact ⟨_, _, ⟨rfl, rfl⟩, _, _, ⟨rfl, rfl⟩, by simp [Message.markSent, Message.sent], rfl⟩

section
variable (env : Env)

/-- A new message of a user, past the lookup of a repeated one.
mirrors crates/application/src/service.rs:4512-4571 -/
def storeNewMessage (actor : UserId) (conversationId : ConversationId)
    (request : SendMessageRequest) (now : DateTime) : Service (Message × MessageAck) := do
  let mentions := normalizeMentions request.mentions
  let w ← get
  ofExcept (validateMessageMentions w.toStore actor conversationId request.content mentions
    request.mentionAll)
  let recipients ← ofExcept (messageRecipientsForSend w.toStore actor conversationId
    request.content now)
  ofExcept (validateMessageAttachment w.toStore actor request.content)
  let sequence := wrappingSucc (lastSequence w.toStore conversationId)
  let sent ← sentMessage env request.clientMessageId conversationId actor request.content sequence
    now
  let message := { sent with
    replyTo := request.replyTo
    mentions := mentions
    mentionAll := request.mentionAll }
  pushMessage conversationId message
  update .messageDedup fun w =>
    w.messageDedup.insert (actor, request.clientMessageId) (message.id, sequence)
  recordDelivery message.id actor
  whenSome request.expiresInSeconds fun seconds =>
    update .messageExpirations fun w =>
      w.messageExpirations.insert message.id (now + Duration.seconds seconds)
  touchConversation conversationId now
  appendEvent env recipients .messageCreated (.message message) now
  pure (message, ⟨request.clientMessageId, message.id, sequence, now⟩)

/-- A request whose client id the actor used before is answered with the message stored then.
mirrors crates/application/src/service.rs:4479-4572 -/
def sendMessageInStore (actor : UserId) (conversationId : ConversationId)
    (request : SendMessageRequest) (now : DateTime) : Service (Message × MessageAck) := do
  let w ← get
  if (w.messageDedup.get (actor, request.clientMessageId)).isSome then
    let entry ← okOr (w.messageDedup.get (actor, request.clientMessageId)) .notFound
    let existing ← okOr (findMessage w.toStore entry.1) .notFound
    pure (existing, ⟨request.clientMessageId, entry.1, entry.2, now⟩)
  else
    storeNewMessage env actor conversationId request now

/-! ### Forwarding -/

/-- One source of a forward.
mirrors crates/application/src/service.rs:5132-5162 -/
def forwardSource (s : Store) (actor : UserId) (mode : ForwardMode) (messageId : MessageId) :
    Except ApplicationError ForwardedMessage :=
  match findMessage s messageId with
  | none => .error .notFound
  | some message =>
    match s.conversations.get message.conversationId with
    | none => .error .notFound
    | some source =>
      if source.canRead actor = false ∨ message.content.isSystem then .error forbidden
      else if mode = .merged ∧ message.content.isForwardBundle then
        .error (invalid "message_ids" "nested_bundle")
      else .ok {
        senderId := message.senderId
        senderName := ((s.accounts.get message.senderId).map (·.profile.nickname)).getD "已注销用户"
        content := message.content
        createdAt := message.serverCreatedAt.getD message.createdAt }

/-- mirrors crates/application/src/service.rs:5124-5165 -/
def collectForwardSources (s : Store) (actor : UserId) (mode : ForwardMode) :
    List MessageId → Except ApplicationError (List ForwardedMessage)
  | [] => .ok []
  | id :: ids =>
    match forwardSource s actor mode id with
    | .error e => .error e
    | .ok source => (collectForwardSources s actor mode ids).map (source :: ·)

/-- The contents a forward appends.
mirrors crates/application/src/service.rs:5090-5099 -/
def forwardContents (mode : ForwardMode) (sources : List ForwardedMessage) :
    List MessageContent :=
  match mode with
  | .individually => sources.map (·.content)
  | .merged => [.forwardBundle "聊天记录" sources]

/-- mirrors crates/application/src/service.rs:5167-5201 -/
def appendForwardedMessage (actor : UserId) (conversationId : ConversationId)
    (content : MessageContent) (sequence : Nat) (recipients : List UserId) (now : DateTime) :
    Service Message := do
  let clientMessageId ← newUuid env
  let message ← sentMessage env clientMessageId conversationId actor content sequence now
  pushMessage conversationId message
  update .messageDedup fun w =>
    w.messageDedup.insert (actor, clientMessageId) (message.id, sequence)
  recordDelivery message.id actor
  appendEvent env recipients .messageCreated (.messageForwarded message) now
  pure message

/-- The loop over the contents, from the sequence before the first one.
mirrors crates/application/src/service.rs:5106-5117 -/
def appendForwardedMessages (actor : UserId) (conversationId : ConversationId)
    (recipients : List UserId) (now : DateTime) : Nat → List MessageContent →
    Service (List Message)
  | _, [] => pure []
  | sequence, content :: contents => do
    let message ← appendForwardedMessage env actor conversationId content
      (saturatingSucc sequence) recipients now
    let rest ← appendForwardedMessages actor conversationId recipients now
      (saturatingSucc sequence) contents
    pure (message :: rest)

/-- mirrors crates/application/src/service.rs:5072-5122 -/
def forwardMessagesInStore (actor : UserId) (messageIds : List MessageId)
    (targetConversationId : ConversationId) (mode : ForwardMode) (now : DateTime) :
    Service (List Message) := do
  let w ← get
  let sources ← ofExcept (collectForwardSources w.toStore actor mode messageIds)
  let target ← okOr (w.conversations.get targetConversationId) .notFound
  failIf (target.canSend actor now = false) forbidden
  let forwarded ← appendForwardedMessages env actor targetConversationId target.members.keys now
    (lastSequence w.toStore targetConversationId) (forwardContents mode sources)
  touchConversation targetConversationId now
  pure forwarded

/-! ### Notices -/

/-- Unlike the other two it records neither the client id nor a delivery.
mirrors crates/application/src/service.rs:5203-5250 -/
def appendSystemMessage (conversationId : ConversationId) (actor : UserId) (text : String)
    (now : DateTime) : Service Message := do
  let w ← get
  let conversation ← okOr (w.conversations.get conversationId) .notFound
  let sequence := wrappingSucc (lastSequence w.toStore conversationId)
  let clientMessageId ← newUuid env
  let message ← sentMessage env clientMessageId conversationId actor (.system text) sequence now
  pushMessage conversationId message
  touchConversation conversationId now
  appendEvent env conversation.members.keys .messageCreated (.message message) now
  pure message

end

/-! ## Footprints -/

set_option synthInstance.maxSize 1000000000000

/-- `R` is kept by `appendSystemMessage`. -/
class Posting (env : Env) (R : World → World → Prop) : Prop where
  notice : ∀ conversationId actor text now,
    Tx.Keeps R (appendSystemMessage env conversationId actor text now)

/-- `R` is kept by `touchConversation`. -/
class Touching (R : World → World → Prop) : Prop where
  touch : ∀ conversationId now, Tx.Keeps R (touchConversation conversationId now)

section
variable {env : Env} {R : World → World → Prop} [IsPreorder World R]

instance keeps_appendSystemMessage [hp : Posting env R] {conversationId : ConversationId}
    {actor : UserId} {text : String} {now : DateTime} :
    Tx.Keeps R (appendSystemMessage env conversationId actor text now) :=
  hp.notice conversationId actor text now

instance keeps_pushMessage [Ignores R .messages] {id : ConversationId} {message : Message} :
    Tx.Keeps R (pushMessage id message) := by
  unfold pushMessage; infer_instance

instance keeps_recordDelivery [Ignores R .messageReceipts] {id : MessageId} {userId : UserId} :
    Tx.Keeps R (recordDelivery id userId) := by
  unfold recordDelivery; infer_instance

instance touching_of_ignores [Ignores R .conversations] : Touching R where
  touch _ _ := by unfold touchConversation; infer_instance

instance keeps_touchConversation [ht : Touching R] {id : ConversationId} {now : DateTime} :
    Tx.Keeps R (touchConversation id now) := ht.touch id now

variable [Logged env R]

instance keeps_sentMessage {clientMessageId : MessageId} {conversationId : ConversationId}
    {senderId : UserId} {content : MessageContent} {sequence : Nat} {now : DateTime} :
    Tx.Keeps R (sentMessage env clientMessageId conversationId senderId content sequence now) := by
  unfold sentMessage; infer_instance

variable [Ignores R .messages] [Touching R]

instance posting_of_ignores : Posting env R where
  notice _ _ _ _ := by unfold appendSystemMessage; infer_instance

variable [Ignores R .messageDedup] [Ignores R .messageReceipts]

instance keeps_sendMessageInStore [Ignores R .messageExpirations] {actor : UserId}
    {conversationId : ConversationId} {request : SendMessageRequest} {now : DateTime} :
    Tx.Keeps R (sendMessageInStore env actor conversationId request now) := by
  unfold sendMessageInStore storeNewMessage; infer_instance

instance keeps_appendForwardedMessages {actor : UserId} {conversationId : ConversationId}
    {recipients : List UserId} {now : DateTime} {sequence : Nat}
    {contents : List MessageContent} :
    Tx.Keeps R (appendForwardedMessages env actor conversationId recipients now sequence
      contents) := by
  induction contents generalizing sequence with
  | nil => unfold appendForwardedMessages; infer_instance
  | cons content contents ih =>
    unfold appendForwardedMessages appendForwardedMessage; infer_instance

instance keeps_forwardMessagesInStore {actor : UserId} {messageIds : List MessageId}
    {target : ConversationId} {mode : ForwardMode} {now : DateTime} :
    Tx.Keeps R (forwardMessagesInStore env actor messageIds target mode now) := by
  unfold forwardMessagesInStore; infer_instance

end

end IamRust
