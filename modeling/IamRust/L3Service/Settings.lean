import IamRust.L3Service.Sessions
import IamRust.L3Service.Timeline

/-!
# Conversation settings, read positions and scheduled messages
-/
namespace IamRust

open Core
open Core.Tx (failIf okOr ofExcept whenTrue whenSome forEach mapEach)

structure UpdateConversationSettingsRequest where
  pinned : Option Bool
  muted : Option Bool
  hidden : Option Bool
  manuallyUnread : Option Bool
  draft : Option String
  label : Option (Option String)

structure ScheduleMessageRequest where
  conversationId : ConversationId
  clientMessageId : MessageId
  content : MessageContent
  replyTo : Option MessageId
  mentions : List UserId
  mentionAll : Bool
  scheduledFor : DateTime
  expiresInSeconds : Option Nat

structure ScheduledMessageResponse where
  scheduleId : Uuid
  scheduledFor : DateTime

/-- mirrors crates/application/src/service.rs:3303-3320 -/
def ConversationSettings.apply (settings : ConversationSettings)
    (request : UpdateConversationSettingsRequest) : ConversationSettings :=
  { settings with
    pinned := request.pinned.getD settings.pinned
    muted := request.muted.getD settings.muted
    hidden := request.hidden.getD settings.hidden
    manuallyUnread := request.manuallyUnread.getD settings.manuallyUnread
    draft := request.draft.getD settings.draft
    label := match request.label with
      | some label => normalizeOptional label
      | none => settings.label }

/-- `Some(seconds)` outside 5 seconds to 7 days. -/
def invalidExpiry (expiresInSeconds : Option Nat) : Bool :=
  expiresInSeconds.any fun seconds => !decide (5 ≤ seconds ∧ seconds ≤ 604800)

section
variable (env : Env)

/-- mirrors crates/application/src/service.rs:3261-3332 -/
def updateConversationSettings (actor : UserId) (conversationId : ConversationId)
    (request : UpdateConversationSettingsRequest) (now : DateTime) :
    Service ConversationSettings := do
  failIf (request.draft.any fun draft => decide (draft.length > 8000))
    (invalid "draft" "invalid_length")
  failIf (request.label.join.any fun label => decide ((Text.trim label).length > 48))
    (invalid "label" "invalid_length")
  let w ← get
  let conversation ← okOr (w.conversations.get conversationId) .notFound
  failIf (conversation.canRead actor = false) forbidden
  let settings := ((w.conversationSettings.get (actor, conversationId)).getD
    (defaultConversationSettings conversationId)).apply request
  update .conversationSettings fun w =>
    w.conversationSettings.insert (actor, conversationId) settings
  appendEvent env [actor] .conversationUpdated (.conversationSettings settings) now
  pure settings

/-- The settings after reading up to `sequence`. -/
def ConversationSettings.readThrough (settings : ConversationSettings) (sequence : Nat) :
    ConversationSettings :=
  { settings with lastReadSequence := sequence, manuallyUnread := false }

/-- mirrors crates/application/src/service.rs:3334-3373 -/
def markAllRead (actor : UserId) (now : DateTime) : Service Unit := do
  let w ← get
  let conversationIds := (w.conversations.values.filter (·.canRead actor)).map (·.id)
  forEach conversationIds fun conversationId => do
    let latest := lastSequence w.toStore conversationId
    update .readPositions fun w => w.readPositions.insert (actor, conversationId) latest
    update .conversationSettings fun w =>
      w.conversationSettings.upsert (actor, conversationId)
        (defaultConversationSettings conversationId) (·.readThrough latest)
  appendEvent env [actor] .readPositionUpdated .allRead now

/-- mirrors crates/application/src/service.rs:3963-4027 -/
def markRead (actor : UserId) (conversationId : ConversationId) (throughSequence : Nat)
    (now : DateTime) : Service Unit := do
  let w ← get
  let conversation ← okOr (w.conversations.get conversationId) .notFound
  failIf (conversation.canRead actor = false) forbidden
  let next := min throughSequence (lastSequence w.toStore conversationId)
  let read := ((w.messages.get conversationId).getD []).filter fun message =>
    message.senderId != actor && message.sequence.any fun sequence => decide (sequence ≤ next)
  forEach (read.map (·.id)) fun messageId =>
    update .messageReceipts fun w => w.messageReceipts.upsert messageId .default fun receipts =>
      { receipts with
        deliveredTo := insert actor receipts.deliveredTo
        readBy := insert actor receipts.readBy }
  update .readPositions fun w => w.readPositions.upsert (actor, conversationId) 0 (max · next)
  update .conversationSettings fun w =>
    w.conversationSettings.upsert (actor, conversationId)
      (defaultConversationSettings conversationId)
      fun settings => settings.readThrough (max settings.lastReadSequence next)
  appendEvent env conversation.members.keys .readPositionUpdated
    (.readPosition actor conversationId next) now

/-- mirrors crates/application/src/service.rs:3375-3447 -/
def scheduleMessage (actor : UserId) (request : ScheduleMessageRequest) (now : DateTime) :
    Service ScheduledMessageResponse := do
  check request.content.validate
  let mentions := normalizeMentions request.mentions
  failIf (request.scheduledFor < now + Duration.seconds 10 ∨
    request.scheduledFor > now + Duration.days 30 ∨ invalidExpiry request.expiresInSeconds)
    (invalid "scheduled_for" "invalid_range")
  let w ← get
  ofExcept (validateMessageMentions w.toStore actor request.conversationId request.content
    mentions request.mentionAll)
  let conversation ← okOr (w.conversations.get request.conversationId) .notFound
  failIf (conversation.canSend actor now = false) forbidden
  failIf ((w.scheduledMessages.any fun message =>
    message.actor == actor && message.clientMessageId == request.clientMessageId) ∨
    w.messageDedup.containsKey (actor, request.clientMessageId)) .conflict
  let id ← newUuid env
  let scheduled : ScheduledMessage := ⟨id, actor, request.conversationId, request.clientMessageId,
    request.content, request.replyTo, mentions, request.mentionAll, request.scheduledFor,
    request.expiresInSeconds⟩
  update .scheduledMessages fun w => w.scheduledMessages ++ [scheduled]
  pure ⟨id, request.scheduledFor⟩

/-- mirrors crates/application/src/service.rs:3472-3488 -/
def cancelScheduledMessage (actor : UserId) (scheduleId : Uuid) : Service Unit := do
  let w ← get
  let rest := w.scheduledMessages.filter fun message =>
    !(message.id == scheduleId && message.actor == actor)
  failIf (rest.length = w.scheduledMessages.length) .notFound
  update .scheduledMessages fun _ => rest

/-- The second transaction of a delivery.
mirrors crates/application/src/service.rs:3519-3524 -/
def removeScheduledMessage (scheduleId : Uuid) : Service Unit :=
  update .scheduledMessages fun w => w.scheduledMessages.filter fun message =>
    message.id != scheduleId

end

/-! ## Footprints -/

set_option synthInstance.maxSize 1000000000000

section
variable {env : Env} {R : World → World → Prop} [IsPreorder World R] {actor : UserId}
  {conversationId : ConversationId} {id : Uuid} {now : DateTime}

instance keeps_cancelScheduledMessage [Ignores R .scheduledMessages] :
    Tx.Keeps R (cancelScheduledMessage actor id) := by
  unfold cancelScheduledMessage; infer_instance

instance keeps_removeScheduledMessage [Ignores R .scheduledMessages] :
    Tx.Keeps R (removeScheduledMessage id) := by
  unfold removeScheduledMessage; infer_instance

instance keeps_scheduleMessage [Drawing env R] [Ignores R .scheduledMessages]
    {request : ScheduleMessageRequest} :
    Tx.Keeps R (scheduleMessage env actor request now) := by
  unfold scheduleMessage; infer_instance

variable [Logged env R]

instance keeps_updateConversationSettings [Ignores R .conversationSettings]
    {request : UpdateConversationSettingsRequest} :
    Tx.Keeps R (updateConversationSettings env actor conversationId request now) := by
  unfold updateConversationSettings; infer_instance

instance keeps_markAllRead [Ignores R .readPositions] [Ignores R .conversationSettings] :
    Tx.Keeps R (markAllRead env actor now) := by
  unfold markAllRead; infer_instance

instance keeps_markRead [Ignores R .messageReceipts] [Ignores R .readPositions]
    [Ignores R .conversationSettings] {throughSequence : Nat} :
    Tx.Keeps R (markRead env actor conversationId throughSequence now) := by
  unfold markRead; infer_instance

end

end IamRust
