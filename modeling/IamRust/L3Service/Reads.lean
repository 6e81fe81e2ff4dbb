import IamRust.L3Service.System
import Mathlib.Data.Prod.Lex

/-!
# Reading the store

The operations of service.rs that only read. Each takes the lock once, so it is
a function of the store. `bootstrap` is the response put together from reads
that all see one store; in the code they may see different ones. The Unicode
lower case of a nickname (`str::to_lowercase`) is a parameter.
-/
namespace IamRust

open Core

/-! ## Sorting -/

/-- `sort_by_key(f)`, stable. -/
def sortByKey {α κ : Type} [LE κ] [DecidableLE κ] (f : α → κ) (l : List α) : List α :=
  l.insertionSort fun a b => f a ≤ f b

/-- `sort_by_key(|a| Reverse(f(a)))`. -/
def sortByKeyRev {α κ : Type} [LE κ] [DecidableLE κ] (f : α → κ) (l : List α) : List α :=
  l.insertionSort fun a b => f b ≤ f a

section
variable {α κ : Type} [LE κ] [DecidableLE κ] {f : α → κ} {l : List α} {a : α}

@[simp] theorem mem_sortByKey : a ∈ sortByKey f l ↔ a ∈ l := List.mem_insertionSort _

@[simp] theorem mem_sortByKeyRev : a ∈ sortByKeyRev f l ↔ a ∈ l := List.mem_insertionSort _

end

/-! ## Records -/

structure GroupFileItem where
  messageId : MessageId
  senderId : UserId
  attachment : Attachment
  createdAt : DateTime

structure MessageDetails where
  message : Message
  reactions : List MessageReaction
  deliveredTo : List UserId
  readBy : List UserId
  favorited : Bool
  expiresAt : Option DateTime

structure PersonalDataExport where
  generatedAt : DateTime
  email : String
  profile : UserProfile
  privacy : ProfilePrivacySettings
  friendIds : List UserId
  friendRequests : List FriendRequest
  conversations : List Conversation
  messages : List Message

structure ConversationState where
  conversationId : ConversationId
  pinned : Bool
  muted : Bool
  hidden : Bool
  manuallyUnread : Bool
  lastReadSequence : Nat
  unreadCount : Nat
  draft : String
  label : Option String

structure BootstrapResponse where
  profile : UserProfile
  profilePrivacy : ProfilePrivacySettings
  friends : List UserProfile
  friendSettings : List FriendSettings
  friendRequests : List FriendRequest
  friendRequestProfiles : List UserProfile
  conversations : List Conversation
  conversationStates : List ConversationState
  cursor : Nat

def maxMessagePage : Nat := 200

/-- The conversation of a read, if the actor may read it. -/
def readableConversation (s : Store) (actor : UserId) (conversationId : ConversationId) :
    Except ApplicationError Conversation :=
  match s.conversations.get conversationId with
  | none => .error .notFound
  | some conversation =>
    if conversation.canRead actor then .ok conversation else .error forbidden

/-- The stored message of a read, if the actor may read its conversation. -/
def readableMessage (s : Store) (actor : UserId) (messageId : MessageId) :
    Except ApplicationError Message :=
  match findMessage s messageId with
  | none => .error .notFound
  | some message => (readableConversation s actor message.conversationId).map fun _ => message

/-! ## Messages -/

/-- `profile_privacy.get(user_id).cloned().unwrap_or_default().read_receipts_enabled`. -/
def readReceiptsEnabled (s : Store) (userId : UserId) : Bool :=
  ((s.profilePrivacy.get userId).getD .default).readReceiptsEnabled

/-- The status the sender sees.
mirrors crates/application/src/service.rs:3615-3638 -/
def shownStatus (s : Store) (actor : UserId) (message : Message) : MessageStatus :=
  if message.senderId ≠ actor then message.status
  else
    match s.messageReceipts.get message.id with
    | none => message.status
    | some receipts =>
      if ∃ userId ∈ receipts.readBy, userId ≠ actor ∧ readReceiptsEnabled s userId then .read
      else if ∃ userId ∈ receipts.deliveredTo, userId ≠ actor then .delivered
      else message.status

/-- A message that has not expired at `now`. -/
def unexpired (s : Store) (now : DateTime) (message : Message) : Bool :=
  (s.messageExpirations.get message.id).all fun expiresAt => decide (now < expiresAt)

/-- `now` is the clock the code reads itself.
mirrors crates/application/src/service.rs:3583-3640 -/
def messages (s : Store) (now : DateTime) (actor : UserId) (conversationId : ConversationId)
    (beforeSequence : Option Nat) (limit : Nat) : Except ApplicationError (List Message) :=
  (readableConversation s actor conversationId).map fun _ =>
    let page := (((s.messages.get conversationId).getD []).filter fun message =>
      unexpired s now message &&
        beforeSequence.all fun cursor => message.sequence.any fun seq => decide (seq < cursor))
    ((page.reverse.take (max 1 (min limit maxMessagePage))).reverse).map fun message =>
      { message with status := shownStatus s actor message }

/-- mirrors crates/application/src/service.rs:3642-3700 -/
def messageDetails (s : Store) (actor : UserId) (messageId : MessageId) :
    Except ApplicationError MessageDetails :=
  (readableMessage s actor messageId).map fun message =>
    let reactions := ((s.messageReactions.get messageId).getD .empty).entries.map fun entry =>
      (⟨entry.1, entry.2.sort (· ≤ ·)⟩ : MessageReaction)
    let receipts := (s.messageReceipts.get messageId).getD .default
    { message := message
      reactions := sortByKey (·.emoji) reactions
      deliveredTo := receipts.deliveredTo.sort (· ≤ ·)
      readBy := (receipts.readBy.filter fun userId =>
        userId = actor ∨ readReceiptsEnabled s userId).sort (· ≤ ·)
      favorited := decide ((actor, messageId) ∈ s.favoriteMessages)
      expiresAt := s.messageExpirations.get messageId }

/-- mirrors crates/application/src/service.rs:3702-3724 -/
def messageTextForTranslation (s : Store) (actor : UserId) (messageId : MessageId) :
    Except ApplicationError String :=
  match readableMessage s actor messageId with
  | .error e => .error e
  | .ok message =>
    match message.content with
    | .text text => .ok text
    | _ => .error (invalid "message_id" "text_message_required")

/-- mirrors crates/application/src/service.rs:3726-3748 -/
def messageAudioForTranscription (s : Store) (actor : UserId) (messageId : MessageId) :
    Except ApplicationError Attachment :=
  match readableMessage s actor messageId with
  | .error e => .error e
  | .ok message =>
    match message.content with
    | .audio attachment _ => .ok attachment
    | _ => .error (invalid "message_id" "audio_message_required")

/-- The latest first, those without a server time last.
mirrors crates/application/src/service.rs:3921-3932 -/
def favoriteMessages (s : Store) (actor : UserId) : List Message :=
  let ids := (s.favoriteMessages.filter (·.1 = actor)).image (·.2)
  sortByKeyRev (fun message =>
      toLex (message.serverCreatedAt.isSome, message.serverCreatedAt.getD 0))
    ((ids.sort (· ≤ ·)).filterMap (findMessage s))

/-- mirrors crates/application/src/service.rs:2719-2750 -/
def groupFiles (s : Store) (actor : UserId) (conversationId : ConversationId) :
    Except ApplicationError (List GroupFileItem) :=
  match s.conversations.get conversationId with
  | none => .error .notFound
  | some conversation =>
    match ensureGroup conversation, requireMember conversation actor with
    | .error e, _ => .error e
    | .ok _, .error e => .error e
    | .ok _, .ok _ =>
      .ok ((((s.messages.get conversationId).getD []).reverse.filterMap fun message =>
        match message.content with
        | .file attachment => some
          { messageId := message.id
            senderId := message.senderId
            attachment := attachment
            createdAt := message.serverCreatedAt.getD message.createdAt }
        | _ => none).take 500)

/-- mirrors crates/application/src/service.rs:1485-1553 -/
def exportPersonalData (s : Store) (actor : UserId) (now : DateTime) :
    Except ApplicationError PersonalDataExport :=
  match s.activeAccount actor with
  | none => .error .notFound
  | some account =>
    match s.byEmail.entries.find? (·.2 == actor) with
    | none => .error .notFound
    | some (email, _) =>
      let conversations := s.conversations.values.filter (·.canRead actor)
      let conversationIds := conversations.map (·.id)
      .ok {
        generatedAt := now
        email := email
        profile := account.profile
        privacy := (s.profilePrivacy.get actor).getD .default
        friendIds := ((s.friendships.filter (·.contains actor)).map (·.other actor)).insertionSort
          (· ≤ ·)
        friendRequests := sortByKey (·.createdAt) (s.friendRequests.values.filter fun request =>
          request.senderId == actor || request.recipientId == actor)
        conversations := sortByKey (·.createdAt) conversations
        messages := sortByKey (fun message => toLex (message.createdAt, message.id))
          ((s.messages.entries.filter fun entry =>
            decide (entry.1 ∈ conversationIds)).flatMap (·.2)) }

/-! ## Attachments -/

mutual

/-- mirrors crates/application/src/service.rs:4438-4449 -/
def messageContainsAttachment (attachmentId : AttachmentId) : MessageContent → Bool
  | .image attachment => attachment.id == attachmentId
  | .file attachment => attachment.id == attachmentId
  | .audio attachment _ => attachment.id == attachmentId
  | .sticker attachment _ => attachment.id == attachmentId
  | .forwardBundle _ messages => messagesContainAttachment attachmentId messages
  | .text _ => false
  | .system _ => false

/-- `messages.iter().any(|message| message_contains_attachment(&message.content, id))`. -/
def messagesContainAttachment (attachmentId : AttachmentId) : List ForwardedMessage → Bool
  | [] => false
  | message :: messages => messageContainsAttachment attachmentId message.content ||
    messagesContainAttachment attachmentId messages

end

/-- mirrors crates/application/src/service.rs:1765-1802 -/
def attachmentForDownload (s : Store) (actor : UserId) (attachmentId : AttachmentId) :
    Except ApplicationError Attachment :=
  match (s.attachments.get attachmentId).filter (·.available) with
  | none => .error .notFound
  | some pending =>
    if pending.ownerId = actor then .ok pending.attachment
    else if s.accounts.values.any fun account =>
        account.profile.avatarAttachmentId == some attachmentId then .ok pending.attachment
    else if s.conversations.values.any fun conversation =>
        conversation.avatarAttachmentId == some attachmentId && conversation.canRead actor then
      .ok pending.attachment
    else if s.messages.values.flatten.any fun message =>
        messageContainsAttachment attachmentId message.content &&
          (s.conversations.get message.conversationId).any (·.canRead actor) then
      .ok pending.attachment
    else .error forbidden

/-! ## People -/

/-- mirrors crates/application/src/service.rs:1344-1353 -/
def profile (s : Store) (userId : UserId) : Except ApplicationError UserProfile :=
  match s.activeAccount userId with
  | none => .error .notFound
  | some account => .ok account.profile

/-- mirrors crates/application/src/service.rs:1425-1433 -/
def profilePrivacy (s : Store) (actor : UserId) : ProfilePrivacySettings :=
  (s.profilePrivacy.get actor).getD .default

/-- mirrors crates/application/src/service.rs:1823-1840 -/
def searchUserExact (s : Store) (actor : UserId) (username : String) : Option UserProfile :=
  ((s.byUsername.get (Text.toAsciiLowercase (Text.trim username))).filter fun userId =>
    decide (userId ≠ actor ∧ (actor, userId) ∉ s.blocks ∧ (userId, actor) ∉ s.blocks)).bind
      fun userId => visibleProfile s actor userId

/-- The two sides of a request, seen from the actor. -/
def FriendRequest.peer (request : FriendRequest) (actor : UserId) : Option UserId :=
  if request.senderId = actor then some request.recipientId
  else if request.recipientId = actor then some request.senderId
  else none

/-- The two sides of a friendship, seen from the user. -/
def Friendship.peer (friendship : Friendship) (userId : UserId) : Option UserId :=
  if friendship.lowerUserId = userId then some friendship.upperUserId
  else if friendship.upperUserId = userId then some friendship.lowerUserId
  else none

/-- mirrors crates/application/src/service.rs:1883-1896 -/
def friendRequests (s : Store) (userId : UserId) : List FriendRequest :=
  sortByKeyRev (·.updatedAt) (s.friendRequests.values.filter fun request =>
    request.senderId == userId || request.recipientId == userId)

/-- mirrors crates/application/src/service.rs:1996-2008 -/
def friendSettings (s : Store) (actor : UserId) : List FriendSettings :=
  sortByKey (·.userId)
    ((s.friendSettings.entries.filter (·.1.1 == actor)).map (·.2))

section
variable (lowercase : String → String)

/-- mirrors crates/application/src/service.rs:1898-1919 -/
def friendRequestProfiles (s : Store) (actor : UserId) : List UserProfile :=
  let ids := (s.friendRequests.values.filterMap (·.peer actor)).toFinset
  sortByKey (fun profile => lowercase profile.nickname)
    ((ids.sort (· ≤ ·)).filterMap fun userId => visibleProfile s actor userId)

/-- mirrors crates/application/src/service.rs:1973-1994 -/
def friends (s : Store) (userId : UserId) : List UserProfile :=
  let ids := (s.friendships.filterMap (·.peer userId)).toFinset
  sortByKey (fun profile => lowercase profile.nickname)
    ((ids.sort (· ≤ ·)).filterMap fun id => visibleProfile s userId id)

end

/-! ## Conversations -/

/-- mirrors crates/application/src/service.rs:3175-3201 -/
def conversations (s : Store) (userId : UserId) : List Conversation :=
  sortByKeyRev (fun conversation => toLex (conversation.pinned, conversation.updatedAt))
    ((s.conversations.values.filter (·.canRead userId)).filterMap fun conversation =>
      match s.conversationSettings.get (userId, conversation.id) with
      | none => some (conversationForUser conversation userId)
      | some settings =>
        if settings.hidden then none
        else some (conversationForUser
          { conversation with pinned := settings.pinned, muted := settings.muted } userId))

/-- mirrors crates/application/src/service.rs:3223-3259 -/
def conversationStates (s : Store) (actor : UserId) : List ConversationState :=
  (s.conversations.values.filter (·.canRead actor)).map fun conversation =>
    let settings := (s.conversationSettings.get (actor, conversation.id)).getD
      (defaultConversationSettings conversation.id)
    { conversationId := conversation.id
      pinned := settings.pinned
      muted := settings.muted
      hidden := settings.hidden
      manuallyUnread := settings.manuallyUnread
      lastReadSequence := settings.lastReadSequence
      unreadCount := ((s.messages.get conversation.id).getD []).countP fun message =>
        message.senderId ≠ actor &&
          message.sequence.any fun sequence => decide (settings.lastReadSequence < sequence)
      draft := settings.draft
      label := settings.label }

/-- mirrors crates/application/src/service.rs:4050-4079 -/
def bootstrap (lowercase : String → String) (s : Store) (actor : UserId) :
    Except ApplicationError BootstrapResponse :=
  (profile s actor).map fun profile =>
    { profile := profile
      profilePrivacy := profilePrivacy s actor
      friends := friends lowercase s actor
      friendSettings := friendSettings s actor
      friendRequests := friendRequests s actor
      friendRequestProfiles := friendRequestProfiles lowercase s actor
      conversations := conversations s actor
      conversationStates := conversationStates s actor
      cursor := s.cursor }

end IamRust
