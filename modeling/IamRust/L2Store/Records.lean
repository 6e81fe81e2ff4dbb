import IamRust.L1Domain.Conversation
import IamRust.L1Domain.Friend
import IamRust.L1Domain.Message
import IamRust.L1Domain.User
import Mathlib.Data.Finset.Basic

/-!
# Stored records

The records the service keeps, and the payloads of the events it appends.
A `HashSet` is a `Finset`. The JSON of an event is one constructor a shape;
the constructor carries what the code serialises.
-/
namespace IamRust

open Core

/-! ## Accounts and sessions -/

/-- mirrors crates/application/src/service.rs:194-199 -/
structure SecondFactorState where
  encryptedSecret : List UInt8
  recoveryCodeHashes : List String
  enabledAt : DateTime
  deriving DecidableEq

/-- mirrors crates/application/src/service.rs:201-205 -/
structure PendingSecondFactor where
  encryptedSecret : List UInt8
  expiresAt : DateTime
  deriving DecidableEq

/-- mirrors crates/application/src/service.rs:180-192 -/
structure Account where
  passwordHash : String
  profile : UserProfile
  deletedAt : Option DateTime
  suspended : Bool
  secondFactor : Option SecondFactorState
  pendingSecondFactor : Option PendingSecondFactor
  deriving DecidableEq

/-- mirrors crates/application/src/service.rs:225-232 -/
structure TokenRecord where
  userId : UserId
  deviceId : DeviceId
  familyId : Uuid
  expiresAt : DateTime
  revoked : Bool
  deriving DecidableEq

/-- mirrors crates/application/src/service.rs:234-243 -/
structure DeviceRecord where
  id : DeviceId
  userId : UserId
  name : String
  platform : String
  appVersion : String
  lastSeenAt : DateTime
  revokedAt : Option DateTime
  deriving DecidableEq

/-- `attempts` is a `u8`.
mirrors crates/application/src/service.rs:245-251 -/
structure PasswordResetRecord where
  userId : UserId
  expiresAt : DateTime
  attempts : Nat
  consumed : Bool
  deriving DecidableEq

/-- mirrors crates/application/src/service.rs:253-261 -/
structure UserReport where
  id : Uuid
  reporterId : UserId
  reportedId : UserId
  reason : String
  details : Option String
  createdAt : DateTime
  deriving DecidableEq

structure AdminAuditEntry where
  id : Uuid
  actorId : Option UserId
  action : String
  targetUserId : Option UserId
  outcome : String
  createdAt : DateTime
  deriving DecidableEq

/-! ## Friends and conversations -/

structure FriendSettings where
  userId : UserId
  remark : Option String
  group : Option String
  sharePresence : Bool
  allowFiles : Bool
  deriving DecidableEq

structure ConversationSettings where
  conversationId : ConversationId
  pinned : Bool
  muted : Bool
  hidden : Bool
  manuallyUnread : Bool
  lastReadSequence : Nat
  draft : String
  label : Option String
  deriving DecidableEq

/-- mirrors crates/application/src/service.rs:5028-5039 -/
def defaultConversationSettings (conversationId : ConversationId) : ConversationSettings where
  conversationId := conversationId
  pinned := false
  muted := false
  hidden := false
  manuallyUnread := false
  lastReadSequence := 0
  draft := ""
  label := none

structure GroupAnnouncement where
  id : Uuid
  conversationId : ConversationId
  authorId : UserId
  content : String
  readBy : List UserId
  createdAt : DateTime
  updatedAt : DateTime
  deriving DecidableEq

inductive GroupJoinRequestStatus where
  | pending | accepted | rejected
  deriving DecidableEq, Repr

structure GroupJoinRequest where
  id : Uuid
  conversationId : ConversationId
  applicantId : UserId
  message : String
  status : GroupJoinRequestStatus
  reviewedBy : Option UserId
  createdAt : DateTime
  updatedAt : DateTime
  deriving DecidableEq

structure GroupPollOption where
  id : Uuid
  label : String
  voterIds : List UserId
  deriving DecidableEq

structure GroupPoll where
  id : Uuid
  conversationId : ConversationId
  creatorId : UserId
  question : String
  multipleChoice : Bool
  options : List GroupPollOption
  closesAt : Option DateTime
  createdAt : DateTime
  deriving DecidableEq

/-! ## Messages and attachments -/

/-- mirrors crates/application/src/service.rs:269-273 -/
structure ReceiptState where
  deliveredTo : Finset UserId
  readBy : Finset UserId
  deriving DecidableEq

def ReceiptState.default : ReceiptState := ⟨∅, ∅⟩

/-- mirrors crates/application/src/service.rs:275-289 -/
structure ScheduledMessage where
  id : Uuid
  actor : UserId
  conversationId : ConversationId
  clientMessageId : MessageId
  content : MessageContent
  replyTo : Option MessageId
  mentions : List UserId
  mentionAll : Bool
  scheduledFor : DateTime
  expiresInSeconds : Option Nat

/-- mirrors crates/application/src/service.rs:291-299 -/
structure PendingAttachment where
  attachment : Attachment
  ownerId : UserId
  expiresAt : DateTime
  available : Bool
  quarantined : Bool
  deriving DecidableEq

structure Sticker where
  id : Uuid
  ownerId : UserId
  attachment : Attachment
  name : String
  shortcut : Option String
  createdAt : DateTime
  deriving DecidableEq

/-! ## Events -/

inductive EventKind where
  | messageCreated | messageUpdated | conversationUpdated | friendshipUpdated
  | groupMembershipUpdated | readPositionUpdated | draftUpdated | presenceUpdated
  deriving DecidableEq, Repr

structure MessageReaction where
  emoji : String
  userIds : List UserId
  deriving DecidableEq

/-- What an event says. -/
inductive EventPayload where
  | profile (profile : UserProfile)
  | profileDeleted (profile : UserProfile)
  | privacy (settings : ProfilePrivacySettings)
  | friendRequest (request : FriendRequest)
  | friendSettings (settings : FriendSettings)
  | removedFriendIds (ids : List UserId)
  | blockedBy (actor target : UserId)
  | unblockedUserId (target : UserId)
  | conversation (conversation : Conversation)
  | conversationAdded (conversation : Conversation) (addedMemberIds : List UserId)
  | conversationMember (conversation : Conversation) (updatedMemberId : UserId)
  | leftUser (conversationId : ConversationId) (userId : UserId)
  | disbanded (conversationId : ConversationId)
  | removedMember (conversationId : ConversationId) (userId : UserId)
  | groupMuted (conversationId : ConversationId) (muted : Bool)
  | groupAnnouncement (announcement : GroupAnnouncement)
  | groupJoinRequest (request : GroupJoinRequest)
  | groupPoll (poll : GroupPoll)
  | conversationSettings (settings : ConversationSettings)
  | allRead
  | message (message : Message)
  | messageForwarded (message : Message)
  | messageDelivered (messageId : MessageId) (deliveredTo : UserId)
  | messageReactions (messageId : MessageId) (reactions : List MessageReaction)
  | readPosition (userId : UserId) (conversationId : ConversationId) (throughSequence : Nat)

/-- mirrors crates/domain/src/sync.rs:23-30 -/
structure SyncEvent where
  id : Uuid
  cursor : Nat
  kind : EventKind
  payload : EventPayload
  createdAt : DateTime

/-- mirrors crates/application/src/service.rs:263-267 -/
structure UserEvent where
  recipients : Finset UserId
  event : SyncEvent

/-- The event is addressed to the user. -/
def UserEvent.addressedTo (e : UserEvent) (u : UserId) : Bool := decide (u ∈ e.recipients)

end IamRust
