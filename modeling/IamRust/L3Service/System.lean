import IamRust.L0Core.LTS
import IamRust.L3Service.Attachments
import IamRust.L3Service.Friends
import IamRust.L3Service.Groups
import IamRust.L3Service.Boards
import IamRust.L3Service.Messages

/-!
# The service as a transition system

`Op` lists the transactions of the service with their arguments; a step of
`service env` is one successful transaction. A failed one leaves the store as
it was, so it is no step. The delivery worker takes two steps for a message:
`sendMessageRequest` for its author and `removeScheduledMessage`. Nothing ties
the arguments to what came before: an actor may be any user, the clock any
time.
-/
namespace IamRust

open Core

inductive Op where
  | register (input : RegisterInput) (now : DateTime)
  | loginWithSecondFactor (input : LoginInput) (code : Option String) (now : DateTime)
  | beginSecondFactorSetup (actor : UserId) (now : DateTime)
  | enableSecondFactor (actor : UserId) (code : String) (now : DateTime)
  | disableSecondFactor (actor : UserId) (currentPassword code : String) (now : DateTime)
  | regenerateRecoveryCodes (actor : UserId) (currentPassword code : String) (now : DateTime)
  | pollQrLogin (userId : UserId) (deviceName platform appVersion : String) (now : DateTime)
  | refresh (refreshToken : String) (now : DateTime)
  | logout (refreshToken : String)
  | revokeDevice (actor : UserId) (deviceId : DeviceId) (now : DateTime)
  | changePassword (actor : UserId) (currentPassword newPassword : String)
  | requestPasswordReset (email : String) (now : DateTime)
  | resetPassword (resetToken newPassword : String) (now : DateTime)
  | setConnectionPresence (actor : UserId) (connected : Bool) (now : DateTime)
  | updateProfile (userId : UserId) (input : UpdateProfileInput) (utcNow now : DateTime)
  | updateProfilePrivacy (actor : UserId) (settings : ProfilePrivacySettings) (now : DateTime)
  | deleteAccount (actor : UserId) (currentPassword confirmation : String) (now : DateTime)
  | adminSetUserSuspended (target : UserId) (suspended : Bool) (now : DateTime)
  | adminRevokeUserSessions (target : UserId) (now : DateTime)
  | authorizeAttachment (actor : UserId) (fileName mimeType : String) (byteSize : Nat)
    (sha256 : Option String) (now : DateTime)
  | completeAttachment (actor : UserId) (attachmentId : AttachmentId) (now : DateTime)
  | quarantineAttachment (actor : UserId) (attachmentId : AttachmentId) (now : DateTime)
  | createSticker (actor : UserId) (request : CreateStickerRequest) (now : DateTime)
  | deleteSticker (actor : UserId) (stickerId : Uuid)
  | cleanupExpiredAttachments (now : DateTime)
  | sendFriendRequest (senderId : UserId) (username message : String) (now : DateTime)
  | decideFriendRequest (actor : UserId) (requestId : FriendRequestId)
    (decision : FriendRequestDecision) (now : DateTime)
  | updateFriendSettings (actor friendId : UserId) (request : UpdateFriendSettingsRequest)
    (now : DateTime)
  | deleteFriend (actor friendId : UserId) (now : DateTime)
  | blockUser (actor target : UserId) (now : DateTime)
  | unblockUser (actor target : UserId) (now : DateTime)
  | reportUser (actor target : UserId) (request : ReportUserRequest) (now : DateTime)
  | createDirect (actor peer : UserId) (now : DateTime)
  | createGroup (owner : UserId) (memberIds : List UserId) (name : String) (now : DateTime)
  | updateGroup (actor : UserId) (conversationId : ConversationId) (request : UpdateGroupRequest)
    (now : DateTime)
  | addGroupMembers (actor : UserId) (conversationId : ConversationId)
    (request : AddGroupMembersRequest) (now : DateTime)
  | leaveGroup (actor : UserId) (conversationId : ConversationId) (now : DateTime)
  | disbandGroup (actor : UserId) (conversationId : ConversationId) (now : DateTime)
  | updateGroupMember (actor : UserId) (conversationId : ConversationId) (target : UserId)
    (request : UpdateGroupMemberRequest) (now : DateTime)
  | removeGroupMember (actor : UserId) (conversationId : ConversationId) (target : UserId)
    (now : DateTime)
  | transferGroupOwnership (actor : UserId) (conversationId : ConversationId)
    (request : TransferGroupOwnershipRequest) (now : DateTime)
  | setGroupMute (actor : UserId) (conversationId : ConversationId) (request : GroupMuteRequest)
    (now : DateTime)
  | createGroupAnnouncement (actor : UserId) (conversationId : ConversationId)
    (request : CreateGroupAnnouncementRequest) (now : DateTime)
  | readGroupAnnouncement (actor : UserId) (announcementId : Uuid) (now : DateTime)
  | requestToJoinGroup (actor : UserId) (conversationId : ConversationId)
    (request : CreateGroupJoinRequest) (now : DateTime)
  | decideGroupJoinRequest (actor : UserId) (requestId : Uuid) (request : DecideGroupJoinRequest)
    (now : DateTime)
  | createGroupPoll (actor : UserId) (conversationId : ConversationId)
    (request : CreateGroupPollRequest) (now : DateTime)
  | voteGroupPoll (actor : UserId) (pollId : Uuid) (request : VoteGroupPollRequest)
    (now : DateTime)
  | updateConversationSettings (actor : UserId) (conversationId : ConversationId)
    (request : UpdateConversationSettingsRequest) (now : DateTime)
  | markAllRead (actor : UserId) (now : DateTime)
  | markRead (actor : UserId) (conversationId : ConversationId) (throughSequence : Nat)
    (now : DateTime)
  | scheduleMessage (actor : UserId) (request : ScheduleMessageRequest) (now : DateTime)
  | cancelScheduledMessage (actor : UserId) (scheduleId : Uuid)
  | removeScheduledMessage (scheduleId : Uuid)
  | sendMessageRequest (actor : UserId) (conversationId : ConversationId)
    (request : SendMessageRequest) (now : DateTime)
  | acknowledgeDelivery (actor : UserId) (messageId : MessageId) (now : DateTime)
  | recallMessage (actor : UserId) (messageId : MessageId) (now : DateTime)
  | reactToMessage (actor : UserId) (messageId : MessageId) (emoji : String) (active : Bool)
    (now : DateTime)
  | setMessageFavorite (actor : UserId) (messageId : MessageId) (favorite : Bool)
  | forwardMessages (actor : UserId) (messageIds : List MessageId) (target : ConversationId)
    (mode : ForwardMode) (now : DateTime)

namespace Op

/-- The transaction, its result dropped. -/
def run (env : Env) : Op → Service Unit
  | .register input now => (IamRust.register env input now).void
  | .loginWithSecondFactor input code now => (IamRust.loginWithSecondFactor env input code now).void
  | .beginSecondFactorSetup actor now => (IamRust.beginSecondFactorSetup env actor now).void
  | .enableSecondFactor actor code now => (IamRust.enableSecondFactor env actor code now).void
  | .disableSecondFactor actor currentPassword code now =>
    (IamRust.disableSecondFactor env actor currentPassword code now).void
  | .regenerateRecoveryCodes actor currentPassword code now =>
    (IamRust.regenerateRecoveryCodes env actor currentPassword code now).void
  | .pollQrLogin userId deviceName platform appVersion now =>
    (IamRust.pollQrLogin env userId deviceName platform appVersion now).void
  | .refresh refreshToken now => (IamRust.refresh env refreshToken now).void
  | .logout refreshToken => (IamRust.logout env refreshToken).void
  | .revokeDevice actor deviceId now => (IamRust.revokeDevice actor deviceId now).void
  | .changePassword actor currentPassword newPassword =>
    (IamRust.changePassword env actor currentPassword newPassword).void
  | .requestPasswordReset email now => (IamRust.requestPasswordReset env email now).void
  | .resetPassword resetToken newPassword now =>
    (IamRust.resetPassword env resetToken newPassword now).void
  | .setConnectionPresence actor connected now =>
    (IamRust.setConnectionPresence env actor connected now).void
  | .updateProfile userId input utcNow now =>
    (IamRust.updateProfile env userId input utcNow now).void
  | .updateProfilePrivacy actor settings now =>
    (IamRust.updateProfilePrivacy env actor settings now).void
  | .deleteAccount actor currentPassword confirmation now =>
    (IamRust.deleteAccount env actor currentPassword confirmation now).void
  | .adminSetUserSuspended target suspended now =>
    (IamRust.adminSetUserSuspended env target suspended now).void
  | .adminRevokeUserSessions target now => (IamRust.adminRevokeUserSessions env target now).void
  | .authorizeAttachment actor fileName mimeType byteSize sha256 now =>
    (IamRust.authorizeAttachment env actor fileName mimeType byteSize sha256 now).void
  | .completeAttachment actor attachmentId now =>
    (IamRust.completeAttachment actor attachmentId now).void
  | .quarantineAttachment actor attachmentId now =>
    (IamRust.quarantineAttachment actor attachmentId now).void
  | .createSticker actor request now => (IamRust.createSticker env actor request now).void
  | .deleteSticker actor stickerId => (IamRust.deleteSticker actor stickerId).void
  | .cleanupExpiredAttachments now => (IamRust.cleanupExpiredAttachments now).void
  | .sendFriendRequest senderId username message now =>
    (IamRust.sendFriendRequest env senderId username message now).void
  | .decideFriendRequest actor requestId decision now =>
    (IamRust.decideFriendRequest env actor requestId decision now).void
  | .updateFriendSettings actor friendId request now =>
    (IamRust.updateFriendSettings env actor friendId request now).void
  | .deleteFriend actor friendId now => (IamRust.deleteFriend env actor friendId now).void
  | .blockUser actor target now => (IamRust.blockUser env actor target now).void
  | .unblockUser actor target now => (IamRust.unblockUser env actor target now).void
  | .reportUser actor target request now => (IamRust.reportUser env actor target request now).void
  | .createDirect actor peer now => (IamRust.createDirect env actor peer now).void
  | .createGroup owner memberIds name now => (IamRust.createGroup env owner memberIds name now).void
  | .updateGroup actor conversationId request now =>
    (IamRust.updateGroup env actor conversationId request now).void
  | .addGroupMembers actor conversationId request now =>
    (IamRust.addGroupMembers env actor conversationId request now).void
  | .leaveGroup actor conversationId now => (IamRust.leaveGroup env actor conversationId now).void
  | .disbandGroup actor conversationId now =>
    (IamRust.disbandGroup env actor conversationId now).void
  | .updateGroupMember actor conversationId target request now =>
    (IamRust.updateGroupMember env actor conversationId target request now).void
  | .removeGroupMember actor conversationId target now =>
    (IamRust.removeGroupMember env actor conversationId target now).void
  | .transferGroupOwnership actor conversationId request now =>
    (IamRust.transferGroupOwnership env actor conversationId request now).void
  | .setGroupMute actor conversationId request now =>
    (IamRust.setGroupMute env actor conversationId request now).void
  | .createGroupAnnouncement actor conversationId request now =>
    (IamRust.createGroupAnnouncement env actor conversationId request now).void
  | .readGroupAnnouncement actor announcementId now =>
    (IamRust.readGroupAnnouncement actor announcementId now).void
  | .requestToJoinGroup actor conversationId request now =>
    (IamRust.requestToJoinGroup env actor conversationId request now).void
  | .decideGroupJoinRequest actor requestId request now =>
    (IamRust.decideGroupJoinRequest env actor requestId request now).void
  | .createGroupPoll actor conversationId request now =>
    (IamRust.createGroupPoll env actor conversationId request now).void
  | .voteGroupPoll actor pollId request now =>
    (IamRust.voteGroupPoll env actor pollId request now).void
  | .updateConversationSettings actor conversationId request now =>
    (IamRust.updateConversationSettings env actor conversationId request now).void
  | .markAllRead actor now => (IamRust.markAllRead env actor now).void
  | .markRead actor conversationId throughSequence now =>
    (IamRust.markRead env actor conversationId throughSequence now).void
  | .scheduleMessage actor request now => (IamRust.scheduleMessage env actor request now).void
  | .cancelScheduledMessage actor scheduleId =>
    (IamRust.cancelScheduledMessage actor scheduleId).void
  | .removeScheduledMessage scheduleId => (IamRust.removeScheduledMessage scheduleId).void
  | .sendMessageRequest actor conversationId request now =>
    (IamRust.sendMessageRequest env actor conversationId request now).void
  | .acknowledgeDelivery actor messageId now =>
    (IamRust.acknowledgeDelivery env actor messageId now).void
  | .recallMessage actor messageId now => (IamRust.recallMessage env actor messageId now).void
  | .reactToMessage actor messageId emoji active now =>
    (IamRust.reactToMessage env actor messageId emoji active now).void
  | .setMessageFavorite actor messageId favorite =>
    (IamRust.setMessageFavorite actor messageId favorite).void
  | .forwardMessages actor messageIds target mode now =>
    (IamRust.forwardMessages env actor messageIds target mode now).void

/-- The fields the operation may write, beside the log and the draws. -/
def touches : Op → List Field
  | .register _ _ =>
    [.accounts, .profilePrivacy, .preferredPresence, .byEmail, .byUsername, .devices,
      .accessTokens, .refreshTokens]
  | .loginWithSecondFactor _ _ _ => [.accounts, .devices, .accessTokens, .refreshTokens]
  | .beginSecondFactorSetup _ _ => [.accounts]
  | .enableSecondFactor _ _ _ => [.accounts]
  | .disableSecondFactor _ _ _ _ => [.accounts]
  | .regenerateRecoveryCodes _ _ _ _ => [.accounts]
  | .pollQrLogin _ _ _ _ _ => [.devices, .accessTokens, .refreshTokens]
  | .refresh _ _ => [.accessTokens, .refreshTokens, .consumedRefreshTokens]
  | .logout _ => [.accessTokens, .refreshTokens, .consumedRefreshTokens]
  | .revokeDevice _ _ _ => [.accessTokens, .refreshTokens, .devices]
  | .changePassword _ _ _ => [.accounts, .accessTokens, .refreshTokens, .devices]
  | .requestPasswordReset _ _ => [.passwordResets]
  | .resetPassword _ _ _ => [.passwordResets, .accounts, .accessTokens, .refreshTokens, .devices]
  | .setConnectionPresence _ _ _ => [.accounts]
  | .updateProfile _ _ _ _ => [.accounts, .preferredPresence]
  | .updateProfilePrivacy _ _ _ => [.profilePrivacy]
  | .deleteAccount _ _ _ _ =>
    [.conversations, .accounts, .byEmail, .byUsername, .accessTokens, .refreshTokens, .devices,
      .passwordResets, .friendRequests, .friendships, .friendSettings, .conversationSettings,
      .readPositions, .blocks, .reports, .favoriteMessages, .scheduledMessages, .stickers,
      .profilePrivacy, .preferredPresence]
  | .adminSetUserSuspended _ _ _ =>
    [.accounts, .auditEvents, .accessTokens, .refreshTokens, .devices]
  | .adminRevokeUserSessions _ _ => [.auditEvents, .accessTokens, .refreshTokens, .devices]
  | .authorizeAttachment _ _ _ _ _ _ => [.attachments]
  | .completeAttachment _ _ _ => [.attachments]
  | .quarantineAttachment _ _ _ => [.attachments]
  | .createSticker _ _ _ => [.stickers]
  | .deleteSticker _ _ => [.stickers]
  | .cleanupExpiredAttachments _ => [.attachments]
  | .sendFriendRequest _ _ _ _ => [.friendRequests]
  | .decideFriendRequest _ _ _ _ =>
    [.friendRequests, .friendships, .friendSettings, .conversations, .conversationSettings]
  | .updateFriendSettings _ _ _ _ => [.friendSettings]
  | .deleteFriend _ _ _ => [.friendships, .friendSettings]
  | .blockUser _ _ _ => [.blocks, .friendships, .friendSettings, .friendRequests]
  | .unblockUser _ _ _ => [.blocks]
  | .reportUser _ _ _ _ => [.reports]
  | .createDirect _ _ _ => [.conversations, .conversationSettings]
  | .createGroup _ _ _ _ => [.conversations, .conversationSettings]
  | .updateGroup _ _ _ _ => [.conversations, .messages]
  | .addGroupMembers _ _ _ _ => [.conversations, .conversationSettings, .messages]
  | .leaveGroup _ _ _ => [.conversations, .conversationSettings, .messages]
  | .disbandGroup _ _ _ => [.conversations, .conversationSettings, .groupMuteAll]
  | .updateGroupMember _ _ _ _ _ => [.conversations, .messages]
  | .removeGroupMember _ _ _ _ => [.conversations, .conversationSettings, .messages]
  | .transferGroupOwnership _ _ _ _ => [.conversations, .messages]
  | .setGroupMute _ _ _ _ => [.conversations, .groupMuteAll, .messages]
  | .createGroupAnnouncement _ _ _ _ => [.groupAnnouncements, .conversations, .messages]
  | .readGroupAnnouncement _ _ _ => [.groupAnnouncements]
  | .requestToJoinGroup _ _ _ _ => [.groupJoinRequests]
  | .decideGroupJoinRequest _ _ _ _ =>
    [.groupJoinRequests, .conversations, .conversationSettings, .messages]
  | .createGroupPoll _ _ _ _ => [.groupPolls, .conversations, .messages]
  | .voteGroupPoll _ _ _ _ => [.groupPolls]
  | .updateConversationSettings _ _ _ _ => [.conversationSettings]
  | .markAllRead _ _ => [.readPositions, .conversationSettings]
  | .markRead _ _ _ _ => [.messageReceipts, .readPositions, .conversationSettings]
  | .scheduleMessage _ _ _ => [.scheduledMessages]
  | .cancelScheduledMessage _ _ => [.scheduledMessages]
  | .removeScheduledMessage _ => [.scheduledMessages]
  | .sendMessageRequest _ _ _ _ =>
    [.messages, .conversations, .messageDedup, .messageReceipts, .messageExpirations]
  | .acknowledgeDelivery _ _ _ => [.messageReceipts]
  | .recallMessage _ _ _ => [.messages, .messageExpirations]
  | .reactToMessage _ _ _ _ _ => [.messageReactions]
  | .setMessageFavorite _ _ _ => [.favoriteMessages]
  | .forwardMessages _ _ _ _ _ => [.messages, .conversations, .messageDedup, .messageReceipts]

set_option synthInstance.maxSize 1000000000000 in
/-- **Footprint.** A transaction writes only the fields it touches, extends the log by events with
consecutive cursors, and gives no draw back. -/
theorem evolves (env : Env) (op : Op) : Tx.Keeps (Evolves op.touches) (op.run env) := by
  cases op <;> dsimp only [run, touches] <;> infer_instance

theorem same {env : Env} {op : Op} {w w' : World} (h : (op.run env).Runs w () w') {f : Field}
    (hf : f ∉ op.touches ++ logFields) : Same f w w' :=
  ((op.evolves env).runs h).same f hf

end Op

/-- An environment to run the model in: numbered draws, and cryptography that hides nothing. -/
def Env.numbered : Env where
  uuid n := n + 1
  randomBytes n len := (List.range len).map fun i => UInt8.ofNat (n / 256 ^ i)
  sha256 bytes := bytes
  hmacSha1 key text := key ++ text
  hashPassword _ password := some password
  verifyPassword password encoded := password == encoded
  encrypt _ plaintext := some plaintext
  decrypt _ ciphertext := some ciphertext
  base32 bytes := Text.toHex bytes
  urlScheme url := if Text.startsWith url "https://" then some "https" else none
  isUppercase := Text.isAsciiUpper
  isLowercase := Text.isAsciiLower

/-- With a digest of two bytes. -/
def Env.brief : Env := { Env.numbered with sha256 := fun bytes => bytes.take 2 }

theorem Env.numbered_injective : Function.Injective Env.numbered.uuid := fun _ _ h =>
  Nat.succ.inj h

def alice : RegisterInput where
  email := "alice@example.com"
  username := "alice"
  password := "Passw0rd123"
  nickname := "Alice"
  deviceName := "phone"
  platform := "ios"
  appVersion := "1.0"

def bob : RegisterInput := { alice with
  email := "bob@example.com"
  username := "bob"
  nickname := "Bob" }

/-- Alice is user 1 and Bob user 4; they become friends, with the direct conversation 9, and Alice
makes the group 11 of the two. -/
def aliceAndBob : List Op :=
  [.register alice 0, .register bob 0, .sendFriendRequest 1 "bob" "" 0,
    .decideFriendRequest 4 7 .accept 0, .createGroup 1 [4] "Team" 0]

/-- A plain text under the client id. -/
def SendMessageRequest.text (clientMessageId : MessageId) (text : String) : SendMessageRequest where
  clientMessageId := clientMessageId
  content := .text text
  replyTo := none
  mentions := []
  mentionAll := false
  expiresInSeconds := none

/-- The runs of the service. -/
def service (env : Env) : LTS World Op where
  init w := w = World.init
  step w op w' := (op.run env).Runs w () w'

/-- The transactions one after the other; the first failure ends the run. -/
def runOps (env : Env) : List Op → World → Except ApplicationError World
  | [], w => .ok w
  | op :: ops, w =>
    match op.run env w with
    | .ok (_, w') => runOps env ops w'
    | .error e => .error e

theorem run_of_runOps {env : Env} {ops : List Op} {w w' : World}
    (h : runOps env ops w = .ok w') : (service env).Run w ops w' := by
  induction ops generalizing w with
  | nil =>
    cases h
    exact .nil _
  | cons op ops ih =>
    unfold runOps at h
    split at h
    · exact .cons ‹_› (ih h)
    · cases h

/-- A store that a concrete run reaches, with what can be computed about it. -/
theorem reaches (env : Env) (ops : List Op) (p : World → Bool)
    (h : (runOps env ops World.init).toOption.any p = true) :
    ∃ w, (service env).Run World.init ops w ∧ p w = true := by
  obtain ⟨w, hw, hp⟩ := (Option.any_eq_true ..).mp h
  exact ⟨w, run_of_runOps (toOption_eq_some.mp hw), hp⟩

/-- A transaction that succeeds in the store a concrete run reaches. -/
theorem reaches_runs {α : Type} (env : Env) (ops : List Op) (t : Service α)
    (p : World → α → World → Bool) (h : (runOps env ops World.init).toOption.any
      (fun w => (t w).toOption.any fun r => p w r.1 r.2) = true) :
    ∃ w a w', (service env).Run World.init ops w ∧ t.Runs w a w' ∧ p w a w' = true := by
  obtain ⟨w, hw, hp⟩ := reaches env ops (fun w => (t w).toOption.any fun r => p w r.1 r.2) h
  obtain ⟨r, hr, hp⟩ := (Option.any_eq_true ..).mp hp
  exact ⟨w, r.1, r.2, hw, toOption_eq_some.mp hr, hp⟩

/-- A store reached by steps that meet a condition, checked along the way. -/
theorem reaches_checked (env : Env) {ok : World → Op → Prop} (check : World → Op → Bool)
    (hcheck : ∀ w op, check w op = true → ok w op) (ops : List Op) (p : World → Bool)
    (h : (LTS.exec (fun w op => if check w op then (op.run env w).toOption.map (·.2) else none) ops
      World.init).any p = true) :
    ∃ w, ((service env).restrict ok).Reachable w ∧ p w = true := by
  refine LTS.reaches_of_exec (M := (service env).restrict ok) rfl ops
    (fun w op _ w' hnext => ?_) p h
  split at hnext
  · obtain ⟨r, hr, rfl⟩ := Option.map_eq_some_iff.mp hnext
    exact ⟨hcheck w op ‹_›, toOption_eq_some.mp hr⟩
  · cases hnext

theorem reachable_of_run {env : Env} {ops : List Op} {w : World}
    (h : (service env).Run World.init ops w) : (service env).Reachable w :=
  ⟨World.init, ops, rfl, h⟩

end IamRust
