import IamRust.L3Service.Sessions

/-!
# Profiles, account deletion and administration

The operations of service.rs on an account itself: presence, profile and
privacy, deletion with the purge of everything that names the user, and the
two administrative ones.
-/
namespace IamRust

open Core
open Core.Tx (failIf okOr ofExcept whenTrue whenSome forEach mapEach)

structure UpdateProfileInput where
  nickname : String
  signature : String
  avatarUrl : Option Url
  avatarAttachmentId : Option AttachmentId
  gender : Option String
  birthday : Option NaiveDate
  region : Option String
  presence : Option Presence

/-! ## Deleting an account -/

/-- The users friends with `actor` or in a conversation with them.
mirrors crates/application/src/service.rs:4190-4210 -/
def accountRelationshipRecipients (s : Store) (actor : UserId) : List UserId :=
  let friends := (s.friendships.filter (·.contains actor)).flatMap fun f =>
    [f.lowerUserId, f.upperUserId]
  let peers := (s.conversations.values.filter (·.canRead actor)).flatMap (·.members.keys)
  (friends ++ peers).filter (· ≠ actor)

/-- `(role, Reverse(joined_at))` of `a` is at most that of `b`. -/
def ConversationMember.succeeds (a b : ConversationMember) : Bool :=
  decide (a.role < b.role ∨ (a.role = b.role ∧ b.joinedAt ≤ a.joinedAt))

/-- The member that takes over a group: the highest role, then the longest membership; the last
one in order among equals (`max_by_key`). -/
def Conversation.successor (c : Conversation) (actor : UserId) : Option UserId :=
  let others := c.members.values.filter fun member => member.userId != actor
  (others.foldl (fun best member =>
    match best with
    | none => some member
    | some b => if b.succeeds member then some member else some b) none).map (·.userId)

/-- One conversation of the loop.
mirrors crates/application/src/service.rs:4213-4234 -/
def Conversation.detach (c : Conversation) (actor : UserId) (now : DateTime) : Conversation :=
  if c.canRead actor = false then c
  else
    let successor :=
      if c.isGroup ∧ (c.members.get actor).map (·.role) = some .owner then c.successor actor
      else none
    let promoted := match successor with
      | some userId => c.members.modify userId fun member => { member with role := .owner }
      | none => c.members
    { c with members := promoted.remove actor, updatedAt := now }

/-- mirrors crates/application/src/service.rs:4212-4235 -/
def detachAccountFromConversations (actor : UserId) (now : DateTime) : Service Unit :=
  update .conversations fun w => w.conversations.mapValues (·.detach actor now)

/-- mirrors crates/application/src/service.rs:4246-4255 -/
def UserProfile.anonymized (profile : UserProfile) (actor : UserId) : UserProfile :=
  { profile with
    username := "deleted-" ++ Uuid.simple actor
    nickname := "已注销用户"
    avatarUrl := none
    avatarAttachmentId := none
    signature := ""
    gender := none
    birthday := none
    region := none
    presence := .offline
    lastSeenAt := none }

/-- mirrors crates/application/src/service.rs:4237-4258 -/
def anonymizeAccount (actor : UserId) (now : DateTime) : Service UserProfile := do
  let w ← get
  let account ← okOr (w.accounts.get actor) .notFound
  let profile := account.profile.anonymized actor
  update .accounts fun w =>
    w.accounts.insert actor { account with deletedAt := some now, profile := profile }
  pure profile

/-- mirrors crates/application/src/service.rs:4260-4297 -/
def purgeAccountRelationships (actor : UserId) (now : DateTime) : Service Unit := do
  update .byEmail fun w => w.byEmail.retain fun _ userId => userId != actor
  update .byUsername fun w => w.byUsername.retain fun _ userId => userId != actor
  revokeUserSessions actor (some now)
  update .passwordResets fun w => w.passwordResets.retain fun _ reset => reset.userId != actor
  update .friendRequests fun w => w.friendRequests.retain fun _ request =>
    request.senderId != actor && request.recipientId != actor
  update .friendships fun w => w.friendships.filter fun friendship => !friendship.contains actor
  update .friendSettings fun w => w.friendSettings.retain fun key _ =>
    key.1 != actor && key.2 != actor
  update .conversationSettings fun w => w.conversationSettings.retain fun key _ => key.1 != actor
  update .readPositions fun w => w.readPositions.retain fun key _ => key.1 != actor
  update .blocks fun w => w.blocks.filter fun pair => pair.1 ≠ actor ∧ pair.2 ≠ actor
  update .reports fun w => w.reports.filter fun report => report.reporterId != actor
  update .favoriteMessages fun w => w.favoriteMessages.filter fun pair => pair.1 ≠ actor
  update .scheduledMessages fun w => w.scheduledMessages.filter fun message =>
    message.actor != actor
  update .stickers fun w => w.stickers.retain fun _ sticker => sticker.ownerId != actor
  update .profilePrivacy fun w => w.profilePrivacy.remove actor
  update .preferredPresence fun w => w.preferredPresence.remove actor

section
variable (env : Env)

/-- mirrors crates/application/src/service.rs:4162-4188 -/
def deleteAccountInStore (actor : UserId) (currentPassword : String) (now : DateTime) :
    Service Unit := do
  let w ← get
  let account ← okOr (w.activeAccount actor) .notFound
  failIf (env.verifyPassword currentPassword account.passwordHash = false) .invalidCredentials
  let recipients := accountRelationshipRecipients w.toStore actor
  detachAccountFromConversations actor now
  let profile ← anonymizeAccount actor now
  purgeAccountRelationships actor now
  appendEvent env recipients .presenceUpdated (.profileDeleted profile) now

/-- mirrors crates/application/src/service.rs:1555-1571 -/
def deleteAccount (actor : UserId) (currentPassword confirmation : String) (now : DateTime) :
    Service Unit := do
  failIf (confirmation ≠ "DELETE") (invalid "confirmation" "confirmation_required")
  deleteAccountInStore env actor currentPassword now

/-! ## Presence, profile and privacy -/

/-- mirrors crates/application/src/service.rs:632-662 -/
def setConnectionPresence (actor : UserId) (connected : Bool) (now : DateTime) :
    Service Unit := do
  let w ← get
  let preferred := (w.preferredPresence.get actor).getD .online
  let account ← okOr (w.activeAccount actor) .notFound
  let profile := { account.profile with
    presence := if connected then preferred else .offline
    lastSeenAt := some now }
  update .accounts fun w => w.accounts.insert actor { account with profile := profile }
  appendProfileEvents env actor profile now

/-- The check of a new avatar.
mirrors crates/application/src/service.rs:1372-1385 -/
def checkAvatar (s : Store) (userId : UserId) (attachmentId : AttachmentId) :
    Except ApplicationError Unit :=
  match (s.attachments.get attachmentId).filter fun a => a.ownerId == userId && a.available with
  | none => .error .notFound
  | some a =>
    if a.attachment.kind ≠ .image then .error (invalid "avatar_attachment_id" "image_required")
    else .ok ()

/-- `utcNow` is the clock the profile check reads itself.
mirrors crates/application/src/service.rs:1365-1423 -/
def updateProfile (userId : UserId) (input : UpdateProfileInput) (utcNow now : DateTime) :
    Service UserProfile := do
  let w ← get
  whenSome input.avatarAttachmentId fun attachmentId =>
    ofExcept (checkAvatar w.toStore userId attachmentId)
  let account ← okOr (w.accounts.get userId) .notFound
  let presence := input.presence.getD
    ((w.preferredPresence.get userId).getD account.profile.presence)
  let profile ← ofExcept (liftDomain (account.profile.updatePublicFields {
    nickname := input.nickname
    signature := input.signature
    avatarUrl := input.avatarUrl
    avatarAttachmentId := input.avatarAttachmentId
    gender := input.gender
    birthday := input.birthday
    region := input.region
    presence := presence } utcNow.dateNaive))
  update .accounts fun w => w.accounts.insert userId { account with profile := profile }
  whenSome input.presence fun presence =>
    update .preferredPresence fun w => w.preferredPresence.insert userId presence
  appendProfileEvents env userId profile now
  pure profile

/-- mirrors crates/application/src/service.rs:1435-1483 -/
def updateProfilePrivacy (actor : UserId) (settings : ProfilePrivacySettings) (now : DateTime) :
    Service ProfilePrivacySettings := do
  let w ← get
  failIf (w.activeAccount actor).isNone .notFound
  update .profilePrivacy fun w => w.profilePrivacy.insert actor settings
  forEach ((w.friendships.filter (·.contains actor)).map (·.other actor)) fun recipient => do
    let w ← get
    let visible ← okOr (visibleProfile w.toStore recipient actor) .notFound
    appendEvent env [recipient] .presenceUpdated (.profile visible) now
  appendEvent env [actor] .presenceUpdated (.privacy settings) now
  pure settings

/-! ## Administration -/

def appendAuditEntry (action : String) (target : UserId) (now : DateTime) : Service Unit := do
  let id ← newUuid env
  update .auditEvents fun w => w.auditEvents ++ [⟨id, none, action, some target, "success", now⟩]

/-- mirrors crates/application/src/service.rs:4085-4116 -/
def adminSetUserSuspended (target : UserId) (suspended : Bool) (now : DateTime) :
    Service Unit := do
  let w ← get
  let account ← okOr (w.activeAccount target) .notFound
  update .accounts fun w => w.accounts.insert target { account with suspended := suspended }
  whenTrue suspended (revokeUserSessions target (some now))
  appendAuditEntry env (if suspended then "user.suspend" else "user.restore") target now

/-- mirrors crates/application/src/service.rs:4118-4143 -/
def adminRevokeUserSessions (target : UserId) (now : DateTime) : Service Unit := do
  let w ← get
  failIf (w.activeAccount target).isNone .notFound
  revokeUserSessions target (some now)
  appendAuditEntry env "sessions.revoke" target now

end

/-! ## Footprints -/

set_option synthInstance.maxSize 1000000000000

section
variable {env : Env} {R : World → World → Prop} [IsPreorder World R]

instance keeps_detachAccountFromConversations [Ignores R .conversations] {actor : UserId}
    {now : DateTime} : Tx.Keeps R (detachAccountFromConversations actor now) := by
  unfold detachAccountFromConversations; infer_instance

instance keeps_anonymizeAccount [Ignores R .accounts] {actor : UserId} {now : DateTime} :
    Tx.Keeps R (anonymizeAccount actor now) := by
  unfold anonymizeAccount; infer_instance

instance keeps_purgeAccountRelationships [Ignores R .byEmail] [Ignores R .byUsername]
    [Ignores R .accessTokens] [Ignores R .refreshTokens] [Ignores R .devices]
    [Ignores R .passwordResets] [Ignores R .friendRequests] [Ignores R .friendships]
    [Ignores R .friendSettings] [Ignores R .conversationSettings] [Ignores R .readPositions]
    [Ignores R .blocks] [Ignores R .reports] [Ignores R .favoriteMessages]
    [Ignores R .scheduledMessages] [Ignores R .stickers] [Ignores R .profilePrivacy]
    [Ignores R .preferredPresence] {actor : UserId} {now : DateTime} :
    Tx.Keeps R (purgeAccountRelationships actor now) := by
  unfold purgeAccountRelationships; infer_instance

section
variable [Drawing env R]

instance keeps_appendAuditEntry [Ignores R .auditEvents] {action : String} {target : UserId}
    {now : DateTime} : Tx.Keeps R (appendAuditEntry env action target now) := by
  unfold appendAuditEntry; infer_instance

instance keeps_adminSetUserSuspended [Ignores R .accounts] [Ignores R .auditEvents]
    [Ignores R .accessTokens] [Ignores R .refreshTokens] [Ignores R .devices] {target : UserId}
    {suspended : Bool} {now : DateTime} :
    Tx.Keeps R (adminSetUserSuspended env target suspended now) := by
  unfold adminSetUserSuspended; infer_instance

instance keeps_adminRevokeUserSessions [Ignores R .auditEvents] [Ignores R .accessTokens]
    [Ignores R .refreshTokens] [Ignores R .devices] {target : UserId} {now : DateTime} :
    Tx.Keeps R (adminRevokeUserSessions env target now) := by
  unfold adminRevokeUserSessions; infer_instance

end

variable [Logged env R]

instance keeps_deleteAccount [Ignores R .conversations] [Ignores R .accounts]
    [Ignores R .byEmail] [Ignores R .byUsername] [Ignores R .accessTokens]
    [Ignores R .refreshTokens] [Ignores R .devices] [Ignores R .passwordResets]
    [Ignores R .friendRequests] [Ignores R .friendships] [Ignores R .friendSettings]
    [Ignores R .conversationSettings] [Ignores R .readPositions] [Ignores R .blocks]
    [Ignores R .reports] [Ignores R .favoriteMessages] [Ignores R .scheduledMessages]
    [Ignores R .stickers] [Ignores R .profilePrivacy] [Ignores R .preferredPresence]
    {actor : UserId} {currentPassword confirmation : String} {now : DateTime} :
    Tx.Keeps R (deleteAccount env actor currentPassword confirmation now) := by
  unfold deleteAccount deleteAccountInStore; infer_instance

instance keeps_setConnectionPresence [Ignores R .accounts] {actor : UserId} {connected : Bool}
    {now : DateTime} : Tx.Keeps R (setConnectionPresence env actor connected now) := by
  unfold setConnectionPresence; infer_instance

instance keeps_updateProfile [Ignores R .accounts] [Ignores R .preferredPresence]
    {userId : UserId} {input : UpdateProfileInput} {utcNow now : DateTime} :
    Tx.Keeps R (updateProfile env userId input utcNow now) := by
  unfold updateProfile; infer_instance

instance keeps_updateProfilePrivacy [Ignores R .profilePrivacy] {actor : UserId}
    {settings : ProfilePrivacySettings} {now : DateTime} :
    Tx.Keeps R (updateProfilePrivacy env actor settings now) := by
  unfold updateProfilePrivacy; infer_instance

end

end IamRust
