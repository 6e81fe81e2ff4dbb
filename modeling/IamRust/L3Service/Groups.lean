import IamRust.L3Service.Accounts
import IamRust.L3Service.Timeline

/-!
# Conversations and group membership

The operations of service.rs from `create_direct` to `set_group_mute`. A group
operation checks the actor's role, changes the conversation, appends a notice
to the timeline and tells the members.
-/
namespace IamRust

open Core
open Core.Tx (failIf okOr ofExcept whenTrue whenSome forEach mapEach)

structure UpdateGroupRequest where
  name : Option String
  avatarUrl : Option (Option String)
  avatarAttachmentId : Option (Option AttachmentId)

structure AddGroupMembersRequest where
  memberIds : List UserId

structure UpdateGroupMemberRequest where
  nickname : Option (Option String)
  role : Option MemberRole
  mutedUntil : Option (Option DateTime)

structure TransferGroupOwnershipRequest where
  userId : UserId

structure GroupMuteRequest where
  muted : Bool

/-! ## Changes of a conversation -/

/-- The changes asked for, in order: a new URL drops the stored avatar and the other way round.
mirrors crates/application/src/service.rs:2284-2304 -/
def Conversation.updateGroup (c : Conversation) (request : UpdateGroupRequest) (now : DateTime) :
    Conversation :=
  let c := match request.name with
    | some name => { c with name := Text.trim name }
    | none => c
  let c := match request.avatarUrl with
    | some avatarUrl => { c with avatarUrl := avatarUrl, avatarAttachmentId := none }
    | none => c
  let c := match request.avatarAttachmentId with
    | some (some id) => { c with avatarAttachmentId := some id, avatarUrl := none }
    | some none => { c with avatarAttachmentId := none }
    | none => c
  { c with updatedAt := now }

/-- Its name and its picture are all that changes. -/
theorem Conversation.updateGroup_rest (c : Conversation) (request : UpdateGroupRequest)
    (now : DateTime) : ∃ name avatarUrl avatarAttachmentId, c.updateGroup request now = { c with
      name := name
      avatarUrl := avatarUrl
      avatarAttachmentId := avatarAttachmentId
      updatedAt := now } := by
  unfold updateGroup
  cases request.name <;> cases request.avatarUrl <;>
    rcases request.avatarAttachmentId with - | - | - <;> exact ⟨_, _, _, rfl⟩

@[simp] theorem Conversation.updateGroup_id (c : Conversation) (request : UpdateGroupRequest)
    (now : DateTime) : (c.updateGroup request now).id = c.id := by
  obtain ⟨_, _, _, h⟩ := c.updateGroup_rest request now
  rw [h]

@[simp] theorem Conversation.updateGroup_kind (c : Conversation) (request : UpdateGroupRequest)
    (now : DateTime) : (c.updateGroup request now).kind = c.kind := by
  obtain ⟨_, _, _, h⟩ := c.updateGroup_rest request now
  rw [h]

@[simp] theorem Conversation.updateGroup_members (c : Conversation) (request : UpdateGroupRequest)
    (now : DateTime) : (c.updateGroup request now).members = c.members := by
  obtain ⟨_, _, _, h⟩ := c.updateGroup_rest request now
  rw [h]

/-- The notices of the changes, in order. -/
def UpdateGroupRequest.changes (request : UpdateGroupRequest) : List String :=
  (if request.name.isSome then ["群名称已更新"] else []) ++
    (if request.avatarUrl.isSome then ["群头像已更新"] else []) ++
    (if request.avatarAttachmentId.isSome then ["群头像已更新"] else [])

/-- The ids of the list that are not members yet, each once. -/
def Conversation.newMembers (c : Conversation) (ids : List UserId) : List UserId :=
  ids.foldl (fun added id =>
    if c.members.containsKey id ∨ id ∈ added then added else added ++ [id]) []

theorem Conversation.mem_newMembers {c : Conversation} {ids : List UserId} {u : UserId} :
    u ∈ c.newMembers ids ↔ u ∈ ids ∧ c.canRead u = false := by
  have hfold : ∀ added : List UserId, u ∈ ids.foldl (fun added id =>
      if c.members.containsKey id ∨ id ∈ added then added else added ++ [id]) added ↔
        u ∈ added ∨ u ∈ ids ∧ c.canRead u = false := by
    induction ids with
    | nil => simp
    | cons id ids ih =>
      intro added
      rw [List.foldl_cons, ih]
      by_cases hu : u = id
      · subst hu
        cases hread : c.canRead u with
        | true =>
          rw [if_pos (.inl hread)]
          simp
        | false =>
          split
          · rename_i h
            have hmem : u ∈ added := h.resolve_left (Bool.eq_false_iff.mp hread)
            simp [hmem]
          · simp
      · split <;> simp [hu]
  simpa [newMembers] using hfold []

/-- mirrors crates/application/src/service.rs:2361-2384 -/
def Conversation.addMembers (c : Conversation) (ids : List UserId) (now : DateTime) :
    Conversation :=
  { c with
    members := ids.foldl (fun members id => members.insert id (.joining id .member now)) c.members
    updatedAt := now }

/-- What the actor may not change of the target.
mirrors crates/application/src/service.rs:2523-2541 -/
def UpdateGroupMemberRequest.forbidden (request : UpdateGroupMemberRequest) (actor target : UserId)
    (actorRole targetRole : MemberRole) : Bool :=
  (request.nickname.isSome && actor != target && decide (actorRole < .administrator)) ||
    request.role.any (fun role =>
      actorRole != .owner || role == .owner || targetRole == .owner) ||
    (request.mutedUntil.isSome &&
      decide (actorRole < .administrator ∨ actorRole ≤ targetRole))

/-- mirrors crates/application/src/service.rs:2546-2554 -/
def ConversationMember.apply (member : ConversationMember) (request : UpdateGroupMemberRequest) :
    ConversationMember :=
  { member with
    nickname := match request.nickname with
      | some nickname => normalizeOptional nickname
      | none => member.nickname
    role := request.role.getD member.role
    mutedUntil := request.mutedUntil.getD member.mutedUntil }

section
variable (env : Env)

/-- mirrors crates/application/src/service.rs:4364-4373 -/
def validatePublicUrl (value field : String) : Except DomainError Unit :=
  if (env.urlScheme value).any fun scheme => scheme == "http" || scheme == "https" then .ok ()
  else .error (.validation field "invalid_url")

/-! ## Operations -/

/-- The direct conversation of the two, if there is one. -/
def findDirect (s : Store) (actor peer : UserId) : Option Conversation :=
  s.conversations.values.find? fun c =>
    c.members.len == 2 && c.members.containsKey actor && c.members.containsKey peer && !c.isGroup

/-- mirrors crates/application/src/service.rs:2183-2220 -/
def createDirect (actor peer : UserId) (now : DateTime) : Service Conversation := do
  let w ← get
  failIf (areFriends w.toStore actor peer = false) forbidden
  if (findDirect w.toStore actor peer).isSome then
    let existing ← okOr (findDirect w.toStore actor peer) .notFound
    pure (conversationForUser existing actor)
  else
    let id ← newUuid env
    let conversation ← ofExcept (liftDomain (Conversation.direct id actor peer now))
    storeConversation conversation
    forEach [actor, peer] fun recipient =>
      appendEvent env [recipient] .conversationUpdated
        (.conversation (conversationForUser conversation recipient)) now
    pure (conversationForUser conversation actor)

/-- mirrors crates/application/src/service.rs:2222-2249 -/
def createGroup (owner : UserId) (memberIds : List UserId) (name : String) (now : DateTime) :
    Service Conversation := do
  let w ← get
  failIf (memberIds.any fun member => member != owner && !areFriends w.toStore owner member)
    forbidden
  let id ← newUuid env
  let groupId ← newUuid env
  let conversation ← ofExcept (liftDomain
    (Conversation.group id groupId owner memberIds name now))
  storeConversation conversation
  appendEvent env conversation.members.keys .conversationUpdated (.conversation conversation) now
  pure conversation

/-- mirrors crates/application/src/service.rs:2251-2323 -/
def updateGroup (actor : UserId) (conversationId : ConversationId) (request : UpdateGroupRequest)
    (now : DateTime) : Service Conversation := do
  whenSome request.name fun name => check (validateGroupName name)
  whenSome request.avatarUrl.join fun url => check (validatePublicUrl env url "avatar_url")
  let w ← get
  whenSome request.avatarAttachmentId.join fun attachmentId =>
    ofExcept (checkAvatar w.toStore actor attachmentId)
  let existing ← okOr (w.conversations.get conversationId) .notFound
  ofExcept (ensureGroup existing)
  ofExcept (requireRoleAtLeast existing actor .administrator)
  let conversation := existing.updateGroup request now
  update .conversations fun w => w.conversations.insert conversationId conversation
  let description := Text.join "，" request.changes
  whenTrue (description.isEmpty = false)
    (appendSystemMessage env conversationId actor description now).void
  appendEvent env conversation.members.keys .conversationUpdated (.conversation conversation) now
  pure conversation

/-- mirrors crates/application/src/service.rs:2325-2416 -/
def addGroupMembers (actor : UserId) (conversationId : ConversationId)
    (request : AddGroupMembersRequest) (now : DateTime) : Service Conversation := do
  failIf (request.memberIds.isEmpty ∨ request.memberIds.length > 100)
    (invalid "member_ids" "invalid_count")
  let w ← get
  let existing ← okOr (w.conversations.get conversationId) .notFound
  ofExcept (ensureGroup existing)
  ofExcept ((requireMember existing actor).map fun _ => ())
  forEach request.memberIds fun memberId => do
    failIf (memberId = actor ∨ areFriends w.toStore actor memberId = false) forbidden
    failIf (w.accounts.containsKey memberId = false) .notFound
  let added := existing.newMembers request.memberIds
  let grown := existing.addMembers added now
  failIf (grown.members.len > 500) (invalid "member_ids" "group_member_limit")
  update .conversations fun w => w.conversations.insert conversationId grown
  forEach added fun memberId => update .conversationSettings fun w =>
    w.conversationSettings.insert (memberId, conversationId)
      (defaultConversationSettings conversationId)
  whenTrue (added.isEmpty = false) (appendSystemMessage env conversationId actor
    ("已邀请 " ++ toString added.length ++ " 位成员加入群聊") now).void
  let w ← get
  let conversation ← okOr (w.conversations.get conversationId) .notFound
  appendEvent env conversation.members.keys .groupMembershipUpdated
    (.conversationAdded conversation added) now
  pure conversation

/-- mirrors crates/application/src/service.rs:2418-2462 -/
def leaveGroup (actor : UserId) (conversationId : ConversationId) (now : DateTime) :
    Service Unit := do
  let w ← get
  let existing ← okOr (w.conversations.get conversationId) .notFound
  ofExcept (ensureGroup existing)
  let member ← okOr (existing.members.get actor) forbidden
  failIf (member.role = .owner) .conflict
  let conversation := { existing with
    members := existing.members.remove actor
    updatedAt := now }
  update .conversations fun w => w.conversations.insert conversationId conversation
  update .conversationSettings fun w => w.conversationSettings.remove (actor, conversationId)
  (appendSystemMessage env conversationId actor "一位成员已退出群聊" now).void
  appendEvent env conversation.members.keys .groupMembershipUpdated
    (.leftUser conversationId actor) now

/-- The conversation goes with its settings; its messages stay stored.
mirrors crates/application/src/service.rs:2464-2493 -/
def disbandGroup (actor : UserId) (conversationId : ConversationId) (now : DateTime) :
    Service Unit := do
  let w ← get
  let conversation ← okOr (w.conversations.get conversationId) .notFound
  ofExcept (ensureGroup conversation)
  ofExcept (requireRoleAtLeast conversation actor .owner)
  update .conversations fun w => w.conversations.remove conversationId
  update .conversationSettings fun w => w.conversationSettings.retain fun key _ =>
    key.2 != conversationId
  update .groupMuteAll fun w => w.groupMuteAll.erase conversationId
  appendEvent env conversation.members.keys .conversationUpdated (.disbanded conversationId) now

/-- mirrors crates/application/src/service.rs:2495-2578 -/
def updateGroupMember (actor : UserId) (conversationId : ConversationId) (target : UserId)
    (request : UpdateGroupMemberRequest) (now : DateTime) : Service Conversation := do
  failIf (request.nickname.join.any fun value => decide ((Text.trim value).length > 48))
    (invalid "group_nickname" "invalid_length")
  let w ← get
  let existing ← okOr (w.conversations.get conversationId) .notFound
  ofExcept (ensureGroup existing)
  let actorMember ← ofExcept (requireMember existing actor)
  let targetMember ← ofExcept (requireMember existing target)
  failIf (request.forbidden actor target actorMember.role targetMember.role) IamRust.forbidden
  let conversation := { existing with
    members := existing.members.insert target (targetMember.apply request)
    updatedAt := now }
  update .conversations fun w => w.conversations.insert conversationId conversation
  (appendSystemMessage env conversationId actor "群成员设置已更新" now).void
  appendEvent env conversation.members.keys .groupMembershipUpdated
    (.conversationMember conversation target) now
  pure conversation

/-- mirrors crates/application/src/service.rs:2580-2617 -/
def removeGroupMember (actor : UserId) (conversationId : ConversationId) (target : UserId)
    (now : DateTime) : Service Unit := do
  let w ← get
  let existing ← okOr (w.conversations.get conversationId) .notFound
  ofExcept (ensureGroup existing)
  let conversation ← ofExcept (liftDomain (existing.removeMember actor target now))
  update .conversations fun w => w.conversations.insert conversationId conversation
  update .conversationSettings fun w => w.conversationSettings.remove (target, conversationId)
  (appendSystemMessage env conversationId actor "一位成员已被移出群聊" now).void
  appendEvent env conversation.members.keys .groupMembershipUpdated
    (.removedMember conversationId target) now

/-- mirrors crates/application/src/service.rs:2619-2650 -/
def transferGroupOwnership (actor : UserId) (conversationId : ConversationId)
    (request : TransferGroupOwnershipRequest) (now : DateTime) : Service Conversation := do
  let w ← get
  let existing ← okOr (w.conversations.get conversationId) .notFound
  ofExcept (ensureGroup existing)
  let conversation ← ofExcept (liftDomain (existing.transferOwnership actor request.userId now))
  update .conversations fun w => w.conversations.insert conversationId conversation
  (appendSystemMessage env conversationId actor "群主已转让" now).void
  appendEvent env conversation.members.keys .groupMembershipUpdated (.conversation conversation)
    now
  pure conversation

/-- mirrors crates/application/src/service.rs:2652-2695 -/
def setGroupMute (actor : UserId) (conversationId : ConversationId) (request : GroupMuteRequest)
    (now : DateTime) : Service Unit := do
  let w ← get
  let conversation ← okOr (w.conversations.get conversationId) .notFound
  ofExcept (ensureGroup conversation)
  ofExcept (requireRoleAtLeast conversation actor .administrator)
  update .groupMuteAll fun w =>
    if request.muted then insert conversationId w.groupMuteAll
    else w.groupMuteAll.erase conversationId
  (appendSystemMessage env conversationId actor
    (if request.muted then "群聊已开启全员禁言" else "群聊已解除全员禁言") now).void
  appendEvent env conversation.members.keys .groupMembershipUpdated
    (.groupMuted conversationId request.muted) now

end

/-! ## Footprints -/

set_option synthInstance.maxSize 1000000000000

section
variable {env : Env} {R : World → World → Prop} [IsPreorder World R] [Logged env R]
  {actor target : UserId} {conversationId : ConversationId} {now : DateTime}

instance keeps_setGroupMute [Posting env R] [Ignores R .groupMuteAll]
    {request : GroupMuteRequest} :
    Tx.Keeps R (setGroupMute env actor conversationId request now) := by
  unfold setGroupMute; infer_instance

variable [Ignores R .conversations]

instance keeps_createDirect [Ignores R .conversationSettings] :
    Tx.Keeps R (createDirect env actor target now) := by
  unfold createDirect; infer_instance

instance keeps_createGroup [Ignores R .conversationSettings] {memberIds : List UserId}
    {name : String} : Tx.Keeps R (createGroup env actor memberIds name now) := by
  unfold createGroup; infer_instance

instance keeps_disbandGroup [Ignores R .conversationSettings] [Ignores R .groupMuteAll] :
    Tx.Keeps R (disbandGroup env actor conversationId now) := by
  unfold disbandGroup; infer_instance

variable [Posting env R]

instance keeps_updateGroup {request : UpdateGroupRequest} :
    Tx.Keeps R (updateGroup env actor conversationId request now) := by
  unfold updateGroup; infer_instance

instance keeps_addGroupMembers [Ignores R .conversationSettings]
    {request : AddGroupMembersRequest} :
    Tx.Keeps R (addGroupMembers env actor conversationId request now) := by
  unfold addGroupMembers; infer_instance

instance keeps_leaveGroup [Ignores R .conversationSettings] :
    Tx.Keeps R (leaveGroup env actor conversationId now) := by
  unfold leaveGroup; infer_instance

instance keeps_updateGroupMember {request : UpdateGroupMemberRequest} :
    Tx.Keeps R (updateGroupMember env actor conversationId target request now) := by
  unfold updateGroupMember; infer_instance

instance keeps_removeGroupMember [Ignores R .conversationSettings] :
    Tx.Keeps R (removeGroupMember env actor conversationId target now) := by
  unfold removeGroupMember; infer_instance

instance keeps_transferGroupOwnership {request : TransferGroupOwnershipRequest} :
    Tx.Keeps R (transferGroupOwnership env actor conversationId request now) := by
  unfold transferGroupOwnership; infer_instance

end

end IamRust
