import IamRust.L3Service.Timeline

/-!
# Announcements, join requests and polls

What a group keeps beside its timeline. A join request is decided by an
administrator at any later time, whatever became of the applicant meanwhile.
-/
namespace IamRust

open Core
open Core.Tx (failIf okOr ofExcept whenTrue whenSome forEach mapEach)

structure CreateGroupAnnouncementRequest where
  content : String

structure CreateGroupJoinRequest where
  message : String

structure DecideGroupJoinRequest where
  accept : Bool

structure CreateGroupPollRequest where
  question : String
  options : List String
  multipleChoice : Bool
  closesAt : Option DateTime

structure VoteGroupPollRequest where
  optionIds : List Uuid

section
variable (env : Env)

/-! ## Announcements -/

/-- mirrors crates/application/src/service.rs:2770-2824 -/
def createGroupAnnouncement (actor : UserId) (conversationId : ConversationId)
    (request : CreateGroupAnnouncementRequest) (now : DateTime) : Service GroupAnnouncement := do
  let content := Text.trim request.content
  failIf (content.isEmpty ∨ content.length > 4000) (invalid "announcement" "invalid_length")
  let w ← get
  let conversation ← okOr (w.conversations.get conversationId) .notFound
  ofExcept (ensureGroup conversation)
  ofExcept (requireRoleAtLeast conversation actor .administrator)
  let id ← newUuid env
  let announcement : GroupAnnouncement :=
    ⟨id, conversationId, actor, content, [actor], now, now⟩
  update .groupAnnouncements fun w => w.groupAnnouncements.insert id announcement
  (appendSystemMessage env conversationId actor "发布了新的群公告" now).void
  appendEvent env conversation.members.keys .conversationUpdated
    (.groupAnnouncement announcement) now
  pure announcement

/-- mirrors crates/application/src/service.rs:2846-2850 -/
def GroupAnnouncement.markRead (announcement : GroupAnnouncement) (actor : UserId)
    (now : DateTime) : GroupAnnouncement :=
  if actor ∈ announcement.readBy then announcement
  else { announcement with readBy := announcement.readBy ++ [actor], updatedAt := now }

/-- mirrors crates/application/src/service.rs:2826-2854 -/
def readGroupAnnouncement (actor : UserId) (announcementId : Uuid) (now : DateTime) :
    Service Unit := do
  let w ← get
  let announcement ← okOr (w.groupAnnouncements.get announcementId) .notFound
  let conversation ← okOr (w.conversations.get announcement.conversationId) .notFound
  ofExcept ((requireMember conversation actor).map fun _ => ())
  update .groupAnnouncements fun w =>
    w.groupAnnouncements.modify announcementId (·.markRead actor now)

/-! ## Join requests -/

/-- mirrors crates/application/src/service.rs:2856-2917 -/
def requestToJoinGroup (actor : UserId) (conversationId : ConversationId)
    (request : CreateGroupJoinRequest) (now : DateTime) : Service GroupJoinRequest := do
  failIf (request.message.length > 120) (invalid "message" "invalid_length")
  let w ← get
  let conversation ← okOr (w.conversations.get conversationId) .notFound
  ofExcept (ensureGroup conversation)
  failIf (conversation.canRead actor) .conflict
  let recipients := (conversation.members.values.filter fun member =>
    decide (.administrator ≤ member.role)).map (·.userId)
  failIf (w.groupJoinRequests.values.any fun joinRequest =>
    joinRequest.conversationId == conversationId && joinRequest.applicantId == actor &&
      joinRequest.status == .pending) .conflict
  let id ← newUuid env
  let joinRequest : GroupJoinRequest :=
    ⟨id, conversationId, actor, request.message, .pending, none, now, now⟩
  update .groupJoinRequests fun w => w.groupJoinRequests.insert id joinRequest
  appendEvent env recipients .groupMembershipUpdated (.groupJoinRequest joinRequest) now
  pure joinRequest

/-- The applicant enters as a plain member, in place of any membership they have.
mirrors crates/application/src/service.rs:2969-2989 -/
def admitApplicant (conversationId : ConversationId) (applicantId : UserId) (now : DateTime) :
    Service Unit := do
  update .conversations fun w => w.conversations.modify conversationId fun conversation =>
    { conversation with
      members := conversation.members.insert applicantId (.joining applicantId .member now)
      updatedAt := now }
  update .conversationSettings fun w =>
    w.conversationSettings.insert (applicantId, conversationId)
      (defaultConversationSettings conversationId)

/-- mirrors crates/application/src/service.rs:2941-3021 -/
def decideGroupJoinRequest (actor : UserId) (requestId : Uuid) (request : DecideGroupJoinRequest)
    (now : DateTime) : Service GroupJoinRequest := do
  let w ← get
  let pending ← okOr (w.groupJoinRequests.get requestId) .notFound
  failIf (pending.status ≠ .pending) .conflict
  let conversation ← okOr (w.conversations.get pending.conversationId) .notFound
  ofExcept (requireRoleAtLeast conversation actor .administrator)
  let recipients := conversation.members.keys ++ [pending.applicantId]
  whenTrue request.accept (admitApplicant pending.conversationId pending.applicantId now)
  let joinRequest := { pending with
    status := if request.accept then .accepted else .rejected
    reviewedBy := some actor
    updatedAt := now }
  update .groupJoinRequests fun w => w.groupJoinRequests.insert requestId joinRequest
  whenTrue request.accept
    (appendSystemMessage env pending.conversationId actor "一位新成员已加入群聊" now).void
  appendEvent env recipients .groupMembershipUpdated (.groupJoinRequest joinRequest) now
  pure joinRequest

/-! ## Polls -/

/-- mirrors crates/application/src/service.rs:3036-3050 -/
def validatePoll (question : String) (options : List String) (closesAt : Option DateTime)
    (now : DateTime) : Bool :=
  !question.isEmpty && decide (question.length ≤ 240) &&
    decide (2 ≤ options.length ∧ options.length ≤ 10) &&
    options.all (fun option => !option.isEmpty && decide (option.length ≤ 160)) &&
    closesAt.all fun t => decide (now < t)

/-- mirrors crates/application/src/service.rs:3023-3095 -/
def createGroupPoll (actor : UserId) (conversationId : ConversationId)
    (request : CreateGroupPollRequest) (now : DateTime) : Service GroupPoll := do
  let question := Text.trim request.question
  let labels := request.options.map Text.trim
  failIf (validatePoll question labels request.closesAt now = false)
    (invalid "poll" "invalid_value")
  let w ← get
  let conversation ← okOr (w.conversations.get conversationId) .notFound
  ofExcept (ensureGroup conversation)
  ofExcept ((requireMember conversation actor).map fun _ => ())
  let id ← newUuid env
  let options ← mapEach labels fun label => do
    let optionId ← newUuid env
    pure (⟨optionId, label, []⟩ : GroupPollOption)
  let poll : GroupPoll := ⟨id, conversationId, actor, question, request.multipleChoice, options,
    request.closesAt, now⟩
  update .groupPolls fun w => w.groupPolls.insert id poll
  (appendSystemMessage env conversationId actor "发起了群投票" now).void
  appendEvent env conversation.members.keys .conversationUpdated (.groupPoll poll) now
  pure poll

/-- mirrors crates/application/src/service.rs:3141-3156 -/
def GroupPoll.refuses (poll : GroupPoll) (optionIds : List Uuid) (now : DateTime) : Bool :=
  poll.closesAt.any (fun t => decide (t ≤ now)) || optionIds.isEmpty ||
    (!poll.multipleChoice && optionIds.length != 1) ||
    decide (optionIds.length > poll.options.length) ||
    optionIds.any fun id => !poll.options.any fun option => option.id == id

/-- mirrors crates/application/src/service.rs:3157-3162 -/
def GroupPoll.vote (poll : GroupPoll) (actor : UserId) (optionIds : List Uuid) : GroupPoll :=
  { poll with
    options := poll.options.map fun option =>
      let others := option.voterIds.filter (· != actor)
      { option with voterIds := if option.id ∈ optionIds then others ++ [actor] else others } }

/-- mirrors crates/application/src/service.rs:3119-3173 -/
def voteGroupPoll (actor : UserId) (pollId : Uuid) (request : VoteGroupPollRequest)
    (now : DateTime) : Service GroupPoll := do
  let w ← get
  let existing ← okOr (w.groupPolls.get pollId) .notFound
  let conversation ← okOr (w.conversations.get existing.conversationId) .notFound
  ofExcept ((requireMember conversation actor).map fun _ => ())
  failIf (existing.refuses request.optionIds now) (invalid "option_ids" "invalid_value")
  let poll := existing.vote actor request.optionIds
  update .groupPolls fun w => w.groupPolls.insert pollId poll
  appendEvent env conversation.members.keys .conversationUpdated (.groupPoll poll) now
  pure poll

end

/-! ## Footprints -/

set_option synthInstance.maxSize 1000000000000

section
variable {env : Env} {R : World → World → Prop} [IsPreorder World R] {actor : UserId}
  {conversationId : ConversationId} {id : Uuid} {now : DateTime}

instance keeps_readGroupAnnouncement [Ignores R .groupAnnouncements] :
    Tx.Keeps R (readGroupAnnouncement actor id now) := by
  unfold readGroupAnnouncement; infer_instance

instance keeps_admitApplicant [Ignores R .conversations] [Ignores R .conversationSettings] :
    Tx.Keeps R (admitApplicant conversationId actor now) := by
  unfold admitApplicant; infer_instance

variable [Logged env R]

instance keeps_requestToJoinGroup [Ignores R .groupJoinRequests]
    {request : CreateGroupJoinRequest} :
    Tx.Keeps R (requestToJoinGroup env actor conversationId request now) := by
  unfold requestToJoinGroup; infer_instance

instance keeps_voteGroupPoll [Ignores R .groupPolls] {request : VoteGroupPollRequest} :
    Tx.Keeps R (voteGroupPoll env actor id request now) := by
  unfold voteGroupPoll; infer_instance

variable [Posting env R]

instance keeps_createGroupAnnouncement [Ignores R .groupAnnouncements]
    {request : CreateGroupAnnouncementRequest} :
    Tx.Keeps R (createGroupAnnouncement env actor conversationId request now) := by
  unfold createGroupAnnouncement; infer_instance

instance keeps_decideGroupJoinRequest [Ignores R .groupJoinRequests]
    [Ignores R .conversations] [Ignores R .conversationSettings] {request : DecideGroupJoinRequest} :
    Tx.Keeps R (decideGroupJoinRequest env actor id request now) := by
  unfold decideGroupJoinRequest; infer_instance

instance keeps_createGroupPoll [Ignores R .groupPolls] {request : CreateGroupPollRequest} :
    Tx.Keeps R (createGroupPoll env actor conversationId request now) := by
  unfold createGroupPoll; infer_instance

end

end IamRust
