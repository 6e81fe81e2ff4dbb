import IamRust.L3Service.Sessions

/-!
# Friends, blocks and reports

A friendship is made by accepting a request; it comes with one settings record
per direction and a new direct conversation.
-/
namespace IamRust

open Core
open Core.Tx (failIf okOr ofExcept whenTrue whenSome forEach mapEach)

inductive FriendRequestDecision where
  | accept | reject
  deriving DecidableEq, Repr

structure UpdateFriendSettingsRequest where
  remark : Option String
  group : Option String
  sharePresence : Bool
  allowFiles : Bool

structure ReportUserRequest where
  reason : String
  details : Option String

/-- mirrors crates/application/src/service.rs:2146-2152 -/
def reportReasons : List String := ["spam", "harassment", "impersonation", "unsafe_file", "other"]

/-- mirrors crates/application/src/service.rs:1934-1937 -/
def FriendRequest.decide (request : FriendRequest) (decision : FriendRequestDecision)
    (actor : UserId) (now : DateTime) : Except DomainError FriendRequest :=
  match decision with
  | .accept => request.accept actor now
  | .reject => request.reject actor now

def FriendRequest.become (r : FriendRequest) (status : FriendRequestStatus) (now : DateTime) :
    FriendRequest := { r with status := status, updatedAt := now }

def FriendRequestDecision.status : FriendRequestDecision → FriendRequestStatus
  | .accept => .accepted
  | .reject => .rejected

/-- A decision on a request: its recipient's, while it is pending. -/
theorem decide_ok {request decided : FriendRequest} {decision : FriendRequestDecision}
    {actor : UserId} {now : DateTime} (h : request.decide decision actor now = .ok decided) :
    actor = request.recipientId ∧ request.status = .pending ∧
      decided = request.become decision.status now := by
  unfold FriendRequest.decide FriendRequest.accept FriendRequest.reject
    FriendRequest.transition at h
  cases decision <;> dsimp only at h <;> split at h
  · cases h
  · split at h <;> cases h
    exact ⟨not_not.mp ‹_›, not_not.mp ‹_›, rfl⟩
  · cases h
  · split at h <;> cases h
    exact ⟨not_not.mp ‹_›, not_not.mp ‹_›, rfl⟩

section
variable (env : Env)

/-- mirrors crates/application/src/service.rs:1842-1882 -/
def sendFriendRequest (senderId : UserId) (username message : String) (now : DateTime) :
    Service FriendRequest := do
  let w ← get
  let recipientId ← okOr (w.byUsername.get (Text.toAsciiLowercase (Text.trim username))) .notFound
  failIf ((senderId, recipientId) ∈ w.blocks ∨ (recipientId, senderId) ∈ w.blocks) forbidden
  failIf (areFriends w.toStore senderId recipientId ∨ w.friendRequests.values.any fun request =>
    request.status == .pending && request.senderId == senderId &&
      request.recipientId == recipientId) .conflict
  let id ← newUuid env
  let request ← ofExcept (liftDomain (FriendRequest.new id senderId recipientId message now))
  update .friendRequests fun w => w.friendRequests.insert request.id request
  appendEvent env [senderId, recipientId] .friendshipUpdated (.friendRequest request) now
  pure request

/-- What accepting a request sets up.
mirrors crates/application/src/service.rs:1940-1960 -/
def befriend (request : FriendRequest) (now : DateTime) : Service Unit := do
  let friendship ← ofExcept (liftDomain (Friendship.new request.senderId request.recipientId now))
  update .friendships fun w => w.friendships ++ [friendship]
  forEach [(request.senderId, request.recipientId), (request.recipientId, request.senderId)]
    fun key => update .friendSettings fun w =>
      w.friendSettings.insert key ⟨key.2, none, none, true, true⟩
  let id ← newUuid env
  let direct ← ofExcept (liftDomain
    (Conversation.direct id request.senderId request.recipientId now))
  storeConversation direct

/-- mirrors crates/application/src/service.rs:1921-1971 -/
def decideFriendRequest (actor : UserId) (requestId : FriendRequestId)
    (decision : FriendRequestDecision) (now : DateTime) : Service FriendRequest := do
  let w ← get
  let request ← okOr (w.friendRequests.get requestId) .notFound
  let request ← ofExcept (liftDomain (request.decide decision actor now))
  update .friendRequests fun w => w.friendRequests.insert requestId request
  whenTrue (decision = .accept) (befriend env request now)
  appendEvent env [request.senderId, request.recipientId] .friendshipUpdated
    (.friendRequest request) now
  pure request

/-- mirrors crates/application/src/service.rs:2010-2043 -/
def updateFriendSettings (actor friendId : UserId) (request : UpdateFriendSettingsRequest)
    (now : DateTime) : Service FriendSettings := do
  check (validateOptionalLabel request.remark "remark" 48)
  check (validateOptionalLabel request.group "friend_group" 48)
  let w ← get
  failIf (areFriends w.toStore actor friendId = false) .notFound
  let settings : FriendSettings := ⟨friendId, normalizeOptional request.remark,
    normalizeOptional request.group, request.sharePresence, request.allowFiles⟩
  update .friendSettings fun w => w.friendSettings.insert (actor, friendId) settings
  appendEvent env [actor] .friendshipUpdated (.friendSettings settings) now
  pure settings

/-- The friendships that are not between `a` and `b`. -/
def withoutFriendship (a b : UserId) (friendships : List Friendship) : List Friendship :=
  friendships.filter fun friendship => !(friendship.contains a && friendship.contains b)

/-- mirrors crates/application/src/service.rs:2045-2071 -/
def deleteFriend (actor friendId : UserId) (now : DateTime) : Service Unit := do
  let w ← get
  failIf ((withoutFriendship actor friendId w.friendships).length = w.friendships.length) .notFound
  update .friendships fun w => withoutFriendship actor friendId w.friendships
  update .friendSettings fun w => w.friendSettings.remove (actor, friendId)
  update .friendSettings fun w => w.friendSettings.remove (friendId, actor)
  appendEvent env [actor, friendId] .friendshipUpdated (.removedFriendIds [actor, friendId]) now

/-- A pending request between the two is cancelled.
mirrors crates/application/src/service.rs:2092-2100 -/
def FriendRequest.cancelBetween (request : FriendRequest) (a b : UserId) (now : DateTime) :
    FriendRequest :=
  if request.status = .pending ∧ ((request.senderId = a ∧ request.recipientId = b) ∨
      (request.senderId = b ∧ request.recipientId = a)) then
    { request with status := .cancelled, updatedAt := now }
  else request

/-- mirrors crates/application/src/service.rs:2073-2111 -/
def blockUser (actor target : UserId) (now : DateTime) : Service Unit := do
  failIf (actor = target) (.domain .selfTarget)
  let w ← get
  failIf (w.accounts.containsKey target = false) .notFound
  update .blocks fun w => insert (actor, target) w.blocks
  update .friendships fun w => withoutFriendship actor target w.friendships
  update .friendSettings fun w => w.friendSettings.remove (actor, target)
  update .friendSettings fun w => w.friendSettings.remove (target, actor)
  update .friendRequests fun w => w.friendRequests.mapValues (·.cancelBetween actor target now)
  appendEvent env [actor, target] .friendshipUpdated (.blockedBy actor target) now

/-- mirrors crates/application/src/service.rs:2113-2133 -/
def unblockUser (actor target : UserId) (now : DateTime) : Service Unit := do
  let w ← get
  failIf ((actor, target) ∉ w.blocks) .notFound
  update .blocks fun w => w.blocks.erase (actor, target)
  appendEvent env [actor] .friendshipUpdated (.unblockedUserId target) now

/-- mirrors crates/application/src/service.rs:2135-2181 -/
def reportUser (actor target : UserId) (request : ReportUserRequest) (now : DateTime) :
    Service Uuid := do
  failIf (actor = target) (.domain .selfTarget)
  let reason := Text.trim request.reason
  failIf (reportReasons.contains reason = false ∨
    request.details.any fun value => decide (value.length > 1000))
    (invalid "report" "invalid_value")
  let w ← get
  failIf (w.accounts.containsKey target = false) .notFound
  let id ← newUuid env
  update .reports fun w => w.reports ++ [⟨id, actor, target, reason, request.details, now⟩]
  pure id

end

/-! ## Footprints -/

set_option synthInstance.maxSize 1000000000000

section
variable {env : Env} {R : World → World → Prop} [IsPreorder World R]

instance keeps_reportUser [Drawing env R] [Ignores R .reports] {actor target : UserId}
    {request : ReportUserRequest} {now : DateTime} :
    Tx.Keeps R (reportUser env actor target request now) := by
  unfold reportUser; infer_instance

instance keeps_befriend [Drawing env R] [Ignores R .friendships] [Ignores R .friendSettings]
    [Ignores R .conversations] [Ignores R .conversationSettings] {request : FriendRequest}
    {now : DateTime} : Tx.Keeps R (befriend env request now) := by
  unfold befriend; infer_instance

variable [Logged env R]

instance keeps_sendFriendRequest [Ignores R .friendRequests] {senderId : UserId}
    {username message : String} {now : DateTime} :
    Tx.Keeps R (sendFriendRequest env senderId username message now) := by
  unfold sendFriendRequest; infer_instance

instance keeps_decideFriendRequest [Ignores R .friendRequests] [Ignores R .friendships]
    [Ignores R .friendSettings] [Ignores R .conversations] [Ignores R .conversationSettings]
    {actor : UserId} {requestId : FriendRequestId} {decision : FriendRequestDecision}
    {now : DateTime} : Tx.Keeps R (decideFriendRequest env actor requestId decision now) := by
  unfold decideFriendRequest; infer_instance

instance keeps_updateFriendSettings [Ignores R .friendSettings] {actor friendId : UserId}
    {request : UpdateFriendSettingsRequest} {now : DateTime} :
    Tx.Keeps R (updateFriendSettings env actor friendId request now) := by
  unfold updateFriendSettings; infer_instance

instance keeps_deleteFriend [Ignores R .friendships] [Ignores R .friendSettings]
    {actor friendId : UserId} {now : DateTime} :
    Tx.Keeps R (deleteFriend env actor friendId now) := by
  unfold deleteFriend; infer_instance

instance keeps_blockUser [Ignores R .blocks] [Ignores R .friendships] [Ignores R .friendSettings]
    [Ignores R .friendRequests] {actor target : UserId} {now : DateTime} :
    Tx.Keeps R (blockUser env actor target now) := by
  unfold blockUser; infer_instance

instance keeps_unblockUser [Ignores R .blocks] {actor target : UserId} {now : DateTime} :
    Tx.Keeps R (unblockUser env actor target now) := by
  unfold unblockUser; infer_instance

end

end IamRust
