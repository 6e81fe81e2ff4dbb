import IamRust.L1Domain.Basic

/-!
# Friend requests and friendships

mirrors crates/domain/src/friend.rs
-/
namespace IamRust

inductive FriendRequestStatus where
  | pending | accepted | rejected | cancelled
  deriving DecidableEq, Repr

structure FriendRequest where
  id : FriendRequestId
  senderId : UserId
  recipientId : UserId
  message : String
  status : FriendRequestStatus
  createdAt : DateTime
  updatedAt : DateTime
  deriving DecidableEq, Repr

namespace FriendRequest

/-- `id` is the identifier drawn for it.
mirrors crates/domain/src/friend.rs:28-51 -/
def new (id : FriendRequestId) (senderId recipientId : UserId) (message : String)
    (now : DateTime) : Except DomainError FriendRequest :=
  if senderId = recipientId then .error .selfTarget
  else if message.length > 240 then .error (.validation "verification_message" "invalid_length")
  else .ok ⟨id, senderId, recipientId, message, .pending, now, now⟩

/-- mirrors crates/domain/src/friend.rs:61-79 -/
def transition (r : FriendRequest) (actor : UserId) (next : FriendRequestStatus)
    (now : DateTime) : Except DomainError FriendRequest :=
  if actor ≠ r.recipientId then .error .forbidden
  else if r.status ≠ .pending then .error (.invalidTransition "final" "final")
  else .ok { r with status := next, updatedAt := now }

/-- mirrors crates/domain/src/friend.rs:53-55 -/
def accept (r : FriendRequest) (actor : UserId) (now : DateTime) :
    Except DomainError FriendRequest := r.transition actor .accepted now

/-- mirrors crates/domain/src/friend.rs:57-59 -/
def reject (r : FriendRequest) (actor : UserId) (now : DateTime) :
    Except DomainError FriendRequest := r.transition actor .rejected now

end FriendRequest

structure Friendship where
  lowerUserId : UserId
  upperUserId : UserId
  createdAt : DateTime
  deriving DecidableEq, Repr

namespace Friendship

/-- mirrors crates/domain/src/friend.rs:90-100 -/
def new (a b : UserId) (now : DateTime) : Except DomainError Friendship :=
  if a = b then .error .selfTarget
  else .ok (if a < b then ⟨a, b, now⟩ else ⟨b, a, now⟩)

/-- mirrors crates/domain/src/friend.rs:102-104 -/
def contains (f : Friendship) (userId : UserId) : Bool :=
  f.lowerUserId == userId || f.upperUserId == userId

/-- The other side, seen from `actor`: the upper user unless that is `actor`'s
own place (`if lower == actor { upper } else { lower }`). -/
def other (f : Friendship) (actor : UserId) : UserId :=
  if f.lowerUserId = actor then f.upperUserId else f.lowerUserId

end Friendship

end IamRust
