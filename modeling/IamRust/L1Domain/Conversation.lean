import IamRust.L0Core.Map
import IamRust.L1Domain.Basic

/-!
# Conversations

mirrors crates/domain/src/conversation.rs. A group is governed by roles
(`Member < Administrator < Owner`); a direct conversation has two plain
members.
-/
namespace IamRust

open Core

inductive ConversationKind where
  | direct (peerUserId : UserId)
  | group (groupId : GroupId)
  deriving DecidableEq, Repr

/-- `matches!(kind, ConversationKind::Group { .. })`. -/
def ConversationKind.isGroup : ConversationKind → Bool
  | .direct _ => false
  | .group _ => true

inductive MemberRole where
  | member | administrator | owner
  deriving DecidableEq, Repr

/-- The derived order: declaration order. -/
def MemberRole.rank : MemberRole → Nat
  | .member => 0
  | .administrator => 1
  | .owner => 2

instance : LE MemberRole := ⟨fun a b => a.rank ≤ b.rank⟩
instance : LT MemberRole := ⟨fun a b => a.rank < b.rank⟩
instance (a b : MemberRole) : Decidable (a ≤ b) := inferInstanceAs (Decidable (a.rank ≤ b.rank))
instance (a b : MemberRole) : Decidable (a < b) := inferInstanceAs (Decidable (a.rank < b.rank))

structure ConversationMember where
  userId : UserId
  role : MemberRole
  nickname : Option String
  mutedUntil : Option DateTime
  joinedAt : DateTime
  deriving DecidableEq, Repr

/-- The record a user joins with: no nickname, not muted. -/
def ConversationMember.joining (userId : UserId) (role : MemberRole) (now : DateTime) :
    ConversationMember := ⟨userId, role, none, none, now⟩

structure Conversation where
  id : ConversationId
  kind : ConversationKind
  name : String
  avatarUrl : Option String
  avatarAttachmentId : Option AttachmentId
  members : Map UserId ConversationMember
  muted : Bool
  pinned : Bool
  createdAt : DateTime
  updatedAt : DateTime

namespace Conversation

def isGroup (c : Conversation) : Bool := c.kind.isGroup

/-- `id` is the identifier drawn for it.
mirrors crates/domain/src/conversation.rs:48-77 -/
def direct (id : ConversationId) (a b : UserId) (now : DateTime) :
    Except DomainError Conversation :=
  if a = b then .error .selfTarget
  else .ok {
    id := id
    kind := .direct b
    name := ""
    avatarUrl := none
    avatarAttachmentId := none
    members := [a, b].foldl (fun m u => m.insert u (.joining u .member now)) Map.empty
    muted := false
    pinned := false
    createdAt := now
    updatedAt := now }

/-- The members of a new group: the owner first, the others as plain members.
mirrors crates/domain/src/conversation.rs:91-112 -/
def groupMembers (ownerId : UserId) (memberIds : List UserId) (now : DateTime) :
    Map UserId ConversationMember :=
  memberIds.foldl (fun m u => m.orInsert u (.joining u .member now))
    (Map.empty.insert ownerId (.joining ownerId .owner now))

/-- mirrors crates/domain/src/conversation.rs:79-131 -/
def group (id : ConversationId) (groupId : GroupId) (ownerId : UserId) (memberIds : List UserId)
    (name : String) (now : DateTime) : Except DomainError Conversation :=
  if Text.isBlank name ∨ name.length > 80 then .error (.validation "group_name" "invalid_length")
  else if (groupMembers ownerId memberIds now).len < 2 then
    .error (.validation "members" "group_requires_two_members")
  else .ok {
    id := id
    kind := .group groupId
    name := Text.trim name
    avatarUrl := none
    avatarAttachmentId := none
    members := groupMembers ownerId memberIds now
    muted := false
    pinned := false
    createdAt := now
    updatedAt := now }

/-- mirrors crates/domain/src/conversation.rs:133-135 -/
def canRead (c : Conversation) (userId : UserId) : Bool := c.members.containsKey userId

/-- mirrors crates/domain/src/conversation.rs:137-141 -/
def canSend (c : Conversation) (userId : UserId) (now : DateTime) : Bool :=
  (c.members.get userId).any fun member => member.mutedUntil.all fun t => decide (t ≤ now)

/-- mirrors crates/domain/src/conversation.rs:143-165 -/
def removeMember (c : Conversation) (actor target : UserId) (now : DateTime) :
    Except DomainError Conversation :=
  match c.members.get actor with
  | none => .error .forbidden
  | some a =>
    match c.members.get target with
    | none => .error .notFound
    | some t =>
      if t.role = .owner ∨ a.role ≤ t.role then .error .forbidden
      else .ok { c with members := c.members.remove target, updatedAt := now }

/-- mirrors crates/domain/src/conversation.rs:167-183 -/
def transferOwnership (c : Conversation) (actor target : UserId) (now : DateTime) :
    Except DomainError Conversation :=
  if (c.members.get actor).map (·.role) ≠ some .owner then .error .forbidden
  else if c.members.containsKey target = false then .error .notFound
  else
    let demoted := c.members.modify actor fun m => { m with role := .member }
    .ok { c with
      members := demoted.modify target fun m => { m with role := .owner }
      updatedAt := now }

end Conversation

end IamRust
