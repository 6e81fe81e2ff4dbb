import IamRust.L4Properties.Friendships
import IamRust.L4Properties.Owners

/-!
# What becomes of the conversations

A transaction that writes conversations makes one change (`Reshaped`, a
constructor for each); notices and sends move `updatedAt` on and nothing else
(`Retouched`). `Op.reshaped` says so of every transaction, with the guards the
change passed.

* `direct_single`: two users share one direct conversation, in the runs in which
  no request is accepted between users who have one.
* `direct_twice`: users who end a friendship and make a new one have two.
-/
namespace IamRust

open Core

/-! ## Up to the time of the last change -/

def Conversation.timeless (c : Conversation) : Conversation := { c with updatedAt := 0 }

/-- The same conversations, up to `updatedAt`. -/
def Retouched (m m' : Map ConversationId Conversation) : Prop :=
  ∀ id, (m'.get id).map (·.timeless) = (m.get id).map (·.timeless)

theorem Retouched.refl (m : Map ConversationId Conversation) : Retouched m m := fun _ => rfl

theorem Retouched.before {m m' : Map ConversationId Conversation} (h : Retouched m m')
    {id : ConversationId} {c' : Conversation} (hc : m'.get id = some c') :
    ∃ c, m.get id = some c ∧ c.timeless = c'.timeless := by
  have hmap := h id
  rw [hc, Option.map_some] at hmap
  obtain ⟨c, hc, htime⟩ := Option.map_eq_some_iff.mp hmap.symm
  exact ⟨c, hc, htime⟩

section
variable {c c' : Conversation}

theorem timeless_members (h : c.timeless = c'.timeless) : c.members = c'.members := by
  have he : c.timeless.members = c'.timeless.members := by rw [h]
  exact he

theorem timeless_isGroup (h : c.timeless = c'.timeless) : c.isGroup = c'.isGroup := by
  have he : c.timeless.isGroup = c'.timeless.isGroup := by rw [h]
  exact he

theorem timeless_avatar (h : c.timeless = c'.timeless) :
    c.avatarAttachmentId = c'.avatarAttachmentId := by
  have he : c.timeless.avatarAttachmentId = c'.timeless.avatarAttachmentId := by rw [h]
  exact he

theorem timeless_id (h : c.timeless = c'.timeless) : c.id = c'.id := by
  have he : c.timeless.id = c'.timeless.id := by rw [h]
  exact he

end

/-- A transaction that only moves `updatedAt`, and gives no draw back. -/
structure Touched (w w' : World) : Prop where
  conversations : Retouched w.conversations w'.conversations
  uuids : w.nextUuid ≤ w'.nextUuid

instance : IsPreorder World Touched where
  refl _ := ⟨.refl _, Nat.le_refl _⟩
  trans _ _ _ h₁ h₂ := ⟨fun id => (h₂.conversations id).trans (h₁.conversations id),
    Nat.le_trans h₁.uuids h₂.uuids⟩

theorem touched_same {w w' : World} (h : Same .conversations w w')
    (hle : w.nextUuid ≤ w'.nextUuid) : Touched w w' := by
  have h : w'.conversations = w.conversations := h
  refine ⟨?_, hle⟩
  rw [h]
  exact .refl _

instance touched_ignores (f : Field) [hf : Has f (accountFields ++ sessionFields ++ socialFields ++
    contentFields ++ [.conversationSettings, .groupMuteAll, .groupAnnouncements,
      .groupJoinRequests, .groupPolls, .messages, .messageDedup])] : Ignores Touched f where
  set w v := touched_same (same_set (by rintro rfl; exact absurd hf.mem (by decide)) w v)
    (Nat.le_of_eq (same_set (g := .nextUuid)
      (by rintro rfl; exact absurd hf.mem (by decide)) w v).symm)

instance touched_logged {env : Env} : Logged env Touched :=
  logged_of fun ho hle => touched_same (ho .conversations (by decide)) hle

instance touched_touching : Touching Touched where
  touch id now := Tx.keeps_modify fun w => by
    refine ⟨fun id' => ?_, Nat.le_refl _⟩
    show ((w.conversations.modify id _).get id').map _ = _
    rw [Map.get_modify]
    split
    · rw [Option.map_map]
      rfl
    · rfl

/-! ## The changes -/

/-- The transactions that change more of a conversation. -/
def Op.reshapes : Op → Bool
  | .deleteAccount _ _ _ _ | .decideFriendRequest _ _ _ _ | .createDirect _ _ _
  | .createGroup _ _ _ _ | .updateGroup _ _ _ _ | .addGroupMembers _ _ _ _ | .leaveGroup _ _ _
  | .disbandGroup _ _ _ | .updateGroupMember _ _ _ _ _ | .removeGroupMember _ _ _ _
  | .transferGroupOwnership _ _ _ _ | .decideGroupJoinRequest _ _ _ _ => true
  | _ => false

/-- The change, with what it requires; `n` draws were made by then. -/
inductive Reshaped (env : Env) (w : World) (n : Nat) : Op → Map ConversationId Conversation → Prop where
  | same {op} (hop : op.reshapes = false) : Reshaped env w n op w.conversations
  | declined {actor id now} :
    Reshaped env w n (.decideFriendRequest actor id .reject now) w.conversations
  | befriended {actor id now r c} (hget : w.friendRequests.get id = some r) (hn : w.nextUuid < n)
    (hnew : Conversation.direct (env.uuid w.nextUuid) r.senderId r.recipientId now = .ok c) :
    Reshaped env w n (.decideFriendRequest actor id .accept now) (w.conversations.insert c.id c)
  | reopened {actor peer now c} (hfound : findDirect w.toStore actor peer = some c) :
    Reshaped env w n (.createDirect actor peer now) w.conversations
  | opened {actor peer now c} (hfriends : areFriends w.toStore actor peer = true)
    (hnone : findDirect w.toStore actor peer = none) (hn : w.nextUuid < n)
    (hnew : Conversation.direct (env.uuid w.nextUuid) actor peer now = .ok c) :
    Reshaped env w n (.createDirect actor peer now) (w.conversations.insert c.id c)
  | founded {owner memberIds name now c} (hn : w.nextUuid < n)
    (hnew : Conversation.group (env.uuid w.nextUuid) (env.uuid (w.nextUuid + 1)) owner memberIds
      name now = .ok c) :
    Reshaped env w n (.createGroup owner memberIds name now) (w.conversations.insert c.id c)
  | updated {actor id request now c} (hget : w.conversations.get id = some c)
    (hgroup : c.isGroup = true)
    (hrole : ∃ m, c.members.get actor = some m ∧ .administrator ≤ m.role)
    (havatar : ∀ a, request.avatarAttachmentId = some (some a) →
      checkAvatar w.toStore actor a = .ok ()) :
    Reshaped env w n (.updateGroup actor id request now)
      (w.conversations.insert id (c.updateGroup request now))
  | invited {actor id request now c} (hget : w.conversations.get id = some c)
    (hgroup : c.isGroup = true) (hmember : c.canRead actor = true) :
    Reshaped env w n (.addGroupMembers actor id request now)
      (w.conversations.insert id (c.addMembers (c.newMembers request.memberIds) now))
  | left {actor id now c} (hget : w.conversations.get id = some c) (hgroup : c.isGroup = true)
    (hmember : c.canRead actor = true) :
    Reshaped env w n (.leaveGroup actor id now) (w.conversations.insert id
      { c with members := c.members.remove actor, updatedAt := now })
  | disbanded {actor id now c} (hget : w.conversations.get id = some c)
    (hgroup : c.isGroup = true) :
    Reshaped env w n (.disbandGroup actor id now) (w.conversations.remove id)
  | amended {actor id target request now c a t} (hget : w.conversations.get id = some c)
    (hgroup : c.isGroup = true) (hactor : c.members.get actor = some a)
    (htarget : c.members.get target = some t)
    (hallowed : request.forbidden actor target a.role t.role = false) :
    Reshaped env w n (.updateGroupMember actor id target request now) (w.conversations.insert id
      { c with members := c.members.insert target (t.apply request), updatedAt := now })
  | expelled {actor id target now c c'} (hget : w.conversations.get id = some c)
    (hgroup : c.isGroup = true) (hremove : c.removeMember actor target now = .ok c') :
    Reshaped env w n (.removeGroupMember actor id target now) (w.conversations.insert id c')
  | transferred {actor id request now c c'} (hget : w.conversations.get id = some c)
    (hgroup : c.isGroup = true) (htransfer : c.transferOwnership actor request.userId now = .ok c') :
    Reshaped env w n (.transferGroupOwnership actor id request now) (w.conversations.insert id c')
  | refused {actor id request now} (haccept : request.accept = false) :
    Reshaped env w n (.decideGroupJoinRequest actor id request now) w.conversations
  | admitted {actor id request now pending c} (haccept : request.accept = true)
    (hpending : w.groupJoinRequests.get id = some pending)
    (hget : w.conversations.get pending.conversationId = some c)
    (hrole : ∃ m, c.members.get actor = some m ∧ .administrator ≤ m.role) :
    Reshaped env w n (.decideGroupJoinRequest actor id request now)
      (w.conversations.insert pending.conversationId
        { c with
          members := c.members.insert pending.applicantId
            (.joining pending.applicantId .member now)
          updatedAt := now })
  | detached {actor currentPassword confirmation now} :
    Reshaped env w n (.deleteAccount actor currentPassword confirmation now)
      (w.conversations.mapValues (·.detach actor now))

/-- The conversations after the transaction. -/
def ConversationStep (env : Env) (w : World) (op : Op) (w' : World) : Prop :=
  ∃ n m, Reshaped env w n op m ∧ n ≤ w'.nextUuid ∧ Retouched m w'.conversations

section
variable {env : Env} {w w' : World} {actor target : UserId} {id : ConversationId} {now : DateTime}

/-- What follows the write only moves `updatedAt`. -/
theorem ConversationStep.then {op : Op} {w₁ : World} {α : Type} {t : Service α} {a : α}
    (h : Reshaped env w w₁.nextUuid op w₁.conversations) [Tx.Keeps Touched t]
    (hr : t.Runs w₁ a w') : ConversationStep env w op w' :=
  have hrest := Tx.Keeps.runs (R := Touched) hr
  ⟨_, _, h, hrest.uuids, hrest.conversations⟩

/-- A conversation is stored under its id. -/
theorem storeConversation_runs {c : Conversation} {u : Unit}
    (h : (storeConversation c).Runs w u w') :
    w'.conversations = w.conversations.insert c.id c ∧ w.nextUuid ≤ w'.nextUuid := by
  unfold storeConversation at h
  obtain ⟨_, w₁, hsettings, h⟩ := Tx.runs_bind.mp h
  have hstep := Tx.Keeps.runs (R := Evolves [.conversationSettings]) hsettings
  have hsame : w₁.conversations = w.conversations := hstep.same .conversations (by decide)
  rw [update_runs.mp h]
  refine ⟨?_, hstep.uuids⟩
  show w₁.conversations.insert c.id c = _
  rw [hsame]

set_option synthInstance.maxSize 1000000000000

theorem createDirect_reshaped {c : Conversation}
    (h : (createDirect env actor target now).Runs w c w') :
    ConversationStep env w (.createDirect actor target now) w' := by
  unfold createDirect at h
  simp only [Tx.runs_get_bind, Tx.runs_failIf_bind, Bool.not_eq_false] at h
  obtain ⟨hfriends, h⟩ := h
  split at h
  · simp only [Tx.runs_okOr_bind, Tx.runs_pure] at h
    obtain ⟨existing, hfound, -, rfl⟩ := h
    exact ⟨_, _, .reopened hfound, Nat.le_refl _, .refl _⟩
  · rename_i hnone
    simp only [Tx.runs_bind (t := newUuid env), newUuid_runs, Tx.runs_ofExcept_bind,
      liftDomain_ok] at h
    obtain ⟨_, _, ⟨rfl, rfl⟩, c, hnew, h⟩ := h
    obtain ⟨_, w₁, hstore, h⟩ := Tx.runs_bind.mp h
    obtain ⟨hconv, hle⟩ := storeConversation_runs hstore
    refine .then ?_ h
    rw [hconv]
    exact .opened hfriends (by simpa using hnone) (Nat.lt_of_succ_le hle) hnew

theorem createGroup_reshaped {memberIds : List UserId} {name : String} {c : Conversation}
    (h : (createGroup env actor memberIds name now).Runs w c w') :
    ConversationStep env w (.createGroup actor memberIds name now) w' := by
  unfold createGroup at h
  simp only [Tx.runs_get_bind, Tx.runs_failIf_bind, Tx.runs_bind (t := newUuid env), newUuid_runs,
    Tx.runs_ofExcept_bind, liftDomain_ok] at h
  obtain ⟨-, _, _, ⟨rfl, rfl⟩, _, _, ⟨rfl, rfl⟩, c, hnew, h⟩ := h
  obtain ⟨_, w₁, hstore, h⟩ := Tx.runs_bind.mp h
  obtain ⟨hconv, hle⟩ := storeConversation_runs hstore
  refine .then ?_ h
  rw [hconv]
  exact .founded (Nat.lt_of_succ_le (Nat.le_of_succ_le hle)) hnew

theorem befriend_conversations {r : FriendRequest} {u : Unit}
    (h : (befriend env r now).Runs w u w') : ∃ c, w.nextUuid < w'.nextUuid ∧
      Conversation.direct (env.uuid w.nextUuid) r.senderId r.recipientId now = .ok c ∧
      w'.conversations = w.conversations.insert c.id c := by
  unfold befriend at h
  simp only [Tx.runs_ofExcept_bind, update_bind_runs, Tx.forEach, Tx.runs_bind (t := _ >>= _),
    Tx.runs_pure, Tx.runs_bind (t := newUuid env), newUuid_runs, liftDomain_ok] at h
  obtain ⟨friendship, -, _, _, ⟨-, rfl⟩, _, _, ⟨rfl, rfl⟩, c, hnew, hstore⟩ := h
  obtain ⟨hconv, hle⟩ := storeConversation_runs hstore
  exact ⟨c, Nat.lt_of_succ_le hle, hnew, hconv⟩

theorem decideFriendRequest_reshaped {decision : FriendRequestDecision} {r : FriendRequest}
    (h : (decideFriendRequest env actor id decision now).Runs w r w') :
    ConversationStep env w (.decideFriendRequest actor id decision now) w' := by
  unfold decideFriendRequest at h
  simp only [Tx.runs_get_bind, Tx.runs_okOr_bind, Tx.runs_ofExcept_bind, update_bind_runs,
    liftDomain_ok] at h
  obtain ⟨request, hget, decided, hdecide, h⟩ := h
  obtain ⟨-, -, rfl⟩ := decide_ok hdecide
  obtain ⟨_, w₁, hwhen, h⟩ := Tx.runs_bind.mp h
  refine .then ?_ h
  cases decision with
  | accept =>
    obtain ⟨c, hn, hnew, hconv⟩ := befriend_conversations hwhen
    rw [hconv]
    exact .befriended hget hn hnew
  | reject =>
    obtain ⟨-, rfl⟩ := Tx.runs_pure.mp hwhen
    exact .declined

theorem updateGroup_reshaped {request : UpdateGroupRequest} {c : Conversation}
    (h : (updateGroup env actor id request now).Runs w c w') :
    ConversationStep env w (.updateGroup actor id request now) w' := by
  unfold updateGroup at h
  simp only [Tx.runs_bind (t := Tx.whenSome _ _), Tx.runs_whenSome, check_runs, Tx.runs_get_bind,
    Tx.runs_ofExcept, Tx.runs_okOr_bind, Tx.runs_ofExcept_bind, update_bind_runs, ensureGroup_ok,
    requireRoleAtLeast_ok] at h
  obtain ⟨_, _, hname, _, _, hurl, _, _, havatar, c, hget, _, hgroup, _, hrole, h⟩ := h
  rcases hname with ⟨_, -, -, rfl⟩ | ⟨-, rfl⟩ <;> rcases hurl with ⟨_, -, -, rfl⟩ | ⟨-, rfl⟩ <;>
    rcases havatar with ⟨a, ha, hok, rfl⟩ | ⟨hnone, rfl⟩
  all_goals
    refine .then (.updated hget hgroup hrole fun b hb => ?_) h
    simp_all

theorem addGroupMembers_reshaped {request : AddGroupMembersRequest} {c : Conversation}
    (h : (addGroupMembers env actor id request now).Runs w c w') :
    ConversationStep env w (.addGroupMembers actor id request now) w' := by
  unfold addGroupMembers at h
  simp only [Tx.runs_failIf_bind, Tx.runs_get_bind, Tx.runs_okOr_bind, Tx.runs_ofExcept_bind,
    ensureGroup_ok] at h
  obtain ⟨-, c, hget, _, hgroup, _, hmember, h⟩ := h
  obtain ⟨_, w₁, hloop, h⟩ := Tx.runs_bind.mp h
  obtain rfl : w = w₁ := Tx.Keeps.runs (R := Eq) hloop
  simp only [Tx.runs_failIf_bind, update_bind_runs] at h
  obtain ⟨-, h⟩ := h
  refine .then (.invited hget hgroup ?_) h
  cases hm : c.members.get actor with
  | none => simp [requireMember, hm, Except.map] at hmember
  | some m => exact Map.containsKey_iff.mpr ⟨m, hm⟩

theorem leaveGroup_reshaped {u : Unit} (h : (leaveGroup env actor id now).Runs w u w') :
    ConversationStep env w (.leaveGroup actor id now) w' := by
  unfold leaveGroup at h
  simp only [Tx.runs_get_bind, Tx.runs_okOr_bind, Tx.runs_ofExcept_bind, Tx.runs_failIf_bind,
    update_bind_runs, ensureGroup_ok] at h
  obtain ⟨c, hget, _, hgroup, m, hm, -, h⟩ := h
  exact .then (.left hget hgroup (Map.containsKey_iff.mpr ⟨m, hm⟩)) h

theorem disbandGroup_reshaped {u : Unit} (h : (disbandGroup env actor id now).Runs w u w') :
    ConversationStep env w (.disbandGroup actor id now) w' := by
  unfold disbandGroup at h
  simp only [Tx.runs_get_bind, Tx.runs_okOr_bind, Tx.runs_ofExcept_bind, update_bind_runs,
    ensureGroup_ok, requireRoleAtLeast_ok] at h
  obtain ⟨c, hget, _, hgroup, _, -, h⟩ := h
  exact .then (.disbanded hget hgroup) h

theorem updateGroupMember_reshaped {request : UpdateGroupMemberRequest} {c : Conversation}
    (h : (updateGroupMember env actor id target request now).Runs w c w') :
    ConversationStep env w (.updateGroupMember actor id target request now) w' := by
  unfold updateGroupMember at h
  simp only [Tx.runs_get_bind, Tx.runs_okOr_bind, Tx.runs_ofExcept_bind, Tx.runs_failIf_bind,
    update_bind_runs, ensureGroup_ok, requireMember_ok, Bool.not_eq_true] at h
  obtain ⟨-, c, hget, _, hgroup, a, ha, t, ht, hallowed, h⟩ := h
  exact .then (.amended hget hgroup ha ht hallowed) h

theorem removeGroupMember_reshaped {u : Unit}
    (h : (removeGroupMember env actor id target now).Runs w u w') :
    ConversationStep env w (.removeGroupMember actor id target now) w' := by
  unfold removeGroupMember at h
  simp only [Tx.runs_get_bind, Tx.runs_okOr_bind, Tx.runs_ofExcept_bind, update_bind_runs,
    ensureGroup_ok, liftDomain_ok] at h
  obtain ⟨c, hget, _, hgroup, c', hremove, h⟩ := h
  exact .then (.expelled hget hgroup hremove) h

theorem transferGroupOwnership_reshaped {request : TransferGroupOwnershipRequest}
    {c : Conversation} (h : (transferGroupOwnership env actor id request now).Runs w c w') :
    ConversationStep env w (.transferGroupOwnership actor id request now) w' := by
  unfold transferGroupOwnership at h
  simp only [Tx.runs_get_bind, Tx.runs_okOr_bind, Tx.runs_ofExcept_bind, update_bind_runs,
    ensureGroup_ok, liftDomain_ok] at h
  obtain ⟨c, hget, _, hgroup, c', htransfer, h⟩ := h
  exact .then (.transferred hget hgroup htransfer) h

theorem decideGroupJoinRequest_reshaped {request : DecideGroupJoinRequest} {r : GroupJoinRequest}
    (h : (decideGroupJoinRequest env actor id request now).Runs w r w') :
    ConversationStep env w (.decideGroupJoinRequest actor id request now) w' := by
  unfold decideGroupJoinRequest at h
  simp only [Tx.runs_get_bind, Tx.runs_okOr_bind, Tx.runs_failIf_bind, Tx.runs_ofExcept_bind,
    requireRoleAtLeast_ok] at h
  obtain ⟨pending, hpending, -, c, hget, _, hrole, h⟩ := h
  obtain ⟨_, w₁, hwhen, h⟩ := Tx.runs_bind.mp h
  refine .then ?_ h
  rcases Tx.runs_whenTrue.mp hwhen with ⟨haccept, hjoined⟩ | ⟨hrefuse, rfl⟩
  · unfold admitApplicant at hjoined
    simp only [update_bind_runs, update_runs] at hjoined
    have hconv : w₁.conversations = w.conversations.insert pending.conversationId
        { c with
          members := c.members.insert pending.applicantId
            (.joining pending.applicantId .member now)
          updatedAt := now } := by
      rw [hjoined]
      refine Map.ext fun k => ?_
      show (w.conversations.modify _ _).get k = _
      rw [Map.get_modify, Map.get_insert]
      split
      · subst_vars
        rw [hget]
        rfl
      · rfl
    rw [hconv]
    exact .admitted haccept hpending hget hrole
  · exact .refused (Bool.eq_false_iff.mpr hrefuse)

theorem deleteAccount_reshaped {currentPassword confirmation : String} {u : Unit}
    (h : (deleteAccount env actor currentPassword confirmation now).Runs w u w') :
    ConversationStep env w (.deleteAccount actor currentPassword confirmation now)
      w' := by
  unfold deleteAccount deleteAccountInStore detachAccountFromConversations at h
  simp only [Tx.runs_failIf_bind, Tx.runs_get_bind, Tx.runs_okOr_bind, update_bind_runs] at h
  obtain ⟨-, account, -, -, h⟩ := h
  exact .then .detached h

/-- **Conversations.** A transaction makes one of the changes, or none. -/
theorem Op.reshaped {op : Op} (h : (op.run env).Runs w () w') :
    ConversationStep env w op w' := by
  cases op
  case deleteAccount =>
    obtain ⟨_, hr⟩ := Tx.runs_void.mp h
    exact deleteAccount_reshaped hr
  case decideFriendRequest =>
    obtain ⟨_, hr⟩ := Tx.runs_void.mp h
    exact decideFriendRequest_reshaped hr
  case createDirect =>
    obtain ⟨_, hr⟩ := Tx.runs_void.mp h
    exact createDirect_reshaped hr
  case createGroup =>
    obtain ⟨_, hr⟩ := Tx.runs_void.mp h
    exact createGroup_reshaped hr
  case updateGroup =>
    obtain ⟨_, hr⟩ := Tx.runs_void.mp h
    exact updateGroup_reshaped hr
  case addGroupMembers =>
    obtain ⟨_, hr⟩ := Tx.runs_void.mp h
    exact addGroupMembers_reshaped hr
  case leaveGroup =>
    obtain ⟨_, hr⟩ := Tx.runs_void.mp h
    exact leaveGroup_reshaped hr
  case disbandGroup =>
    obtain ⟨_, hr⟩ := Tx.runs_void.mp h
    exact disbandGroup_reshaped hr
  case updateGroupMember =>
    obtain ⟨_, hr⟩ := Tx.runs_void.mp h
    exact updateGroupMember_reshaped hr
  case removeGroupMember =>
    obtain ⟨_, hr⟩ := Tx.runs_void.mp h
    exact removeGroupMember_reshaped hr
  case transferGroupOwnership =>
    obtain ⟨_, hr⟩ := Tx.runs_void.mp h
    exact transferGroupOwnership_reshaped hr
  case decideGroupJoinRequest =>
    obtain ⟨_, hr⟩ := Tx.runs_void.mp h
    exact decideGroupJoinRequest_reshaped hr
  all_goals
    dsimp only [Op.run] at h
    exact .then (.same rfl) h

end

/-! ## Direct conversations -/

namespace Conversation

/-- Two members of a direct conversation are all its members. -/
def Paired (c : Conversation) : Prop :=
  c.isGroup = false → ∀ a b, a ≠ b → c.canRead a = true → c.canRead b = true →
    c.members.len = 2 ∧ ∀ u, c.canRead u = true → u = a ∨ u = b

/-- It is the direct conversation of the two. -/
def Joins (c : Conversation) (a b : UserId) : Prop :=
  c.isGroup = false ∧ c.canRead a = true ∧ c.canRead b = true

section
variable {c c' : Conversation} {id : ConversationId} {a b u : UserId} {now : DateTime}

theorem canRead_remove {m : Map UserId ConversationMember} {actor : UserId}
    (hm : c'.members = m.remove actor) :
    c'.canRead u = true ↔ u ≠ actor ∧ m.containsKey u = true := by
  unfold canRead
  rw [hm, Map.containsKey_remove]

theorem canRead_insert {m : Map UserId ConversationMember} {target : UserId}
    {member : ConversationMember} (hm : c'.members = m.insert target member) :
    c'.canRead u = true ↔ u = target ∨ m.containsKey u = true := by
  unfold canRead
  rw [hm, Map.containsKey_insert]

theorem direct_ok (h : direct id a b now = .ok c) :
    a ≠ b ∧ c.id = id ∧ c.isGroup = false ∧ c.members.len = 2 ∧ c.avatarAttachmentId = none ∧
      ∀ u, c.canRead u = true ↔ u = a ∨ u = b := by
  unfold direct at h
  split at h
  · cases h
  · cases h
    rename_i hab
    refine ⟨hab, rfl, rfl, ?_, rfl, fun u => ?_⟩
    · simp only [List.foldl_cons, List.foldl_nil]
      have hnone : ((Map.empty : Map UserId ConversationMember).insert a
          (.joining a .member now)).get b = none := by
        rw [Map.get_insert_ne (Ne.symm hab), Map.get_empty]
      rw [Map.len_insert hnone, Map.len_singleton]
    · simp only [canRead, List.foldl_cons, List.foldl_nil]
      rw [Map.containsKey_insert, Map.containsKey_insert]
      simp [or_comm]

theorem detach_canRead {actor : UserId} :
    (c.detach actor now).canRead u = true ↔ u ≠ actor ∧ c.canRead u = true := by
  unfold detach
  split
  · rename_i hactor
    refine ⟨fun hu => ⟨?_, hu⟩, fun h => h.2⟩
    rintro rfl
    rw [hu] at hactor
    cases hactor
  · dsimp only [canRead]
    rw [Map.containsKey_remove]
    split
    · rw [Map.containsKey_modify]
    · rfl

theorem detach_isGroup {actor : UserId} : (c.detach actor now).isGroup = c.isGroup := by
  unfold detach
  split <;> rfl

end

end Conversation

/-- A new conversation takes the next id. -/
theorem Conversation.group_ok {id groupId : ConversationId} {owner : UserId}
    {memberIds : List UserId} {name : String} {now : DateTime} {c : Conversation}
    (h : Conversation.group id groupId owner memberIds name now = .ok c) :
    c.id = id ∧ c.isGroup = true ∧ c.avatarAttachmentId = none ∧
      ∀ u, c.canRead u = true ↔ u = owner ∨ u ∈ memberIds := by
  unfold Conversation.group at h
  split at h
  · cases h
  split at h <;> cases h
  refine ⟨rfl, rfl, rfl, fun u => ?_⟩
  dsimp only [Conversation.canRead]
  rw [Map.containsKey_iff, Conversation.get_groupMembers]
  split
  · simp [*]
  · split <;> simp [*]

theorem Conversation.removeMember_ok {c c' : Conversation} {actor target : UserId}
    {now : DateTime} (h : c.removeMember actor target now = .ok c') :
    c' = { c with members := c.members.remove target, updatedAt := now } ∧
      c.canRead actor = true ∧ c.canRead target = true ∧ actor ≠ target := by
  unfold Conversation.removeMember at h
  split at h
  · cases h
  split at h
  · cases h
  split at h
  · cases h
  · rename_i a ha _ t ht hrole
    cases h
    refine ⟨rfl, Map.containsKey_iff.mpr ⟨a, ha⟩, Map.containsKey_iff.mpr ⟨t, ht⟩, ?_⟩
    rintro rfl
    cases ha.symm.trans ht
    exact hrole (.inr (Nat.le_refl _))

theorem Conversation.transferOwnership_ok {c c' : Conversation} {actor target : UserId}
    {now : DateTime} (h : c.transferOwnership actor target now = .ok c') :
    c'.isGroup = c.isGroup ∧ c'.avatarAttachmentId = c.avatarAttachmentId ∧
      ∀ u, c'.canRead u = c.canRead u := by
  unfold Conversation.transferOwnership at h
  split at h
  · cases h
  split at h <;> cases h
  refine ⟨rfl, rfl, fun u => ?_⟩
  dsimp only [Conversation.canRead]
  rw [Map.containsKey_modify, Map.containsKey_modify]

section
variable {env : Env} {w : World} {n : Nat} {op : Op} {m : Map ConversationId Conversation}
  {id : ConversationId} {c' : Conversation}

/-- One conversation is written over another of its kind. -/
theorem overwritten {s : Map ConversationId Conversation} {i : ConversationId}
    {c c₁ : Conversation} (hold : s.get i = some c) (hget : (s.insert i c₁).get id = some c')
    (hkind : c₁.isGroup = c.isGroup) : ∃ c, s.get id = some c ∧ c'.isGroup = c.isGroup := by
  rw [Map.get_insert] at hget
  split at hget
  · cases hget
    subst_vars
    exact ⟨c, hold, hkind⟩
  · exact ⟨c', hget, rfl⟩

/-- A conversation after the change was there before, in the same kind, or it is new. -/
theorem Reshaped.before (h : Reshaped env w n op m) (hget : m.get id = some c') :
    (∃ c, w.conversations.get id = some c ∧ c'.isGroup = c.isGroup) ∨
      (id = env.uuid w.nextUuid ∧ w.nextUuid < n) := by
  cases h with
  | same => exact .inl ⟨c', hget, rfl⟩
  | declined => exact .inl ⟨c', hget, rfl⟩
  | befriended _ hn hnew =>
    rw [Map.get_insert] at hget
    split at hget
    · rename_i hid
      exact .inr ⟨hid.trans (Conversation.direct_ok hnew).2.1, hn⟩
    · exact .inl ⟨c', hget, rfl⟩
  | reopened => exact .inl ⟨c', hget, rfl⟩
  | opened _ _ hn hnew =>
    rw [Map.get_insert] at hget
    split at hget
    · rename_i hid
      exact .inr ⟨hid.trans (Conversation.direct_ok hnew).2.1, hn⟩
    · exact .inl ⟨c', hget, rfl⟩
  | founded hn hnew =>
    rw [Map.get_insert] at hget
    split at hget
    · rename_i hid
      exact .inr ⟨hid.trans (Conversation.group_ok hnew).1, hn⟩
    · exact .inl ⟨c', hget, rfl⟩
  | updated hold =>
    exact .inl (overwritten hold hget (by
      unfold Conversation.isGroup
      rw [Conversation.updateGroup_kind]))
  | invited hold => exact .inl (overwritten hold hget rfl)
  | left hold => exact .inl (overwritten hold hget rfl)
  | disbanded => exact .inl ⟨c', Map.get_of_remove hget, rfl⟩
  | amended hold => exact .inl (overwritten hold hget rfl)
  | expelled hold _ hremove =>
    exact .inl (overwritten hold hget (by rw [(Conversation.removeMember_ok hremove).1]; rfl))
  | transferred hold _ htransfer =>
    exact .inl (overwritten hold hget (Conversation.transferOwnership_ok htransfer).1)
  | refused => exact .inl ⟨c', hget, rfl⟩
  | admitted _ _ hold => exact .inl (overwritten hold hget rfl)
  | detached =>
    rw [Map.get_mapValues, Option.map_eq_some_iff] at hget
    obtain ⟨c, hc, rfl⟩ := hget
    exact .inl ⟨c, hc, Conversation.detach_isGroup⟩

/-- Behind the write of a group a direct conversation is an old one. -/
theorem direct_of_insert {s : Map ConversationId Conversation} {i : ConversationId}
    {c₁ : Conversation} (hget : (s.insert i c₁).get id = some c') (hgroup : c₁.isGroup = true)
    (hdirect : c'.isGroup = false) : s.get id = some c' := by
  rw [Map.get_insert] at hget
  split at hget
  · cases hget
    rw [hgroup] at hdirect
    cases hdirect
  · exact hget

/-- Join requests are for groups. -/
def JoinsGroups (w : World) : Prop :=
  ∀ id pending c, w.groupJoinRequests.get id = some pending →
    w.conversations.get pending.conversationId = some c → c.isGroup = true

/-- A direct conversation after the change: an old one, or what is left of it without a deleted
account, or the new one of two friends. -/
theorem Reshaped.direct (h : Reshaped env w n op m) (hjoins : JoinsGroups w)
    (hget : m.get id = some c') (hdirect : c'.isGroup = false) :
    (∃ c, w.conversations.get id = some c ∧ (c' = c ∨ ∃ actor now, c' = c.detach actor now)) ∨
    (id = env.uuid w.nextUuid ∧ ∃ a b now, Conversation.direct id a b now = .ok c' ∧
      ((∃ actor requestId r, op = .decideFriendRequest actor requestId .accept now ∧
          w.friendRequests.get requestId = some r ∧ a = r.senderId ∧ b = r.recipientId) ∨
        (op = .createDirect a b now ∧ findDirect w.toStore a b = none))) := by
  have hkept : ∀ {c}, w.conversations.get id = some c → c' = c →
      ∃ c, w.conversations.get id = some c ∧ (c' = c ∨ ∃ actor now, c' = c.detach actor now) :=
    fun hc he => ⟨_, hc, .inl he⟩
  cases h with
  | same => exact .inl (hkept hget rfl)
  | declined => exact .inl (hkept hget rfl)
  | befriended hrequest _ hnew =>
    rw [Map.get_insert] at hget
    split at hget
    · rename_i hid
      cases hget
      rw [(Conversation.direct_ok hnew).2.1] at hid
      subst hid
      exact .inr ⟨rfl, _, _, _, hnew, .inl ⟨_, _, _, rfl, hrequest, rfl, rfl⟩⟩
    · exact .inl (hkept hget rfl)
  | reopened => exact .inl (hkept hget rfl)
  | opened _ hnone _ hnew =>
    rw [Map.get_insert] at hget
    split at hget
    · rename_i hid
      cases hget
      rw [(Conversation.direct_ok hnew).2.1] at hid
      subst hid
      exact .inr ⟨rfl, _, _, _, hnew, .inr ⟨rfl, hnone⟩⟩
    · exact .inl (hkept hget rfl)
  | founded _ hnew =>
    exact .inl (hkept (direct_of_insert hget (Conversation.group_ok hnew).2.1 hdirect) rfl)
  | updated _ hgroup =>
    refine .inl (hkept (direct_of_insert hget ?_ hdirect) rfl)
    unfold Conversation.isGroup
    rw [Conversation.updateGroup_kind]
    exact hgroup
  | invited _ hgroup => exact .inl (hkept (direct_of_insert hget hgroup hdirect) rfl)
  | left _ hgroup => exact .inl (hkept (direct_of_insert hget hgroup hdirect) rfl)
  | disbanded => exact .inl (hkept (Map.get_of_remove hget) rfl)
  | amended _ hgroup => exact .inl (hkept (direct_of_insert hget hgroup hdirect) rfl)
  | expelled _ hgroup hremove =>
    refine .inl (hkept (direct_of_insert hget ?_ hdirect) rfl)
    rw [(Conversation.removeMember_ok hremove).1]
    exact hgroup
  | transferred _ hgroup htransfer =>
    refine .inl (hkept (direct_of_insert hget ?_ hdirect) rfl)
    rw [(Conversation.transferOwnership_ok htransfer).1]
    exact hgroup
  | refused => exact .inl (hkept hget rfl)
  | admitted _ hpending hold =>
    have hgroup := hjoins _ _ _ hpending hold
    exact .inl (hkept (direct_of_insert hget hgroup hdirect) rfl)
  | detached =>
    rw [Map.get_mapValues, Option.map_eq_some_iff] at hget
    obtain ⟨c, hc, rfl⟩ := hget
    exact .inl ⟨c, hc, .inr ⟨_, _, rfl⟩⟩

end

/-! ### Join requests -/

section
variable {env : Env} {w w' : World} {op : Op}

theorem requestToJoinGroup_requests {actor : UserId} {conversationId : ConversationId}
    {request : CreateGroupJoinRequest} {now : DateTime} {r : GroupJoinRequest}
    (h : (requestToJoinGroup env actor conversationId request now).Runs w r w') :
    (∃ c, w.conversations.get conversationId = some c ∧ c.isGroup = true) ∧
      r.conversationId = conversationId ∧ r.applicantId = actor ∧
      w'.groupJoinRequests = w.groupJoinRequests.insert (env.uuid w.nextUuid) r := by
  unfold requestToJoinGroup at h
  simp only [Tx.runs_failIf_bind, Tx.runs_get_bind, Tx.runs_okOr_bind, Tx.runs_ofExcept_bind,
    ensureGroup_ok, Tx.runs_bind (t := newUuid env), newUuid_runs, update_bind_runs] at h
  obtain ⟨-, c, hc, _, hgroup, -, -, _, _, ⟨rfl, rfl⟩, h⟩ := h
  obtain ⟨_, w₁, hevent, h⟩ := Tx.runs_bind.mp h
  obtain ⟨rfl, rfl⟩ := Tx.runs_pure.mp h
  exact ⟨⟨c, hc, hgroup⟩, rfl, rfl, appendEvent_only hevent .groupJoinRequests (by decide)⟩

theorem decideGroupJoinRequest_requests {actor : UserId} {id : Uuid}
    {request : DecideGroupJoinRequest} {now : DateTime} {r : GroupJoinRequest}
    (h : (decideGroupJoinRequest env actor id request now).Runs w r w') :
    ∃ pending, w.groupJoinRequests.get id = some pending ∧
      r.conversationId = pending.conversationId ∧ r.applicantId = pending.applicantId ∧
      w'.groupJoinRequests = w.groupJoinRequests.insert id r := by
  unfold decideGroupJoinRequest at h
  simp only [Tx.runs_get_bind, Tx.runs_okOr_bind, Tx.runs_failIf_bind, Tx.runs_ofExcept_bind] at h
  obtain ⟨pending, hpending, -, c, hget, _, -, h⟩ := h
  obtain ⟨_, w₁, hwhen, h⟩ := Tx.runs_bind.mp h
  have hjoined := (Tx.Keeps.runs (R := Evolves [.conversations, .conversationSettings])
    hwhen).same .groupJoinRequests (by decide)
  have hjoined : w₁.groupJoinRequests = w.groupJoinRequests := hjoined
  rw [update_bind_runs] at h
  obtain ⟨_, w₂, hnotice, h⟩ := Tx.runs_bind.mp h
  have hnotice := (Tx.Keeps.runs (R := Evolves [.conversations, .messages]) hnotice).same
    .groupJoinRequests (by decide)
  have hnotice : w₂.groupJoinRequests = w₁.groupJoinRequests.insert id _ := hnotice
  obtain ⟨_, w₃, hevent, h⟩ := Tx.runs_bind.mp h
  have hevent : w₃.groupJoinRequests = w₂.groupJoinRequests :=
    appendEvent_only hevent .groupJoinRequests (by decide)
  obtain ⟨rfl, rfl⟩ := Tx.runs_pure.mp h
  refine ⟨pending, hpending, rfl, rfl, ?_⟩
  rw [hevent, hnotice, hjoined]

/-- A join request after the step: for a conversation there was one for, or for a group. -/
theorem Op.joinRequest (h : (op.run env).Runs w () w') {id : Uuid} {pending : GroupJoinRequest}
    (hget : w'.groupJoinRequests.get id = some pending) :
    (∃ id₀ p₀, w.groupJoinRequests.get id₀ = some p₀ ∧
      pending.conversationId = p₀.conversationId) ∨
    ∃ c, w.conversations.get pending.conversationId = some c ∧ c.isGroup = true := by
  have hsame : .groupJoinRequests ∉ op.touches ++ logFields →
      w'.groupJoinRequests = w.groupJoinRequests := fun hop => Op.same h hop
  cases op
  case requestToJoinGroup actor conversationId request now =>
    obtain ⟨r, hr⟩ := Tx.runs_void.mp h
    obtain ⟨hgroup, hid, -, hmap⟩ := requestToJoinGroup_requests hr
    rw [hmap, Map.get_insert] at hget
    split at hget
    · cases hget
      exact .inr (hid ▸ hgroup)
    · exact .inl ⟨_, _, hget, rfl⟩
  case decideGroupJoinRequest actor requestId request now =>
    obtain ⟨r, hr⟩ := Tx.runs_void.mp h
    obtain ⟨p₀, hp₀, hid, -, hmap⟩ := decideGroupJoinRequest_requests hr
    rw [hmap, Map.get_insert] at hget
    split at hget
    · cases hget
      exact .inl ⟨_, _, hp₀, hid⟩
    · exact .inl ⟨_, _, hget, rfl⟩
  all_goals
    rw [hsame (by dsimp only [Op.touches]; decide)] at hget
    exact .inl ⟨id, pending, hget, rfl⟩

/-- Conversations are stored under ids that were drawn, and join requests are for groups. -/
structure Placed (env : Env) (w : World) : Prop where
  drawn : ∀ id c, w.conversations.get id = some c → ∃ k < w.nextUuid, id = env.uuid k
  requested : ∀ id pending, w.groupJoinRequests.get id = some pending →
    ∃ k < w.nextUuid, pending.conversationId = env.uuid k
  joins : JoinsGroups w

theorem Placed.step (h : Placed env w) (hu : Function.Injective env.uuid)
    (hr : (op.run env).Runs w () w') : Placed env w' := by
  obtain ⟨n, m, hshape, hn, htouch⟩ := Op.reshaped hr
  have hle := ((op.evolves env).runs hr).uuids
  have hrequested : ∀ id pending, w'.groupJoinRequests.get id = some pending →
      ∃ k < w.nextUuid, pending.conversationId = env.uuid k := by
    intro id pending hget
    rcases Op.joinRequest hr hget with ⟨id₀, p₀, hp₀, hid⟩ | ⟨c, hc, -⟩
    · rw [hid]
      exact h.requested id₀ p₀ hp₀
    · exact h.drawn _ c hc
  refine ⟨fun id c' hget => ?_, fun id pending hget => ?_, fun id pending c' hget hget' => ?_⟩
  · obtain ⟨c, hc, -⟩ := htouch.before hget
    rcases hshape.before hc with ⟨c₀, hc₀, -⟩ | ⟨hid, hk⟩
    · obtain ⟨k, hk, hid⟩ := h.drawn id c₀ hc₀
      exact ⟨k, Nat.lt_of_lt_of_le hk hle, hid⟩
    · exact ⟨_, Nat.lt_of_lt_of_le hk hn, hid⟩
  · obtain ⟨k, hk, hid⟩ := hrequested id pending hget
    exact ⟨k, Nat.lt_of_lt_of_le hk hle, hid⟩
  · obtain ⟨c, hc, htime⟩ := htouch.before hget'
    rw [← timeless_isGroup htime]
    rcases hshape.before hc with ⟨c₀, hc₀, hkind⟩ | ⟨hid, -⟩
    · rw [hkind]
      rcases Op.joinRequest hr hget with ⟨id₀, p₀, hp₀, hid⟩ | ⟨c₁, hc₁, hgroup⟩
      · exact h.joins id₀ p₀ c₀ hp₀ (hid ▸ hc₀)
      · cases hc₀.symm.trans hc₁
        exact hgroup
    · obtain ⟨k', hk', hid'⟩ := hrequested id pending hget
      exact absurd (hu (hid.symm.trans hid')) (Nat.ne_of_gt hk')

theorem placed_inductive (hu : Function.Injective env.uuid) :
    (service env).Inductive (Placed env) where
  init w hw := by
    have hw : w = World.init := hw
    subst hw
    refine ⟨fun id c hget => ?_, fun id pending hget => ?_, fun id pending c hget => ?_⟩
    all_goals cases (Map.get_empty _).symm.trans hget
  step w op w' h hr := h.step hu hr

/-! ### One for two users -/

/-- Two users are members of one direct conversation at most. -/
def Single (w : World) : Prop :=
  ∀ i j c d a b, w.conversations.get i = some c → w.conversations.get j = some d → a ≠ b →
    c.Joins a b → d.Joins a b → i = j

/-- A request is accepted between users who have no direct conversation. -/
def Op.OpensFirst (w : World) : Op → Prop
  | .decideFriendRequest _ requestId .accept _ => ∀ r id c,
    w.friendRequests.get requestId = some r → w.conversations.get id = some c →
      ¬ c.Joins r.senderId r.recipientId
  | _ => True

end

section
variable {env : Env} {w w' : World} {op : Op}

theorem Conversation.Joins.symm {c : Conversation} {a b : UserId} (h : c.Joins a b) :
    c.Joins b a := ⟨h.1, h.2.2, h.2.1⟩

theorem Conversation.Paired.detach {c : Conversation} (h : c.Paired) (actor : UserId)
    (now : DateTime) : (c.detach actor now).Paired := by
  intro hgroup a b hab ha hb
  rw [Conversation.detach_isGroup] at hgroup
  obtain ⟨hne, ha⟩ := Conversation.detach_canRead.mp ha
  obtain ⟨hne', hb⟩ := Conversation.detach_canRead.mp hb
  obtain ⟨hlen, hall⟩ := h hgroup a b hab ha hb
  have hactor : c.canRead actor = false := by
    by_contra hread
    rcases hall actor (Bool.of_not_eq_false hread) with rfl | rfl
    · exact hne rfl
    · exact hne' rfl
  have hsame : c.detach actor now = c := by
    unfold Conversation.detach
    rw [if_pos hactor]
  rw [hsame]
  exact ⟨hlen, hall⟩

theorem Conversation.paired_of_direct {c : Conversation} {id : ConversationId} {a b : UserId}
    {now : DateTime} (h : Conversation.direct id a b now = .ok c) : c.Paired := by
  obtain ⟨-, -, -, hlen, -, hread⟩ := Conversation.direct_ok h
  intro _ x y hxy hx hy
  refine ⟨hlen, fun u hu => ?_⟩
  have hx := (hread x).mp hx
  have hy := (hread y).mp hy
  have hu := (hread u).mp hu
  grind

/-- `create_direct` finds the conversation of the two. -/
theorem not_joins_of_findDirect {a b : UserId} (hpaired : ∀ id c, w.conversations.get id = some c →
    c.Paired) (hnone : findDirect w.toStore a b = none) {id : ConversationId} {c : Conversation}
    (hc : w.conversations.get id = some c) (hab : a ≠ b) : ¬ c.Joins a b := by
  rintro ⟨hgroup, ha, hb⟩
  obtain ⟨hlen, -⟩ := hpaired id c hc hgroup a b hab ha hb
  refine List.find?_eq_none.mp hnone c (Map.mem_values.mpr ⟨id, hc⟩) ?_
  simp only [Bool.and_eq_true, beq_iff_eq, Bool.not_eq_true']
  exact ⟨⟨⟨hlen, ha⟩, hb⟩, hgroup⟩

/-- A direct conversation of two users after the step: they had it, or it is the new one. -/
theorem joins_before (hplaced : Placed env w) (hr : (op.run env).Runs w () w')
    {id : ConversationId} {c' : Conversation} (hget : w'.conversations.get id = some c')
    {a b : UserId} (hjoins : c'.Joins a b) :
    (∃ c, w.conversations.get id = some c ∧ c.Joins a b) ∨
    (id = env.uuid w.nextUuid ∧ ∃ x y now c, Conversation.direct id x y now = .ok c ∧ c.Joins a b ∧
      ((∃ actor requestId r, op = .decideFriendRequest actor requestId .accept now ∧
          w.friendRequests.get requestId = some r ∧ x = r.senderId ∧ y = r.recipientId) ∨
        (op = .createDirect x y now ∧ findDirect w.toStore x y = none))) := by
  obtain ⟨n, m, hshape, -, htouch⟩ := Op.reshaped hr
  obtain ⟨c₁, hc₁, htime⟩ := htouch.before hget
  have hjoins : c₁.Joins a b := by
    unfold Conversation.Joins Conversation.canRead at hjoins ⊢
    rw [timeless_isGroup htime, timeless_members htime]
    exact hjoins
  rcases hshape.direct hplaced.joins hc₁ hjoins.1 with
    ⟨c, hc, rfl | ⟨actor, now, rfl⟩⟩ | ⟨hid, x, y, now, hnew, horigin⟩
  · exact .inl ⟨_, hc, hjoins⟩
  · refine .inl ⟨c, hc, ?_, ?_, ?_⟩
    · exact Conversation.detach_isGroup ▸ hjoins.1
    · exact (Conversation.detach_canRead.mp hjoins.2.1).2
    · exact (Conversation.detach_canRead.mp hjoins.2.2).2
  · exact .inr ⟨hid, x, y, now, c₁, hnew, hjoins, horigin⟩

/-- A direct conversation of two users after the step: they had it, or nobody had one. -/
theorem joins_step (hplaced : Placed env w) (hpaired : ∀ id c, w.conversations.get id = some c →
    c.Paired) (hok : op.OpensFirst w) (hr : (op.run env).Runs w () w') {id : ConversationId}
    {c' : Conversation} (hget : w'.conversations.get id = some c') {a b : UserId} (hab : a ≠ b)
    (hjoins : c'.Joins a b) :
    (∃ c, w.conversations.get id = some c ∧ c.Joins a b) ∨
    (id = env.uuid w.nextUuid ∧ ∀ j d, w.conversations.get j = some d → ¬ d.Joins a b) := by
  rcases joins_before hplaced hr hget hjoins with hold | ⟨hid, x, y, now, c, hnew, hjoins, horigin⟩
  · exact .inl hold
  · refine .inr ⟨hid, fun j d hd hjoins' => ?_⟩
    obtain ⟨hxy, -, -, -, -, hread⟩ := Conversation.direct_ok hnew
    have ha := (hread a).mp hjoins.2.1
    have hb := (hread b).mp hjoins.2.2
    have hjoins' : d.Joins x y := by
      rcases ha with rfl | rfl <;> rcases hb with rfl | rfl
      · exact absurd rfl hab
      · exact hjoins'
      · exact hjoins'.symm
      · exact absurd rfl hab
    rcases horigin with ⟨actor, requestId, r, rfl, hrequest, rfl, rfl⟩ | ⟨rfl, hnone⟩
    · exact hok r j d hrequest hd hjoins'
    · exact not_joins_of_findDirect hpaired hnone hd hxy hjoins'

structure Directs (env : Env) (w : World) : Prop where
  placed : Placed env w
  paired : ∀ id c, w.conversations.get id = some c → c.Paired
  single : Single w

theorem Directs.step (h : Directs env w) (hu : Function.Injective env.uuid)
    (hok : op.OpensFirst w) (hr : (op.run env).Runs w () w') : Directs env w' := by
  refine ⟨h.placed.step hu hr, fun id c' hget => ?_, ?_⟩
  · obtain ⟨n, m, hshape, -, htouch⟩ := Op.reshaped hr
    obtain ⟨c₁, hc₁, htime⟩ := htouch.before hget
    have hpaired : c₁.Paired := by
      intro hgroup
      rcases hshape.direct h.placed.joins hc₁ hgroup with
        ⟨c, hc, rfl | ⟨actor, now, rfl⟩⟩ | ⟨-, x, y, now, hnew, -⟩
      · exact h.paired id _ hc hgroup
      · exact (h.paired id c hc).detach actor now hgroup
      · exact Conversation.paired_of_direct hnew hgroup
    unfold Conversation.Paired Conversation.canRead at hpaired ⊢
    rw [← timeless_isGroup htime, ← timeless_members htime]
    exact hpaired
  · intro i j c d a b hc hd hab hjc hjd
    rcases joins_step h.placed h.paired hok hr hc hab hjc with ⟨c₀, hc₀, hj₀⟩ | ⟨hi, hnone⟩
    · rcases joins_step h.placed h.paired hok hr hd hab hjd with ⟨d₀, hd₀, hj₁⟩ | ⟨hj, hnone⟩
      · exact h.single i j c₀ d₀ a b hc₀ hd₀ hab hj₀ hj₁
      · exact absurd hj₀ (hnone i c₀ hc₀)
    · rcases joins_step h.placed h.paired hok hr hd hab hjd with ⟨d₀, hd₀, hj₁⟩ | ⟨hj, -⟩
      · exact absurd hj₁ (hnone j d₀ hd₀)
      · exact hi.trans hj.symm

theorem directs_inductive (hu : Function.Injective env.uuid) :
    ((service env).restrict fun w op => op.OpensFirst w).Inductive (Directs env) where
  init w hw := by
    have hw : w = World.init := hw
    subst hw
    refine ⟨(placed_inductive hu).init _ rfl, fun id c hget => ?_, fun i j c d a b hget => ?_⟩
    all_goals cases (Map.get_empty _).symm.trans hget
  step w op w' h hstep := h.step hu hstep.1 hstep.2

/-- **One direct conversation.** If no request is accepted between users who have one, two users
share at most one, and `create_direct` reopens it. -/
theorem direct_single (hu : Function.Injective env.uuid)
    (h : ((service env).restrict fun w op => op.OpensFirst w).Reachable w) :
    (∀ i j c d a b, w.conversations.get i = some c → w.conversations.get j = some d → a ≠ b →
      c.Joins a b → d.Joins a b → i = j) ∧
    (∀ i c a b now r w', w.conversations.get i = some c → a ≠ b → c.Joins a b →
      (createDirect env a b now).Runs w r w' →
      r = conversationForUser c a ∧ w'.conversations = w.conversations) := by
  have hdirects := (directs_inductive hu).reachable h
  refine ⟨hdirects.single, fun i c a b now r w' hc hab hjoins hr => ?_⟩
  unfold createDirect at hr
  simp only [Tx.runs_get_bind, Tx.runs_failIf_bind] at hr
  obtain ⟨-, hr⟩ := hr
  split at hr
  · simp only [Tx.runs_okOr_bind, Tx.runs_pure] at hr
    obtain ⟨existing, hfound, rfl, rfl⟩ := hr
    have hmem := List.mem_of_find?_eq_some hfound
    have hpred := List.find?_some hfound
    simp only [Bool.and_eq_true, beq_iff_eq, Bool.not_eq_true'] at hpred
    obtain ⟨j, hj⟩ := Map.mem_values.mp hmem
    obtain rfl := hdirects.single i j c existing a b hc hj hab hjoins
      ⟨hpred.2, hpred.1.1.2, hpred.1.2⟩
    cases hc.symm.trans hj
    exact ⟨rfl, rfl⟩
  · rename_i hnone
    exact absurd hjoins (not_joins_of_findDirect hdirects.paired (by simpa using hnone) hc hab)

end

/-- Alice and Bob share conversation 9. -/
theorem direct_single_alice : ∃ w c,
    ((service Env.numbered).restrict fun w op => op.OpensFirst w).Reachable w ∧
    w.conversations.get 9 = some c ∧ c.Joins 1 4 ∧
    ∀ j d, w.conversations.get j = some d → d.Joins 1 4 → j = 9 := by
  obtain ⟨w, hw, hp⟩ := @reaches_checked Env.numbered (fun w op => op.OpensFirst w)
    (fun w op => match op with
      | .decideFriendRequest _ id .accept _ => (w.friendRequests.get id).all fun r =>
        w.conversations.values.all fun c =>
          !(!c.isGroup && c.canRead r.senderId && c.canRead r.recipientId)
      | _ => true)
    (fun w op h => by
      unfold Op.OpensFirst
      split at h
      · intro r id c hget hc hjoins
        simp only [hget, Option.all_some, List.all_eq_true] at h
        have hnot := h c (Map.mem_values.mpr ⟨id, hc⟩)
        simp [hjoins.1, hjoins.2.1, hjoins.2.2] at hnot
      · trivial)
    aliceAndBob (fun w => (w.conversations.get 9).any fun c =>
      !c.isGroup && c.canRead 1 && c.canRead 4) (by decide +kernel)
  obtain ⟨c, hc, hjoins⟩ := (Option.any_eq_true ..).mp hp
  simp only [Bool.and_eq_true, Bool.not_eq_true'] at hjoins
  have hjoins : c.Joins 1 4 := ⟨hjoins.1.1, hjoins.1.2, hjoins.2⟩
  exact ⟨w, c, hw, hc, hjoins, fun j d hd hjoins' =>
    (direct_single Env.numbered_injective hw).1 j 9 d c 1 4 hd hc (by decide) hjoins' hjoins⟩

/-- Alice unfriends Bob and makes friends with him again. -/
theorem direct_twice : ∃ w i j c d a b, (service Env.numbered).Reachable w ∧
    w.conversations.get i = some c ∧ w.conversations.get j = some d ∧ a ≠ b ∧ c.Joins a b ∧
    d.Joins a b ∧ i ≠ j := by
  obtain ⟨w, hw, hp⟩ := reaches Env.numbered [.register alice 0, .register bob 0,
      .sendFriendRequest 1 "bob" "" 0, .decideFriendRequest 4 7 .accept 0, .deleteFriend 1 4 0,
      .sendFriendRequest 1 "bob" "" 0, .decideFriendRequest 4 12 .accept 0]
    (fun w => ((w.conversations.get 9).any fun c => !c.isGroup && c.canRead 1 && c.canRead 4) &&
      (w.conversations.get 14).any fun c => !c.isGroup && c.canRead 1 && c.canRead 4)
    (by decide +kernel)
  simp only [Bool.and_eq_true, Option.any_eq_true, Bool.not_eq_true'] at hp
  obtain ⟨⟨c, hc, ⟨hcg, hca⟩, hcb⟩, d, hd, ⟨hdg, hda⟩, hdb⟩ := hp
  exact ⟨w, 9, 14, c, d, 1, 4, reachable_of_run hw, hc, hd, by decide, ⟨hcg, hca, hcb⟩,
    ⟨hdg, hda, hdb⟩, by decide⟩

end IamRust
