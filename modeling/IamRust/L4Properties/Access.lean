import IamRust.L3Service.Reads
import IamRust.L4Properties.Conversations

/-!
# Who reads a conversation

`Op.readable` says what a transaction does to membership: it removes those that
`Op.Removes` names, admits those that `Op.Admits` names, and leaves the others.
A conversation is stored under its own id (`Named`), and so is a member in it (`Keyed`).
-/
namespace IamRust

open Core

/-- The user is a member of the stored conversation. -/
def readableIn (m : Map ConversationId Conversation) (u : UserId) (id : ConversationId) : Bool :=
  (m.get id).any (·.canRead u)

def Store.readable (s : Store) (u : UserId) (id : ConversationId) : Bool :=
  readableIn s.conversations u id

/-- The members of a conversation. -/
def Store.audience (s : Store) (id : ConversationId) : Finset UserId :=
  ((s.conversations.get id).map (·.members.keys.toFinset)).getD ∅

theorem readableIn_iff {m : Map ConversationId Conversation} {u : UserId} {id : ConversationId} :
    readableIn m u id = true ↔ ∃ c, m.get id = some c ∧ c.canRead u = true := by
  simp [readableIn, Option.any_eq_true]

theorem Store.readable_iff {s : Store} {u : UserId} {id : ConversationId} :
    s.readable u id = true ↔ ∃ c, s.conversations.get id = some c ∧ c.canRead u = true :=
  readableIn_iff

theorem canRead_of_canSend {c : Conversation} {u : UserId} {now : DateTime}
    (h : c.canSend u now = true) : c.canRead u = true := by
  unfold Conversation.canSend at h
  obtain ⟨member, hmember, -⟩ := (Option.any_eq_true ..).mp h
  exact Map.containsKey_iff.mpr ⟨member, hmember⟩

theorem readable_of {s : Store} {u : UserId} {id : ConversationId} {c : Conversation}
    (hget : s.conversations.get id = some c) (hread : c.canRead u = true) :
    s.readable u id = true := Store.readable_iff.mpr ⟨c, hget, hread⟩

/-- A message is read by a member of its conversation. -/
theorem readableMessage_ok {s : Store} {v : UserId} {i : MessageId} {m : Message}
    (h : readableMessage s v i = .ok m) :
    findMessage s i = some m ∧ s.readable v m.conversationId = true := by
  unfold readableMessage readableConversation at h
  cases hfind : findMessage s i with
  | none =>
    rw [hfind] at h
    cases h
  | some m' =>
    rw [hfind] at h
    dsimp only at h
    cases hget : s.conversations.get m'.conversationId with
    | none =>
      rw [hget] at h
      cases h
    | some c =>
      rw [hget] at h
      dsimp only at h
      split at h
      · cases h
        exact ⟨rfl, readable_of hget ‹_›⟩
      · cases h

theorem mem_members {c : Conversation} {u : UserId} :
    u ∈ c.members.keys.toFinset ↔ c.canRead u = true := by
  simp [Conversation.canRead]

theorem Store.mem_audience {s : Store} {u : UserId} {id : ConversationId} :
    u ∈ s.audience id ↔ s.readable u id = true := by
  unfold Store.audience Store.readable readableIn
  cases s.conversations.get id with
  | none => simp
  | some c => simpa using mem_members

theorem audience_of {s : Store} {id : ConversationId} {c : Conversation}
    (hget : s.conversations.get id = some c) : s.audience id = c.members.keys.toFinset := by
  simp [Store.audience, hget]

theorem Retouched.readable {m m' : Map ConversationId Conversation} (h : Retouched m m')
    (u : UserId) (id : ConversationId) : readableIn m' u id = readableIn m u id := by
  have hid := h id
  unfold readableIn
  cases hm : m.get id with
  | none => simp_all
  | some c =>
    rw [hm, Option.map_some] at hid
    obtain ⟨c', hc', htime⟩ := Option.map_eq_some_iff.mp hid
    rw [hc']
    simp [Conversation.canRead, timeless_members htime]

theorem Conversation.transferOwnership_id {c c' : Conversation} {actor target : UserId}
    {now : DateTime} (h : c.transferOwnership actor target now = .ok c') : c'.id = c.id := by
  unfold Conversation.transferOwnership at h
  split at h
  · cases h
  split at h <;> cases h
  rfl

theorem Conversation.detach_id {c : Conversation} {actor : UserId} {now : DateTime} :
    (c.detach actor now).id = c.id := by
  unfold Conversation.detach
  split <;> rfl

/-! ## What a transaction does -/

/-- The operation ends the user's membership. -/
def Op.Removes (u : UserId) (id : ConversationId) : Op → Prop
  | .leaveGroup actor c _ => u = actor ∧ id = c
  | .removeGroupMember _ c target _ => u = target ∧ id = c
  | .disbandGroup _ c _ => id = c
  | .deleteAccount actor _ _ _ => u = actor
  | _ => False

/-- The operation makes the user a member. -/
def Op.Admits (env : Env) (w : World) (u : UserId) (id : ConversationId) : Op → Prop
  | .decideFriendRequest _ requestId .accept _ => id = env.uuid w.nextUuid ∧
    ∃ r, w.friendRequests.get requestId = some r ∧ (u = r.senderId ∨ u = r.recipientId)
  | .createDirect actor peer _ => findDirect w.toStore actor peer = none ∧
    id = env.uuid w.nextUuid ∧ (u = actor ∨ u = peer)
  | .createGroup owner memberIds _ _ => id = env.uuid w.nextUuid ∧ (u = owner ∨ u ∈ memberIds)
  | .addGroupMembers _ c request _ => id = c ∧ u ∈ request.memberIds
  | .decideGroupJoinRequest _ requestId request _ => request.accept = true ∧
    ∃ pending, w.groupJoinRequests.get requestId = some pending ∧
      id = pending.conversationId ∧ u = pending.applicantId
  | _ => False

section
variable {env : Env} {w w' : World} {n : Nat} {op : Op} {m : Map ConversationId Conversation}
  {u : UserId} {id : ConversationId}

/-- A write of one conversation. -/
theorem readableIn_insert {s : Map ConversationId Conversation} {i : ConversationId}
    {c : Conversation} : readableIn (s.insert i c) u id =
      if id = i then c.canRead u else readableIn s u id := by
  unfold readableIn
  rw [Map.get_insert]
  split <;> rfl

/-- One conversation written with the same members. -/
theorem readableIn_rewrite {s : Map ConversationId Conversation} {i : ConversationId}
    {c c' : Conversation} (hget : s.get i = some c) (hread : c'.canRead u = c.canRead u) :
    readableIn (s.insert i c') u id = readableIn s u id := by
  rw [readableIn_insert]
  split
  · subst_vars
    simp [readableIn, hget, hread]
  · rfl

/-- A new conversation: nobody was a member under its id. -/
theorem readableIn_new {s : Map ConversationId Conversation} {i : ConversationId}
    {c : Conversation} (hfresh : s.get i = none) : readableIn (s.insert i c) u id = true ↔
      readableIn s u id = true ∨ (id = i ∧ c.canRead u = true) := by
  rw [readableIn_insert]
  split
  · subst_vars
    simp [readableIn, hfresh]
  · simp [*]

theorem canRead_addMembers {c : Conversation} {ids : List UserId} {now : DateTime} :
    (c.addMembers (c.newMembers ids) now).canRead u = true ↔ c.canRead u = true ∨ u ∈ ids := by
  have hget : (c.addMembers (c.newMembers ids) now).canRead u = true ↔
      u ∈ c.newMembers ids ∨ c.canRead u = true := by
    unfold Conversation.canRead
    rw [Map.containsKey_iff, Conversation.get_addMembers]
    split <;> simp [*]
  rw [hget, Conversation.mem_newMembers]
  cases c.canRead u <;> simp

theorem Reshaped.readable (h : Reshaped env w n op m)
    (hfresh : w.conversations.get (env.uuid w.nextUuid) = none) :
    readableIn m u id = true ↔
      (w.readable u id = true ∧ ¬ op.Removes u id) ∨ op.Admits env w u id := by
  unfold Store.readable
  cases h with
  | @same op hop => cases op <;> simp_all [Op.Removes, Op.Admits, Op.reshapes]
  | declined => simp [Op.Removes, Op.Admits]
  | befriended hget _ hnew =>
    obtain ⟨-, hid, -, -, -, hread⟩ := Conversation.direct_ok hnew
    rw [readableIn_new (hid ▸ hfresh), hread, hid]
    simp [Op.Removes, Op.Admits, hget]
  | reopened hfound => simp [Op.Removes, Op.Admits, hfound]
  | opened _ hnone _ hnew =>
    obtain ⟨-, hid, -, -, -, hread⟩ := Conversation.direct_ok hnew
    rw [readableIn_new (hid ▸ hfresh), hread, hid]
    simp [Op.Removes, Op.Admits, hnone]
  | founded _ hnew =>
    obtain ⟨hid, -, -, hread⟩ := Conversation.group_ok hnew
    rw [readableIn_new (hid ▸ hfresh), hread, hid]
    simp [Op.Removes, Op.Admits]
  | updated hget =>
    rw [readableIn_rewrite hget (by simp [Conversation.canRead])]
    simp [Op.Removes, Op.Admits]
  | invited hget =>
    rw [readableIn_insert]
    split
    · subst_vars
      simp [Op.Removes, Op.Admits, canRead_addMembers, readableIn, hget]
    · simp [Op.Removes, Op.Admits, *]
  | left hget =>
    rw [readableIn_insert]
    split
    · subst_vars
      rw [Conversation.canRead_remove rfl]
      simp [Op.Removes, Op.Admits, readableIn, hget, and_comm, Conversation.canRead]
    · simp [Op.Removes, Op.Admits, *]
  | disbanded =>
    unfold readableIn
    rw [Map.get_remove]
    split <;> simp [Op.Removes, Op.Admits, *]
  | amended hget _ _ htarget =>
    rw [readableIn_rewrite hget]
    · simp [Op.Removes, Op.Admits]
    · rw [Bool.eq_iff_iff, Conversation.canRead_insert rfl]
      unfold Conversation.canRead
      refine ⟨fun h => ?_, .inr⟩
      rcases h with rfl | h
      · exact Map.containsKey_iff.mpr ⟨_, htarget⟩
      · exact h
  | expelled hget _ hremove =>
    obtain ⟨rfl, -⟩ := Conversation.removeMember_ok hremove
    rw [readableIn_insert]
    split
    · subst_vars
      rw [Conversation.canRead_remove rfl]
      simp [Op.Removes, Op.Admits, readableIn, hget, and_comm, Conversation.canRead]
    · simp [Op.Removes, Op.Admits, *]
  | transferred hget _ htransfer =>
    rw [readableIn_rewrite hget ((Conversation.transferOwnership_ok htransfer).2.2 u)]
    simp [Op.Removes, Op.Admits]
  | refused haccept => simp [Op.Removes, Op.Admits, haccept]
  | admitted haccept hpending hget =>
    rw [readableIn_insert]
    split
    · subst_vars
      rw [Conversation.canRead_insert rfl]
      simp [Op.Removes, Op.Admits, readableIn, hget, haccept, hpending, or_comm,
        Conversation.canRead]
    · simp [Op.Removes, Op.Admits, *]
  | detached =>
    unfold readableIn
    rw [Map.get_mapValues]
    cases w.conversations.get id with
    | none => simp [Op.Removes, Op.Admits]
    | some c =>
      simp only [Option.map_some, Option.any_some, Conversation.detach_canRead]
      simp [Op.Removes, Op.Admits, and_comm]

/-- **Membership.** A member after the step was one before and is not removed, or is admitted. -/
theorem Op.readable (hr : (op.run env).Runs w () w')
    (hfresh : w.conversations.get (env.uuid w.nextUuid) = none) :
    w'.readable u id = true ↔
      (w.readable u id = true ∧ ¬ op.Removes u id) ∨ op.Admits env w u id := by
  obtain ⟨n, m, hshape, -, htouch⟩ := Op.reshaped hr
  unfold Store.readable
  rw [htouch.readable]
  exact hshape.readable hfresh

/-- The next id is not taken. -/
theorem Placed.fresh (h : Placed env w) (hu : Function.Injective env.uuid) :
    w.conversations.get (env.uuid w.nextUuid) = none := by
  cases hget : w.conversations.get (env.uuid w.nextUuid) with
  | none => rfl
  | some c =>
    obtain ⟨k, hk, hid⟩ := h.drawn _ c hget
    exact absurd (hu hid) (Nat.ne_of_gt hk)

/-! ## The id of a stored conversation -/

/-- A conversation is stored under its id. -/
def Named (w : World) : Prop := ∀ id c, w.conversations.get id = some c → c.id = id

theorem Reshaped.named (h : Reshaped env w n op m) (hw : Named w) {c : Conversation}
    (hget : m.get id = some c) : c.id = id := by
  have hwrite : ∀ {i : ConversationId} {c₁ : Conversation}, c₁.id = i →
      (w.conversations.insert i c₁).get id = some c → c.id = id := by
    intro i c₁ hid hget
    rw [Map.get_insert] at hget
    split at hget
    · cases hget
      rw [hid, ‹id = i›]
    · exact hw _ _ hget
  have hrewrite : ∀ {i : ConversationId} {c₀ c₁ : Conversation}, w.conversations.get i = some c₀ →
      (w.conversations.insert i c₁).get id = some c → c₁.id = c₀.id → c.id = id :=
    fun hold hget hid => hwrite (hid.trans (hw _ _ hold)) hget
  cases h with
  | same => exact hw _ _ hget
  | declined => exact hw _ _ hget
  | befriended => exact hwrite rfl hget
  | reopened => exact hw _ _ hget
  | opened => exact hwrite rfl hget
  | founded => exact hwrite rfl hget
  | updated hold => exact hrewrite hold hget (Conversation.updateGroup_id ..)
  | invited hold => exact hrewrite hold hget rfl
  | left hold => exact hrewrite hold hget rfl
  | disbanded => exact hw _ _ (Map.get_of_remove hget)
  | amended hold => exact hrewrite hold hget rfl
  | expelled hold _ hremove =>
    obtain ⟨rfl, -⟩ := Conversation.removeMember_ok hremove
    exact hrewrite hold hget rfl
  | transferred hold _ htransfer =>
    exact hrewrite hold hget (Conversation.transferOwnership_id htransfer)
  | refused => exact hw _ _ hget
  | admitted _ _ hold => exact hrewrite hold hget rfl
  | detached =>
    rw [Map.get_mapValues, Option.map_eq_some_iff] at hget
    obtain ⟨c₀, hc₀, rfl⟩ := hget
    rw [Conversation.detach_id]
    exact hw _ _ hc₀

theorem named_inductive (env : Env) : (service env).Inductive Named where
  init w hw id c hget := by
    have hw : w = World.init := hw
    subst hw
    cases (Map.get_empty _).symm.trans hget
  step w op w' h hr id c hget := by
    obtain ⟨n, m, hshape, -, htouch⟩ := Op.reshaped hr
    obtain ⟨c₁, hc₁, htime⟩ := htouch.before hget
    rw [← timeless_id htime]
    exact hshape.named h hc₁

/-! ## The id of a stored member -/

/-- Members are stored under their id. -/
def KeyedMembers (m : Map UserId ConversationMember) : Prop :=
  ∀ u member, m.get u = some member → member.userId = u

theorem KeyedMembers.insert {m : Map UserId ConversationMember} (h : KeyedMembers m) {i : UserId}
    {member : ConversationMember} (hid : member.userId = i) : KeyedMembers (m.insert i member) := by
  intro u member' hget
  rw [Map.get_insert] at hget
  split at hget
  · cases hget
    rw [hid, ‹u = i›]
  · exact h _ _ hget

theorem KeyedMembers.remove {m : Map UserId ConversationMember} (h : KeyedMembers m)
    (i : UserId) : KeyedMembers (m.remove i) := by
  intro u member hget
  exact h _ _ (Map.get_of_remove hget)

theorem KeyedMembers.modify {m : Map UserId ConversationMember} (h : KeyedMembers m) (i : UserId)
    {f : ConversationMember → ConversationMember} (hf : ∀ member, (f member).userId = member.userId) :
    KeyedMembers (m.modify i f) := by
  intro u member hget
  rw [Map.get_modify] at hget
  split at hget
  · obtain ⟨old, hold, rfl⟩ := Option.map_eq_some_iff.mp hget
    rw [hf, h _ _ hold]
  · exact h _ _ hget

theorem KeyedMembers.detach {c : Conversation} (h : KeyedMembers c.members) (actor : UserId)
    (now : DateTime) : KeyedMembers (c.detach actor now).members := by
  unfold Conversation.detach
  split
  · exact h
  refine KeyedMembers.remove ?_ actor
  split
  · exact h.modify _ fun _ => rfl
  · exact h

/-- In every conversation. -/
def Keyed (w : World) : Prop :=
  ∀ id c, w.conversations.get id = some c → KeyedMembers c.members

theorem Reshaped.keyed (h : Reshaped env w n op m) (hw : Keyed w) {c : Conversation}
    (hget : m.get id = some c) : KeyedMembers c.members := by
  have hwrite : ∀ {i : ConversationId} {c₁ : Conversation}, KeyedMembers c₁.members →
      (w.conversations.insert i c₁).get id = some c → KeyedMembers c.members := by
    intro i c₁ hkeyed hget
    rw [Map.get_insert] at hget
    split at hget
    · cases hget
      exact hkeyed
    · exact hw _ _ hget
  cases h with
  | same => exact hw _ _ hget
  | declined => exact hw _ _ hget
  | befriended _ _ hnew =>
    exact hwrite (fun _ _ => (Conversation.direct_governed hnew).keyed) hget
  | reopened => exact hw _ _ hget
  | opened _ _ _ hnew => exact hwrite (fun _ _ => (Conversation.direct_governed hnew).keyed) hget
  | founded _ hnew => exact hwrite (fun _ _ => (Conversation.group_governed hnew).keyed) hget
  | updated hold =>
    refine hwrite ?_ hget
    rw [Conversation.updateGroup_members]
    exact hw _ _ hold
  | invited hold =>
    refine hwrite (fun u member hmember => ?_) hget
    rw [Conversation.get_addMembers] at hmember
    split at hmember
    · cases hmember
      rfl
    · exact hw _ _ hold _ _ hmember
  | left hold => exact hwrite ((hw _ _ hold).remove _) hget
  | disbanded => exact hw _ _ (Map.get_of_remove hget)
  | amended hold _ _ htarget =>
    have hid := hw _ _ hold _ _ htarget
    refine hwrite ((hw _ _ hold).insert ?_) hget
    exact hid
  | expelled hold _ hremove =>
    obtain ⟨rfl, -⟩ := Conversation.removeMember_ok hremove
    exact hwrite ((hw _ _ hold).remove _) hget
  | transferred hold _ htransfer =>
    unfold Conversation.transferOwnership at htransfer
    split at htransfer
    · cases htransfer
    split at htransfer <;> cases htransfer
    refine hwrite (((hw _ _ hold).modify _ ?_).modify _ ?_) hget
    · exact fun _ => rfl
    · exact fun _ => rfl
  | refused => exact hw _ _ hget
  | admitted _ _ hold =>
    refine hwrite ((hw _ _ hold).insert ?_) hget
    rfl
  | detached =>
    rw [Map.get_mapValues, Option.map_eq_some_iff] at hget
    obtain ⟨c₀, hc₀, rfl⟩ := hget
    exact (hw _ _ hc₀).detach _ _

theorem keyed_inductive (env : Env) : (service env).Inductive Keyed where
  init w hw id c hget := by
    have hw : w = World.init := hw
    subst hw
    cases (Map.get_empty _).symm.trans hget
  step w op w' h hr id c hget := by
    obtain ⟨n, m, hshape, -, htouch⟩ := Op.reshaped hr
    obtain ⟨c₁, hc₁, htime⟩ := htouch.before hget
    rw [← timeless_members htime]
    exact hshape.keyed h hc₁

end

end IamRust
