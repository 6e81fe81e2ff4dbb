import IamRust.L4Properties.Hidden
import IamRust.L4Properties.Replay

/-!
# The peer of a direct conversation

The stored kind of a direct conversation names the second of the two users it
was opened for. `conversation_for_user` names the other member instead, if there
is one: when the first user has deleted the account, the second one is named to
themselves.

* `Op.carries`: the conversations that the events of a transaction carry.
* `peer_named_iff`: what is handed to a user names the other one of the two,
  exactly if the user is the first one, the first one is still a member, or the
  conversation is not on the user's list.
* `peer_named_self`: the account of the user who asked is deleted.
-/
namespace IamRust

open Core

/-! ## What the events carry -/

/-- The conversation in a payload. -/
abbrev EventPayload.conversation? : EventPayload → Option Conversation
  | .conversation c | .conversationAdded c _ | .conversationMember c _ => some c
  | _ => none

/-- What the payload carries is a group. -/
class CarriesGroup (payload : EventPayload) : Prop where
  isGroup : ∀ c, payload.conversation? = some c → c.isGroup = true

instance carriesGroup_none {payload : EventPayload} [hp : IsNone payload.conversation?] :
    CarriesGroup payload where
  isGroup c hc := by
    rw [hp.eq_none] at hc
    cases hc

theorem carriesGroup_of {payload : EventPayload} {c : Conversation} (h : c.isGroup = true)
    (hp : payload.conversation? = some c) : CarriesGroup payload where
  isGroup c' hc := by
    rw [hp] at hc
    cases hc
    exact h

/-- The log is extended by events that carry groups. -/
abbrev LogsGroups : World → World → Prop := Logs fun _ payload => CarriesGroup payload

section
variable {env : Env} {w w₁ w' : World} {actor target : UserId} {id : ConversationId}
  {now : DateTime}

instance logsGroups_event {recipients : List UserId} {kind : EventKind} {payload : EventPayload}
    [hp : CarriesGroup payload] :
    Tx.Keeps LogsGroups (appendEvent env recipients kind payload now) :=
  logs_event hp

/-- A message carries no conversation. -/
theorem logsGroups_version {m : Message}
    (h : ∃ e, w'.events = w.events ++ [e] ∧ e.event.version = some m) :
    LogsGroups w w' := by
  obtain ⟨e, he, hm⟩ := h
  refine ⟨[e], he, fun e' he' => ?_⟩
  cases List.mem_singleton.mp he'
  have hm := SyncEvent.payload_version hm
  generalize e.event.payload = payload at hm
  cases payload <;> cases hm <;> infer_instance

instance logsGroups_posting : Posting env LogsGroups where
  notice _ _ _ _ := ⟨logs_notice fun _ _ => inferInstance⟩

instance logsGroups_forward {messageIds : List MessageId} {mode : ForwardMode} :
    Tx.Keeps LogsGroups (forwardMessages env actor messageIds id mode now) :=
  forwardMessages_keeps fun h _ _ _ => by
    simp [appendForwardedMessage, sentMessage_runs, pushMessage, recordDelivery,
      appendEvent_runs] at h
    obtain ⟨-, rfl, rfl⟩ := h
    exact logsGroups_version ⟨_, rfl, rfl⟩

instance logsGroups_send {request : SendMessageRequest} :
    Tx.Keeps LogsGroups (sendMessageRequest env actor id request now) where
  runs {w r w'} h := by
    simp only [sendMessageRequest, sendMessageInStore, Tx.runs_failIf_bind,
      Tx.runs_get_bind] at h
    obtain ⟨-, h⟩ := h
    split at h
    · obtain ⟨e, -, h⟩ := Tx.runs_okOr_bind.mp h
      obtain ⟨existing, -, h⟩ := Tx.runs_okOr_bind.mp h
      obtain ⟨-, rfl⟩ := Tx.runs_pure.mp h
      exact refl w'
    · obtain ⟨e, he, hm⟩ := storeNewMessage_event h
      exact logsGroups_version ⟨e, he, SyncEvent.version_of_created hm⟩

set_option synthInstance.maxSize 1000000000000

instance carries_createGroup {memberIds : List UserId} {name : String} :
    Tx.Keeps LogsGroups (createGroup env actor memberIds name now) where
  runs {w r w'} h := by
    unfold createGroup at h
    simp only [Tx.runs_get_bind, Tx.runs_failIf_bind, Tx.runs_bind (t := newUuid env), newUuid_runs,
      Tx.runs_ofExcept_bind, liftDomain_ok] at h
    obtain ⟨-, _, _, ⟨rfl, rfl⟩, _, _, ⟨rfl, rfl⟩, c, hnew, h⟩ := h
    have : CarriesGroup (.conversation c) := carriesGroup_of (Conversation.group_ok hnew).2.1 rfl
    have hrest := Tx.Keeps.runs (R := LogsGroups) h
    exact IsTrans.trans _ _ _ (logs_same rfl) hrest

instance carries_updateGroup {request : UpdateGroupRequest} :
    Tx.Keeps LogsGroups (updateGroup env actor id request now) where
  runs {w r w'} h := by
    unfold updateGroup at h
    simp only [Tx.runs_bind (t := Tx.whenSome _ _), Tx.runs_whenSome, check_runs, Tx.runs_get_bind,
      Tx.runs_ofExcept, Tx.runs_okOr_bind, Tx.runs_ofExcept_bind, ensureGroup_ok] at h
    obtain ⟨_, _, hname, _, _, hurl, _, _, havatar, c, -, _, hgroup, _, -, h⟩ := h
    have hgroup : (c.updateGroup request now).isGroup = true := by
      unfold Conversation.isGroup
      rw [Conversation.updateGroup_kind]
      exact hgroup
    have : CarriesGroup (.conversation (c.updateGroup request now)) := carriesGroup_of hgroup rfl
    have hrest := Tx.Keeps.runs (R := LogsGroups) h
    rcases hname with ⟨_, -, -, rfl⟩ | ⟨-, rfl⟩ <;> rcases hurl with ⟨_, -, -, rfl⟩ | ⟨-, rfl⟩ <;>
      rcases havatar with ⟨a, -, -, rfl⟩ | ⟨-, rfl⟩ <;> exact hrest

instance carries_addGroupMembers {request : AddGroupMembersRequest} :
    Tx.Keeps LogsGroups (addGroupMembers env actor id request now) where
  runs {w r w'} h := by
    unfold addGroupMembers at h
    simp only [Tx.runs_failIf_bind, Tx.runs_get_bind, Tx.runs_okOr_bind, Tx.runs_ofExcept_bind,
      ensureGroup_ok] at h
    obtain ⟨-, c, hget, _, hgroup, _, -, h⟩ := h
    obtain ⟨_, w₁, hloop, h⟩ := Tx.runs_bind.mp h
    obtain rfl : w = w₁ := Tx.Keeps.runs (R := Eq) hloop
    simp only [Tx.runs_failIf_bind, update_bind_runs] at h
    obtain ⟨-, h⟩ := h
    obtain ⟨_, w₂, hsettings, h⟩ := Tx.runs_bind.mp h
    obtain ⟨_, w₃, hnotice, h⟩ := Tx.runs_bind.mp h
    simp only [Tx.runs_get_bind, Tx.runs_okOr_bind] at h
    obtain ⟨grown, hgrown, h⟩ := h
    -- the conversation read back is the grown group, up to the time
    have htouch : Touched _ w₃ := IsTrans.trans _ _ _ (Tx.Keeps.runs (R := Touched) hsettings)
      (Tx.Keeps.runs (R := Touched) hnotice)
    obtain ⟨c₁, hc₁, htime⟩ := htouch.conversations.before hgrown
    have hc₁ : some (c.addMembers (c.newMembers request.memberIds) now) = some c₁ :=
      (Map.get_insert_self ..).symm.trans hc₁
    cases hc₁
    have : CarriesGroup (.conversationAdded grown (c.newMembers request.memberIds)) :=
      carriesGroup_of ((timeless_isGroup htime).symm.trans hgroup) rfl
    have hrest := Tx.Keeps.runs (R := LogsGroups) h
    have hbefore := IsTrans.trans _ _ _ (Tx.Keeps.runs (R := LogsGroups) hsettings)
      (Tx.Keeps.runs (R := LogsGroups) hnotice)
    exact IsTrans.trans _ _ _ (logs_same rfl) (IsTrans.trans _ _ _ hbefore hrest)

instance carries_updateGroupMember {request : UpdateGroupMemberRequest} :
    Tx.Keeps LogsGroups (updateGroupMember env actor id target request now) where
  runs {w r w'} h := by
    unfold updateGroupMember at h
    simp only [Tx.runs_get_bind, Tx.runs_okOr_bind, Tx.runs_ofExcept_bind, Tx.runs_failIf_bind,
      ensureGroup_ok] at h
    obtain ⟨-, c, -, _, hgroup, _, -, t, -, -, h⟩ := h
    have hgroup : Conversation.isGroup { c with
      members := c.members.insert target (t.apply request), updatedAt := now } = true := hgroup
    have : CarriesGroup (.conversationMember { c with
      members := c.members.insert target (t.apply request), updatedAt := now } target) :=
      carriesGroup_of hgroup rfl
    exact Tx.Keeps.runs (R := LogsGroups) h

instance carries_transferGroupOwnership {request : TransferGroupOwnershipRequest} :
    Tx.Keeps LogsGroups (transferGroupOwnership env actor id request now) where
  runs {w r w'} h := by
    unfold transferGroupOwnership at h
    simp only [Tx.runs_get_bind, Tx.runs_okOr_bind, Tx.runs_ofExcept_bind, ensureGroup_ok,
      liftDomain_ok] at h
    obtain ⟨c, -, _, hgroup, c', htransfer, h⟩ := h
    have : CarriesGroup (.conversation c') :=
      carriesGroup_of ((Conversation.transferOwnership_ok htransfer).1.trans hgroup) rfl
    exact Tx.Keeps.runs (R := LogsGroups) h

/-- **Groups.** The events of a transaction carry groups, but for those of `create_direct`. -/
theorem Op.carries {op : Op} (hop : ∀ actor peer now, op ≠ .createDirect actor peer now)
    (h : (op.run env).Runs w () w') : LogsGroups w w' := by
  suffices hkeeps : Tx.Keeps LogsGroups (op.run env) from hkeeps.runs h
  clear h
  cases op <;> dsimp only [Op.run]
  case createDirect actor peer now => exact absurd rfl (hop actor peer now)
  all_goals first
    | infer_instance
    | dsimp only [IamRust.setConnectionPresence, IamRust.updateProfile,
        IamRust.updateProfilePrivacy, IamRust.deleteAccount, deleteAccountInStore,
        appendProfileEvents, IamRust.sendFriendRequest, IamRust.decideFriendRequest,
        IamRust.updateFriendSettings, IamRust.deleteFriend, IamRust.blockUser,
        IamRust.unblockUser, IamRust.leaveGroup, IamRust.disbandGroup, IamRust.removeGroupMember,
        IamRust.setGroupMute, IamRust.createGroupAnnouncement, IamRust.requestToJoinGroup,
        IamRust.decideGroupJoinRequest, IamRust.createGroupPoll, IamRust.voteGroupPoll,
        IamRust.updateConversationSettings, IamRust.markAllRead, IamRust.markRead,
        IamRust.acknowledgeDelivery, IamRust.recallMessage, IamRust.reactToMessage]
      infer_instance

/-- What the payload carries is the new conversation of the two, as the recipient sees it. -/
structure CarriesNew (env : Env) (w w' : World) (a b : UserId) (now : DateTime)
    (recipients : Finset UserId) (c : Conversation) : Prop where
  draws : w.nextUuid < w'.nextUuid
  shown : ∃ c₀ r, Conversation.direct (env.uuid w.nextUuid) a b now = .ok c₀ ∧
    recipients = {r} ∧ (r = a ∨ r = b) ∧ c = conversationForUser c₀ r

theorem createDirect_carries {c : Conversation}
    (h : (createDirect env actor target now).Runs w c w') :
    Logs (fun recipients payload => ∀ c, payload.conversation? = some c →
      CarriesNew env w w' actor target now recipients c) w w' := by
  unfold createDirect at h
  simp only [Tx.runs_get_bind, Tx.runs_failIf_bind] at h
  obtain ⟨-, h⟩ := h
  split at h
  · simp only [Tx.runs_okOr_bind, Tx.runs_pure] at h
    obtain ⟨-, -, -, rfl⟩ := h
    exact refl w'
  · simp only [Tx.runs_bind (t := newUuid env), newUuid_runs, Tx.runs_ofExcept_bind,
      liftDomain_ok] at h
    obtain ⟨_, _, ⟨rfl, rfl⟩, c, hnew, h⟩ := h
    obtain ⟨_, w₁, hstore, h⟩ := Tx.runs_bind.mp h
    obtain ⟨_, w₂, hloop, h⟩ := Tx.runs_bind.mp h
    obtain ⟨rfl, rfl⟩ := Tx.runs_pure.mp h
    have hdraws : w.nextUuid < w'.nextUuid := Nat.lt_of_lt_of_le
      (Nat.lt_of_succ_le (storeConversation_runs hstore).2)
      (Tx.Keeps.runs (R := Touched) hloop).uuids
    refine IsTrans.trans _ _ _ (logs_same (storeConversation_events hstore).1)
      (@Tx.Keeps.runs _ _ _ _ _ ?_ _ _ _ hloop)
    refine Tx.keeps_forEach_mem fun r hr => logs_event fun c' hc' => ?_
    cases hc'
    exact ⟨hdraws, c, r, hnew, by simp, by simpa using hr, rfl⟩

end

/-! ## Two users and their conversation -/

/-- The other one of the two. -/
def otherOf (a b u : UserId) : UserId := if u = a then b else a

/-- It names `b`, and its members are among the two. -/
structure Conversation.Between (c : Conversation) (a b : UserId) : Prop where
  kind : c.kind = .direct b
  members : ∀ u, c.canRead u = true → u = a ∨ u = b

section
variable {c c' : Conversation} {a b u : UserId} {id : ConversationId} {now : DateTime}

theorem otherOf_ne (hab : a ≠ b) : otherOf a b u ≠ u := by
  unfold otherOf
  split
  · rename_i h
    rw [h]
    exact hab.symm
  · exact Ne.symm ‹_›

theorem Conversation.between_of_direct (h : Conversation.direct id a b now = .ok c) :
    c.Between a b := by
  have hread := (Conversation.direct_ok h).2.2.2.2.2
  unfold Conversation.direct at h
  split at h
  · cases h
  · cases h
    exact ⟨rfl, fun u => (hread u).mp⟩

theorem Conversation.Between.congr (h : c.Between a b) (hkind : c'.kind = c.kind)
    (hmembers : ∀ u, c'.canRead u = true → c.canRead u = true) : c'.Between a b :=
  ⟨hkind.trans h.kind, fun u hu => h.members u (hmembers u hu)⟩

theorem Conversation.Between.detach (h : c.Between a b) (actor : UserId) :
    (c.detach actor now).Between a b := by
  refine h.congr ?_ fun u hu => (Conversation.detach_canRead.mp hu).2
  unfold Conversation.detach
  split <;> rfl

theorem conversationForUser_isGroup : (conversationForUser c u).isGroup = c.isGroup := by
  unfold conversationForUser
  split
  · rename_i h _
    rw [Conversation.isGroup, Conversation.isGroup, h]
    rfl
  · rfl

/-- Who is named to a member. -/
theorem Conversation.Between.forUser (h : c.Between a b) (hab : a ≠ b)
    (hu : c.canRead u = true) : (conversationForUser c u).kind = .direct (otherOf a b u) ↔
      u = a ∨ c.canRead a = true := by
  unfold conversationForUser
  rw [h.kind]
  cases hfind : c.members.keys.find? (· ≠ u) with
  | some peer =>
    -- the other member is the other one of the two
    have hne : peer ≠ u := by simpa using List.find?_some hfind
    have hpeer : c.canRead peer = true :=
      Map.containsKey_iff.mpr (Map.mem_keys.mp (List.mem_of_find?_eq_some hfind))
    refine iff_of_true (congrArg ConversationKind.direct ?_) ?_
    all_goals
      rcases h.members u hu with rfl | rfl <;> rcases h.members peer hpeer with rfl | rfl
    · exact absurd rfl hne
    · exact (if_pos rfl).symm
    · exact (if_neg hne.symm).symm
    · exact absurd rfl hne
    · exact .inl rfl
    · exact .inl rfl
    · exact .inr hpeer
    · exact absurd rfl hne
  | none =>
    have halone : ∀ v, c.canRead v = true → v = u := fun v hv => by
      have := List.find?_eq_none.mp hfind v (Map.mem_keys.mpr (Map.containsKey_iff.mp hv))
      simpa using this
    dsimp only
    rw [h.kind, ConversationKind.direct.injEq]
    unfold otherOf
    split
    · exact iff_of_true rfl (.inl ‹_›)
    · refine iff_of_false hab.symm ?_
      rintro (hua | ha)
      · exact absurd hua ‹_›
      · exact absurd (halone a ha).symm ‹_›

end

/-! ## Runs -/

theorem timeless_kind {c c' : Conversation} (h : c.timeless = c'.timeless) : c.kind = c'.kind := by
  have he : c.timeless.kind = c'.timeless.kind := by rw [h]
  exact he

/-- The log carries direct conversations that were opened. -/
def CarriesDrawn (env : Env) (w : World) : Prop :=
  ∀ e ∈ w.events, ∀ c, e.event.payload.conversation? = some c → c.isGroup = false →
    ∃ k < w.nextUuid, c.id = env.uuid k

/-- `id` is the conversation of the two, in the store and wherever it was told. -/
structure OpenedFor (env : Env) (id : ConversationId) (a b : UserId) (w : World) : Prop where
  drawn : ∃ k < w.nextUuid, id = env.uuid k
  stored : ∀ c, w.conversations.get id = some c → c.Between a b
  told : ∀ e ∈ w.events, ∀ c, e.event.payload.conversation? = some c → c.isGroup = false →
    c.id = id → ∀ u ∈ e.recipients, (u = a ∨ u = b) ∧ c.kind = .direct (otherOf a b u)

/-- The operation opens a direct conversation for the two, `a` first. -/
def Op.Opens (w : World) (a b : UserId) : Op → Prop
  | .createDirect actor peer _ => a = actor ∧ b = peer
  | .decideFriendRequest _ requestId .accept _ => ∃ r, w.friendRequests.get requestId = some r ∧
    a = r.senderId ∧ b = r.recipientId
  | _ => False

section
variable {env : Env} {w w' : World} {op : Op} {a b u : UserId} {id : ConversationId}

/-- An event of the step carries a group, or the new conversation of the two. -/
theorem Op.told (hr : (op.run env).Runs w () w') : ∃ new, w'.events = w.events ++ new ∧
    ∀ e ∈ new, ∀ c, e.event.payload.conversation? = some c → c.isGroup = false →
      ∃ a b now, op = .createDirect a b now ∧ CarriesNew env w w' a b now e.recipients c := by
  by_cases hop : ∃ actor peer now, op = .createDirect actor peer now
  · obtain ⟨actor, peer, now, rfl⟩ := hop
    obtain ⟨_, hr⟩ := Tx.runs_void.mp hr
    obtain ⟨new, he, hnew⟩ := createDirect_carries hr
    exact ⟨new, he, fun e hmem c hc _ => ⟨actor, peer, now, rfl, hnew e hmem c hc⟩⟩
  · obtain ⟨new, he, hnew⟩ := Op.carries (fun actor peer now h => hop ⟨actor, peer, now, h⟩) hr
    refine ⟨new, he, fun e hmem c hc hdirect => ?_⟩
    rw [(hnew e hmem).isGroup c hc] at hdirect
    cases hdirect

theorem CarriesNew.id_eq {now : DateTime} {recipients : Finset UserId} {c : Conversation}
    (h : CarriesNew env w w' a b now recipients c) : c.id = env.uuid w.nextUuid := by
  obtain ⟨c₀, r, hnew, -, -, rfl⟩ := h.shown
  rw [conversationForUser_id]
  exact (Conversation.direct_ok hnew).2.1

theorem carriesDrawn_inductive (env : Env) : (service env).Inductive (CarriesDrawn env) where
  init w hw := by
    have hw : w = World.init := hw
    subst hw
    exact fun _ h => absurd h List.not_mem_nil
  step w op w' h hr := by
    obtain ⟨new, he, hnew⟩ := Op.told hr
    intro e hmem c hc hdirect
    rw [he] at hmem
    rcases List.mem_append.mp hmem with hmem | hmem
    · obtain ⟨k, hk, hid⟩ := h e hmem c hc hdirect
      exact ⟨k, Nat.lt_of_lt_of_le hk ((op.evolves env).runs hr).uuids, hid⟩
    · obtain ⟨a, b, now, -, hcarries⟩ := hnew e hmem c hc hdirect
      exact ⟨_, hcarries.draws, hcarries.id_eq⟩

/-- The new conversation, up to its time, and what opened it. -/
theorem Op.opened (hplaced : Placed env w) (hr : (op.run env).Runs w () w')
    (hnone : w.conversations.get id = none) {c : Conversation}
    (hget : w'.conversations.get id = some c) (hdirect : c.isGroup = false) :
    id = env.uuid w.nextUuid ∧ w.nextUuid < w'.nextUuid ∧ ∃ a b now c₁,
      Conversation.direct id a b now = .ok c₁ ∧ c.kind = c₁.kind ∧ c.members = c₁.members ∧
      ((∃ actor requestId r, op = .decideFriendRequest actor requestId .accept now ∧
          w.friendRequests.get requestId = some r ∧ a = r.senderId ∧ b = r.recipientId) ∨
        op = .createDirect a b now) := by
  obtain ⟨n, m, hshape, hn, htouch⟩ := Op.reshaped hr
  obtain ⟨c₁, hc₁, htime⟩ := htouch.before hget
  rcases hshape.before hc₁ with ⟨c₀, hc₀, -⟩ | ⟨hid, hlt⟩
  · cases hnone.symm.trans hc₀
  rcases hshape.direct hplaced.joins hc₁ ((timeless_isGroup htime).trans hdirect) with
    ⟨c₀, hc₀, -⟩ | ⟨-, a, b, now, hnew, horigin⟩
  · cases hnone.symm.trans hc₀
  refine ⟨hid, Nat.lt_of_lt_of_le hlt hn, a, b, now, c₁, hnew, timeless_kind htime.symm,
    timeless_members htime.symm, ?_⟩
  rcases horigin with h | ⟨h, -⟩
  · exact .inl h
  · exact .inr h

/-- **Opening.** -/
theorem openedFor_of_new (hu : Function.Injective env.uuid) (hplaced : Placed env w)
    (hdrawn : CarriesDrawn env w) (hr : (op.run env).Runs w () w')
    (hnone : w.conversations.get id = none) {c : Conversation}
    (hget : w'.conversations.get id = some c) (hdirect : c.isGroup = false) :
    ∃ a b, a ≠ b ∧ op.Opens w a b ∧ (∀ u, c.canRead u = true ↔ u = a ∨ u = b) ∧
      OpenedFor env id a b w' := by
  obtain ⟨hid, hlt, a, b, now, c₁, hnew, hkind, hmembers, horigin⟩ :=
    Op.opened hplaced hr hnone hget hdirect
  have hbetween := Conversation.between_of_direct hnew
  obtain ⟨hab, -, -, -, -, hread⟩ := Conversation.direct_ok hnew
  have hsame : ∀ u, c.canRead u = c₁.canRead u := fun u => by
    unfold Conversation.canRead
    rw [hmembers]
  refine ⟨a, b, hab, ?_, fun u => by rw [hsame, hread], ⟨_, hlt, hid⟩, fun c' hc' => ?_,
    fun e hmem c' hc' hdirect' hid' u hu' => ?_⟩
  · rcases horigin with ⟨actor, requestId, r, rfl, hrequest, rfl, rfl⟩ | rfl
    · exact ⟨r, hrequest, rfl, rfl⟩
    · exact ⟨rfl, rfl⟩
  · cases hget.symm.trans hc'
    exact hbetween.congr hkind fun u hu => by rw [← hsame, hu]
  · -- it was not told before, and it is told as each of the two sees it
    obtain ⟨new, he, htold⟩ := Op.told hr
    rw [he] at hmem
    rcases List.mem_append.mp hmem with hmem | hmem
    · obtain ⟨k, hk, hid₀⟩ := hdrawn e hmem c' hc' hdirect'
      exact absurd (hu (hid.symm.trans (hid'.symm.trans hid₀))) (Nat.ne_of_gt hk)
    · obtain ⟨x, y, now', hop, hcarries⟩ := htold e hmem c' hc' hdirect'
      obtain ⟨c₀, r, hnew', hrecipients, hr', rfl⟩ := hcarries.shown
      rcases horigin with ⟨_, _, _, hop', -⟩ | hop'
      · cases hop'.symm.trans hop
      · cases hop'.symm.trans hop
        rw [← hid] at hnew'
        cases hnew.symm.trans hnew'
        rw [hrecipients, Finset.mem_singleton] at hu'
        subst hu'
        exact ⟨hr', (hbetween.forUser hab ((hread u).mpr hr')).mpr
          (.inr ((hread a).mpr (.inl rfl)))⟩

/-- **Step.** -/
theorem OpenedFor.step (h : OpenedFor env id a b w) (hu : Function.Injective env.uuid)
    (hplaced : Placed env w) (hr : (op.run env).Runs w () w') : OpenedFor env id a b w' := by
  obtain ⟨k, hk, hid⟩ := h.drawn
  have hold : id ≠ env.uuid w.nextUuid := fun he =>
    absurd (hu (hid.symm.trans he)) (Nat.ne_of_lt hk)
  refine ⟨⟨k, Nat.lt_of_lt_of_le hk ((op.evolves env).runs hr).uuids, hid⟩, fun c hget => ?_,
    fun e hmem c hc hdirect hid' u hu' => ?_⟩
  · obtain ⟨n, m, hshape, -, htouch⟩ := Op.reshaped hr
    obtain ⟨c₁, hc₁, htime⟩ := htouch.before hget
    have hbetween : c₁.Between a b := by
      rcases hshape.before hc₁ with ⟨c₀, hc₀, hkind⟩ | ⟨hnew, -⟩
      · have hdirect : c₁.isGroup = false := by
          rw [hkind, Conversation.isGroup, (h.stored c₀ hc₀).kind]
          rfl
        rcases hshape.direct hplaced.joins hc₁ hdirect with
          ⟨c₂, hc₂, rfl | ⟨actor, now, rfl⟩⟩ | ⟨hnew, -⟩
        · exact h.stored _ hc₂
        · exact (h.stored c₂ hc₂).detach actor
        · exact absurd hnew hold
      · exact absurd hnew hold
    refine hbetween.congr ?_ fun u hu => ?_
    · exact timeless_kind htime.symm
    · unfold Conversation.canRead at hu ⊢
      rw [timeless_members htime]
      exact hu
  · obtain ⟨new, he, hcarries⟩ := Op.told hr
    rw [he] at hmem
    rcases List.mem_append.mp hmem with hmem | hmem
    · exact h.told e hmem c hc hdirect hid' u hu'
    · obtain ⟨x, y, now, -, hcarries⟩ := hcarries e hmem c hc hdirect
      exact absurd (hid'.symm.trans hcarries.id_eq) hold

/-- **Run.** -/
theorem OpenedFor.run (h : OpenedFor env id a b w) (hu : Function.Injective env.uuid)
    (hplaced : Placed env w) {ls : List Op} (hrun : (service env).Run w ls w') :
    Placed env w' ∧ OpenedFor env id a b w' :=
  hrun.preserves (I := fun w => Placed env w ∧ OpenedFor env id a b w)
    (fun _ _ _ h hs => ⟨h.1.step hu hs, h.2.step hu h.1 hs⟩) ⟨hplaced, h⟩

end

/-! ## Main result -/

/-- A conversation that the service hands to the user: on the list, on the list of a bootstrap,
returned by `create_direct`, or in an event. -/
inductive Handed (env : Env) (w : World) (u : UserId) (c : Conversation) : Prop
  | listed (h : c ∈ IamRust.conversations w.toStore u)
  | bootstrapped {lowercase response} (h : bootstrap lowercase w.toStore u = .ok response)
    (hc : c ∈ response.conversations)
  | created {peer now w'} (h : (createDirect env u peer now).Runs w c w')
  | told {e} (h : e ∈ w.events) (hu : u ∈ e.recipients)
    (hc : e.event.payload.conversation? = some c)

section
variable {env : Env} {w : World} {a b u : UserId} {id : ConversationId} {c : Conversation}

/-- What is on the list. -/
theorem OpenedFor.listed (h : OpenedFor env id a b w) (hab : a ≠ b) (hnamed : Named w)
    (hc : c ∈ IamRust.conversations w.toStore u) (hid : c.id = id) :
    (u = a ∨ u = b) ∧ c.isGroup = false ∧
      (c.kind = .direct (otherOf a b u) ↔ u = a ∨ w.readable a id = true) := by
  obtain ⟨i, c₀, hget, hread, hshown⟩ := mem_conversations.mp hc
  have hi : c₀.id = i := hnamed i c₀ hget
  have key : ∀ c₁ : Conversation, c₁.id = c₀.id → c₁.kind = c₀.kind → c₁.members = c₀.members →
      conversationForUser c₁ u = c → (u = a ∨ u = b) ∧ c.isGroup = false ∧
        (c.kind = .direct (otherOf a b u) ↔ u = a ∨ w.readable a id = true) := by
    rintro c₁ hid₁ hkind hmembers rfl
    rw [conversationForUser_id, hid₁, hi] at hid
    subst hid
    have hsame : ∀ v, c₁.canRead v = c₀.canRead v := fun v => by
      unfold Conversation.canRead
      rw [hmembers]
    have hbetween := (h.stored c₀ hget).congr hkind fun v hv => by rw [← hsame, hv]
    have hread₁ : c₁.canRead u = true := (hsame u).trans hread
    refine ⟨hbetween.members u hread₁, ?_, ?_⟩
    · rw [conversationForUser_isGroup, Conversation.isGroup, hbetween.kind]
      rfl
    rw [hbetween.forUser hab hread₁, hsame]
    simp [Store.readable, readableIn, hget]
  cases hs : w.conversationSettings.get (u, c₀.id) with
  | none =>
    rw [hs] at hshown
    exact key c₀ rfl rfl rfl (Option.some.inj hshown)
  | some settings =>
    rw [hs] at hshown
    dsimp only at hshown
    split at hshown
    · cases hshown
    · exact key { c₀ with pinned := settings.pinned, muted := settings.muted } rfl rfl rfl
        (Option.some.inj hshown)

/-- What `create_direct` returns. -/
theorem OpenedFor.created (h : OpenedFor env id a b w) (hab : a ≠ b)
    (hu : Function.Injective env.uuid) (hnamed : Named w) {peer : UserId} {now : DateTime}
    {w' : World} (hr : (createDirect env u peer now).Runs w c w') (hid : c.id = id) :
    (u = a ∨ u = b) ∧ c.kind = .direct (otherOf a b u) := by
  unfold createDirect at hr
  simp only [Tx.runs_get_bind, Tx.runs_failIf_bind] at hr
  obtain ⟨-, hr⟩ := hr
  split at hr
  · simp only [Tx.runs_okOr_bind, Tx.runs_pure] at hr
    obtain ⟨c₀, hfound, rfl, -⟩ := hr
    obtain ⟨i, hget⟩ := Map.mem_values.mp (List.mem_of_find?_eq_some hfound)
    have hpred := List.find?_some hfound
    simp only [Bool.and_eq_true, beq_iff_eq, Bool.not_eq_true'] at hpred
    obtain ⟨⟨⟨hlen, hread⟩, -⟩, -⟩ := hpred
    rw [conversationForUser_id, hnamed i c₀ hget] at hid
    subst hid
    have hbetween := h.stored c₀ hget
    refine ⟨hbetween.members u hread, (hbetween.forUser hab hread).mpr ?_⟩
    -- two members among the two are both of them
    rcases hbetween.members u hread with hua | rfl
    · exact .inl hua
    · refine .inr ?_
      by_contra hnot
      have hall : c₀.members.keys.toFinset ⊆ {u} := fun v hv => by
        rcases hbetween.members v (mem_members.mp hv) with rfl | rfl
        · exact absurd (mem_members.mp hv) hnot
        · exact Finset.mem_singleton_self _
      have hcard := Finset.card_le_card hall
      rw [← Map.len_eq_card, hlen, Finset.card_singleton] at hcard
      omega
  · simp only [Tx.runs_bind (t := newUuid env), newUuid_runs, Tx.runs_ofExcept_bind,
      liftDomain_ok] at hr
    obtain ⟨_, _, ⟨rfl, rfl⟩, c₀, hnew, hr⟩ := hr
    obtain ⟨_, w₁, -, hr⟩ := Tx.runs_bind.mp hr
    obtain ⟨_, w₂, -, hr⟩ := Tx.runs_bind.mp hr
    obtain ⟨rfl, rfl⟩ := Tx.runs_pure.mp hr
    rw [conversationForUser_id, (Conversation.direct_ok hnew).2.1] at hid
    obtain ⟨k, hk, hid'⟩ := h.drawn
    exact absurd (hu (hid.trans hid')) (Nat.ne_of_gt hk)

end

/-- **Direct conversations name the other side**, in whatever is handed to a user at any later
time, exactly if the user is the one it was opened by, that one is still a member, or the
conversation is not on the list of the user. -/
theorem peer_named_iff (env : Env) (hu : Function.Injective env.uuid) (w₀ w₁ : World)
    (hw₀ : (service env).Reachable w₀) (op : Op) (hr : (op.run env).Runs w₀ () w₁)
    (id : ConversationId) (c₀ : Conversation) (hnone : w₀.conversations.get id = none)
    (hget : w₁.conversations.get id = some c₀) (hdirect : c₀.isGroup = false) :
    ∃ a b, a ≠ b ∧ op.Opens w₀ a b ∧ (∀ u, c₀.canRead u = true ↔ u = a ∨ u = b) ∧
      ∀ ls w, (service env).Run w₁ ls w → ∀ u,
        (∀ c, Handed env w u c → c.id = id → c.isGroup = false → u = a ∨ u = b) ∧
        ((∀ c, Handed env w u c → c.id = id → c.isGroup = false →
            c.kind = .direct (otherOf a b u)) ↔
          u = a ∨ w.readable a id = true ∨ ¬ w.Lists u id) := by
  obtain ⟨a, b, hab, hopens, hmembers, hopened⟩ := openedFor_of_new hu
    ((placed_inductive hu).reachable hw₀) ((carriesDrawn_inductive env).reachable hw₀) hr hnone hget
    hdirect
  refine ⟨a, b, hab, hopens, hmembers, fun ls w hrun u => ?_⟩
  have hw₁ := hw₀.step (M := service env) hr
  have hnamed := (named_inductive env).reachable (hw₁.run hrun)
  obtain ⟨-, hopened⟩ := hopened.run hu ((placed_inductive hu).reachable hw₁) hrun
  have hlisted := fun c hc hid => hopened.listed (u := u) (c := c) hab hnamed hc hid
  have hboot : ∀ {lowercase response}, bootstrap lowercase w.toStore u = .ok response →
      response.conversations = IamRust.conversations w.toStore u := fun h => by
    obtain ⟨_, -, rfl⟩ := map_eq_ok_iff.mp h
    rfl
  refine ⟨fun c hc hid hdirect => ?_, fun hall => ?_, fun hok c hc hid hdirect => ?_⟩
  · cases hc with
    | listed h => exact (hlisted c h hid).1
    | bootstrapped h hc => exact (hlisted c (hboot h ▸ hc) hid).1
    | created h => exact (hopened.created hab hu hnamed h hid).1
    | told h hto hc => exact (hopened.told _ h c hc hdirect hid u hto).1
  · by_cases hl : w.Lists u id
    · obtain ⟨c, hc, hid⟩ := hl
      obtain ⟨-, hdirect, hiff⟩ := hlisted c hc hid
      exact (hiff.mp (hall c (.listed hc) hid hdirect)).imp_right .inl
    · exact .inr (.inr hl)
  · have hlist : c ∈ IamRust.conversations w.toStore u → c.kind = .direct (otherOf a b u) :=
      fun hc => (hlisted c hc hid).2.2.mpr <| by
        rcases hok with h | h | h
        · exact .inl h
        · exact .inr h
        · exact absurd ⟨c, hc, hid⟩ h
    cases hc with
    | listed h => exact hlist h
    | bootstrapped h hc => exact hlist (hboot h ▸ hc)
    | created h => exact (hopened.created hab hu hnamed h hid).2
    | told h hto hc => exact (hopened.told _ h c hc hdirect hid u hto).2

/-- Alice, user 1, asked Bob, user 4, who sees her name on their conversation. -/
theorem peer_named_bob : ∃ w c, (service Env.numbered).Reachable w ∧
    Handed Env.numbered w 4 c ∧ c.id = 9 ∧ c.kind = .direct 1 := by
  obtain ⟨w₀, _, w₁, hw, hr, hp⟩ := reaches_runs Env.numbered
    [.register alice 0, .register bob 0, .sendFriendRequest 1 "bob" "" 0]
    ((Op.decideFriendRequest 4 7 .accept 0).run Env.numbered)
    (fun w₀ _ w₁ => (w₀.conversations.get 9).isNone && w₁.readable 1 9 &&
      (w₀.friendRequests.get 7).any (fun r => r.senderId == 1 && r.recipientId == 4) &&
      ((w₁.conversations.get 9).any fun c => !c.isGroup) &&
      (IamRust.conversations w₁.toStore 4).any fun c => c.id == 9 && !c.isGroup)
    (by decide +kernel)
  simp only [Bool.and_eq_true, Option.isNone_iff_eq_none, Option.any_eq_true, beq_iff_eq,
    Bool.not_eq_true', List.any_eq_true] at hp
  obtain ⟨⟨⟨⟨hnone, hread⟩, r, hrequest, hsender, hrecipient⟩, c₀, hget, hdirect⟩, c, hc, hid,
    hgroup⟩ := hp
  have hw₀ := reachable_of_run hw
  obtain ⟨a, b, -, ⟨r', hrequest', rfl, rfl⟩, -, h⟩ := peer_named_iff Env.numbered
    Env.numbered_injective w₀ w₁ hw₀ _ hr 9 c₀ hnone hget hdirect
  cases hrequest.symm.trans hrequest'
  have hkind := ((h [] w₁ (.nil _) 4).2.mpr (.inr (.inl (hsender ▸ hread)))) c (.listed hc) hid
    hgroup
  rw [hsender, hrecipient] at hkind
  exact ⟨w₁, c, hw₀.step (M := service Env.numbered) hr, .listed hc, hid, hkind⟩

/-- Alice deletes her account: Bob's conversation with her names Bob. -/
theorem peer_named_self : ∃ w c, (service Env.numbered).Reachable w ∧
    Handed Env.numbered w 4 c ∧ c.id = 9 ∧ c.kind = .direct 4 := by
  obtain ⟨w, hw, hp⟩ := reaches Env.numbered [.register alice 0, .register bob 0,
      .sendFriendRequest 1 "bob" "" 0, .decideFriendRequest 4 7 .accept 0,
      .deleteAccount 1 "Passw0rd123" "DELETE" 0]
    (fun w => (IamRust.conversations w.toStore 4).any fun c =>
      c.id == 9 && decide (c.kind = .direct 4)) (by decide +kernel)
  simp only [List.any_eq_true, Bool.and_eq_true, beq_iff_eq, decide_eq_true_eq] at hp
  obtain ⟨c, hc, hid, hkind⟩ := hp
  exact ⟨w, c, reachable_of_run hw, .listed hc, hid, hkind⟩

end IamRust
