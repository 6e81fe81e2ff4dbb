import IamRust.L4Properties.Timelines
import IamRust.L4Properties.Tokens

/-!
# Authors and suspension

On whose behalf a transaction runs (`Op.actor`), and what follows for the
others: no message of theirs is stored (`Op.silent`) and nothing is scheduled for
them (`Op.scheduled`, `Op.noneScheduled`). Only the administrator suspends an account
(`Op.unsuspended`).
-/
namespace IamRust

open Core

/-- The user the operation runs for: whoever the session of the request belongs to, or the author
of a scheduled message. The others are requests without a session, the administrator's and those
of the service itself. -/
def Op.actor : Op → Option UserId
  | .register _ _ => none
  | .loginWithSecondFactor _ _ _ => none
  | .beginSecondFactorSetup actor _ => some actor
  | .enableSecondFactor actor _ _ => some actor
  | .disableSecondFactor actor _ _ _ => some actor
  | .regenerateRecoveryCodes actor _ _ _ => some actor
  | .pollQrLogin _ _ _ _ _ => none
  | .refresh _ _ => none
  | .logout _ => none
  | .revokeDevice actor _ _ => some actor
  | .changePassword actor _ _ => some actor
  | .requestPasswordReset _ _ => none
  | .resetPassword _ _ _ => none
  | .setConnectionPresence _ _ _ => none
  | .updateProfile userId _ _ _ => some userId
  | .updateProfilePrivacy actor _ _ => some actor
  | .deleteAccount actor _ _ _ => some actor
  | .adminSetUserSuspended _ _ _ => none
  | .adminRevokeUserSessions _ _ => none
  | .authorizeAttachment actor _ _ _ _ _ => some actor
  | .completeAttachment actor _ _ => some actor
  | .quarantineAttachment actor _ _ => some actor
  | .createSticker actor _ _ => some actor
  | .deleteSticker actor _ => some actor
  | .cleanupExpiredAttachments _ => none
  | .sendFriendRequest senderId _ _ _ => some senderId
  | .decideFriendRequest actor _ _ _ => some actor
  | .updateFriendSettings actor _ _ _ => some actor
  | .deleteFriend actor _ _ => some actor
  | .blockUser actor _ _ => some actor
  | .unblockUser actor _ _ => some actor
  | .reportUser actor _ _ _ => some actor
  | .createDirect actor _ _ => some actor
  | .createGroup owner _ _ _ => some owner
  | .updateGroup actor _ _ _ => some actor
  | .addGroupMembers actor _ _ _ => some actor
  | .leaveGroup actor _ _ => some actor
  | .disbandGroup actor _ _ => some actor
  | .updateGroupMember actor _ _ _ _ => some actor
  | .removeGroupMember actor _ _ _ => some actor
  | .transferGroupOwnership actor _ _ _ => some actor
  | .setGroupMute actor _ _ _ => some actor
  | .createGroupAnnouncement actor _ _ _ => some actor
  | .readGroupAnnouncement actor _ _ => some actor
  | .requestToJoinGroup actor _ _ _ => some actor
  | .decideGroupJoinRequest actor _ _ _ => some actor
  | .createGroupPoll actor _ _ _ => some actor
  | .voteGroupPoll actor _ _ _ => some actor
  | .updateConversationSettings actor _ _ _ => some actor
  | .markAllRead actor _ => some actor
  | .markRead actor _ _ _ => some actor
  | .scheduleMessage actor _ _ => some actor
  | .cancelScheduledMessage actor _ => some actor
  | .removeScheduledMessage _ => none
  | .sendMessageRequest actor _ _ _ => some actor
  | .acknowledgeDelivery actor _ _ => some actor
  | .recallMessage actor _ _ => some actor
  | .reactToMessage actor _ _ _ _ => some actor
  | .setMessageFavorite actor _ _ => some actor
  | .forwardMessages actor _ _ _ _ => some actor

/-! ## Messages -/

/-- No message of the user's is new in `w'`. -/
def Silent (u : UserId) (w w' : World) : Prop :=
  ∀ c i m, w'.messageAt c i = some m → m.senderId = u →
    ∃ m₀, w.messageAt c i = some m₀ ∧ m₀.id = m.id ∧ m₀.senderId = u

instance (u : UserId) : IsPreorder World (Silent u) where
  refl _ _ _ m hm hu := ⟨m, hm, rfl, hu⟩
  trans _ _ _ h₁ h₂ c i m hm hu := by
    obtain ⟨m₁, hm₁, hid₁, hu₁⟩ := h₂ c i m hm hu
    obtain ⟨m₀, hm₀, hid₀, hu₀⟩ := h₁ c i m₁ hm₁ hu₁
    exact ⟨m₀, hm₀, hid₀.trans hid₁, hu₀⟩

section
variable {env : Env} {u : UserId} {w w' : World}

theorem silent_same (h : Same .messages w w') : Silent u w w' := by
  intro c i m hm hu
  rw [Store.messageAt_eq h] at hm
  exact ⟨m, hm, rfl, hu⟩

theorem silent_amended (h : Amended w w') : Silent u w w' := by
  intro c i m hm hu
  obtain ⟨m₀, hm₀, ha⟩ := h.before hm
  exact ⟨m₀, hm₀, ha.id_eq.symm, ha.senderId_eq ▸ hu⟩

theorem silent_posted {m : Message} (h : Posted env w m w') (hne : m.senderId ≠ u) :
    Silent u w w' := by
  intro c i m' hm' hu
  rcases h.messageAt.mp hm' with hm | ⟨-, -, rfl⟩
  · exact ⟨m', hm, rfl, hu⟩
  · exact absurd hu hne

instance silent_ignores (f : Field) [hf : Has f (accountFields ++ sessionFields ++ socialFields ++
    groupFields ++ contentFields ++ [.messageDedup])] : Ignores (Silent u) f where
  set w v := silent_same (same_set (by rintro rfl; exact absurd hf.mem (by decide)) w v)

instance silent_logged : Logged env (Silent u) :=
  logged_of fun ho _ => silent_same (ho .messages (by decide))

instance silent_recalling : Recalling (Silent u) where
  recalled w c messageId now := silent_amended (amended_recall w c messageId now)

end

/-! A transaction for another user. -/

section
variable {env : Env} {u actor target : UserId} [hne : Fact (actor ≠ u)] {c : ConversationId}
  {id : Uuid} {now : DateTime}

instance silent_notice {text : String} :
    Tx.Keeps (Silent u) (appendSystemMessage env c actor text now) where
  runs {w m w'} h := by
    refine silent_posted (appendSystemMessage_noticed h).toPosted ?_
    rw [(appendSystemMessage_sender h).1]
    exact hne.out

instance silent_send {request : SendMessageRequest} :
    Tx.Keeps (Silent u) (sendMessageRequest env actor c request now) where
  runs {w r w'} h := by
    obtain ⟨m, ack⟩ := r
    rcases sendMessageRequest_cases h with ⟨-, -, -, -, rfl⟩ | ⟨-, hrec, -, hsender, -⟩
    · exact refl w'
    · refine silent_posted hrec.toPosted ?_
      rw [hsender]
      exact hne.out

instance silent_forward {messageIds : List MessageId} {mode : ForwardMode} :
    Tx.Keeps (Silent u) (forwardMessages env actor messageIds c mode now) :=
  forwardMessages_keeps fun _ hrec hsender _ => silent_posted hrec.toPosted (hsender ▸ hne.out)

set_option synthInstance.maxSize 1000000000000

instance silent_updateGroup {request : UpdateGroupRequest} :
    Tx.Keeps (Silent u) (updateGroup env actor c request now) := by
  unfold updateGroup; infer_instance

instance silent_addGroupMembers {request : AddGroupMembersRequest} :
    Tx.Keeps (Silent u) (addGroupMembers env actor c request now) := by
  unfold addGroupMembers; infer_instance

instance silent_leaveGroup : Tx.Keeps (Silent u) (leaveGroup env actor c now) := by
  unfold leaveGroup; infer_instance

instance silent_updateGroupMember {request : UpdateGroupMemberRequest} :
    Tx.Keeps (Silent u) (updateGroupMember env actor c target request now) := by
  unfold updateGroupMember; infer_instance

instance silent_removeGroupMember :
    Tx.Keeps (Silent u) (removeGroupMember env actor c target now) := by
  unfold removeGroupMember; infer_instance

instance silent_transferGroupOwnership {request : TransferGroupOwnershipRequest} :
    Tx.Keeps (Silent u) (transferGroupOwnership env actor c request now) := by
  unfold transferGroupOwnership; infer_instance

instance silent_setGroupMute {request : GroupMuteRequest} :
    Tx.Keeps (Silent u) (setGroupMute env actor c request now) := by
  unfold setGroupMute; infer_instance

instance silent_createGroupAnnouncement {request : CreateGroupAnnouncementRequest} :
    Tx.Keeps (Silent u) (createGroupAnnouncement env actor c request now) := by
  unfold createGroupAnnouncement; infer_instance

instance silent_decideGroupJoinRequest {request : DecideGroupJoinRequest} :
    Tx.Keeps (Silent u) (decideGroupJoinRequest env actor id request now) := by
  unfold decideGroupJoinRequest; infer_instance

instance silent_createGroupPoll {request : CreateGroupPollRequest} :
    Tx.Keeps (Silent u) (createGroupPoll env actor c request now) := by
  unfold createGroupPoll; infer_instance

/-- **Authors.** A transaction stores no message of anyone but the user it runs for. -/
theorem Op.silent {op : Op} {w w' : World} (h : (op.run env).Runs w () w')
    (hop : op.actor ≠ some u) : Silent u w w' := by
  cases op <;> dsimp only [Op.run] at h <;>
    first
      | exact Tx.Keeps.runs (R := Silent u) h
      | exact have : Fact (_ ≠ u) := ⟨fun he => hop (congrArg some he)⟩
        Tx.Keeps.runs (R := Silent u) h

end

/-! ## Scheduled messages -/

/-- Nothing of the user's is scheduled. -/
def NoneScheduled (u : UserId) (w : World) : Prop := ∀ m ∈ w.scheduledMessages, m.actor ≠ u

def AllScheduled (P : ScheduledMessage → Prop) (w : World) : Prop :=
  ∀ m ∈ w.scheduledMessages, P m

/-- What a request schedules, under the id drawn for it. -/
def ScheduleMessageRequest.scheduled (request : ScheduleMessageRequest) (id : Uuid)
    (actor : UserId) : ScheduledMessage where
  id := id
  actor := actor
  conversationId := request.conversationId
  clientMessageId := request.clientMessageId
  content := request.content
  replyTo := request.replyTo
  mentions := normalizeMentions request.mentions
  mentionAll := request.mentionAll
  scheduledFor := request.scheduledFor
  expiresInSeconds := request.expiresInSeconds

section
variable {env : Env} {u actor : UserId} {now : DateTime} {P : ScheduledMessage → Prop}

instance allScheduled_ignores (f : Field) [hf : Has f (accountFields ++ sessionFields ++
    socialFields ++ groupFields ++ [.messageReactions, .messageReceipts, .favoriteMessages,
      .messageExpirations, .attachments, .stickers, .readPositions, .messages, .messageDedup])] :
    Ignores (Tx.Preserving (AllScheduled P)) f where
  set w v h := by
    have hne : Field.scheduledMessages ≠ f := by rintro rfl; exact absurd hf.mem (by decide)
    have hsame : (w.set f v).scheduledMessages = w.scheduledMessages := same_set hne w v
    unfold AllScheduled
    rw [hsame]
    exact h

instance allScheduled_logged : Logged env (Tx.Preserving (AllScheduled P)) :=
  logged_of fun {w w'} ho _ h => by
    have hsame : w'.scheduledMessages = w.scheduledMessages := ho .scheduledMessages (by decide)
    unfold AllScheduled
    rw [hsame]
    exact h

instance allScheduled_filter {p : ScheduledMessage → Bool} :
    Tx.Keeps (Tx.Preserving (AllScheduled P))
      (update .scheduledMessages fun w => w.scheduledMessages.filter p) :=
  Tx.keeps_modify fun _ h m hm => h m (List.mem_of_mem_filter hm)

set_option synthInstance.maxSize 1000000000000

instance allScheduled_deleteAccount {currentPassword confirmation : String} :
    Tx.Keeps (Tx.Preserving (AllScheduled P))
      (deleteAccount env actor currentPassword confirmation now) := by
  unfold deleteAccount deleteAccountInStore purgeAccountRelationships; infer_instance

instance allScheduled_cancel {scheduleId : Uuid} :
    Tx.Keeps (Tx.Preserving (AllScheduled P)) (cancelScheduledMessage actor scheduleId) := by
  unfold cancelScheduledMessage
  refine Tx.keeps_get_then fun s hs => Tx.keeps_then inferInstance fun _ =>
    Tx.keeps_modify fun _ _ m hm => hs m (List.mem_of_mem_filter hm)

instance allScheduled_remove {scheduleId : Uuid} :
    Tx.Keeps (Tx.Preserving (AllScheduled P)) (removeScheduledMessage scheduleId) := by
  unfold removeScheduledMessage; infer_instance

theorem scheduleMessage_runs {request : ScheduleMessageRequest} {r : ScheduledMessageResponse}
    {w w' : World} (h : (scheduleMessage env actor request now).Runs w r w') :
    request.content.validate = .ok () ∧ w' = (w.set .nextUuid (w.nextUuid + 1)).set
      .scheduledMessages (w.scheduledMessages ++
        [request.scheduled (env.uuid w.nextUuid) actor]) := by
  simp only [scheduleMessage, check, Tx.runs_ofExcept_bind, Tx.runs_failIf_bind, Tx.runs_get_bind,
    Tx.runs_okOr_bind, liftDomain_ok] at h
  obtain ⟨_, hvalid, -, _, -, c, -, -, -, h⟩ := h
  simp only [newUuid_runs, Tx.runs_bind, Tx.runs_pure] at h
  obtain ⟨id, w₁, ⟨rfl, rfl⟩, _, w₂, hset, -, rfl⟩ := h
  exact ⟨hvalid, Tx.runs_modify.mp hset⟩

/-- **Schedules.** A transaction schedules nothing but the message of its request. -/
theorem Op.scheduled {op : Op} {w w' : World} (h : (op.run env).Runs w () w') :
    w'.scheduledMessages ⊆ w.scheduledMessages ∨ ∃ actor request now,
      op = .scheduleMessage actor request now ∧ request.content.validate = .ok () ∧
      w' = (w.set .nextUuid (w.nextUuid + 1)).set .scheduledMessages (w.scheduledMessages ++
        [request.scheduled (env.uuid w.nextUuid) actor]) := by
  cases op <;> dsimp only [Op.run] at h
  case scheduleMessage actor request now =>
    obtain ⟨r, hr⟩ := Tx.runs_void.mp h
    exact .inr ⟨actor, request, now, rfl, scheduleMessage_runs hr⟩
  all_goals
    exact .inl fun m hm => Tx.Keeps.runs
      (R := Tx.Preserving (AllScheduled (· ∈ w.scheduledMessages))) h (fun _ hm => hm) m hm

/-- A transaction schedules a message for no one but the user it runs for. -/
theorem Op.noneScheduled {op : Op} {w w' : World} (h : (op.run env).Runs w () w')
    (hop : op.actor ≠ some u) (hw : NoneScheduled u w) : NoneScheduled u w' := by
  intro m hm
  rcases Op.scheduled h with hsub | ⟨actor, request, now, rfl, -, rfl⟩
  · exact hw m (hsub hm)
  · rcases List.mem_append.mp hm with hm | hm
    · exact hw m hm
    · cases List.mem_singleton.mp hm
      exact fun he => hop (congrArg some he)

end

/-! ## Suspended accounts -/

def Suspended (u : UserId) (w : World) : Prop :=
  ∃ a, w.accounts.get u = some a ∧ a.suspended = true

/-- The user has no account, or one that is not suspended. -/
def Unsuspended (u : UserId) (w : World) : Prop :=
  ∀ a, w.accounts.get u = some a → a.suspended = false

theorem not_suspended {u : UserId} {w : World} : ¬ Suspended u w ↔ Unsuspended u w := by
  unfold Suspended Unsuspended
  constructor
  · intro h a ha
    by_contra hs
    exact h ⟨a, ha, by simpa using hs⟩
  · rintro h ⟨a, ha, hs⟩
    simp [h a ha] at hs

section
variable {env : Env} {u actor : UserId} {now : DateTime}

instance unsuspended_onAccounts : OnAccounts (Unsuspended u) where
  same hsame h := by
    unfold Unsuspended
    rw [hsame]
    exact h

/-- An account is written that is not the user's, or not suspended. -/
theorem unsuspended_write {v : UserId} {a : Account} (ha : v = u → a.suspended = false) :
    Tx.Keeps (Tx.Preserving (Unsuspended u))
      (update .accounts fun w => w.accounts.insert v a) := by
  refine Tx.keeps_modify fun w hw b hb => ?_
  have hb : (w.accounts.insert v a).get u = some b := hb
  by_cases hvu : u = v
  · subst hvu
    rw [Map.get_insert_self] at hb
    cases hb
    exact ha rfl
  · rw [Map.get_insert_ne hvu] at hb
    exact hw b hb

instance unsuspended_standing : Standing (Unsuspended u) where
  write hs hv _ _ hb := unsuspended_write fun hvu => hb.trans (hs _ (hvu ▸ hv))

set_option synthInstance.maxSize 1000000000000

instance unsuspended_register {input : RegisterInput} :
    Tx.Keeps (Tx.Preserving (Unsuspended u)) (register env input now) := by
  have := fun v passwordHash profile => unsuspended_write (u := u) (v := v)
    (a := ⟨passwordHash, profile, none, false, none, none⟩) fun _ => rfl
  unfold register; infer_instance

instance unsuspended_login {input : LoginInput} {code : Option String} :
    Tx.Keeps (Tx.Preserving (Unsuspended u)) (loginWithSecondFactor env input code now) := by
  unfold loginWithSecondFactor
  refine Tx.keeps_then inferInstance fun _ => Tx.keeps_then inferInstance fun _ =>
    Tx.keeps_get_then fun s hs => Tx.keeps_okOr_then fun userId _ =>
    Tx.keeps_okOr_then fun account hacc => Tx.keeps_then inferInstance fun _ =>
    Tx.keeps_ofExcept_then fun checked hchecked => ?_
  obtain ⟨hget, -⟩ := Option.filter_eq_some_iff.mp hacc
  obtain ⟨state, rfl⟩ := verifySecondFactor_ok hchecked
  have := fun p => unsuspended_standing.write hs hget
    { account with secondFactor := state, profile := p } rfl rfl
  infer_instance

instance unsuspended_changePassword {currentPassword newPassword : String} :
    Tx.Keeps (Tx.Preserving (Unsuspended u))
      (changePassword env actor currentPassword newPassword) := by
  unfold changePassword
  refine Tx.keeps_then inferInstance fun _ => Tx.keeps_then inferInstance fun newHash =>
    Tx.keeps_get_then fun s hs => Tx.keeps_okOr_then fun account hget => ?_
  have := unsuspended_standing.write hs hget { account with passwordHash := newHash } rfl rfl
  infer_instance

instance unsuspended_resetPassword {resetToken newPassword : String} :
    Tx.Keeps (Tx.Preserving (Unsuspended u)) (resetPassword env resetToken newPassword now) := by
  unfold resetPassword
  refine Tx.keeps_then inferInstance fun _ => Tx.keeps_then inferInstance fun newHash =>
    Tx.keeps_get_then fun s hs => Tx.keeps_then inferInstance fun reset =>
    Tx.keeps_then inferInstance fun _ => Tx.keeps_then inferInstance fun _ =>
    Tx.keeps_okOr_then fun account hget => ?_
  have := unsuspended_standing.write hs hget { account with passwordHash := newHash } rfl rfl
  infer_instance

instance unsuspended_deleteAccount {currentPassword confirmation : String} :
    Tx.Keeps (Tx.Preserving (Unsuspended u))
      (deleteAccount env actor currentPassword confirmation now) := by
  have : Tx.Keeps (Tx.Preserving (Unsuspended u)) (anonymizeAccount actor now) := by
    unfold anonymizeAccount
    refine Tx.keeps_get_then fun s hs => Tx.keeps_okOr_then fun account hget => ?_
    have := fun p => unsuspended_write (u := u) (v := actor)
      (a := { account with deletedAt := some now, profile := p }) fun hactor =>
        hs account (hactor ▸ hget)
    infer_instance
  unfold deleteAccount deleteAccountInStore; infer_instance

theorem unsuspended_adminSetUserSuspended {suspended : Bool} (h : actor = u → suspended = false) :
    Tx.Keeps (Tx.Preserving (Unsuspended u)) (adminSetUserSuspended env actor suspended now) := by
  unfold adminSetUserSuspended
  refine Tx.keeps_get_then fun s hs => Tx.keeps_okOr_then fun account _ => ?_
  have := unsuspended_write (v := actor) (a := { account with suspended := suspended }) h
  infer_instance

/-- Only the administrator suspends an account. -/
theorem Op.unsuspended {op : Op} {w w' : World} (h : (op.run env).Runs w () w')
    (hop : ∀ now, op ≠ .adminSetUserSuspended u true now) (hw : Unsuspended u w) :
    Unsuspended u w' := by
  cases op <;> dsimp only [Op.run] at h
  case adminSetUserSuspended target suspended now =>
    obtain ⟨_, hr⟩ := Tx.runs_void.mp h
    refine (unsuspended_adminSetUserSuspended fun htarget => ?_).runs hr hw
    by_contra hs
    exact hop now (by simp [htarget, hs])
  all_goals exact Tx.Keeps.runs (R := Tx.Preserving (Unsuspended u)) h hw

end

end IamRust
