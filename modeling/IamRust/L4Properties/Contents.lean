import IamRust.L4Properties.Access
import IamRust.L4Properties.Forwarding

/-!
# What a transaction posts

`Op.grown`: the stored messages of a transaction are those there were, as they
are or recalled, and new ones under fresh ids, in conversations that exist. A
new message is a notice, the message of a send, or a copy a forward makes
(`Op.Posts`).
-/
namespace IamRust

open Core

theorem Message.Amends.refl (m : Message) : m.Amends m := .inl rfl

theorem Message.Amends.trans {m m' m'' : Message} (h : m.Amends m') (h' : m'.Amends m'') :
    m.Amends m'' := by
  rcases h' with rfl | ⟨now, rfl⟩
  · exact h
  · rcases h with rfl | ⟨now', rfl⟩
    · exact .inr ⟨now, rfl⟩
    · exact .inr ⟨now, rfl⟩

/-- `P` allows notices, and so what a recall leaves. -/
class AllowsNotices (P : Message → Prop) : Prop where
  notice : ∀ m, m.content.isSystem = true → P m

theorem AllowsNotices.amends {P : Message → Prop} [hP : AllowsNotices P] {m m' : Message}
    (h : m.Amends m') (hm : P m) : P m' := by
  rcases h with rfl | ⟨now, rfl⟩
  · exact hm
  · exact hP.notice _ rfl

/-- The messages of `w'` are those of `w` and new ones that `P` allows. -/
structure Extends (env : Env) (P : Message → Prop) (w w' : World) : Prop where
  uuids : w.nextUuid ≤ w'.nextUuid
  kept : ∀ c i m, w.messageAt c i = some m → ∃ m', w'.messageAt c i = some m' ∧ m.Amends m'
  added : ∀ c i m', w'.messageAt c i = some m' → (∃ m, w.messageAt c i = some m ∧ m.Amends m') ∨
    (P m' ∧ (w'.conversations.get c).isSome = true ∧
      ∃ k, w.nextUuid ≤ k ∧ k < w'.nextUuid ∧ m'.id = env.uuid k)

/-- And no conversation is taken away. -/
structure Grown (env : Env) (P : Message → Prop) (w w' : World) : Prop
    extends Extends env P w w' where
  conversations : ∀ c, (w.conversations.get c).isSome = true →
    (w'.conversations.get c).isSome = true

section
variable {env : Env} {P : Message → Prop} {w w' : World}

theorem extends_same (hm : w'.messages = w.messages) (hn : w.nextUuid ≤ w'.nextUuid) :
    Extends env P w w' := by
  refine ⟨hn, fun c i m h => ⟨m, ?_, .refl m⟩, fun c i m h => .inl ⟨m, ?_, .refl m⟩⟩
  · rw [Store.messageAt_eq hm, h]
  · rw [← Store.messageAt_eq hm, h]

theorem grown_same (hm : w'.messages = w.messages) (hc : w'.conversations = w.conversations)
    (hn : w.nextUuid ≤ w'.nextUuid) : Grown env P w w' :=
  ⟨extends_same hm hn, fun c h => by rw [hc, h]⟩

theorem grown_posted {m : Message} (h : Posted env w m w') (hP : P m)
    (hc : (w.conversations.get m.conversationId).isSome = true)
    (hconv : ∀ c, (w.conversations.get c).isSome = true →
      (w'.conversations.get c).isSome = true) : Grown env P w w' := by
  refine ⟨⟨Nat.le_of_lt h.draws, fun c i m' hm => ⟨m', h.messageAt.mpr (.inl hm), .refl m'⟩,
    fun c i m' hm => ?_⟩, hconv⟩
  rcases h.messageAt.mp hm with hold | ⟨rfl, -, rfl⟩
  · exact .inl ⟨m', hold, .refl m'⟩
  · exact .inr ⟨hP, hconv _ hc, h.drawn⟩

theorem conversations_touched (h : Touched w w') (c : ConversationId)
    (hc : (w.conversations.get c).isSome = true) : (w'.conversations.get c).isSome = true := by
  have hsame := congrArg Option.isSome (h.conversations c)
  rwa [Option.isSome_map, Option.isSome_map, hc] at hsame

/-- A conversation is written and none removed. -/
theorem grown_write {g : World → Map ConversationId Conversation}
    (h : ∀ w c, (w.conversations.get c).isSome = true → ((g w).get c).isSome = true) :
    Tx.Keeps (Grown env P) (update .conversations g) where
  runs hr := by
    obtain ⟨-, rfl⟩ := hr
    exact ⟨extends_same rfl (Nat.le_refl _), h _⟩

variable [hP : AllowsNotices P]

instance : IsPreorder World (Grown env P) where
  refl w := grown_same rfl rfl (Nat.le_refl _)
  trans w w₁ w₂ h₁ h₂ := by
    refine ⟨⟨Nat.le_trans h₁.uuids h₂.uuids, fun c i m hm => ?_, fun c i m hm => ?_⟩,
      fun c hc => h₂.conversations c (h₁.conversations c hc)⟩
    · obtain ⟨m₁, hm₁, ha₁⟩ := h₁.kept c i m hm
      obtain ⟨m₂, hm₂, ha₂⟩ := h₂.kept c i m₁ hm₁
      exact ⟨m₂, hm₂, ha₁.trans ha₂⟩
    · rcases h₂.added c i m hm with ⟨m₁, hm₁, ha₁⟩ | ⟨hallowed, hc, k, hk, hk', hid⟩
      · rcases h₁.added c i m₁ hm₁ with ⟨m₀, hm₀, ha₀⟩ | ⟨hallowed, hc, k, hk, hk', hid⟩
        · exact .inl ⟨m₀, hm₀, ha₀.trans ha₁⟩
        · exact .inr ⟨hP.amends ha₁ hallowed, h₂.conversations c hc, k, hk,
            Nat.lt_of_lt_of_le hk' h₂.uuids, ha₁.id_eq.trans hid⟩
      · exact .inr ⟨hallowed, hc, k, Nat.le_trans h₁.uuids hk, hk', hid⟩

instance grown_ignores (f : Field) [hf : Has f (accountFields ++ sessionFields ++ socialFields ++
    contentFields ++ [.conversationSettings, .groupMuteAll, .groupAnnouncements,
      .groupJoinRequests, .groupPolls, .messageDedup])] : Ignores (Grown env P) f where
  set w v := by
    have hm : Field.messages ≠ f := by rintro rfl; exact absurd hf.mem (by decide)
    have hc : Field.conversations ≠ f := by rintro rfl; exact absurd hf.mem (by decide)
    have hn : Field.nextUuid ≠ f := by rintro rfl; exact absurd hf.mem (by decide)
    exact grown_same (same_set hm w v) (same_set hc w v) (Nat.le_of_eq (same_set hn w v).symm)

instance grown_logged : Logged env (Grown env P) :=
  logged_of fun ho hn => grown_same (ho .messages (by decide)) (ho .conversations (by decide)) hn

instance grown_insert {id : ConversationId} {c : Conversation} :
    Tx.Keeps (Grown env P) (update .conversations fun w => w.conversations.insert id c) := by
  refine grown_write fun w i hi => ?_
  rw [Map.get_insert]
  split
  · rfl
  · exact hi

instance grown_modify {id : ConversationId} {f : Conversation → Conversation} :
    Tx.Keeps (Grown env P) (update .conversations fun w => w.conversations.modify id f) := by
  refine grown_write fun w i hi => ?_
  rw [Map.get_modify]
  split
  · rwa [Option.isSome_map]
  · exact hi

instance grown_touching : Touching (Grown env P) where
  touch _ _ := by unfold touchConversation; infer_instance

instance grown_recalling : Recalling (Grown env P) where
  recalled w c messageId now := by
    have h := amended_recall w c messageId now
    refine ⟨⟨Nat.le_refl _, fun c i m hm => h.after hm, fun c i m hm => .inl (h.before hm)⟩,
      fun c hc => hc⟩

instance grown_posting : Posting env (Grown env P) where
  notice c actor text now := ⟨fun {w m w'} hr => by
    have hnoticed := appendSystemMessage_noticed hr
    obtain ⟨-, rfl⟩ := appendSystemMessage_sender hr
    have htouched : Touched w w' := Tx.Keeps.runs (R := Touched) hr
    refine grown_posted hnoticed.toPosted (hP.notice _ hnoticed.system) ?_ fun c hc => ?_
    · simp only [appendSystemMessage, Tx.runs_get_bind, Tx.runs_okOr_bind] at hr
      obtain ⟨conversation, hget, -⟩ := hr
      rw [hget]
      rfl
    · exact conversations_touched htouched c hc⟩

/-! ## Operations that write conversations -/

set_option synthInstance.maxSize 1000000000000

variable {actor target : UserId} {id : ConversationId} {now : DateTime}

instance grown_storeConversation {c : Conversation} :
    Tx.Keeps (Grown env P) (storeConversation c) := by
  unfold storeConversation; infer_instance

instance grown_decideFriendRequest {requestId : FriendRequestId}
    {decision : FriendRequestDecision} :
    Tx.Keeps (Grown env P) (decideFriendRequest env actor requestId decision now) := by
  unfold decideFriendRequest befriend; infer_instance

instance grown_createDirect : Tx.Keeps (Grown env P) (createDirect env actor target now) := by
  unfold createDirect; infer_instance

instance grown_createGroup {memberIds : List UserId} {name : String} :
    Tx.Keeps (Grown env P) (createGroup env actor memberIds name now) := by
  unfold createGroup; infer_instance

instance grown_updateGroup {request : UpdateGroupRequest} :
    Tx.Keeps (Grown env P) (updateGroup env actor id request now) := by
  unfold updateGroup; infer_instance

instance grown_addGroupMembers {request : AddGroupMembersRequest} :
    Tx.Keeps (Grown env P) (addGroupMembers env actor id request now) := by
  unfold addGroupMembers; infer_instance

instance grown_leaveGroup : Tx.Keeps (Grown env P) (leaveGroup env actor id now) := by
  unfold leaveGroup; infer_instance

instance grown_updateGroupMember {request : UpdateGroupMemberRequest} :
    Tx.Keeps (Grown env P) (updateGroupMember env actor id target request now) := by
  unfold updateGroupMember; infer_instance

instance grown_removeGroupMember :
    Tx.Keeps (Grown env P) (removeGroupMember env actor id target now) := by
  unfold removeGroupMember; infer_instance

instance grown_transferGroupOwnership {request : TransferGroupOwnershipRequest} :
    Tx.Keeps (Grown env P) (transferGroupOwnership env actor id request now) := by
  unfold transferGroupOwnership; infer_instance

instance grown_decideGroupJoinRequest {requestId : Uuid} {request : DecideGroupJoinRequest} :
    Tx.Keeps (Grown env P) (decideGroupJoinRequest env actor requestId request now) := by
  unfold decideGroupJoinRequest admitApplicant; infer_instance

instance grown_deleteAccount {currentPassword confirmation : String} :
    Tx.Keeps (Grown env P) (deleteAccount env actor currentPassword confirmation now) := by
  have : Tx.Keeps (Grown env P) (detachAccountFromConversations actor now) := by
    refine grown_write fun w c hc => ?_
    rwa [Map.get_mapValues, Option.isSome_map]
  unfold deleteAccount deleteAccountInStore; infer_instance

/-! ## Sends and forwards -/

theorem storeNewMessage_valid {request : SendMessageRequest} {m : Message} {ack : MessageAck}
    (h : (storeNewMessage env actor id request now).Runs w (m, ack) w') :
    validateMessageAttachment w.toStore actor request.content = .ok () ∧
      (w.conversations.get id).isSome = true := by
  simp only [storeNewMessage, Tx.runs_get_bind, Tx.runs_ofExcept_bind] at h
  obtain ⟨_, -, recipients, hrecipients, _, hvalid, -⟩ := h
  refine ⟨hvalid, ?_⟩
  unfold messageRecipientsForSend at hrecipients
  split at hrecipients
  · cases hrecipients
  · rename_i c hget
    rw [hget]
    rfl

omit hP in
theorem grown_send {request : SendMessageRequest} {m : Message} {ack : MessageAck}
    (hallowed : validateMessageAttachment w.toStore actor request.content = .ok () →
      ∀ m : Message, m.conversationId = id → m.content = request.content → P m)
    (h : (sendMessageRequest env actor id request now).Runs w (m, ack) w') :
    Grown env P w w' := by
  unfold sendMessageRequest sendMessageInStore at h
  simp only [Tx.runs_failIf_bind, Tx.runs_get_bind] at h
  obtain ⟨-, h⟩ := h
  split at h
  · simp only [Tx.runs_okOr_bind, Tx.runs_pure] at h
    obtain ⟨-, -, -, -, -, rfl⟩ := h
    exact grown_same rfl rfl (Nat.le_refl _)
  · obtain ⟨hvalid, hget⟩ := storeNewMessage_valid h
    obtain ⟨hrecorded, -, -, hid, -, hcontent⟩ := storeNewMessage_recorded h
    have hkeeps : Tx.Keeps Touched (storeNewMessage env actor id request now) := by
      unfold storeNewMessage; infer_instance
    exact grown_posted hrecorded.toPosted (hallowed hvalid m hid hcontent) (hid ▸ hget)
      (conversations_touched (hkeeps.runs h))

/-- One copy for each content. -/
theorem grown_copies {recipients : List UserId} {contents : List MessageContent} {sequence : Nat}
    {ms : List Message} (hs : sequence = lastSequence w.toStore id)
    (hallowed : ∀ content ∈ contents, ∀ m : Message, m.conversationId = id → m.content = content →
      P m) (hget : (w.conversations.get id).isSome = true)
    (h : (appendForwardedMessages env actor id recipients now sequence contents).Runs w ms w') :
    Grown env P w w' := by
  induction contents generalizing sequence w ms with
  | nil =>
    obtain ⟨-, rfl⟩ := Tx.runs_pure.mp h
    exact refl w'
  | cons content contents ih =>
    obtain ⟨m, w₁, hm, h⟩ := Tx.runs_bind.mp h
    obtain ⟨rest, w₂, hrest, h⟩ := Tx.runs_bind.mp h
    obtain ⟨-, rfl⟩ := Tx.runs_pure.mp h
    obtain ⟨hrecorded, -, hid, -, hseq⟩ :=
      appendForwardedMessage_recorded (congrArg saturatingSucc hs) hm
    have hlast := hrecorded.lastSequence
    rw [hseq, hid, Option.some.injEq] at hlast
    have hkeeps : Tx.Keeps Touched (appendForwardedMessage env actor id content
        (saturatingSucc sequence) recipients now) := by
      unfold appendForwardedMessage; infer_instance
    have hconv := conversations_touched (hkeeps.runs hm)
    have hfirst := grown_posted (P := P) hrecorded.toPosted
      (hallowed content List.mem_cons_self m hid (appendForwardedMessage_content hm)) (hid ▸ hget)
      hconv
    exact IsTrans.trans _ _ _ hfirst (ih hlast
      (fun content hc => hallowed content (List.mem_cons_of_mem _ hc)) (hconv id hget) hrest)

theorem grown_forward {ids : List MessageId} {mode : ForwardMode} {ms : List Message}
    (hallowed : ∀ sources, collectForwardSources w.toStore actor mode ids = .ok sources →
      ∀ m : Message, m.conversationId = id → m.content ∈ forwardContents mode sources → P m)
    (h : (forwardMessages env actor ids id mode now).Runs w ms w') : Grown env P w w' := by
  simp only [forwardMessages, forwardMessagesInStore, Tx.runs_failIf_bind, Tx.runs_get_bind,
    Tx.runs_ofExcept_bind, Tx.runs_okOr_bind] at h
  obtain ⟨-, -, sources, hsources, target, htarget, -, h⟩ := h
  obtain ⟨_, w₁, hloop, h⟩ := Tx.runs_bind.mp h
  obtain ⟨_, w₂, htouch, h⟩ := Tx.runs_bind.mp h
  obtain ⟨-, rfl⟩ := Tx.runs_pure.mp h
  refine IsTrans.trans _ _ _ (grown_copies rfl (fun content hc m hid hm => ?_) ?_ hloop)
    (Tx.Keeps.runs htouch)
  · exact hallowed sources hsources m hid (hm ▸ hc)
  · rw [htarget]
    rfl

end

/-- The message is one the operation posts for its user. -/
def Op.Posts (w : World) (m : Message) : Op → Prop
  | .sendMessageRequest actor id request _ => m.conversationId = id ∧ m.content = request.content ∧
    validateMessageAttachment w.toStore actor request.content = .ok ()
  | .forwardMessages actor ids id mode _ => m.conversationId = id ∧ ∃ sources,
    collectForwardSources w.toStore actor mode ids = .ok sources ∧
      m.content ∈ forwardContents mode sources
  | _ => False

section
variable {env : Env} {w w' : World} {P : Message → Prop}

instance posts_allowsNotices {op : Op} :
    AllowsNotices fun m => m.content.isSystem = true ∨ op.Posts w m := ⟨fun _ h => .inl h⟩

/-- **Posting.** The new messages of a transaction. -/
theorem Op.grown {op : Op} (hr : (op.run env).Runs w () w') :
    Extends env (fun m => m.content.isSystem = true ∨ op.Posts w m) w w' := by
  have hallowed : AllowsNotices fun m => m.content.isSystem = true ∨ op.Posts w m := inferInstance
  generalize hP : (fun m : Message => m.content.isSystem = true ∨ op.Posts w m) = P at *
  cases op
  case disbandGroup actor id now =>
    obtain ⟨_, hr⟩ := Tx.runs_void.mp hr
    have hkeeps := Tx.Keeps.runs
      (R := Evolves [.conversations, .conversationSettings, .groupMuteAll]) hr
    exact extends_same (hkeeps.same .messages (by decide)) hkeeps.uuids
  case sendMessageRequest actor id request now =>
    obtain ⟨⟨m, ack⟩, hr⟩ := Tx.runs_void.mp hr
    refine (grown_send (fun hvalid m hid hcontent => ?_) hr).toExtends
    rw [← hP]
    exact .inr ⟨hid, hcontent, hvalid⟩
  case forwardMessages actor ids id mode now =>
    obtain ⟨ms, hr⟩ := Tx.runs_void.mp hr
    refine (grown_forward (fun sources hsources m hid hcontent => ?_) hr).toExtends
    rw [← hP]
    exact .inr ⟨hid, sources, hsources, hcontent⟩
  all_goals
    dsimp only [Op.run] at hr
    exact (Tx.Keeps.runs (R := Grown env P) hr).toExtends

end

end IamRust
