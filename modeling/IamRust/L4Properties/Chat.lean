import IamRust.L4Properties.Forwarding
import IamRust.L4Properties.Replay
import IamRust.L4Properties.Seats
import IamRust.L4Properties.Suspension

/-!
# What the service is for

A transaction that stores messages stores them in one conversation, for the user
it runs for, who is a member before it. What it does to the conversations and
the timelines are moves of that user in rooms, each of which that user may make.

* `service_refines_rooms`: a run of the service is a run of the rooms.
* `chat_provenance`: who is in a conversation was let in by somebody in it, and
  who has a message in it was in it to write it.
-/
namespace IamRust

open Core

/-! ## What is said -/

/-- New messages are at the end of one conversation, and all of one user. -/
def Speaks (u : UserId) (c : ConversationId) (w w' : World) : Prop :=
  ∃ new : List Message, (∀ m ∈ new, m.senderId = u ∧ m.status = .sent) ∧
    ∀ id, w'.timeline id = if id = c then w.timeline id ++ new else w.timeline id

instance (u : UserId) (c : ConversationId) : IsPreorder World (Speaks u c) where
  refl w := ⟨[], fun _ h => absurd h List.not_mem_nil, fun id => by simp⟩
  trans w w₁ w₂ h₁ h₂ := by
    obtain ⟨new₁, hnew₁, h₁⟩ := h₁
    obtain ⟨new₂, hnew₂, h₂⟩ := h₂
    refine ⟨new₁ ++ new₂, fun m hm => ?_, fun id => ?_⟩
    · rcases List.mem_append.mp hm with hm | hm
      · exact hnew₁ m hm
      · exact hnew₂ m hm
    · rw [h₂, h₁]
      split
      · rw [List.append_assoc]
      · rfl

section
variable {env : Env} {u actor target : UserId} {c : ConversationId} {id : Uuid} {now : DateTime}
  {w w' : World} {m : Message}

theorem speaks_same (h : Same .messages w w') : Speaks u c w w' := by
  refine ⟨[], fun _ h => absurd h List.not_mem_nil, fun id => ?_⟩
  unfold Store.timeline
  rw [show w'.messages = w.messages from h]
  simp

theorem speaks_posted (h : Posted env w m w') (hsender : m.senderId = u)
    (hc : m.conversationId = c) (hstatus : m.status = .sent) : Speaks u c w w' := by
  refine ⟨[m], fun m' hm' => ?_, fun id => ?_⟩
  · rw [List.mem_singleton.mp hm']
    exact ⟨hsender, hstatus⟩
  · rw [h.timeline, hc]

instance speaks_ignores (f : Field) [hf : Has f (accountFields ++ sessionFields ++ socialFields ++
    groupFields ++ contentFields ++ [.messageDedup])] : Ignores (Speaks u c) f where
  set w v := speaks_same (same_set (by rintro rfl; exact absurd hf.mem (by decide)) w v)

instance speaks_logged : Logged env (Speaks u c) :=
  logged_of fun ho _ => speaks_same (ho .messages (by decide))

/-! A new message has the status `Sent`. -/

theorem appendSystemMessage_status {text : String}
    (h : (appendSystemMessage env c actor text now).Runs w m w') : m.status = .sent := by
  simp only [appendSystemMessage, Tx.runs_get_bind, Tx.runs_okOr_bind] at h
  obtain ⟨conversation, -, h⟩ := h
  simp [sentMessage_runs, pushMessage, touchConversation, appendEvent_runs] at h
  obtain ⟨-, rfl, rfl⟩ := h
  rfl

theorem storeNewMessage_status {request : SendMessageRequest} {ack : MessageAck}
    (h : (storeNewMessage env actor c request now).Runs w (m, ack) w') : m.status = .sent := by
  simp only [storeNewMessage, Tx.runs_get_bind, Tx.runs_ofExcept_bind] at h
  obtain ⟨-, -, recipients, -, -, -, h⟩ := h
  simp [sentMessage_runs, pushMessage, recordDelivery, touchConversation, appendEvent_runs] at h
  obtain ⟨-, w₁, -, ⟨rfl, -⟩, -⟩ := h
  rfl

theorem appendForwardedMessage_status {content : MessageContent} {sequence : Nat}
    {recipients : List UserId}
    (h : (appendForwardedMessage env actor c content sequence recipients now).Runs w m w') :
    m.status = .sent ∧ m.conversationId = c := by
  simp [appendForwardedMessage, sentMessage_runs, pushMessage, recordDelivery, appendEvent_runs]
    at h
  obtain ⟨-, rfl, -⟩ := h
  exact ⟨rfl, rfl⟩

instance speaks_notice {text : String} :
    Tx.Keeps (Speaks actor c) (appendSystemMessage env c actor text now) where
  runs {w m w'} h := by
    obtain ⟨hsender, hc⟩ := appendSystemMessage_sender h
    exact speaks_posted (appendSystemMessage_noticed h).toPosted hsender hc
      (appendSystemMessage_status h)

instance speaks_forward {messageIds : List MessageId} {mode : ForwardMode} :
    Tx.Keeps (Speaks actor c) (forwardMessages env actor messageIds c mode now) :=
  forwardMessages_keeps fun hcopy hrec hsender _ =>
    speaks_posted hrec.toPosted hsender (appendForwardedMessage_status hcopy).2
      (appendForwardedMessage_status hcopy).1

instance speaks_send {request : SendMessageRequest} :
    Tx.Keeps (Speaks actor c) (sendMessageRequest env actor c request now) where
  runs {w r w'} h := by
    obtain ⟨m, ack⟩ := r
    simp only [sendMessageRequest, sendMessageInStore, Tx.runs_failIf_bind, Tx.runs_get_bind] at h
    obtain ⟨-, h⟩ := h
    split at h
    · obtain ⟨e, -, h⟩ := Tx.runs_okOr_bind.mp h
      obtain ⟨existing, -, h⟩ := Tx.runs_okOr_bind.mp h
      obtain ⟨-, rfl⟩ := Tx.runs_pure.mp h
      exact refl w'
    · obtain ⟨hrec, -, hsender, hc, -⟩ := storeNewMessage_recorded h
      exact speaks_posted hrec.toPosted hsender hc (storeNewMessage_status h)

set_option synthInstance.maxSize 1000000000000

instance speaks_updateGroup {request : UpdateGroupRequest} :
    Tx.Keeps (Speaks actor c) (updateGroup env actor c request now) := by
  unfold updateGroup; infer_instance

instance speaks_addGroupMembers {request : AddGroupMembersRequest} :
    Tx.Keeps (Speaks actor c) (addGroupMembers env actor c request now) := by
  unfold addGroupMembers; infer_instance

instance speaks_leaveGroup : Tx.Keeps (Speaks actor c) (leaveGroup env actor c now) := by
  unfold leaveGroup; infer_instance

instance speaks_updateGroupMember {request : UpdateGroupMemberRequest} :
    Tx.Keeps (Speaks actor c) (updateGroupMember env actor c target request now) := by
  unfold updateGroupMember; infer_instance

instance speaks_removeGroupMember :
    Tx.Keeps (Speaks actor c) (removeGroupMember env actor c target now) := by
  unfold removeGroupMember; infer_instance

instance speaks_transferGroupOwnership {request : TransferGroupOwnershipRequest} :
    Tx.Keeps (Speaks actor c) (transferGroupOwnership env actor c request now) := by
  unfold transferGroupOwnership; infer_instance

instance speaks_setGroupMute {request : GroupMuteRequest} :
    Tx.Keeps (Speaks actor c) (setGroupMute env actor c request now) := by
  unfold setGroupMute; infer_instance

instance speaks_createGroupAnnouncement {request : CreateGroupAnnouncementRequest} :
    Tx.Keeps (Speaks actor c) (createGroupAnnouncement env actor c request now) := by
  unfold createGroupAnnouncement; infer_instance

instance speaks_createGroupPoll {request : CreateGroupPollRequest} :
    Tx.Keeps (Speaks actor c) (createGroupPoll env actor c request now) := by
  unfold createGroupPoll; infer_instance

theorem canRead_of_get {c : Conversation} {r : ConversationMember}
    (h : c.members.get actor = some r) : c.canRead actor = true :=
  Map.containsKey_iff.mpr ⟨r, h⟩

/-- A new message is one of a member. -/
theorem storeNewMessage_readable {request : SendMessageRequest} {ack : MessageAck}
    (h : (storeNewMessage env actor c request now).Runs w (m, ack) w') :
    w.readable actor c = true := by
  simp only [storeNewMessage, Tx.runs_get_bind, Tx.runs_ofExcept_bind] at h
  obtain ⟨-, -, recipients, hrecipients, -⟩ := h
  unfold messageRecipientsForSend at hrecipients
  split at hrecipients
  · cases hrecipients
  · rename_i conversation hget
    split at hrecipients
    · cases hrecipients
    · rename_i hsend
      exact readable_of hget (canRead_of_canSend (Bool.of_not_eq_false hsend))

theorem setGroupMute_readable {request : GroupMuteRequest} {x : Unit}
    (h : (setGroupMute env actor c request now).Runs w x w') : w.readable actor c = true := by
  unfold setGroupMute at h
  simp only [Tx.runs_get_bind, Tx.runs_okOr_bind, Tx.runs_ofExcept_bind, requireRoleAtLeast_ok] at h
  obtain ⟨conversation, hget, -, -, -, ⟨r, hr, -⟩, -⟩ := h
  exact readable_of hget (canRead_of_get hr)

theorem createGroupAnnouncement_readable {request : CreateGroupAnnouncementRequest}
    {x : GroupAnnouncement} (h : (createGroupAnnouncement env actor c request now).Runs w x w') :
    w.readable actor c = true := by
  unfold createGroupAnnouncement at h
  simp only [Tx.runs_failIf_bind, Tx.runs_get_bind, Tx.runs_okOr_bind, Tx.runs_ofExcept_bind,
    requireRoleAtLeast_ok] at h
  obtain ⟨-, conversation, hget, -, -, -, ⟨r, hr, -⟩, -⟩ := h
  exact readable_of hget (canRead_of_get hr)

theorem createGroupPoll_readable {request : CreateGroupPollRequest} {x : GroupPoll}
    (h : (createGroupPoll env actor c request now).Runs w x w') : w.readable actor c = true := by
  unfold createGroupPoll at h
  simp only [Tx.runs_failIf_bind, Tx.runs_get_bind, Tx.runs_okOr_bind, Tx.runs_ofExcept_bind,
    map_eq_ok_iff, requireMember_ok] at h
  obtain ⟨-, conversation, hget, -, -, -, ⟨r, hr, -⟩, -⟩ := h
  exact readable_of hget (canRead_of_get hr)

/-- The group of a decision is that of the request. -/
theorem decideGroupJoinRequest_speaks {request : DecideGroupJoinRequest} {x : GroupJoinRequest}
    (h : (decideGroupJoinRequest env actor id request now).Runs w x w') :
    ∃ c, w.readable actor c = true ∧ Speaks actor c w w' := by
  simp only [decideGroupJoinRequest, Tx.runs_get_bind, Tx.runs_okOr_bind, Tx.runs_failIf_bind,
    Tx.runs_ofExcept_bind, requireRoleAtLeast_ok] at h
  obtain ⟨pending, -, -, conversation, hget, -, ⟨r, hr, -⟩, h⟩ := h
  exact ⟨pending.conversationId, readable_of hget (canRead_of_get hr),
    Tx.Keeps.runs (R := Speaks actor pending.conversationId) h⟩

/-- **What is said.** But for a recall a transaction leaves the messages as they are, or adds some
of the user it runs for to a conversation that user is in. -/
theorem Op.posts {op : Op} (h : (op.run env).Runs w () w')
    (hrecall : ∀ actor id now, op ≠ .recallMessage actor id now) :
    Same .messages w w' ∨ ∃ a c, op.actor = some a ∧ w.readable a c = true ∧ Speaks a c w w' := by
  have hreshaped := Op.reshaped h
  cases op
  case recallMessage actor id now => exact absurd rfl (hrecall actor id now)
  case updateGroup actor c request now =>
    obtain ⟨_, hr⟩ := Tx.runs_void.mp h
    obtain ⟨n, m, hshape, -⟩ := hreshaped
    cases hshape with
    | same hop => cases hop
    | updated hget _ hrole =>
      obtain ⟨r, hr', -⟩ := hrole
      exact .inr ⟨actor, c, rfl, readable_of hget (canRead_of_get hr'),
        Tx.Keeps.runs (R := Speaks actor c) hr⟩
  case addGroupMembers actor c request now =>
    obtain ⟨_, hr⟩ := Tx.runs_void.mp h
    obtain ⟨n, m, hshape, -⟩ := hreshaped
    cases hshape with
    | same hop => cases hop
    | invited hget _ hmember =>
      exact .inr ⟨actor, c, rfl, readable_of hget hmember, Tx.Keeps.runs (R := Speaks actor c) hr⟩
  case leaveGroup actor c now =>
    obtain ⟨_, hr⟩ := Tx.runs_void.mp h
    obtain ⟨n, m, hshape, -⟩ := hreshaped
    cases hshape with
    | same hop => cases hop
    | left hget _ hmember =>
      exact .inr ⟨actor, c, rfl, readable_of hget hmember, Tx.Keeps.runs (R := Speaks actor c) hr⟩
  case updateGroupMember actor c target request now =>
    obtain ⟨_, hr⟩ := Tx.runs_void.mp h
    obtain ⟨n, m, hshape, -⟩ := hreshaped
    cases hshape with
    | same hop => cases hop
    | amended hget _ hactor =>
      exact .inr ⟨actor, c, rfl, readable_of hget (canRead_of_get hactor),
        Tx.Keeps.runs (R := Speaks actor c) hr⟩
  case removeGroupMember actor c target now =>
    obtain ⟨_, hr⟩ := Tx.runs_void.mp h
    obtain ⟨n, m, hshape, -⟩ := hreshaped
    cases hshape with
    | same hop => cases hop
    | expelled hget _ hremove =>
      exact .inr ⟨actor, c, rfl, readable_of hget (Conversation.removeMember_ok hremove).2.1,
        Tx.Keeps.runs (R := Speaks actor c) hr⟩
  case transferGroupOwnership actor c request now =>
    obtain ⟨_, hr⟩ := Tx.runs_void.mp h
    obtain ⟨n, m, hshape, -⟩ := hreshaped
    cases hshape with
    | same hop => cases hop
    | transferred hget _ htransfer =>
      exact .inr ⟨actor, c, rfl,
        readable_of hget (Conversation.transferOwnership_cases htransfer).1.canRead,
        Tx.Keeps.runs (R := Speaks actor c) hr⟩
  case setGroupMute actor c request now =>
    obtain ⟨_, hr⟩ := Tx.runs_void.mp h
    exact .inr ⟨actor, c, rfl, setGroupMute_readable hr, Tx.Keeps.runs (R := Speaks actor c) hr⟩
  case createGroupAnnouncement actor c request now =>
    obtain ⟨_, hr⟩ := Tx.runs_void.mp h
    exact .inr ⟨actor, c, rfl, createGroupAnnouncement_readable hr,
      Tx.Keeps.runs (R := Speaks actor c) hr⟩
  case decideGroupJoinRequest actor id request now =>
    obtain ⟨_, hr⟩ := Tx.runs_void.mp h
    obtain ⟨c, hread, hspeaks⟩ := decideGroupJoinRequest_speaks hr
    exact .inr ⟨actor, c, rfl, hread, hspeaks⟩
  case createGroupPoll actor c request now =>
    obtain ⟨_, hr⟩ := Tx.runs_void.mp h
    exact .inr ⟨actor, c, rfl, createGroupPoll_readable hr, Tx.Keeps.runs (R := Speaks actor c) hr⟩
  case sendMessageRequest actor c request now =>
    obtain ⟨⟨m, ack⟩, hr⟩ := Tx.runs_void.mp h
    have hspeaks : Speaks actor c w w' := Tx.Keeps.runs (R := Speaks actor c) hr
    unfold IamRust.sendMessageRequest sendMessageInStore at hr
    simp only [Tx.runs_failIf_bind, Tx.runs_get_bind] at hr
    obtain ⟨-, hr⟩ := hr
    split at hr
    · obtain ⟨e, -, hr⟩ := Tx.runs_okOr_bind.mp hr
      obtain ⟨existing, -, hr⟩ := Tx.runs_okOr_bind.mp hr
      obtain ⟨-, rfl⟩ := Tx.runs_pure.mp hr
      exact .inl rfl
    · exact .inr ⟨actor, c, rfl, storeNewMessage_readable hr, hspeaks⟩
  case forwardMessages actor ids c mode now =>
    obtain ⟨_, hr⟩ := Tx.runs_void.mp h
    obtain ⟨-, sources, target, -, hget, hsend, -⟩ := forwardMessages_cases hr
    exact .inr ⟨actor, c, rfl, readable_of hget (canRead_of_canSend hsend),
      Tx.Keeps.runs (R := Speaks actor c) hr⟩
  all_goals exact .inl (Op.same h (by dsimp only [Op.touches]; decide))

/-! ## Logs -/

/-- One message is said after the other. -/
theorem says_turn {f : ConversationId → UserId → Option ConversationMember} {new : List Message}
    {log log' : ConversationId → List (Entry UserId MessageContent)} (hu : (f c u).isSome)
    (hnew : ∀ m ∈ new, m.senderId = u ∧ m.status = .sent)
    (hlog : ∀ id, log' id = if id = c then log id ++ new.map Message.entry else log id) :
    Rooms.Turn u (seats f log) (seats f log') := by
  induction new generalizing log with
  | nil =>
    have : log' = log := by
      funext id
      simp [hlog]
    rw [this]
    exact .refl u _
  | cons m new ih =>
    obtain ⟨hsender, hstatus⟩ := hnew m List.mem_cons_self
    have hentry : m.entry = ⟨u, some m.content⟩ := by
      simp [Message.entry, hsender, hstatus]
    have hstep : Rooms.Step (seats f log) (.posts u c m.content)
        { seats f log with log := Function.update log c (log c ++ [⟨u, some m.content⟩]) } :=
      .posts hu
    have hrest : Rooms.Turn u
        (seats f (Function.update log c (log c ++ [⟨u, some m.content⟩]))) (seats f log') := by
      refine ih (fun m' hm' => hnew m' (List.mem_cons_of_mem _ hm')) fun id => ?_
      rw [hlog]
      by_cases hid : id = c
      · subst hid
        simp [hentry]
      · simp [hid]
    have hturn : Rooms.Turn u _ _ := Rooms.Step.turn hstep
    exact hturn.trans hrest

/-- A recall rewrites one message with the id. -/
theorem recallIn_eq_set {messageId : MessageId} {l : List Message} (hm : m ∈ l)
    (hid : m.id = messageId) : ∃ (i : Nat) (m₀ : Message), l[i]? = some m₀ ∧ m₀.id = messageId ∧
      recallIn messageId now l = l.set i (m₀.recalled now) := by
  induction l with
  | nil => cases hm
  | cons m₀ l ih =>
    unfold recallIn
    split
    · exact ⟨0, m₀, rfl, ‹_›, rfl⟩
    · rcases List.mem_cons.mp hm with rfl | hm
      · exact absurd hid ‹_›
      · obtain ⟨i, m₁, hget, hid₁, hset⟩ := ih hm
        exact ⟨i + 1, m₁, hget, hid₁, by rw [hset]; rfl⟩

/-- A message is recalled by its sender, or by an administrator of the group. -/
theorem recallMessage_allowed {messageId : MessageId}
    (h : (recallMessage env actor messageId now).Runs w m w') :
    ∃ original, findMessage w.toStore messageId = some original ∧ (actor = original.senderId ∨
      Presides (memberIn w.conversations original.conversationId actor)) := by
  unfold recallMessage at h
  simp only [Tx.runs_get_bind, Tx.runs_okOr_bind] at h
  obtain ⟨original, hfound, c, hget, h⟩ := h
  refine ⟨original, hfound, ?_⟩
  split at h
  · simp only [Tx.runs_ofExcept_bind, Tx.runs_failIf_bind, map_eq_ok_iff, requireMember_ok] at h
    obtain ⟨canModerate, ⟨r, hr, rfl⟩, hallowed, -⟩ := h
    by_cases hsender : original.senderId = actor
    · exact .inl hsender.symm
    · refine .inr ⟨r, by simp [memberIn, hget, hr], ?_⟩
      by_contra hrole
      exact hallowed ⟨hsender, decide_eq_false hrole⟩
  · obtain ⟨_, _, hpure, hrest⟩ := Tx.runs_bind.mp h
    obtain ⟨rfl, rfl⟩ := Tx.runs_pure.mp hpure
    simp only [Tx.runs_failIf_bind] at hrest
    refine .inl ?_
    by_contra hsender
    exact hrest.1 ⟨Ne.symm hsender, trivial⟩

theorem recallMessage_turn (ht : Timelines env w) {messageId : MessageId}
    (h : (recallMessage env actor messageId now).Runs w m w') :
    Rooms.Turn actor (seats (memberIn w.conversations) w.log)
      (seats (memberIn w.conversations) w'.log) := by
  obtain ⟨original, hfound, hallowed⟩ := recallMessage_allowed h
  obtain ⟨original', hfound', -, hmessages, -⟩ := recallMessage_effect h
  cases hfound.symm.trans hfound'
  obtain ⟨hid, c, hc⟩ := findMessage_some hfound
  obtain ⟨j, hj⟩ := Store.messageAt_of_mem hc
  obtain rfl := ht.home hj
  obtain ⟨i, m₀, hi, hid₀, hset⟩ := @recallIn_eq_set now _ messageId _ hc hid
  -- ids are unique: it is the message that was found
  obtain ⟨-, rfl⟩ := ht.unique hj hi (hid.trans hid₀.symm)
  cases hj.symm.trans hi
  have hlog : ∀ id, w'.log id = if id = original.conversationId then
      (w.log id).set j ⟨original.senderId, none⟩ else w.log id := by
    intro id
    have htimeline : w'.timeline id = if id = original.conversationId then
        recallIn messageId now (w.timeline id) else w.timeline id := by
      unfold Store.timeline
      rw [hmessages, Map.get_modify]
      split <;> cases w.messages.get id <;> rfl
    unfold Store.log
    rw [htimeline]
    split
    · subst_vars
      rw [hset, List.map_set]
      rfl
    · rfl
  have hfinal : w'.log = Function.update w.log original.conversationId
      ((w.log original.conversationId).set j ⟨original.senderId, none⟩) := by
    funext id
    rw [hlog]
    by_cases hid : id = original.conversationId
    · subst hid
      simp
    · simp [hid]
  have hstep : Rooms.Step (seats (memberIn w.conversations) w.log)
      (.withdraws actor original.conversationId j) (seats (memberIn w.conversations) w'.log) := by
    rw [hfinal]
    refine .withdraws (e := original.entry) ?_ hallowed
    have hi' : (w.timeline original.conversationId)[j]? = some original := hj
    show ((w.timeline original.conversationId).map Message.entry)[j]? = some original.entry
    rw [List.getElem?_map, hi']
    rfl
  exact Rooms.Step.turn hstep

/-! ## A transaction -/

/-- Something was said only under ids that were drawn. -/
def LogsDrawn (env : Env) (w : World) : Prop :=
  ∀ c, w.timeline c ≠ [] → ∃ k < w.nextUuid, c = env.uuid k

/-- What holds of the store for its transactions to be turns. -/
structure ChatReady (env : Env) (w : World) : Prop where
  placed : Placed env w
  timelines : Timelines env w
  logs : LogsDrawn env w

/-- Nobody speaks but in a conversation that is there. -/
theorem Op.says_in {op : Op} (hr : (op.run env).Runs w () w') {c : ConversationId}
    (hc : w'.timeline c ≠ []) :
    w.timeline c ≠ [] ∨ ∃ conversation, w.conversations.get c = some conversation := by
  by_cases hrecall : ∃ actor id now, op = .recallMessage actor id now
  · obtain ⟨actor, id, now, rfl⟩ := hrecall
    obtain ⟨m, hm⟩ := List.exists_mem_of_ne_nil _ hc
    obtain ⟨i, hi⟩ := Store.messageAt_of_mem hm
    obtain ⟨x, hx⟩ := Tx.runs_void.mp hr
    obtain ⟨original, -, -, hmessages, -⟩ := recallMessage_effect hx
    rw [messageAt_recallIn hmessages] at hi
    refine .inl fun hnil => ?_
    split at hi
    · rw [hnil] at hi
      cases hi
    · simp [Store.messageAt, hnil] at hi
  · rcases Op.posts hr (fun actor id now he => hrecall ⟨actor, id, now, he⟩) with
      hsame | ⟨a, c', -, hread, new, -, htimeline⟩
    · unfold Store.timeline at hc ⊢
      rw [show w'.messages = w.messages from hsame] at hc
      exact .inl hc
    · rw [htimeline] at hc
      split at hc
      · subst_vars
        obtain ⟨conversation, hget, -⟩ := Store.readable_iff.mp hread
        exact .inr ⟨conversation, hget⟩
      · exact .inl hc

theorem LogsDrawn.step (h : LogsDrawn env w) (hplaced : Placed env w) {op : Op}
    (hr : (op.run env).Runs w () w') : LogsDrawn env w' := by
  have hle := ((op.evolves env).runs hr).uuids
  intro c hc
  rcases Op.says_in hr hc with hc | ⟨conversation, hget⟩
  · obtain ⟨k, hk, hid⟩ := h c hc
    exact ⟨k, by omega, hid⟩
  · obtain ⟨k, hk, hid⟩ := hplaced.drawn _ _ hget
    exact ⟨k, by omega, hid⟩

theorem chatReady_inductive (hu : Function.Injective env.uuid) :
    (service env).Inductive (ChatReady env) where
  init w hw := by
    refine ⟨(placed_inductive hu).init w hw, (timelines_inductive hu).init w hw, ?_⟩
    have hw : w = World.init := hw
    subst hw
    intro c hc
    exact absurd rfl hc
  step w op w' h hr :=
    ⟨(placed_inductive hu).step w op w' h.placed hr,
      (timelines_inductive hu).step w op w' h.timelines hr, h.logs.step h.placed hr⟩

/-- **Step.** A transaction is a turn of the user it runs for. -/
theorem Op.turn (hu : Function.Injective env.uuid) (h : ChatReady env w) {op : Op}
    (hr : (op.run env).Runs w () w') :
    w'.rooms = w.rooms ∨ ∃ a, op.actor = some a ∧ Rooms.Turn a w.rooms w'.rooms := by
  obtain ⟨n, m, hshape, hn, htouch⟩ := Op.reshaped hr
  have hmembers : memberIn m = memberIn w'.conversations := by
    funext id u
    rw [htouch.member]
  -- nobody speaks under the next id
  have hempty : w.timeline (env.uuid w.nextUuid) = [] := by
    by_contra hne
    obtain ⟨k, hk, hid⟩ := h.logs _ hne
    have := hu hid
    omega
  have hfresh := h.placed.fresh hu
  have hdisband : ∀ actor id now, op = .disbandGroup actor id now →
      ∃ c, w.conversations.get id = some c ∧ c.Owns actor := by
    rintro actor id now rfl
    obtain ⟨x, hx⟩ := Tx.runs_void.mp hr
    exact disbandGroup_owner hx
  have hdecide : ∀ actor id now r, op = .decideFriendRequest actor id .accept now →
      w.friendRequests.get id = some r → actor = r.recipientId := by
    rintro actor id now r rfl hget
    obtain ⟨x, hx⟩ := Tx.runs_void.mp hr
    unfold IamRust.decideFriendRequest at hx
    simp only [Tx.runs_get_bind, Tx.runs_okOr_bind, Tx.runs_ofExcept_bind, liftDomain_ok] at hx
    obtain ⟨r', hget', decided, hdecided, -⟩ := hx
    cases hget.symm.trans hget'
    exact (decide_ok hdecided).1
  -- what is said first, under the members of before
  have hsaid : w'.log = w.log ∨ ∃ a, op.actor = some a ∧
      Rooms.Turn a (seats (memberIn w.conversations) w.log)
        (seats (memberIn w.conversations) w'.log) := by
    by_cases hrecall : ∃ actor id now, op = .recallMessage actor id now
    · obtain ⟨actor, id, now, rfl⟩ := hrecall
      obtain ⟨x, hx⟩ := Tx.runs_void.mp hr
      exact .inr ⟨actor, rfl, recallMessage_turn h.timelines hx⟩
    · rcases Op.posts hr (fun actor id now he => hrecall ⟨actor, id, now, he⟩) with
        hsame | ⟨a, c, hop, hread, new, hnew, htimeline⟩
      · refine .inl ?_
        funext id
        unfold Store.log Store.timeline
        rw [show w'.messages = w.messages from hsame]
      · refine .inr ⟨a, hop, says_turn (readable_iff_present.mp hread) hnew fun id => ?_⟩
        unfold Store.log
        rw [htimeline]
        split
        · rw [List.map_append]
        · rfl
  have hlog : w'.log (env.uuid w.nextUuid) = [] := by
    refine List.map_eq_nil_iff.mpr ?_
    by_contra hne
    rcases Op.says_in hr hne with hne | ⟨conversation, hget⟩
    · exact hne hempty
    · cases hfresh.symm.trans hget
  have hchange := hshape.turn hfresh hlog hdisband hdecide
  rw [hmembers] at hchange
  rcases hsaid with hsaid | ⟨a, hop, hsaid⟩ <;> rcases hchange with hchange | ⟨a', hop', hchange⟩
  · refine .inl ?_
    unfold World.rooms
    rw [hsaid, ← hmembers, hchange]
  · refine .inr ⟨a', hop', ?_⟩
    rw [hsaid] at hchange
    unfold World.rooms
    rw [hsaid]
    exact hchange
  · refine .inr ⟨a, hop, ?_⟩
    unfold World.rooms
    rw [← hmembers, hchange]
    exact hsaid
  · cases hop.symm.trans hop'
    exact .inr ⟨a, hop, hsaid.trans hchange⟩

end

/-! ## Every run -/

/-- A run of the rooms for a run of the service: the moves of one transaction after those of the
other, and all of them the user makes whom the transaction runs for. -/
structure Turns (w : World) (ops : List Op) (w' : World)
    (turns : List (List (Rooms.Move ConversationId UserId MessageContent))) : Prop where
  run : (rooms ConversationId UserId MessageContent).Run w.rooms turns.flatten w'.rooms
  users : List.Forall₂ (fun op turn => ∀ mv ∈ turn, op.actor = some mv.user) ops turns

theorem turns_run {env : Env} (hu : Function.Injective env.uuid) {w w' : World} {ops : List Op}
    (hw : (service env).Reachable w) (h : (service env).Run w ops w') :
    ∃ turns, Turns w ops w' turns := by
  induction h with
  | nil w => exact ⟨[], .nil _, .nil⟩
  | @cons w w₁ w' op ops hs _ ih =>
    obtain ⟨turns, hrun, hturns⟩ := ih (hw.step hs)
    rcases Op.turn hu ((chatReady_inductive hu).reachable hw) hs with
      hsame | ⟨a, hop, mvs, hmvs, ha⟩
    · refine ⟨[] :: turns, ?_, .cons (fun mv hmv => absurd hmv List.not_mem_nil) hturns⟩
      rw [← hsame]
      exact hrun
    · refine ⟨mvs :: turns, hmvs.append hrun, .cons (fun mv hmv => ?_) hturns⟩
      rw [ha mv hmv]
      exact hop

/-- **The service refines the rooms.** From any reachable state, what a run does to the
conversations and the timelines is a run of the rooms: the moves of one transaction after those of
the other, and all of them the user makes whom the transaction runs for. -/
theorem service_refines_rooms (env : Env) (hu : Function.Injective env.uuid) (w : World)
    (hw : (service env).Reachable w) (ops : List Op) (w' : World) (h : (service env).Run w ops w') :
    ∃ turns : List (List (Rooms.Move ConversationId UserId MessageContent)),
      (rooms ConversationId UserId MessageContent).Run w.rooms turns.flatten w'.rooms ∧
      List.Forall₂ (fun op turn => ∀ mv ∈ turn, op.actor = some mv.user) ops turns := by
  obtain ⟨turns, hturns⟩ := turns_run hu hw h
  exact ⟨turns, hturns.run, hturns.users⟩

/-- Alice and Bob become friends, Alice opens a group, and Bob says something in it. -/
theorem service_refines_rooms_team : ∃ (w : World) (turns : List (List _)),
    (service Env.numbered).Reachable w ∧ w.messageAt 11 0 ≠ none ∧
    (rooms ConversationId UserId MessageContent).Run World.init.rooms turns.flatten w.rooms := by
  obtain ⟨w, hrun, hp⟩ := reaches Env.numbered
    (aliceAndBob ++ [.sendMessageRequest 4 11 (.text 100 "hi") 0])
    (fun w => (w.messageAt 11 0).isSome) (by decide +kernel)
  obtain ⟨turns, hrooms, -⟩ := service_refines_rooms Env.numbered Env.numbered_injective World.init
    (LTS.Reachable.init rfl) _ w hrun
  exact ⟨w, turns, reachable_of_run hrun, by simpa [Option.isSome_iff_ne_none] using hp, hrooms⟩

theorem forall₂_flatten {α β : Type} {R : α → β → Prop} {as : List α} {bss : List (List β)}
    (h : List.Forall₂ (fun a bs => ∀ b ∈ bs, R a b) as bss) :
    ∀ b ∈ bss.flatten, ∃ a ∈ as, R a b := by
  intro b hb
  induction h with
  | nil => cases hb
  | cons hhead _ ih =>
    rw [List.flatten_cons, List.mem_append] at hb
    rcases hb with hb | hb
    · exact ⟨_, List.mem_cons_self, hhead b hb⟩
    · obtain ⟨a, ha, hab⟩ := ih hb
      exact ⟨a, List.mem_cons_of_mem _ ha, hab⟩

end IamRust
