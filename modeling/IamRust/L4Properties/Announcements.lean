import IamRust.L4Properties.Access

/-!
# The events of a transaction

`Announced` lists what a transaction may append to the log: the recipients of
an event and what it says, a constructor for each kind of announcement.
`Op.announced` says so of every transaction. No transaction changes membership
or roles behind its first event, so an event is judged in the store it leaves.
-/
namespace IamRust

open Core

/-! ## Appended events -/

/-- The events of the step from `w` to `w'`. -/
def World.appended (w w' : World) : List UserEvent := w'.events.drop w.events.length

/-- The log is extended by events that `P` allows. -/
def Logs (P : Finset UserId → EventPayload → Prop) (w w' : World) : Prop :=
  ∃ new, w'.events = w.events ++ new ∧ ∀ e ∈ new, P e.recipients e.event.payload

section
variable {P : Finset UserId → EventPayload → Prop} {env : Env} {w w' : World}

theorem logs_same (h : Same .events w w') : Logs P w w' := by
  have h : w'.events = w.events := h
  exact ⟨[], by simpa using h, by simp⟩

theorem Logs.appended (h : Logs P w w') :
    ∀ e ∈ w.appended w', P e.recipients e.event.payload := by
  obtain ⟨new, he, hP⟩ := h
  unfold World.appended
  rw [he, List.drop_left]
  exact hP

instance : IsPreorder World (Logs P) where
  refl _ := ⟨[], by simp, by simp⟩
  trans w w₁ w₂ h₁ h₂ := by
    obtain ⟨new₁, he₁, hP₁⟩ := h₁
    obtain ⟨new₂, he₂, hP₂⟩ := h₂
    refine ⟨new₁ ++ new₂, by simp [he₁, he₂], fun e he => ?_⟩
    rcases List.mem_append.mp he with he | he
    · exact hP₁ e he
    · exact hP₂ e he

instance logs_ignores (f : Field) [hf : Has f recordFields] : Ignores (Logs P) f where
  set w v := logs_same (same_set
    (by rintro rfl; exact not_log_of_record hf.mem (by decide)) w v)

instance logs_drawing : Drawing env (Logs P) where
  newUuid := ⟨fun hr => by
    obtain ⟨-, rfl⟩ := (newUuid_runs env).mp hr
    exact logs_same rfl⟩
  fillBytes _ := ⟨fun hr => by
    obtain ⟨-, rfl⟩ := (fillBytes_runs env).mp hr
    exact logs_same rfl⟩

/-- No event at all. -/
theorem events_same (h : Logs (fun _ _ => False) w w') : w'.events = w.events := by
  obtain ⟨new, he, hnone⟩ := h
  rw [he, List.eq_nil_iff_forall_not_mem.mpr fun e he => hnone e he, List.append_nil]

theorem logs_event {recipients : List UserId} {kind : EventKind} {payload : EventPayload}
    {now : DateTime} (h : P recipients.toFinset payload) :
    Tx.Keeps (Logs P) (appendEvent env recipients kind payload now) where
  runs hr := by
    rw [appendEvent_runs.mp hr]
    exact ⟨_, rfl, by simpa using h⟩

/-- A notice goes to the members, and says so of its conversation. -/
theorem logs_notice {actor : UserId} {id : ConversationId} {text : String} {now : DateTime}
    {m : Message} (h : ∀ m, m.conversationId = id → P (w.audience id) (.message m))
    (hr : (appendSystemMessage env id actor text now).Runs w m w') : Logs P w w' := by
  simp only [appendSystemMessage, Tx.runs_get_bind, Tx.runs_okOr_bind] at hr
  obtain ⟨c, hget, hr⟩ := hr
  simp [sentMessage_runs, pushMessage, touchConversation, appendEvent_runs] at hr
  obtain ⟨-, rfl, rfl⟩ := hr
  refine ⟨_, rfl, ?_⟩
  intro e he
  rw [List.mem_singleton.mp he]
  dsimp only
  rw [← audience_of hget]
  exact h _ rfl

end

/-! ## What is announced -/

/-- The user whose profile the operation shows around. -/
def Op.shows : Op → Option UserId
  | .setConnectionPresence actor _ _ => some actor
  | .updateProfile userId _ _ _ => some userId
  | .updateProfilePrivacy actor _ _ => some actor
  | _ => none

/-- The conversation the operation names. -/
def Op.names : Op → Option ConversationId
  | .updateGroup _ id _ _ | .addGroupMembers _ id _ _ | .leaveGroup _ id _ | .disbandGroup _ id _
  | .updateGroupMember _ id _ _ _ | .removeGroupMember _ id _ _
  | .transferGroupOwnership _ id _ _ | .setGroupMute _ id _ _
  | .createGroupAnnouncement _ id _ _ | .requestToJoinGroup _ id _ _ | .createGroupPoll _ id _ _
  | .updateConversationSettings _ id _ _ | .markRead _ id _ _ | .sendMessageRequest _ id _ _
  | .forwardMessages _ _ id _ _ => some id
  | _ => none

/-- It is told to the members of the conversation. -/
def EventPayload.Concerns (id : ConversationId) : EventPayload → Prop
  | .conversation c | .conversationAdded c _ | .conversationMember c _ => c.id = id
  | .leftUser c _ | .removedMember c _ | .groupMuted c _ | .readPosition _ c _ => c = id
  | .groupAnnouncement announcement => announcement.conversationId = id
  | .groupPoll poll => poll.conversationId = id
  | .message m | .messageForwarded m => m.conversationId = id
  | .messageReactions _ _ => True
  | _ => False

/-- The administrators of a conversation, by their records. -/
def Conversation.administrators (c : Conversation) : List UserId :=
  (c.members.values.filter fun member => decide (.administrator ≤ member.role)).map (·.userId)

inductive Announced (w w' : World) : Op → Finset UserId → EventPayload → Prop where
  | profile {op actor p r a} (hop : op.shows = some actor)
    (hget : w'.accounts.get actor = some a) (hid : p.id = a.profile.id)
    (hr : r = actor ∨ ∃ f ∈ w.friendships, f.contains actor = true ∧ r = f.other actor) :
    Announced w w' op {r} (.profile p)
  | privacy {actor settings now} :
    Announced w w' (.updateProfilePrivacy actor settings now) {actor} (.privacy settings)
  | deleted {actor currentPassword confirmation now p} :
    Announced w w' (.deleteAccount actor currentPassword confirmation now)
      (accountRelationshipRecipients w.toStore actor).toFinset (.profileDeleted p)
  | requested {senderId username message now r} :
    Announced w w' (.sendFriendRequest senderId username message now) {r.senderId, r.recipientId}
      (.friendRequest r)
  | decided {actor requestId decision now r} :
    Announced w w' (.decideFriendRequest actor requestId decision now)
      {r.senderId, r.recipientId} (.friendRequest r)
  | configured {actor friendId request now settings} :
    Announced w w' (.updateFriendSettings actor friendId request now) {actor}
      (.friendSettings settings)
  | unfriended {actor friendId now} :
    Announced w w' (.deleteFriend actor friendId now) {actor, friendId}
      (.removedFriendIds [actor, friendId])
  | blocked {actor target now} :
    Announced w w' (.blockUser actor target now) {actor, target} (.blockedBy actor target)
  | unblocked {actor target now} :
    Announced w w' (.unblockUser actor target now) {actor} (.unblockedUserId target)
  | opened {actor peer now r c} (hread : w'.readable r c.id = true) :
    Announced w w' (.createDirect actor peer now) {r} (.conversation c)
  | members {op id payload} (hid : ∀ c, op.names = some c → id = c)
    (hconcerns : payload.Concerns id) : Announced w w' op (w'.audience id) payload
  | disbanded {actor id now} :
    Announced w w' (.disbandGroup actor id now) (w.audience id) (.disbanded id)
  | delivered {actor messageId now sender} :
    Announced w w' (.acknowledgeDelivery actor messageId now) {sender}
      (.messageDelivered messageId actor)
  | settings {actor id request now settings} :
    Announced w w' (.updateConversationSettings actor id request now) {actor}
      (.conversationSettings settings)
  | allRead {actor now} : Announced w w' (.markAllRead actor now) {actor} .allRead
  | applied {actor id request now r c} (hget : w'.conversations.get id = some c)
    (hid : r.conversationId = id) :
    Announced w w' (.requestToJoinGroup actor id request now) c.administrators.toFinset
      (.groupJoinRequest r)
  | reviewed {actor requestId request now r pending}
    (hpending : w.groupJoinRequests.get requestId = some pending)
    (hid : r.conversationId = pending.conversationId)
    (happlicant : r.applicantId = pending.applicantId) :
    Announced w w' (.decideGroupJoinRequest actor requestId request now)
      (insert pending.applicantId (w.audience pending.conversationId)) (.groupJoinRequest r)

/-- The events of the transaction are announcements. -/
def Announces (w : World) (op : Op) (w' : World) : Prop := Logs (Announced w w' op) w w'

section
variable {env : Env} {w w₁ w₂ w' : World} {op : Op} {actor target : UserId} {id : ConversationId}
  {now : DateTime}

theorem Touched.audience (h : Touched w w') (id : ConversationId) :
    w'.audience id = w.audience id := by
  refine Finset.ext fun u => ?_
  rw [Store.mem_audience, Store.mem_audience]
  unfold Store.readable
  rw [h.conversations.readable]

/-- Behind a store with the conversation only `updatedAt` moves. -/
theorem audience_later {c : Conversation} (hget : w₁.conversations.get id = some c)
    (h : Touched w₁ w') : w'.audience id = c.members.keys.toFinset := by
  rw [h.audience, audience_of hget]

/-- What a group operation ends with: an event to the members. -/
theorem announces_members {c : Conversation} {recipients : List UserId} {kind : EventKind}
    {payload : EventPayload} {u : Unit}
    (hevent : (appendEvent env recipients kind payload now).Runs w₁ u w')
    (hsame : w₁.events = w.events) (hget : w₁.conversations.get id = some c)
    (hmembers : recipients = c.members.keys) (hnames : ∀ c, op.names = some c → id = c)
    (hconcerns : payload.Concerns id) : Announces w op w' := by
  subst hmembers
  refine IsTrans.trans _ _ _ (logs_same hsame) ((logs_event ?_).runs hevent)
  rw [← audience_later hget (Tx.Keeps.runs (R := Touched) hevent)]
  exact .members hnames hconcerns

/-- A notice comes before it. -/
theorem announces_notice {c : Conversation} {recipients : List UserId} {text : String}
    {kind : EventKind} {payload : EventPayload} {u u' : Unit}
    (hnotice : (appendSystemMessage env id actor text now).void.Runs w₁ u w₂)
    (hevent : (appendEvent env recipients kind payload now).Runs w₂ u' w')
    (hsame : w₁.events = w.events) (hget : w₁.conversations.get id = some c)
    (hmembers : recipients = c.members.keys) (hnames : ∀ c, op.names = some c → id = c)
    (hconcerns : payload.Concerns id) : Announces w op w' := by
  subst hmembers
  have hlast : Touched w₂ w' := Tx.Keeps.runs (R := Touched) hevent
  have haudience := audience_later hget
    (IsTrans.trans _ _ _ (Tx.Keeps.runs (R := Touched) hnotice) hlast)
  obtain ⟨m, hnotice⟩ := Tx.runs_void.mp hnotice
  refine IsTrans.trans _ _ _ (logs_same hsame) (IsTrans.trans _ _ _
    (logs_notice (fun m hm => ?_) hnotice) ((logs_event ?_).runs hevent))
  · rw [audience_of hget, ← haudience]
    exact .members hnames hm
  · rw [← haudience]
    exact .members hnames hconcerns

/-- An event of a transaction that appends nothing before it. -/
theorem announces_event {recipients : List UserId} {kind : EventKind} {payload : EventPayload}
    {u : Unit} (hevent : (appendEvent env recipients kind payload now).Runs w₁ u w')
    (hsame : w₁.events = w.events) (h : Announced w w' op recipients.toFinset payload) :
    Announces w op w' :=
  IsTrans.trans _ _ _ (logs_same hsame) ((logs_event h).runs hevent)

/-! ### Group operations -/

set_option synthInstance.maxSize 1000000000000

theorem updateGroup_announces {request : UpdateGroupRequest} {c : Conversation} (hw : Named w)
    (h : (updateGroup env actor id request now).Runs w c w') :
    Announces w (.updateGroup actor id request now) w' := by
  unfold updateGroup at h
  simp only [Tx.runs_bind (t := Tx.whenSome _ _), Tx.runs_whenSome, check_runs, Tx.runs_get_bind,
    Tx.runs_ofExcept, Tx.runs_okOr_bind, Tx.runs_ofExcept_bind, update_bind_runs, ensureGroup_ok,
    requireRoleAtLeast_ok] at h
  obtain ⟨_, _, hname, _, _, hurl, _, _, havatar, c, hget, _, -, _, -, h⟩ := h
  rcases hname with ⟨_, -, -, rfl⟩ | ⟨-, rfl⟩ <;> rcases hurl with ⟨_, -, -, rfl⟩ | ⟨-, rfl⟩ <;>
    rcases havatar with ⟨a, -, -, rfl⟩ | ⟨-, rfl⟩
  all_goals
    obtain ⟨_, w₁, hnotice, h⟩ := Tx.runs_bind.mp h
    obtain ⟨_, w₂, hevent, h⟩ := Tx.runs_bind.mp h
    obtain ⟨rfl, rfl⟩ := Tx.runs_pure.mp h
    have hid : (c.updateGroup request now).id = id :=
      (Conversation.updateGroup_id ..).trans (hw _ _ hget)
    rcases Tx.runs_whenTrue.mp hnotice with ⟨-, hnotice⟩ | ⟨-, rfl⟩
    · exact announces_notice hnotice hevent rfl (Map.get_insert_self ..) rfl
        (by simp [Op.names]) hid
    · exact announces_members hevent rfl (Map.get_insert_self ..) rfl
        (by simp [Op.names]) hid

theorem leaveGroup_announces {u : Unit} (h : (leaveGroup env actor id now).Runs w u w') :
    Announces w (.leaveGroup actor id now) w' := by
  unfold leaveGroup at h
  simp only [Tx.runs_get_bind, Tx.runs_okOr_bind, Tx.runs_ofExcept_bind, Tx.runs_failIf_bind,
    update_bind_runs] at h
  obtain ⟨c, hget, _, -, m, -, -, h⟩ := h
  obtain ⟨_, w₁, hnotice, hevent⟩ := Tx.runs_bind.mp h
  exact announces_notice hnotice hevent rfl (Map.get_insert_self ..) rfl
    (by simp [Op.names]) rfl

theorem disbandGroup_announces {u : Unit} (h : (disbandGroup env actor id now).Runs w u w') :
    Announces w (.disbandGroup actor id now) w' := by
  unfold disbandGroup at h
  simp only [Tx.runs_get_bind, Tx.runs_okOr_bind, Tx.runs_ofExcept_bind, update_bind_runs] at h
  obtain ⟨c, hget, _, -, _, -, h⟩ := h
  refine announces_event h rfl ?_
  rw [← audience_of hget]
  exact .disbanded

theorem updateGroupMember_announces {request : UpdateGroupMemberRequest} {c : Conversation}
    (hw : Named w) (h : (updateGroupMember env actor id target request now).Runs w c w') :
    Announces w (.updateGroupMember actor id target request now) w' := by
  unfold updateGroupMember at h
  simp only [Tx.runs_get_bind, Tx.runs_okOr_bind, Tx.runs_ofExcept_bind, Tx.runs_failIf_bind,
    update_bind_runs] at h
  obtain ⟨-, c, hget, _, -, a, -, t, -, -, h⟩ := h
  obtain ⟨_, w₁, hnotice, h⟩ := Tx.runs_bind.mp h
  obtain ⟨_, w₂, hevent, h⟩ := Tx.runs_bind.mp h
  obtain ⟨rfl, rfl⟩ := Tx.runs_pure.mp h
  have hid : c.id = id := hw _ _ hget
  exact announces_notice hnotice hevent rfl (Map.get_insert_self ..) rfl
    (by simp [Op.names]) hid

theorem removeGroupMember_announces {u : Unit}
    (h : (removeGroupMember env actor id target now).Runs w u w') :
    Announces w (.removeGroupMember actor id target now) w' := by
  unfold removeGroupMember at h
  simp only [Tx.runs_get_bind, Tx.runs_okOr_bind, Tx.runs_ofExcept_bind, update_bind_runs] at h
  obtain ⟨c, hget, _, -, c', -, h⟩ := h
  obtain ⟨_, w₁, hnotice, hevent⟩ := Tx.runs_bind.mp h
  exact announces_notice hnotice hevent rfl (Map.get_insert_self ..) rfl
    (by simp [Op.names]) rfl

theorem transferGroupOwnership_announces {request : TransferGroupOwnershipRequest}
    {c : Conversation} (hw : Named w)
    (h : (transferGroupOwnership env actor id request now).Runs w c w') :
    Announces w (.transferGroupOwnership actor id request now) w' := by
  unfold transferGroupOwnership at h
  simp only [Tx.runs_get_bind, Tx.runs_okOr_bind, Tx.runs_ofExcept_bind, update_bind_runs,
    liftDomain_ok] at h
  obtain ⟨c, hget, _, -, c', htransfer, h⟩ := h
  obtain ⟨_, w₁, hnotice, h⟩ := Tx.runs_bind.mp h
  obtain ⟨_, w₂, hevent, h⟩ := Tx.runs_bind.mp h
  obtain ⟨rfl, rfl⟩ := Tx.runs_pure.mp h
  have hid := (Conversation.transferOwnership_id htransfer).trans (hw _ _ hget)
  exact announces_notice hnotice hevent rfl (Map.get_insert_self ..) rfl
    (by simp [Op.names]) hid

theorem setGroupMute_announces {request : GroupMuteRequest} {u : Unit}
    (h : (setGroupMute env actor id request now).Runs w u w') :
    Announces w (.setGroupMute actor id request now) w' := by
  unfold setGroupMute at h
  simp only [Tx.runs_get_bind, Tx.runs_okOr_bind, Tx.runs_ofExcept_bind, update_bind_runs] at h
  obtain ⟨c, hget, _, -, _, -, h⟩ := h
  obtain ⟨_, w₁, hnotice, hevent⟩ := Tx.runs_bind.mp h
  exact announces_notice hnotice hevent rfl hget rfl (by simp [Op.names]) rfl

theorem createGroupAnnouncement_announces {request : CreateGroupAnnouncementRequest}
    {announcement : GroupAnnouncement}
    (h : (createGroupAnnouncement env actor id request now).Runs w announcement w') :
    Announces w (.createGroupAnnouncement actor id request now) w' := by
  unfold createGroupAnnouncement at h
  simp only [Tx.runs_failIf_bind, Tx.runs_get_bind, Tx.runs_okOr_bind, Tx.runs_ofExcept_bind,
    Tx.runs_bind (t := newUuid env), newUuid_runs, update_bind_runs] at h
  obtain ⟨-, c, hget, _, -, _, -, _, _, ⟨rfl, rfl⟩, h⟩ := h
  obtain ⟨_, w₁, hnotice, h⟩ := Tx.runs_bind.mp h
  obtain ⟨_, w₂, hevent, h⟩ := Tx.runs_bind.mp h
  obtain ⟨rfl, rfl⟩ := Tx.runs_pure.mp h
  exact announces_notice hnotice hevent rfl hget rfl (by simp [Op.names]) rfl

theorem storeConversation_events {c : Conversation} {u : Unit}
    (h : (storeConversation c).Runs w u w') :
    w'.events = w.events ∧ w'.conversations.get c.id = some c := by
  refine ⟨events_same (Tx.Keeps.runs (R := Logs _) h), ?_⟩
  rw [(storeConversation_runs h).1, Map.get_insert_self]

theorem addGroupMembers_announces {request : AddGroupMembersRequest} {r : Conversation}
    (hw : Named w) (h : (addGroupMembers env actor id request now).Runs w r w') :
    Announces w (.addGroupMembers actor id request now) w' := by
  unfold addGroupMembers at h
  simp only [Tx.runs_failIf_bind, Tx.runs_get_bind, Tx.runs_okOr_bind, Tx.runs_ofExcept_bind] at h
  obtain ⟨-, c, hget, _, -, _, -, h⟩ := h
  obtain ⟨_, w₁, hloop, h⟩ := Tx.runs_bind.mp h
  obtain rfl : w = w₁ := Tx.Keeps.runs (R := Eq) hloop
  simp only [Tx.runs_failIf_bind, update_bind_runs] at h
  obtain ⟨-, h⟩ := h
  obtain ⟨_, w₂, hsettings, h⟩ := Tx.runs_bind.mp h
  obtain ⟨_, w₃, hnotice, h⟩ := Tx.runs_bind.mp h
  simp only [Tx.runs_get_bind, Tx.runs_okOr_bind] at h
  obtain ⟨c₃, hget₃, h⟩ := h
  obtain ⟨_, w₄, hevent, h⟩ := Tx.runs_bind.mp h
  obtain ⟨rfl, rfl⟩ := Tx.runs_pure.mp h
  have hsilent := Tx.Keeps.runs (R := Logs fun _ _ => False) hsettings
  have hsame : w₂.events = w.events := events_same hsilent
  have hget₂ : w₂.conversations.get id = some (c.addMembers (c.newMembers request.memberIds) now) := by
    have hconv : w₂.conversations = _ := (Tx.Keeps.runs (R := Evolves [.conversationSettings])
      hsettings).same .conversations (by decide)
    rw [hconv]
    exact Map.get_insert_self ..
  -- the conversation is read again behind the notice
  have hafter : Touched w₂ w₃ := Tx.Keeps.runs (R := Touched) hnotice
  obtain ⟨c₂, hc₂, htime⟩ := hafter.conversations.before hget₃
  cases hget₂.symm.trans hc₂
  have hmembers := (timeless_members htime).symm
  have hid : r.id = id := by
    rw [← timeless_id htime]
    exact (hw _ _ hget : c.id = id)
  rcases Tx.runs_whenTrue.mp hnotice with ⟨-, hnotice⟩ | ⟨-, rfl⟩
  · exact announces_notice hnotice hevent hsame hget₂ (congrArg Map.keys hmembers)
      (by simp [Op.names]) hid
  · exact announces_members hevent hsame hget₂ (congrArg Map.keys hmembers) (by simp [Op.names])
      hid

theorem createGroup_announces {memberIds : List UserId} {name : String} {c : Conversation}
    (h : (createGroup env actor memberIds name now).Runs w c w') :
    Announces w (.createGroup actor memberIds name now) w' := by
  unfold createGroup at h
  simp only [Tx.runs_get_bind, Tx.runs_failIf_bind, Tx.runs_bind (t := newUuid env), newUuid_runs,
    Tx.runs_ofExcept_bind, liftDomain_ok] at h
  obtain ⟨-, _, _, ⟨rfl, rfl⟩, _, _, ⟨rfl, rfl⟩, c, hnew, h⟩ := h
  obtain ⟨_, w₁, hstore, h⟩ := Tx.runs_bind.mp h
  obtain ⟨_, w₂, hevent, h⟩ := Tx.runs_bind.mp h
  obtain ⟨rfl, rfl⟩ := Tx.runs_pure.mp h
  obtain ⟨hsame, hget⟩ := storeConversation_events hstore
  exact announces_members hevent hsame hget rfl (by simp [Op.names]) rfl

theorem conversationForUser_id (c : Conversation) (u : UserId) :
    (conversationForUser c u).id = c.id := by
  unfold conversationForUser
  split <;> rfl

theorem createDirect_announces {c : Conversation}
    (h : (createDirect env actor target now).Runs w c w') :
    Announces w (.createDirect actor target now) w' := by
  unfold createDirect at h
  simp only [Tx.runs_get_bind, Tx.runs_failIf_bind] at h
  obtain ⟨-, h⟩ := h
  split at h
  · simp only [Tx.runs_okOr_bind, Tx.runs_pure] at h
    obtain ⟨-, -, -, rfl⟩ := h
    exact refl w'
  · simp only [Tx.runs_bind (t := newUuid env), newUuid_runs, Tx.runs_ofExcept_bind,
      liftDomain_ok] at h
    obtain ⟨_, _, ⟨rfl, rfl⟩, c, hnew, h⟩ := h
    obtain ⟨_, w₁, hstore, h⟩ := Tx.runs_bind.mp h
    obtain ⟨_, w₂, hloop, h⟩ := Tx.runs_bind.mp h
    obtain ⟨rfl, rfl⟩ := Tx.runs_pure.mp h
    obtain ⟨hsame, hget⟩ := storeConversation_events hstore
    refine IsTrans.trans _ _ _ (logs_same hsame) (@Tx.Keeps.runs _ _ _ _ _ ?_ _ _ _ hloop)
    refine Tx.keeps_forEach_mem fun r hr => logs_event ?_
    have hread : w'.readable r (conversationForUser c r).id = true := by
      rw [conversationForUser_id]
      have haudience := audience_later hget (Tx.Keeps.runs (R := Touched) hloop)
      rw [← Store.mem_audience, haudience, mem_members]
      exact ((Conversation.direct_ok hnew).2.2.2.2.2 r).mpr (by simpa using hr)
    exact .opened hread

theorem createGroupPoll_announces {request : CreateGroupPollRequest} {poll : GroupPoll}
    (h : (createGroupPoll env actor id request now).Runs w poll w') :
    Announces w (.createGroupPoll actor id request now) w' := by
  unfold createGroupPoll at h
  simp only [Tx.runs_failIf_bind, Tx.runs_get_bind, Tx.runs_okOr_bind, Tx.runs_ofExcept_bind,
    Tx.runs_bind (t := newUuid env), newUuid_runs] at h
  obtain ⟨-, c, hget, _, -, _, -, _, _, ⟨rfl, rfl⟩, h⟩ := h
  obtain ⟨options, w₁, hoptions, h⟩ := Tx.runs_bind.mp h
  rw [update_bind_runs] at h
  obtain ⟨_, w₂, hnotice, h⟩ := Tx.runs_bind.mp h
  obtain ⟨_, w₃, hevent, h⟩ := Tx.runs_bind.mp h
  obtain ⟨rfl, rfl⟩ := Tx.runs_pure.mp h
  have hsilent := Tx.Keeps.runs (R := Logs fun _ _ => False) hoptions
  have hsame : w₁.events = w.events := events_same hsilent
  have hconv : w₁.conversations = w.conversations :=
    (Tx.Keeps.runs (R := Evolves []) hoptions).same .conversations (by decide)
  exact announces_notice hnotice hevent hsame (hconv ▸ hget) rfl (by simp [Op.names]) rfl

theorem voteGroupPoll_announces {pollId : Uuid} {request : VoteGroupPollRequest} {poll : GroupPoll}
    (h : (voteGroupPoll env actor pollId request now).Runs w poll w') :
    Announces w (.voteGroupPoll actor pollId request now) w' := by
  unfold voteGroupPoll at h
  simp only [Tx.runs_failIf_bind, Tx.runs_get_bind, Tx.runs_okOr_bind, Tx.runs_ofExcept_bind,
    update_bind_runs] at h
  obtain ⟨existing, -, c, hget, _, -, -, h⟩ := h
  obtain ⟨_, w₁, hevent, h⟩ := Tx.runs_bind.mp h
  obtain ⟨rfl, rfl⟩ := Tx.runs_pure.mp h
  exact announces_members hevent rfl hget rfl (by simp [Op.names]) rfl

/-! ### Join requests -/

theorem requestToJoinGroup_announces {request : CreateGroupJoinRequest} {r : GroupJoinRequest}
    (h : (requestToJoinGroup env actor id request now).Runs w r w') :
    Announces w (.requestToJoinGroup actor id request now) w' := by
  unfold requestToJoinGroup at h
  simp only [Tx.runs_failIf_bind, Tx.runs_get_bind, Tx.runs_okOr_bind, Tx.runs_ofExcept_bind,
    Tx.runs_bind (t := newUuid env), newUuid_runs, update_bind_runs] at h
  obtain ⟨-, c, hget, _, -, -, -, _, _, ⟨rfl, rfl⟩, h⟩ := h
  obtain ⟨_, w₁, hevent, h⟩ := Tx.runs_bind.mp h
  obtain ⟨rfl, rfl⟩ := Tx.runs_pure.mp h
  refine announces_event hevent rfl (.applied (c := c) ?_ rfl)
  have hconv : w'.conversations = w.conversations :=
    appendEvent_only hevent .conversations (by decide)
  rw [hconv]
  exact hget

theorem decideGroupJoinRequest_announces {request : DecideGroupJoinRequest} {r : GroupJoinRequest}
    (h : (decideGroupJoinRequest env actor id request now).Runs w r w') :
    Announces w (.decideGroupJoinRequest actor id request now) w' := by
  unfold decideGroupJoinRequest at h
  simp only [Tx.runs_get_bind, Tx.runs_okOr_bind, Tx.runs_failIf_bind, Tx.runs_ofExcept_bind] at h
  obtain ⟨pending, hpending, -, c, hget, _, -, h⟩ := h
  obtain ⟨_, w₁, hjoined, h⟩ := Tx.runs_bind.mp h
  rw [update_bind_runs] at h
  obtain ⟨_, w₂, hnotice, h⟩ := Tx.runs_bind.mp h
  obtain ⟨_, w₃, hevent, h⟩ := Tx.runs_bind.mp h
  obtain ⟨rfl, rfl⟩ := Tx.runs_pure.mp h
  have hsilent := Tx.Keeps.runs (R := Logs fun _ _ => False) hjoined
  have hreviewed : Logs (Announced w w' (.decideGroupJoinRequest actor id request now)) w₂ w' := by
    refine (logs_event ?_).runs hevent
    rw [List.toFinset_append, ← audience_of hget, List.toFinset_cons, List.toFinset_nil,
      insert_empty_eq, Finset.union_comm, ← Finset.insert_eq]
    exact .reviewed hpending rfl rfl
  refine IsTrans.trans _ w₁ _ (logs_same (events_same hsilent)) ?_
  rcases Tx.runs_whenTrue.mp hnotice with ⟨-, hnotice⟩ | ⟨-, rfl⟩
  · have hafter : Touched _ w' := IsTrans.trans _ _ _ (Tx.Keeps.runs (R := Touched) hnotice)
      (Tx.Keeps.runs (R := Touched) hevent)
    obtain ⟨m, hnotice⟩ := Tx.runs_void.mp hnotice
    have hnotices := logs_notice (P := Announced w w' (.decideGroupJoinRequest actor id request now))
      (fun m hm => by
        rw [← hafter.audience]
        exact .members (by simp [Op.names]) hm) hnotice
    exact IsTrans.trans w₁ _ _ (logs_same rfl) (IsTrans.trans _ _ _ hnotices hreviewed)
  · exact IsTrans.trans w₁ _ _ (logs_same rfl) hreviewed

/-! ### Messages and settings -/

theorem messageRecipientsForSend_members {s : Store} {content : MessageContent}
    {recipients : List UserId}
    (h : messageRecipientsForSend s actor id content now = .ok recipients) :
    ∃ c, s.conversations.get id = some c ∧ recipients = c.members.keys := by
  unfold messageRecipientsForSend at h
  split at h
  · cases h
  · rename_i c hget
    refine ⟨c, hget, ?_⟩
    split at h
    · cases h
    split at h
    · split at h <;> simp_all
    · split at h
      · cases h
      · split at h <;> simp_all

theorem storeNewMessage_announces {request : SendMessageRequest} {m : Message} {ack : MessageAck}
    (h : (storeNewMessage env actor id request now).Runs w (m, ack) w') :
    Announces w (.sendMessageRequest actor id request now) w' := by
  have htouched : Touched w w' := by
    have hkeeps : Tx.Keeps Touched (storeNewMessage env actor id request now) := by
      unfold storeNewMessage; infer_instance
    exact hkeeps.runs h
  unfold storeNewMessage at h
  simp only [Tx.runs_get_bind, Tx.runs_ofExcept_bind] at h
  obtain ⟨_, -, recipients, hrecipients, _, -, h⟩ := h
  obtain ⟨c, hget, rfl⟩ := messageRecipientsForSend_members hrecipients
  simp [sentMessage_runs, pushMessage, recordDelivery, touchConversation, appendEvent_runs] at h
  obtain ⟨-, w₁, hexpires, ⟨rfl, rfl⟩, rfl⟩ := h
  have hsame : w₁.events = w.events := by
    rcases hexpires with ⟨-, -, rfl⟩ | ⟨-, rfl⟩ <;> rfl
  refine ⟨_, congrArg (· ++ _) hsame, fun e he => ?_⟩
  rw [List.mem_singleton.mp he]
  dsimp only
  rw [← audience_later hget htouched]
  exact .members (by simp [Op.names]) rfl

theorem sendMessageRequest_announces {request : SendMessageRequest} {m : Message}
    {ack : MessageAck} (h : (sendMessageRequest env actor id request now).Runs w (m, ack) w') :
    Announces w (.sendMessageRequest actor id request now) w' := by
  unfold sendMessageRequest sendMessageInStore at h
  simp only [Tx.runs_failIf_bind, Tx.runs_get_bind] at h
  obtain ⟨-, h⟩ := h
  split at h
  · simp only [Tx.runs_okOr_bind, Tx.runs_pure] at h
    obtain ⟨-, -, -, -, -, rfl⟩ := h
    exact refl w'
  · exact storeNewMessage_announces h

theorem forwarded_logs {P : Finset UserId → EventPayload → Prop} {recipients : List UserId}
    (hP : ∀ m, m.conversationId = id → P recipients.toFinset (.messageForwarded m))
    {contents : List MessageContent} {sequence : Nat} {ms : List Message}
    (h : (appendForwardedMessages env actor id recipients now sequence contents).Runs w ms w') :
    Logs P w w' := by
  induction contents generalizing sequence w ms with
  | nil =>
    unfold appendForwardedMessages at h
    obtain ⟨-, rfl⟩ := Tx.runs_pure.mp h
    exact refl w'
  | cons content contents ih =>
    unfold appendForwardedMessages at h
    obtain ⟨m, w₁, hm, h⟩ := Tx.runs_bind.mp h
    obtain ⟨rest, w₂, hrest, h⟩ := Tx.runs_bind.mp h
    obtain ⟨-, rfl⟩ := Tx.runs_pure.mp h
    refine IsTrans.trans _ _ _ ?_ (ih hrest)
    simp [appendForwardedMessage, sentMessage_runs, pushMessage, recordDelivery,
      appendEvent_runs] at hm
    obtain ⟨-, rfl, rfl⟩ := hm
    refine ⟨_, rfl, fun e he => ?_⟩
    rw [List.mem_singleton.mp he]
    exact hP _ rfl

theorem forwardMessages_announces {ids : List MessageId} {mode : ForwardMode} {ms : List Message}
    (h : (forwardMessages env actor ids id mode now).Runs w ms w') :
    Announces w (.forwardMessages actor ids id mode now) w' := by
  have htouched : Touched w w' := Tx.Keeps.runs (R := Touched) h
  unfold forwardMessages forwardMessagesInStore at h
  simp only [Tx.runs_failIf_bind, Tx.runs_get_bind, Tx.runs_ofExcept_bind,
    Tx.runs_okOr_bind] at h
  obtain ⟨-, -, sources, -, c, hget, -, h⟩ := h
  obtain ⟨_, w₁, hloop, h⟩ := Tx.runs_bind.mp h
  obtain ⟨_, w₂, htouch, h⟩ := Tx.runs_bind.mp h
  obtain ⟨-, rfl⟩ := Tx.runs_pure.mp h
  have hsilent := Tx.Keeps.runs (R := Logs fun _ _ => False) htouch
  refine IsTrans.trans _ _ _ (forwarded_logs (fun m hm => ?_) hloop)
    (logs_same (events_same hsilent))
  rw [← audience_later hget htouched]
  exact .members (by simp [Op.names]) hm

theorem recallMessage_announces {messageId : MessageId} {m : Message}
    (h : (recallMessage env actor messageId now).Runs w m w') :
    Announces w (.recallMessage actor messageId now) w' := by
  unfold recallMessage at h
  simp only [Tx.runs_get_bind, Tx.runs_okOr_bind] at h
  obtain ⟨original, -, c, hget, h⟩ := h
  split at h
  · simp only [Tx.runs_ofExcept_bind, Tx.runs_failIf_bind, update_bind_runs] at h
    obtain ⟨_, -, -, -, h⟩ := h
    obtain ⟨_, w₁, hevent, h⟩ := Tx.runs_bind.mp h
    obtain ⟨-, rfl⟩ := Tx.runs_pure.mp h
    exact announces_members hevent rfl hget rfl (by simp [Op.names]) rfl
  · obtain ⟨_, _, hpure, hrest⟩ := Tx.runs_bind.mp h
    obtain ⟨rfl, rfl⟩ := Tx.runs_pure.mp hpure
    simp only [Tx.runs_failIf_bind, update_bind_runs] at hrest
    obtain ⟨-, -, h⟩ := hrest
    obtain ⟨_, w₁, hevent, h⟩ := Tx.runs_bind.mp h
    obtain ⟨-, rfl⟩ := Tx.runs_pure.mp h
    exact announces_members hevent rfl hget rfl (by simp [Op.names]) rfl

theorem reactToMessage_announces {messageId : MessageId} {emoji : String} {active : Bool}
    {reactions : List MessageReaction}
    (h : (reactToMessage env actor messageId emoji active now).Runs w reactions w') :
    Announces w (.reactToMessage actor messageId emoji active now) w' := by
  unfold reactToMessage at h
  simp only [Tx.runs_failIf_bind, Tx.runs_get_bind, Tx.runs_okOr_bind, update_bind_runs] at h
  obtain ⟨-, m, -, c, hget, -, h⟩ := h
  obtain ⟨_, w₁, hevent, h⟩ := Tx.runs_bind.mp h
  obtain ⟨-, rfl⟩ := Tx.runs_pure.mp h
  exact announces_members hevent rfl hget rfl (by simp [Op.names]) trivial

theorem markRead_announces {throughSequence : Nat} {u : Unit}
    (h : (markRead env actor id throughSequence now).Runs w u w') :
    Announces w (.markRead actor id throughSequence now) w' := by
  unfold markRead at h
  simp only [Tx.runs_get_bind, Tx.runs_okOr_bind, Tx.runs_failIf_bind] at h
  obtain ⟨c, hget, -, h⟩ := h
  obtain ⟨_, w₁, hloop, h⟩ := Tx.runs_bind.mp h
  simp only [update_bind_runs] at h
  have hsilent := Tx.Keeps.runs (R := Logs fun _ _ => False) hloop
  have hsame : w₁.events = w.events := events_same hsilent
  have hconv : w₁.conversations = w.conversations :=
    (Tx.Keeps.runs (R := Evolves [.messageReceipts]) hloop).same .conversations (by decide)
  exact announces_members h hsame (hconv ▸ hget) rfl (by simp [Op.names]) rfl

/-! ### Friends and profiles -/

theorem sendFriendRequest_announces {username message : String} {r : FriendRequest}
    (h : (sendFriendRequest env actor username message now).Runs w r w') :
    Announces w (.sendFriendRequest actor username message now) w' := by
  unfold sendFriendRequest at h
  simp only [Tx.runs_get_bind, Tx.runs_okOr_bind, Tx.runs_failIf_bind,
    Tx.runs_bind (t := newUuid env), newUuid_runs, Tx.runs_ofExcept_bind, update_bind_runs,
    liftDomain_ok] at h
  obtain ⟨recipient, -, -, -, _, _, ⟨rfl, rfl⟩, request, hnew, h⟩ := h
  obtain ⟨_, w₁, hevent, h⟩ := Tx.runs_bind.mp h
  obtain ⟨rfl, rfl⟩ := Tx.runs_pure.mp h
  obtain ⟨-, -, hsender, hrecipient, -⟩ := FriendRequest.new_ok hnew
  refine announces_event hevent rfl ?_
  rw [List.toFinset_cons, List.toFinset_cons, List.toFinset_nil, insert_empty_eq, ← hsender,
    ← hrecipient]
  exact .requested

theorem decideFriendRequest_announces {requestId : FriendRequestId}
    {decision : FriendRequestDecision} {r : FriendRequest}
    (h : (decideFriendRequest env actor requestId decision now).Runs w r w') :
    Announces w (.decideFriendRequest actor requestId decision now) w' := by
  unfold decideFriendRequest at h
  simp only [Tx.runs_get_bind, Tx.runs_okOr_bind, Tx.runs_ofExcept_bind, update_bind_runs] at h
  obtain ⟨request, -, decided, -, h⟩ := h
  obtain ⟨_, w₁, hwhen, h⟩ := Tx.runs_bind.mp h
  obtain ⟨_, w₂, hevent, h⟩ := Tx.runs_bind.mp h
  obtain ⟨rfl, rfl⟩ := Tx.runs_pure.mp h
  have hsilent := Tx.Keeps.runs (R := Logs fun _ _ => False) hwhen
  refine announces_event hevent (events_same hsilent) ?_
  rw [List.toFinset_cons, List.toFinset_cons, List.toFinset_nil, insert_empty_eq]
  exact .decided

theorem deleteAccount_announces {currentPassword confirmation : String} {u : Unit}
    (h : (deleteAccount env actor currentPassword confirmation now).Runs w u w') :
    Announces w (.deleteAccount actor currentPassword confirmation now) w' := by
  unfold deleteAccount deleteAccountInStore at h
  simp only [Tx.runs_failIf_bind, Tx.runs_get_bind, Tx.runs_okOr_bind] at h
  obtain ⟨-, account, -, -, h⟩ := h
  obtain ⟨_, w₁, hdetach, h⟩ := Tx.runs_bind.mp h
  obtain ⟨_, w₂, hanonymize, h⟩ := Tx.runs_bind.mp h
  obtain ⟨_, w₃, hpurge, hevent⟩ := Tx.runs_bind.mp h
  have hsilent : Logs (fun _ _ => False) w w₃ := IsTrans.trans _ _ _ (Tx.Keeps.runs hdetach)
    (IsTrans.trans _ _ _ (Tx.Keeps.runs hanonymize) (Tx.Keeps.runs hpurge))
  exact announces_event hevent (events_same hsilent) .deleted

theorem visibleProfile_id {s : Store} {viewer : UserId} {p : UserProfile}
    (h : visibleProfile s viewer target = some p) :
    ∃ a, s.accounts.get target = some a ∧ p.id = a.profile.id := by
  unfold visibleProfile at h
  obtain ⟨a, ha, rfl⟩ := Option.map_eq_some_iff.mp h
  refine ⟨a, (activeAccount_some.mp ha).1, ?_⟩
  dsimp only
  split <;> rfl

/-- The loop that shows a profile to friends. -/
theorem profiles_logs {P : Finset UserId → EventPayload → Prop} {recipients : List UserId}
    (hP : ∀ p a, w.accounts.get actor = some a → p.id = a.profile.id →
      ∀ r ∈ recipients, P {r} (.profile p)) {u : Unit}
    (h : (Tx.forEach recipients fun recipient => do
      let w ← get
      let visible ← Tx.okOr (visibleProfile w.toStore recipient actor) .notFound
      appendEvent env [recipient] .presenceUpdated (.profile visible) now).Runs w u w') :
    Logs P w w' := by
  induction recipients generalizing w with
  | nil =>
    obtain ⟨-, rfl⟩ := Tx.runs_pure.mp h
    exact refl w'
  | cons recipient recipients ih =>
    obtain ⟨_, w₁, hfirst, h⟩ := Tx.runs_bind.mp h
    simp only [Tx.runs_get_bind, Tx.runs_okOr_bind] at hfirst
    obtain ⟨p, hp, hevent⟩ := hfirst
    obtain ⟨a, hget, hid⟩ := visibleProfile_id hp
    have hsame : w₁.accounts = w.accounts := appendEvent_only hevent .accounts (by decide)
    refine IsTrans.trans _ _ _ ((logs_event ?_).runs hevent) (ih (fun p a hget hid r hr => ?_) h)
    · exact hP p a hget hid recipient List.mem_cons_self
    · exact hP p a (hsame ▸ hget) hid r (List.mem_cons_of_mem _ hr)

theorem mem_friends {friendships : List Friendship} {r : UserId}
    (h : r ∈ (friendships.filter (·.contains actor)).map (·.other actor)) :
    ∃ f ∈ friendships, f.contains actor = true ∧ r = f.other actor := by
  obtain ⟨f, hf, rfl⟩ := List.mem_map.mp h
  obtain ⟨hf, hcontains⟩ := List.mem_filter.mp hf
  exact ⟨f, hf, hcontains, rfl⟩

/-- The profile goes to the user and their friends. -/
theorem appendProfileEvents_announces {profile : UserProfile} {a : Account} {u : Unit}
    (h : (appendProfileEvents env actor profile now).Runs w₁ u w')
    (hshows : op.shows = some actor) (hsame : w₁.events = w.events)
    (hfriends : w₁.friendships = w.friendships) (hget : w₁.accounts.get actor = some a)
    (hid : profile.id = a.profile.id) : Announces w op w' := by
  have haccounts : w'.accounts = w₁.accounts := (Tx.Keeps.runs (R := Evolves []) h).same
    .accounts (by decide)
  unfold appendProfileEvents at h
  rw [Tx.runs_get_bind] at h
  obtain ⟨_, w₂, hevent, h⟩ := Tx.runs_bind.mp h
  have hsame₂ : w₂.accounts = w₁.accounts := appendEvent_only hevent .accounts (by decide)
  refine IsTrans.trans _ _ _ (logs_same hsame) (IsTrans.trans _ _ _
    ((logs_event ?_).runs hevent) (profiles_logs (fun p a' hget' hid' r hr => ?_) h))
  · exact .profile hshows (haccounts ▸ hget) hid (.inl rfl)
  · rw [hfriends] at hr
    exact .profile hshows (haccounts ▸ hsame₂ ▸ hget') hid' (.inr (mem_friends hr))

theorem setConnectionPresence_announces {connected : Bool} {u : Unit}
    (h : (setConnectionPresence env actor connected now).Runs w u w') :
    Announces w (.setConnectionPresence actor connected now) w' := by
  unfold setConnectionPresence at h
  simp only [Tx.runs_get_bind, Tx.runs_okOr_bind, update_bind_runs] at h
  obtain ⟨a, ha, h⟩ := h
  exact appendProfileEvents_announces h rfl rfl rfl (Map.get_insert_self ..) rfl

theorem updateProfile_announces {input : UpdateProfileInput} {utcNow : DateTime}
    {profile : UserProfile} (h : (updateProfile env actor input utcNow now).Runs w profile w') :
    Announces w (.updateProfile actor input utcNow now) w' := by
  unfold updateProfile at h
  rw [Tx.runs_get_bind] at h
  obtain ⟨_, w₁, hcheck, h⟩ := Tx.runs_bind.mp h
  obtain rfl : w = w₁ := Tx.Keeps.runs (R := Eq) hcheck
  simp only [Tx.runs_okOr_bind, Tx.runs_ofExcept_bind, update_bind_runs] at h
  obtain ⟨a, ha, p, hp, h⟩ := h
  obtain ⟨_, w₂, hpresence, h⟩ := Tx.runs_bind.mp h
  obtain ⟨_, w₃, hevents, h⟩ := Tx.runs_bind.mp h
  obtain ⟨rfl, rfl⟩ := Tx.runs_pure.mp h
  have hsilent := Tx.Keeps.runs (R := Logs fun _ _ => False) hpresence
  have hkeeps := Tx.Keeps.runs (R := Evolves [.preferredPresence]) hpresence
  have hfriends := hkeeps.same .friendships (by decide)
  have haccounts : w₂.accounts = _ := hkeeps.same .accounts (by decide)
  refine appendProfileEvents_announces hevents rfl (events_same hsilent) hfriends
    (a := { a with profile := profile }) ?_ rfl
  rw [haccounts]
  exact Map.get_insert_self ..

theorem updateProfilePrivacy_announces {settings r : ProfilePrivacySettings}
    (h : (updateProfilePrivacy env actor settings now).Runs w r w') :
    Announces w (.updateProfilePrivacy actor settings now) w' := by
  unfold updateProfilePrivacy at h
  simp only [Tx.runs_get_bind, Tx.runs_failIf_bind, update_bind_runs] at h
  obtain ⟨-, h⟩ := h
  obtain ⟨_, w₁, hloop, h⟩ := Tx.runs_bind.mp h
  obtain ⟨_, w₂, hevent, h⟩ := Tx.runs_bind.mp h
  obtain ⟨-, rfl⟩ := Tx.runs_pure.mp h
  have haccounts : w'.accounts = w.accounts :=
    (appendEvent_only hevent .accounts (by decide)).trans
      ((Tx.Keeps.runs (R := Evolves []) hloop).same .accounts (by decide))
  have hshown := profiles_logs (P := Announced w w' (.updateProfilePrivacy actor settings now))
    (fun p a hget hid r hr => .profile rfl (haccounts ▸ hget) hid (.inr (mem_friends hr))) hloop
  exact IsTrans.trans _ _ _ (logs_same rfl) (IsTrans.trans _ _ _ hshown
    ((logs_event .privacy).runs hevent))

theorem updateFriendSettings_announces {request : UpdateFriendSettingsRequest} {r : FriendSettings}
    (h : (updateFriendSettings env actor target request now).Runs w r w') :
    Announces w (.updateFriendSettings actor target request now) w' := by
  unfold updateFriendSettings at h
  simp only [check_bind_runs, Tx.runs_get_bind, Tx.runs_failIf_bind, update_bind_runs] at h
  obtain ⟨-, -, -, h⟩ := h
  obtain ⟨_, w₁, hevent, h⟩ := Tx.runs_bind.mp h
  obtain ⟨-, rfl⟩ := Tx.runs_pure.mp h
  exact announces_event hevent rfl .configured

theorem deleteFriend_announces {u : Unit} (h : (deleteFriend env actor target now).Runs w u w') :
    Announces w (.deleteFriend actor target now) w' := by
  unfold deleteFriend at h
  simp only [Tx.runs_get_bind, Tx.runs_failIf_bind, update_bind_runs] at h
  refine announces_event h.2 rfl ?_
  rw [List.toFinset_cons, List.toFinset_cons, List.toFinset_nil, insert_empty_eq]
  exact .unfriended

theorem blockUser_announces {u : Unit} (h : (blockUser env actor target now).Runs w u w') :
    Announces w (.blockUser actor target now) w' := by
  unfold blockUser at h
  simp only [Tx.runs_get_bind, Tx.runs_failIf_bind, update_bind_runs] at h
  refine announces_event h.2.2 (by simp only [World.set]) ?_
  rw [List.toFinset_cons, List.toFinset_cons, List.toFinset_nil, insert_empty_eq]
  exact .blocked

theorem unblockUser_announces {u : Unit} (h : (unblockUser env actor target now).Runs w u w') :
    Announces w (.unblockUser actor target now) w' := by
  unfold unblockUser at h
  simp only [Tx.runs_get_bind, Tx.runs_failIf_bind, update_bind_runs] at h
  exact announces_event h.2 rfl .unblocked

theorem updateConversationSettings_announces {request : UpdateConversationSettingsRequest}
    {r : ConversationSettings}
    (h : (updateConversationSettings env actor id request now).Runs w r w') :
    Announces w (.updateConversationSettings actor id request now) w' := by
  unfold updateConversationSettings at h
  simp only [Tx.runs_get_bind, Tx.runs_okOr_bind, Tx.runs_failIf_bind, update_bind_runs] at h
  obtain ⟨-, -, c, -, -, h⟩ := h
  obtain ⟨_, w₁, hevent, h⟩ := Tx.runs_bind.mp h
  obtain ⟨-, rfl⟩ := Tx.runs_pure.mp h
  exact announces_event hevent rfl .settings

theorem markAllRead_announces {u : Unit} (h : (markAllRead env actor now).Runs w u w') :
    Announces w (.markAllRead actor now) w' := by
  unfold markAllRead at h
  rw [Tx.runs_get_bind] at h
  obtain ⟨_, w₁, hloop, h⟩ := Tx.runs_bind.mp h
  have hsilent := Tx.Keeps.runs (R := Logs fun _ _ => False) hloop
  exact announces_event h (events_same hsilent) .allRead

theorem acknowledgeDelivery_announces {messageId : MessageId} {u : Unit}
    (h : (acknowledgeDelivery env actor messageId now).Runs w u w') :
    Announces w (.acknowledgeDelivery actor messageId now) w' := by
  unfold acknowledgeDelivery recordDelivery at h
  simp only [Tx.runs_get_bind, Tx.runs_okOr_bind, Tx.runs_failIf_bind, update_bind_runs] at h
  obtain ⟨m, -, c, -, -, h⟩ := h
  exact announces_event h rfl .delivered

/-- **Announcements.** Every event a transaction appends is one of the announcements. -/
theorem Op.announced (hw : Named w) (h : (op.run env).Runs w () w') : Announces w op w' := by
  cases op
  case setConnectionPresence =>
    obtain ⟨_, hr⟩ := Tx.runs_void.mp h
    exact setConnectionPresence_announces hr
  case updateProfile =>
    obtain ⟨_, hr⟩ := Tx.runs_void.mp h
    exact updateProfile_announces hr
  case updateProfilePrivacy =>
    obtain ⟨_, hr⟩ := Tx.runs_void.mp h
    exact updateProfilePrivacy_announces hr
  case deleteAccount =>
    obtain ⟨_, hr⟩ := Tx.runs_void.mp h
    exact deleteAccount_announces hr
  case sendFriendRequest =>
    obtain ⟨_, hr⟩ := Tx.runs_void.mp h
    exact sendFriendRequest_announces hr
  case decideFriendRequest =>
    obtain ⟨_, hr⟩ := Tx.runs_void.mp h
    exact decideFriendRequest_announces hr
  case updateFriendSettings =>
    obtain ⟨_, hr⟩ := Tx.runs_void.mp h
    exact updateFriendSettings_announces hr
  case deleteFriend =>
    obtain ⟨_, hr⟩ := Tx.runs_void.mp h
    exact deleteFriend_announces hr
  case blockUser =>
    obtain ⟨_, hr⟩ := Tx.runs_void.mp h
    exact blockUser_announces hr
  case unblockUser =>
    obtain ⟨_, hr⟩ := Tx.runs_void.mp h
    exact unblockUser_announces hr
  case createDirect =>
    obtain ⟨_, hr⟩ := Tx.runs_void.mp h
    exact createDirect_announces hr
  case createGroup =>
    obtain ⟨_, hr⟩ := Tx.runs_void.mp h
    exact createGroup_announces hr
  case updateGroup =>
    obtain ⟨_, hr⟩ := Tx.runs_void.mp h
    exact updateGroup_announces hw hr
  case addGroupMembers =>
    obtain ⟨_, hr⟩ := Tx.runs_void.mp h
    exact addGroupMembers_announces hw hr
  case leaveGroup =>
    obtain ⟨_, hr⟩ := Tx.runs_void.mp h
    exact leaveGroup_announces hr
  case disbandGroup =>
    obtain ⟨_, hr⟩ := Tx.runs_void.mp h
    exact disbandGroup_announces hr
  case updateGroupMember =>
    obtain ⟨_, hr⟩ := Tx.runs_void.mp h
    exact updateGroupMember_announces hw hr
  case removeGroupMember =>
    obtain ⟨_, hr⟩ := Tx.runs_void.mp h
    exact removeGroupMember_announces hr
  case transferGroupOwnership =>
    obtain ⟨_, hr⟩ := Tx.runs_void.mp h
    exact transferGroupOwnership_announces hw hr
  case setGroupMute =>
    obtain ⟨_, hr⟩ := Tx.runs_void.mp h
    exact setGroupMute_announces hr
  case createGroupAnnouncement =>
    obtain ⟨_, hr⟩ := Tx.runs_void.mp h
    exact createGroupAnnouncement_announces hr
  case requestToJoinGroup =>
    obtain ⟨_, hr⟩ := Tx.runs_void.mp h
    exact requestToJoinGroup_announces hr
  case decideGroupJoinRequest =>
    obtain ⟨_, hr⟩ := Tx.runs_void.mp h
    exact decideGroupJoinRequest_announces hr
  case createGroupPoll =>
    obtain ⟨_, hr⟩ := Tx.runs_void.mp h
    exact createGroupPoll_announces hr
  case voteGroupPoll =>
    obtain ⟨_, hr⟩ := Tx.runs_void.mp h
    exact voteGroupPoll_announces hr
  case updateConversationSettings =>
    obtain ⟨_, hr⟩ := Tx.runs_void.mp h
    exact updateConversationSettings_announces hr
  case markAllRead =>
    obtain ⟨_, hr⟩ := Tx.runs_void.mp h
    exact markAllRead_announces hr
  case markRead =>
    obtain ⟨_, hr⟩ := Tx.runs_void.mp h
    exact markRead_announces hr
  case sendMessageRequest =>
    obtain ⟨⟨_, _⟩, hr⟩ := Tx.runs_void.mp h
    exact sendMessageRequest_announces hr
  case acknowledgeDelivery =>
    obtain ⟨_, hr⟩ := Tx.runs_void.mp h
    exact acknowledgeDelivery_announces hr
  case recallMessage =>
    obtain ⟨_, hr⟩ := Tx.runs_void.mp h
    exact recallMessage_announces hr
  case reactToMessage =>
    obtain ⟨_, hr⟩ := Tx.runs_void.mp h
    exact reactToMessage_announces hr
  case forwardMessages =>
    obtain ⟨_, hr⟩ := Tx.runs_void.mp h
    exact forwardMessages_announces hr
  all_goals
    dsimp only [Op.run] at h
    exact Tx.Keeps.runs (R := Logs _) h

end

end IamRust
