import IamRust.L4Properties.Announcements
import IamRust.L4Properties.ClientIds

/-!
# The timeline, replayed

A client that keeps the newest version of every message it is told about.

* `Op.versions`: the events of a transaction that carry a full message carry it as
  it is stored, and every message the transaction stores or changes is carried by
  one.
* `replay_reproduces`: a member since a message was stored replays its current
  version.
-/
namespace IamRust

open Core

/-! ## Versions -/

/-- The full message in a payload. -/
abbrev EventPayload.version : EventPayload → Option Message
  | .message m | .messageForwarded m => some m
  | _ => none

/-- The full message that an event of a message carries. -/
def SyncEvent.version (e : SyncEvent) : Option Message :=
  match e.kind with
  | .messageCreated | .messageUpdated => e.payload.version
  | _ => none

/-- The message an event tells is created. -/
def SyncEvent.created (e : SyncEvent) : Option Message :=
  match e.kind with
  | .messageCreated => e.payload.version
  | _ => none

/-- The newest version of each message among the user's events. -/
def replay (u : UserId) (events : List UserEvent) : Map MessageId Message :=
  .written ((events.filter (·.addressedTo u)).filterMap fun e =>
    e.event.version.map fun m => (m.id, m))

/-- What the events `new` of a step carry: stored messages, and each new version. -/
structure Versions (w w' : World) (new : List UserEvent) : Prop where
  stored : ∀ e ∈ new, ∀ m, e.event.version = some m → ∃ c i, w'.messageAt c i = some m
  carried : ∀ {c i m}, w'.messageAt c i = some m →
    w.messageAt c i = some m ∨ ∃ e ∈ new, e.event.version = some m

/-- Messages are added, and their events carry them. -/
structure Recounts (w w' : World) : Prop where
  keeps : ∀ {c i m}, w.messageAt c i = some m → w'.messageAt c i = some m
  log : ∃ new, w'.events = w.events ++ new ∧ Versions w w' new

instance : IsPreorder World Recounts where
  refl w := ⟨fun h => h, [], by simp, by simp, fun h => .inl h⟩
  trans w w₁ w₂ h₁ h₂ := by
    obtain ⟨new₁, he₁, hv₁⟩ := h₁.log
    obtain ⟨new₂, he₂, hv₂⟩ := h₂.log
    refine ⟨fun h => h₂.keeps (h₁.keeps h), new₁ ++ new₂, by rw [he₂, he₁, List.append_assoc],
      fun e he m hm => ?_, fun h => ?_⟩
    · rcases List.mem_append.mp he with he | he
      · obtain ⟨c, i, hat⟩ := hv₁.stored e he m hm
        exact ⟨c, i, h₂.keeps hat⟩
      · exact hv₂.stored e he m hm
    · rcases hv₂.carried h with h | ⟨e, he, hm⟩
      · rcases hv₁.carried h with h | ⟨e, he, hm⟩
        · exact .inl h
        · exact .inr ⟨e, List.mem_append_left _ he, hm⟩
      · exact .inr ⟨e, List.mem_append_right _ he, hm⟩

/-- `o` is `none`, by computation. -/
class IsNone {α : Type} (o : Option α) : Prop where
  eq_none : o = none

instance isNone_none {α : Type} : IsNone (none : Option α) := ⟨rfl⟩

section
variable {env : Env} {w w' : World} {m : Message}

theorem SyncEvent.version_eq_none {e : SyncEvent} (h : e.payload.version = none) :
    e.version = none := by
  unfold SyncEvent.version
  split
  · exact h
  · exact h
  · rfl

theorem SyncEvent.payload_version {e : SyncEvent} {m : Message} (h : e.version = some m) :
    e.payload.version = some m := by
  unfold SyncEvent.version at h
  split at h
  · exact h
  · exact h
  · cases h

/-- The message a payload carries, in the event of its creation. -/
theorem SyncEvent.version_of_created {e : SyncEvent} (h : e.created = some m) :
    e.version = some m := by
  unfold SyncEvent.created at h
  unfold SyncEvent.version
  split at h
  · rename_i hkind
    rw [hkind]
    exact h
  · cases h

theorem SyncEvent.created_eq_none {e : SyncEvent} (h : e.payload.version = none) :
    e.created = none := by
  unfold SyncEvent.created
  split
  · exact h
  · rfl

theorem storeNewMessage_event {actor : UserId} {c : ConversationId} {now : DateTime}
    {request : SendMessageRequest} {ack : MessageAck}
    (h : (storeNewMessage env actor c request now).Runs w (m, ack) w') :
    ∃ e, w'.events = w.events ++ [e] ∧ e.event.created = some m := by
  simp only [storeNewMessage, Tx.runs_get_bind, Tx.runs_ofExcept_bind] at h
  obtain ⟨-, -, recipients, -, -, -, h⟩ := h
  simp [sentMessage_runs, pushMessage, recordDelivery, touchConversation, appendEvent_runs] at h
  -- the two cases: with and without an expiry
  obtain ⟨-, w₁, ⟨-, -, rfl⟩ | ⟨-, rfl⟩, ⟨rfl, rfl⟩, rfl⟩ := h
  all_goals exact ⟨_, rfl, rfl⟩

end

/-! ## Messages and the log -/

/-- A relation between what is stored and what is told: it is kept where both stay, where an event
without a message is appended, and where a message is stored and the event of its creation
appended. -/
class Telling (R : World → World → Prop) : Prop where
  same : ∀ {w w'}, Same .messages w w' → Same .events w w' → R w w'
  event : ∀ {w w' e}, Same .messages w w' → w'.events = w.events ++ [e] →
    e.event.payload.version = none → R w w'
  posted : ∀ {env w m w' e}, Posted env w m w' → w'.events = w.events ++ [e] →
    e.event.created = some m → R w w'

section
variable {env : Env} {R : World → World → Prop} [IsPreorder World R] [hR : Telling R]
  {actor : UserId} {c : ConversationId} {now : DateTime}

instance telling_event {recipients : List UserId} {kind : EventKind} {payload : EventPayload}
    [hp : IsNone payload.version] :
    Tx.Keeps R (appendEvent env recipients kind payload now) where
  runs h := by
    rw [appendEvent_runs.mp h]
    exact hR.event rfl rfl hp.eq_none

instance telling_ignores (f : Field) [hf : Has f (accountFields ++ sessionFields ++
    socialFields ++ groupFields ++ contentFields ++ [.messageDedup])] :
    Ignores R f where
  set w v := hR.same
    (same_set (by rintro rfl; exact absurd hf.mem (by decide)) w v)
    (same_set (by rintro rfl; exact absurd hf.mem (by decide)) w v)

instance telling_drawing : Drawing env R where
  newUuid := ⟨fun hr => by
    obtain ⟨-, rfl⟩ := (newUuid_runs env).mp hr
    exact hR.same rfl rfl⟩
  fillBytes _ := ⟨fun hr => by
    obtain ⟨-, rfl⟩ := (fillBytes_runs env).mp hr
    exact hR.same rfl rfl⟩

instance telling_posting : Posting env R where
  notice id actor text now := ⟨fun {w m w'} h => by
    have hposted := (appendSystemMessage_noticed h).toPosted
    simp only [appendSystemMessage, Tx.runs_get_bind, Tx.runs_okOr_bind] at h
    obtain ⟨conversation, -, h⟩ := h
    simp [sentMessage_runs, pushMessage, touchConversation, appendEvent_runs] at h
    obtain ⟨-, rfl, rfl⟩ := h
    exact hR.posted hposted rfl rfl⟩

instance telling_forward {messageIds : List MessageId} {mode : ForwardMode} :
    Tx.Keeps R (forwardMessages env actor messageIds c mode now) :=
  forwardMessages_keeps fun h hrec _ _ => by
    simp [appendForwardedMessage, sentMessage_runs, pushMessage, recordDelivery,
      appendEvent_runs] at h
    obtain ⟨-, rfl, rfl⟩ := h
    exact hR.posted hrec.toPosted rfl rfl

instance telling_send {request : SendMessageRequest} :
    Tx.Keeps R (sendMessageRequest env actor c request now) where
  runs {w r w'} h := by
    simp only [sendMessageRequest, sendMessageInStore, Tx.runs_failIf_bind,
      Tx.runs_get_bind] at h
    obtain ⟨-, h⟩ := h
    split at h
    · obtain ⟨e, -, h⟩ := Tx.runs_okOr_bind.mp h
      obtain ⟨existing, -, h⟩ := Tx.runs_okOr_bind.mp h
      obtain ⟨-, rfl⟩ := Tx.runs_pure.mp h
      exact refl w'
    · obtain ⟨e, he, hcreated⟩ := storeNewMessage_event h
      exact hR.posted (storeNewMessage_recorded h).1.toPosted he hcreated

set_option synthInstance.maxSize 1000000000000 in
/-- **Transactions.** But for a recall messages are only added, and told as created. -/
theorem Op.telling {op : Op} {w w' : World}
    (hop : ∀ actor messageId now, op ≠ .recallMessage actor messageId now)
    (h : (op.run env).Runs w () w') : R w w' := by
  suffices hkeeps : Tx.Keeps R (op.run env) from hkeeps.runs h
  clear h
  cases op <;> dsimp only [Op.run]
  case recallMessage actor messageId now => exact absurd rfl (hop actor messageId now)
  all_goals first
    | infer_instance
    | dsimp only [IamRust.setConnectionPresence, IamRust.updateProfile,
        IamRust.updateProfilePrivacy, IamRust.deleteAccount, deleteAccountInStore,
        appendProfileEvents, IamRust.sendFriendRequest, IamRust.decideFriendRequest,
        IamRust.updateFriendSettings, IamRust.deleteFriend, IamRust.blockUser, IamRust.unblockUser,
        IamRust.createDirect, IamRust.createGroup, IamRust.updateGroup, IamRust.addGroupMembers,
        IamRust.leaveGroup, IamRust.disbandGroup, IamRust.updateGroupMember,
        IamRust.removeGroupMember, IamRust.transferGroupOwnership, IamRust.setGroupMute,
        IamRust.createGroupAnnouncement, IamRust.requestToJoinGroup,
        IamRust.decideGroupJoinRequest, IamRust.createGroupPoll, IamRust.voteGroupPoll,
        IamRust.updateConversationSettings, IamRust.markAllRead, IamRust.markRead,
        IamRust.acknowledgeDelivery, IamRust.reactToMessage]
      infer_instance

end

instance : Telling Recounts where
  same {w w'} hm he := by
    have he : w'.events = w.events := he
    have hat := Store.messageAt_eq hm
    refine ⟨fun h => by rw [hat]; exact h, [], by simpa using he, by simp, fun h => ?_⟩
    rw [hat] at h
    exact .inl h
  event {w w' e} hm he hp := by
    have hat := Store.messageAt_eq hm
    refine ⟨fun h => by rw [hat]; exact h, [e], he, fun e' he' m hm' => ?_, fun h => ?_⟩
    · cases List.mem_singleton.mp he'
      rw [SyncEvent.version_eq_none hp] at hm'
      cases hm'
    · rw [hat] at h
      exact .inl h
  posted {env w m w' e} hp he hcreated := by
    have hm := SyncEvent.version_of_created hcreated
    refine ⟨hp.messageAt_mono, [e], he, fun e' he' m' hm' => ?_, fun h => ?_⟩
    · cases List.mem_singleton.mp he'
      cases hm.symm.trans hm'
      exact ⟨_, _, hp.messageAt_new⟩
    · rcases hp.messageAt.mp h with h | ⟨-, -, rfl⟩
      · exact .inl h
      · exact .inr ⟨e, List.mem_singleton_self e, hm⟩

section
variable {env : Env} {w w' : World} {m : Message}

/-! ## Recalls -/

/-- A place keeps its message, or had one with the id, which is recalled. -/
theorem recallIn_getElem? (messageId : MessageId) (now : DateTime) (l : List Message) (i : Nat) :
    (recallIn messageId now l)[i]? = l[i]? ∨ ∃ m, l[i]? = some m ∧ m.id = messageId ∧
      (recallIn messageId now l)[i]? = some (m.recalled now) := by
  induction l generalizing i with
  | nil => exact .inl rfl
  | cons m ms ih =>
    unfold recallIn
    split
    · rename_i hid
      cases i with
      | zero => exact .inr ⟨m, rfl, hid, rfl⟩
      | succ i => exact .inl rfl
    · cases i with
      | zero => exact .inl rfl
      | succ i => exact ih i

/-- Some message with the id is recalled, if there is one. -/
theorem recallIn_recalls {messageId : MessageId} {now : DateTime} {l : List Message} {m : Message}
    (hm : m ∈ l) (hid : m.id = messageId) : ∃ (i : Nat) (m' : Message), l[i]? = some m' ∧ m'.id = messageId ∧
      (recallIn messageId now l)[i]? = some (m'.recalled now) := by
  induction l with
  | nil => cases hm
  | cons m₀ ms ih =>
    unfold recallIn
    split
    · exact ⟨0, m₀, rfl, ‹_›, rfl⟩
    · rcases List.mem_cons.mp hm with rfl | hm
      · exact absurd hid ‹_›
      · obtain ⟨i, m', h⟩ := ih hm
        exact ⟨i + 1, m', h⟩

theorem recallMessage_effect {actor : UserId} {messageId : MessageId} {now : DateTime}
    (h : (recallMessage env actor messageId now).Runs w m w') :
    ∃ original, findMessage w.toStore messageId = some original ∧ m = original.recalled now ∧
      w'.messages = w.messages.modify original.conversationId (recallIn messageId now) ∧
      ∃ e, w'.events = w.events ++ [e] ∧ e.event.version = some m ∧ e.event.created = none := by
  unfold recallMessage at h
  simp only [Tx.runs_get_bind, Tx.runs_okOr_bind] at h
  obtain ⟨original, hfound, c, -, h⟩ := h
  refine ⟨original, hfound, ?_⟩
  split at h
  · simp only [Tx.runs_ofExcept_bind, Tx.runs_failIf_bind, update_bind_runs] at h
    obtain ⟨_, -, -, -, h⟩ := h
    obtain ⟨_, w₁, hevent, h⟩ := Tx.runs_bind.mp h
    obtain ⟨rfl, rfl⟩ := Tx.runs_pure.mp h
    rw [appendEvent_runs.mp hevent]
    exact ⟨rfl, rfl, _, rfl, rfl, rfl⟩
  · obtain ⟨_, _, hpure, hrest⟩ := Tx.runs_bind.mp h
    obtain ⟨rfl, rfl⟩ := Tx.runs_pure.mp hpure
    simp only [Tx.runs_failIf_bind, update_bind_runs] at hrest
    obtain ⟨-, -, hrest⟩ := hrest
    obtain ⟨_, w₁, hevent, hrest⟩ := Tx.runs_bind.mp hrest
    obtain ⟨rfl, rfl⟩ := Tx.runs_pure.mp hrest
    rw [appendEvent_runs.mp hevent]
    exact ⟨rfl, rfl, _, rfl, rfl, rfl⟩

theorem messageAt_recallIn {id : ConversationId} {messageId : MessageId} {now : DateTime}
    (h : w'.messages = w.messages.modify id (recallIn messageId now)) (c : ConversationId) (i : Nat) :
    w'.messageAt c i =
      if c = id then (recallIn messageId now (w.timeline c))[i]? else w.messageAt c i := by
  unfold Store.messageAt Store.timeline
  rw [h, Map.get_modify]
  split <;> cases w.messages.get c <;> rfl

/-- With unique ids the message that is recalled is the one that was found. -/
theorem recallMessage_versions (ht : Timelines env w) {actor : UserId} {messageId : MessageId}
    {now : DateTime} (h : (recallMessage env actor messageId now).Runs w m w') :
    ∃ new, w'.events = w.events ++ new ∧ Versions w w' new := by
  obtain ⟨original, hfound, rfl, hmessages, e, he, hversion, -⟩ := recallMessage_effect h
  obtain ⟨hid, c, hc⟩ := findMessage_some hfound
  obtain ⟨j, hj⟩ := Store.messageAt_of_mem hc
  obtain rfl := ht.home hj
  have hat := messageAt_recallIn hmessages
  have hsame : ∀ {i m'}, w.messageAt original.conversationId i = some m' → m'.id = messageId →
      m' = original := by
    intro i m' hm' hid'
    obtain ⟨-, rfl⟩ := ht.unique hm' hj (hid'.trans hid.symm)
    cases hm'.symm.trans hj
    rfl
  refine ⟨[e], he, fun e' he' m' hm' => ?_, fun {c i m'} hm' => ?_⟩
  · cases List.mem_singleton.mp he'
    cases hversion.symm.trans hm'
    obtain ⟨i, m₁, hm₁, hid₁, hrecalled⟩ := @recallIn_recalls messageId now _ _ hc hid
    cases hsame hm₁ hid₁
    exact ⟨original.conversationId, i, by rw [hat, if_pos rfl]; exact hrecalled⟩
  · rw [hat] at hm'
    split at hm'
    · rename_i hc'
      subst hc'
      rcases recallIn_getElem? messageId now (w.timeline original.conversationId) i with hkept |
        ⟨m₁, hm₁, hid₁, hrecalled⟩
      · exact .inl (hkept.symm.trans hm')
      · obtain rfl := hsame hm₁ hid₁
        exact .inr ⟨e, List.mem_singleton_self e, hversion.trans (hrecalled.symm.trans hm')⟩
    · exact .inl hm'

/-- **Versions.** The events of a transaction that carry a full message carry a stored one, and
every message that was not there before is carried by one. -/
theorem Op.versions {op : Op} (ht : Timelines env w) (h : (op.run env).Runs w () w') :
    ∃ new, w'.events = w.events ++ new ∧ Versions w w' new := by
  by_cases hop : ∃ actor messageId now, op = .recallMessage actor messageId now
  · obtain ⟨actor, messageId, now, rfl⟩ := hop
    obtain ⟨m, hr⟩ := Tx.runs_void.mp h
    exact recallMessage_versions ht hr
  · exact (Op.telling (R := Recounts) (fun actor messageId now he => hop ⟨actor, messageId, now, he⟩) h).log

/-- They are told to the members. -/
theorem Announced.version_members {op : Op} {recipients : Finset UserId} {payload : EventPayload}
    (h : Announced w w' op recipients payload) (hm : payload.version = some m) :
    recipients = w'.audience m.conversationId := by
  cases h
  case members hconcerns =>
    cases payload <;> cases hm <;> exact hconcerns ▸ rfl
  all_goals cases hm

end

/-! ## Replaying -/

section
variable {env : Env} {w w' : World} {m : Message} {u : UserId} {c : ConversationId} {i : Nat}

/-- **Every version is told.** A transaction that stores or changes a message appends an event with
the new version to each member, as the members are after it. -/
theorem Op.version_told {op : Op} (ht : Timelines env w) (ht' : Timelines env w') (hn : Named w)
    (h : (op.run env).Runs w () w') (hm : w'.messageAt c i = some m)
    (hnew : w.messageAt c i ≠ some m) (hread : w'.readable u c = true) :
    ∃ e ∈ w.appended w', e.addressedTo u = true ∧ e.event.version = some m := by
  obtain ⟨new, he, hv⟩ := Op.versions ht h
  have happended : w.appended w' = new := by
    unfold World.appended
    rw [he, List.drop_left]
  obtain ⟨e, hmem, hversion⟩ := (hv.carried hm).resolve_left hnew
  rw [← happended] at hmem
  have hmembers := ((Op.announced hn h).appended e hmem).version_members
    (SyncEvent.payload_version hversion)
  rw [ht'.home hm] at hmembers
  exact ⟨e, hmem, by simpa [UserEvent.addressedTo, hmembers] using Store.mem_audience.mpr hread,
    hversion⟩

/-- The user's replay has the message as it is stored. -/
def Replayed (u : UserId) (w : World) (m : Message) : Prop :=
  (replay u w.events).get m.id = some m

/-- **Step.** For a member a message is replayed after a transaction, if the transaction stored or
changed it, or if it was replayed before. -/
theorem Replayed.step {op : Op} (ht : Timelines env w) (ht' : Timelines env w') (hn : Named w)
    (h : (op.run env).Runs w () w') (hread : w'.readable u c = true)
    (hm : w'.messageAt c i = some m) (hold : w.messageAt c i = some m → Replayed u w m) :
    Replayed u w' m := by
  obtain ⟨new, he, hv⟩ := Op.versions ht h
  have happended : w.appended w' = new := by
    unfold World.appended
    rw [he, List.drop_left]
  unfold Replayed replay
  rw [he, List.filter_append, List.filterMap_append]
  refine Map.get_written_append ?_ ?_
  · -- what is carried under the id is the stored message
    intro p hp hid
    obtain ⟨e, hmem, hversion⟩ := List.mem_filterMap.mp hp
    obtain ⟨m', hm', rfl⟩ := Option.map_eq_some_iff.mp hversion
    obtain ⟨c', i', hat⟩ := hv.stored e (List.mem_of_mem_filter hmem) m' hm'
    obtain ⟨rfl, rfl⟩ := ht'.unique hat hm hid
    exact Option.some.inj (hat.symm.trans hm)
  · by_cases hbefore : w.messageAt c i = some m
    · exact .inr (hold hbefore)
    · obtain ⟨e, hmem, hto, hversion⟩ := Op.version_told ht ht' hn h hm hbefore hread
      rw [happended] at hmem
      refine .inl ⟨(m.id, m), List.mem_filterMap.mpr ⟨e, List.mem_filter.mpr ⟨hmem, hto⟩, ?_⟩, rfl⟩
      rw [hversion]
      rfl

theorem Replayed.run {ls : List Op} (hu : Function.Injective env.uuid)
    (hr : (service env).Reachable w)
    (hrun : ((service env).restrict fun w _ => w.readable u c = true).Run w ls w')
    (hold : ∀ m, w.readable u c = true → w.messageAt c i = some m → Replayed u w m)
    (hread : w'.readable u c = true) (hm : w'.messageAt c i = some m) : Replayed u w' m := by
  induction hrun with
  | nil => exact hold m hread hm
  | @cons w w₁ _ op _ hs _ ih =>
    have hr₁ := hr.step hs.2
    refine ih hr₁ (fun m₁ hread₁ hm₁ => ?_) hread hm
    exact Replayed.step (reachable_timelines hu hr) (reachable_timelines hu hr₁)
      ((named_inductive env).reachable hr) hs.2 hread₁ hm₁ (hold m₁ hs.1)

end

/-- **The log reproduces the timeline.** A transaction stores a message, and the user is a member
then and in every store after that: the user's replay has the message as it is stored now. And
every version of a message is told to the members when it is made. -/
theorem replay_reproduces (env : Env) (hu : Function.Injective env.uuid) :
    (∀ u c i w₀ op w₁ ls w m, (service env).Reachable w₀ → (service env).step w₀ op w₁ →
      w₀.messageAt c i = none → (w₁.messageAt c i).isSome →
      ((service env).restrict fun w _ => w.readable u c = true).Run w₁ ls w →
      w.readable u c = true → w.messageAt c i = some m →
      (replay u w.events).get m.id = some m) ∧
    ∀ w op w' u c i m, (service env).Reachable w → (service env).step w op w' →
      w'.messageAt c i = some m → w.messageAt c i ≠ some m → w'.readable u c = true →
      ∃ e ∈ w.appended w', e.addressedTo u = true ∧ e.event.version = some m := by
  refine ⟨fun u c i w₀ op w₁ ls w m hr hs hnone _ hrun hread hm => ?_,
    fun w op w' u c i m hr hs hm hnew hread => ?_⟩
  · have hr₁ := hr.step hs
    refine Replayed.run hu hr₁ hrun (fun m₁ hread₁ hm₁ => ?_) hread hm
    refine Replayed.step (reachable_timelines hu hr) (reachable_timelines hu hr₁)
      ((named_inductive env).reachable hr) hs hread₁ hm₁ fun hbefore => ?_
    cases hnone.symm.trans hbefore
  · exact Op.version_told (reachable_timelines hu hr) (reachable_timelines hu (hr.step hs))
      ((named_inductive env).reachable hr) hs hm hnew hread

/-- Alice sends Bob a message and recalls it. -/
theorem replay_reproduces_bob : ∃ w m, (service Env.numbered).Reachable w ∧
    w.messageAt 9 0 = some m ∧ m.status = .recalled ∧
    (replay 4 w.events).get m.id = some m := by
  obtain ⟨w₀, _, w₁, hw, hsend, hp⟩ := reaches_runs Env.numbered aliceAndBob
    ((Op.sendMessageRequest 1 9 (.text 100 "hi") 0).run Env.numbered)
    (fun w₀ _ w₁ => (w₀.messageAt 9 0).isNone && (w₁.messageAt 9 0).isSome && w₁.readable 4 9 &&
      ((Op.recallMessage 1 14 1).run Env.numbered w₁).toOption.any fun r =>
        r.2.readable 4 9 && (r.2.messageAt 9 0).any fun m => m.status == .recalled)
    (by decide +kernel)
  simp only [Bool.and_eq_true, Option.isNone_iff_eq_none, Option.any_eq_true, beq_iff_eq] at hp
  obtain ⟨⟨⟨hnone, hsome⟩, hread₁⟩, ⟨_, w⟩, hrecall, hread, m, hm, hstatus⟩ := hp
  have hrecalls : (service Env.numbered).step w₁ (.recallMessage 1 14 1) w := by
    cases hr : (Op.recallMessage 1 14 1).run Env.numbered w₁ with
    | error e => simp [hr, Except.toOption] at hrecall
    | ok r =>
      simp only [hr, Except.toOption, Option.some.injEq] at hrecall
      subst hrecall
      exact hr
  have hw₀ := reachable_of_run hw
  exact ⟨w, m, (hw₀.step hsend).step hrecalls, hm, hstatus,
    (replay_reproduces Env.numbered Env.numbered_injective).1 4 9 0 w₀ _ w₁ [_] w m hw₀ hsend hnone
      hsome (.cons ⟨hread₁, hrecalls⟩ (.nil _)) hread hm⟩

end IamRust
