import IamRust.L4Properties.Forwarding
import IamRust.L4Properties.Replay

/-!
# Where a message comes from

Three functions store a message and one rewrites it. `Op.origin` says so of every
transaction: a message stored after it was stored before, as it is; or it is the
result of the recall, a notice `append_system_message` returned on the way, the
message of the send, or one of the copies of the forward.
-/
namespace IamRust

open Core

/-- How a transaction came to have the message `m` at a place. -/
inductive Origin (env : Env) (w : World) (op : Op) (w' : World) (c : ConversationId) (i : Nat)
    (m : Message) : Prop where
  | kept (h : w.messageAt c i = some m)
  | recalled {original actor now} (hop : op = .recallMessage actor original.id now)
    (h : w.messageAt c i = some original) (hm : m = original.recalled now)
  | notice {actor text now w₁ w₂} (hrun : (appendSystemMessage env c actor text now).Runs w₁ m w₂)
    (hstart : w.nextUuid ≤ w₁.nextUuid) (hend : w₂.nextUuid ≤ w'.nextUuid)
  | sent {actor request now ack} (hop : op = .sendMessageRequest actor c request now)
    (hnone : w.messageDedup.get (actor, request.clientMessageId) = none)
    (hrun : (storeNewMessage env actor c request now).Runs w (m, ack) w')
  | forwarded {actor ids mode now sources} (hop : op = .forwardMessages actor ids c mode now)
    (hsources : collectForwardSources w.toStore actor mode ids = .ok sources)
    (hcontent : m.content ∈ forwardContents mode sources) (hreply : m.replyTo = none)
    (hmentions : m.mentions = [])

/-- Messages stay as they are, and the new ones are notices. -/
structure Notices (env : Env) (w w' : World) : Prop where
  uuids : w.nextUuid ≤ w'.nextUuid
  added : ∀ {c i m}, w'.messageAt c i = some m → w.messageAt c i = some m ∨
    ∃ actor text now w₁ w₂, (appendSystemMessage env c actor text now).Runs w₁ m w₂ ∧
      w.nextUuid ≤ w₁.nextUuid ∧ w₂.nextUuid ≤ w'.nextUuid

instance (env : Env) : IsPreorder World (Notices env) where
  refl w := ⟨Nat.le_refl _, fun h => .inl h⟩
  trans w w₁ w₂ h₁ h₂ := by
    refine ⟨h₁.uuids.trans h₂.uuids, fun h => ?_⟩
    rcases h₂.added h with h | ⟨actor, text, now, v₁, v₂, hrun, hstart, hend⟩
    · rcases h₁.added h with h | ⟨actor, text, now, v₁, v₂, hrun, hstart, hend⟩
      · exact .inl h
      · exact .inr ⟨actor, text, now, v₁, v₂, hrun, hstart, hend.trans h₂.uuids⟩
    · exact .inr ⟨actor, text, now, v₁, v₂, hrun, h₁.uuids.trans hstart, hend⟩

section
variable {env : Env} {w w' : World} {m : Message} {actor : UserId} {c : ConversationId}
  {now : DateTime}

theorem notices_same (hm : Same .messages w w') (hn : w.nextUuid ≤ w'.nextUuid) :
    Notices env w w' :=
  ⟨hn, fun {c i m} h => .inl (by rwa [Store.messageAt_eq hm c i] at h)⟩

instance notices_ignores (f : Field) [hf : Has f (accountFields ++ sessionFields ++
    socialFields ++ groupFields ++ contentFields ++ [.messageDedup])] :
    Ignores (Notices env) f where
  set w v := by
    have hm : Field.messages ≠ f := by rintro rfl; exact absurd hf.mem (by decide)
    have hn : Field.nextUuid ≠ f := by rintro rfl; exact absurd hf.mem (by decide)
    exact notices_same (same_set hm w v) (Nat.le_of_eq (same_set hn w v).symm)

instance notices_logged : Logged env (Notices env) :=
  logged_of fun ho hn => notices_same (ho .messages (by decide)) hn

instance notices_posting : Posting env (Notices env) where
  notice id actor text now := ⟨fun {w m w'} h => by
    have hposted := (appendSystemMessage_noticed h).toPosted
    refine ⟨Nat.le_of_lt hposted.draws, fun hm => ?_⟩
    rcases hposted.messageAt.mp hm with hm | ⟨rfl, -, rfl⟩
    · exact .inl hm
    · obtain ⟨-, rfl⟩ := appendSystemMessage_sender h
      exact .inr ⟨actor, text, now, w, w', h, Nat.le_refl _, Nat.le_refl _⟩⟩

theorem appendForwardedMessage_plain {content : MessageContent} {sequence : Nat}
    {recipients : List UserId}
    (h : (appendForwardedMessage env actor c content sequence recipients now).Runs w m w') :
    m.replyTo = none ∧ m.mentions = [] := by
  simp [appendForwardedMessage, sentMessage_runs, pushMessage, recordDelivery, appendEvent_runs]
    at h
  obtain ⟨-, rfl, -⟩ := h
  exact ⟨rfl, rfl⟩

/-- The copies are the only new messages of a forward. -/
theorem appendForwardedMessages_added {recipients : List UserId} {contents : List MessageContent}
    {sequence : Nat} {ms : List Message} (hs : sequence = lastSequence w.toStore c)
    (h : (appendForwardedMessages env actor c recipients now sequence contents).Runs w ms w')
    {id : ConversationId} {i : Nat} (hm : w'.messageAt id i = some m) :
    w.messageAt id i = some m ∨
      id = c ∧ m.content ∈ contents ∧ m.replyTo = none ∧ m.mentions = [] := by
  induction contents generalizing sequence w ms with
  | nil =>
    obtain ⟨-, rfl⟩ := Tx.runs_pure.mp h
    exact .inl hm
  | cons content contents ih =>
    obtain ⟨m₁, w₁, hcopy, h⟩ := Tx.runs_bind.mp h
    obtain ⟨rest, w₂, hrest, h⟩ := Tx.runs_bind.mp h
    obtain ⟨-, rfl⟩ := Tx.runs_pure.mp h
    obtain ⟨hrecorded, -, hid, -, hseq⟩ :=
      appendForwardedMessage_recorded (congrArg saturatingSucc hs) hcopy
    have hlast := hrecorded.lastSequence
    rw [hseq, hid, Option.some.injEq] at hlast
    rcases ih hlast hrest with hm | ⟨rfl, hcontent, hplain⟩
    · rcases hrecorded.messageAt.mp hm with hm | ⟨rfl, -, rfl⟩
      · exact .inl hm
      · refine .inr ⟨hid, ?_, appendForwardedMessage_plain hcopy⟩
        rw [appendForwardedMessage_content hcopy]
        exact List.mem_cons_self
    · exact .inr ⟨rfl, List.mem_cons_of_mem _ hcontent, hplain⟩

theorem forwardMessages_origin {ids : List MessageId} {mode : ForwardMode} {ms : List Message}
    (h : (forwardMessages env actor ids c mode now).Runs w ms w') {id : ConversationId} {i : Nat}
    (hm : w'.messageAt id i = some m) :
    Origin env w (.forwardMessages actor ids c mode now) w' id i m := by
  simp only [forwardMessages, forwardMessagesInStore, Tx.runs_failIf_bind, Tx.runs_get_bind,
    Tx.runs_ofExcept_bind, Tx.runs_okOr_bind] at h
  obtain ⟨-, -, sources, hsources, target, -, -, h⟩ := h
  obtain ⟨_, w₁, hloop, h⟩ := Tx.runs_bind.mp h
  obtain ⟨_, w₂, htouch, h⟩ := Tx.runs_bind.mp h
  obtain ⟨-, rfl⟩ := Tx.runs_pure.mp h
  obtain rfl := Tx.runs_modify.mp htouch
  rcases appendForwardedMessages_added rfl hloop hm with hm | ⟨rfl, hcontent, hreply, hmentions⟩
  · exact .kept hm
  · exact .forwarded rfl hsources hcontent hreply hmentions

theorem sendMessageRequest_origin {request : SendMessageRequest} {r : Message × MessageAck}
    (h : (sendMessageRequest env actor c request now).Runs w r w') {id : ConversationId} {i : Nat}
    (hm : w'.messageAt id i = some m) :
    Origin env w (.sendMessageRequest actor c request now) w' id i m := by
  simp only [sendMessageRequest, sendMessageInStore, Tx.runs_failIf_bind, Tx.runs_get_bind] at h
  obtain ⟨-, h⟩ := h
  split at h
  · obtain ⟨e, -, h⟩ := Tx.runs_okOr_bind.mp h
    obtain ⟨existing, -, h⟩ := Tx.runs_okOr_bind.mp h
    obtain ⟨-, rfl⟩ := Tx.runs_pure.mp h
    exact .kept hm
  · rename_i hnone
    obtain ⟨hrecorded, -, -, hid, -⟩ := storeNewMessage_recorded h
    rcases hrecorded.messageAt.mp hm with hm | ⟨rfl, -, rfl⟩
    · exact .kept hm
    · subst hid
      exact .sent rfl (by simpa using hnone) h

theorem recallMessage_origin {messageId : MessageId} {m₁ : Message}
    (hop : (recallMessage env actor messageId now).Runs w m₁ w')
    {id : ConversationId} {i : Nat} (hm : w'.messageAt id i = some m) :
    Origin env w (.recallMessage actor messageId now) w' id i m := by
  obtain ⟨original, -, -, hmessages, -⟩ := recallMessage_effect hop
  rw [messageAt_recallIn hmessages] at hm
  split at hm
  · rename_i hid
    subst hid
    rcases recallIn_getElem? messageId now (w.timeline original.conversationId) i with hkept |
      ⟨m₀, hm₀, rfl, hrecalled⟩
    · exact .kept (hkept.symm.trans hm)
    · exact .recalled rfl hm₀ (Option.some.inj (hm.symm.trans hrecalled))
  · exact .kept hm

set_option synthInstance.maxSize 1000000000000 in
/-- **Origins.** Every message stored after a transaction has one of the five origins. -/
theorem Op.origin {op : Op} (h : (op.run env).Runs w () w') {i : Nat}
    (hm : w'.messageAt c i = some m) : Origin env w op w' c i m := by
  cases op
  case sendMessageRequest =>
    obtain ⟨r, hr⟩ := Tx.runs_void.mp h
    exact sendMessageRequest_origin hr hm
  case forwardMessages =>
    obtain ⟨ms, hr⟩ := Tx.runs_void.mp h
    exact forwardMessages_origin hr hm
  case recallMessage =>
    obtain ⟨m₁, hr⟩ := Tx.runs_void.mp h
    exact recallMessage_origin hr hm
  all_goals
    dsimp only [Op.run] at h
    rcases (Tx.Keeps.runs (R := Notices env) h).added hm with hm | ⟨actor, text, now, w₁, w₂, hrun,
      hstart, hend⟩
    · exact .kept hm
    · exact .notice hrun hstart hend

end

end IamRust
