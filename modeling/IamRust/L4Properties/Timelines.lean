import IamRust.L3Service.System

/-!
# Timelines

What the three functions that store a message do to the timelines (`Posted`),
and the invariant that follows: sequences count from 1 without a gap, a message
is stored under its own conversation, and no two messages share an id. Draws
are taken to be distinct.
-/
namespace IamRust

open Core

/-! ## Stored messages -/

/-- The stored messages of a conversation, in order. -/
def Store.timeline (s : Store) (conversationId : ConversationId) : List Message :=
  (s.messages.get conversationId).getD []

/-- The `i`-th stored message of a conversation. -/
def Store.messageAt (s : Store) (conversationId : ConversationId) (i : Nat) : Option Message :=
  (s.timeline conversationId)[i]?

theorem Store.messageAt_of_mem {s : Store} {c : ConversationId} {m : Message}
    (h : m ∈ s.timeline c) : ∃ i, s.messageAt c i = some m := by
  obtain ⟨i, hi, hm⟩ := List.mem_iff_getElem.mp h
  exact ⟨i, List.getElem?_eq_some_iff.mpr ⟨hi, hm⟩⟩

theorem Store.mem_of_messageAt {s : Store} {c : ConversationId} {i : Nat} {m : Message}
    (h : s.messageAt c i = some m) : m ∈ s.timeline c := List.mem_of_getElem? h

theorem Store.messageAt_eq {s s' : Store} (h : s'.messages = s.messages) (c : ConversationId)
    (i : Nat) : s'.messageAt c i = s.messageAt c i := by
  unfold Store.messageAt Store.timeline
  rw [h]

theorem not_messageAt_init {c : ConversationId} {i : Nat} {m : Message} :
    ¬ World.init.messageAt c i = some m := by
  intro h
  cases h

theorem lastSequence_eq (s : Store) (c : ConversationId) :
    lastSequence s c = ((s.timeline c).getLast?.bind (·.sequence)).getD 0 := by
  unfold lastSequence Store.timeline
  cases s.messages.get c <;> rfl

/-- `findMessage` finds a stored message with the id. -/
theorem findMessage_some {s : Store} {id : MessageId} {m : Message}
    (h : findMessage s id = some m) : m.id = id ∧ ∃ c, m ∈ s.timeline c := by
  have hid : m.id = id := by simpa using List.find?_some h
  obtain ⟨l, hl, hm⟩ := List.mem_flatten.mp (List.mem_of_find?_eq_some h)
  obtain ⟨c, hc⟩ := Map.mem_values.mp hl
  exact ⟨hid, c, by simpa [Store.timeline, hc] using hm⟩

/-- A stored message is found, or another one with its id. -/
theorem findMessage_isSome {s : Store} {c : ConversationId} {m : Message}
    (h : m ∈ s.timeline c) : ∃ m', findMessage s m.id = some m' := by
  cases hc : s.messages.get c with
  | none => simp [Store.timeline, hc] at h
  | some l =>
    have hm : m ∈ l := by simpa [Store.timeline, hc] using h
    have : (findMessage s m.id).isSome := by
      rw [findMessage, List.find?_isSome]
      exact ⟨m, List.mem_flatten.mpr ⟨l, Map.mem_values.mpr ⟨c, hc⟩, hm⟩, by simp⟩
    exact Option.isSome_iff_exists.mp this

/-! ## Storing one message -/

/-- `w'` has one message more than `w`: `m`, the last of its conversation, under an id drawn
meanwhile and with the sequence after the last one. -/
structure Posted (env : Env) (w : World) (m : Message) (w' : World) : Prop where
  messages : w'.messages = w.messages.upsert m.conversationId [] (· ++ [m])
  drawn : ∃ k, w.nextUuid ≤ k ∧ k < w'.nextUuid ∧ m.id = env.uuid k
  sequence : ∃ s, m.sequence = some s ∧ (lastSequence w.toStore m.conversationId < u64Max →
    s = lastSequence w.toStore m.conversationId + 1)

/-- A notice: its client id is drawn, and the client ids on record stay as they are. -/
structure Noticed (env : Env) (w : World) (m : Message) (w' : World) : Prop
    extends Posted env w m w' where
  dedup : w'.messageDedup = w.messageDedup
  clientId : m.clientMessageId = env.uuid w.nextUuid
  system : m.content.isSystem = true

/-- A message of a user: its client id is recorded with it. -/
structure Recorded (env : Env) (w : World) (m : Message) (w' : World) : Prop
    extends Posted env w m w' where
  dedup : ∃ s, m.sequence = some s ∧
    w'.messageDedup = w.messageDedup.insert (m.senderId, m.clientMessageId) (m.id, s)

section
variable {env : Env} {w w' : World} {m : Message} {actor : UserId} {c : ConversationId}
  {now : DateTime}

theorem Posted.timeline (h : Posted env w m w') (c : ConversationId) :
    w'.timeline c =
      if c = m.conversationId then w.timeline c ++ [m] else w.timeline c := by
  unfold Store.timeline
  rw [h.messages, Map.get_upsert]
  split
  · subst_vars; rfl
  · rfl

theorem Posted.draws (h : Posted env w m w') : w.nextUuid < w'.nextUuid := by
  obtain ⟨k, hk, hk', -⟩ := h.drawn
  omega

/-- A place of a timeline holds the new message or what it held before. -/
theorem Posted.messageAt (h : Posted env w m w') {c : ConversationId} {i : Nat} {m' : Message} :
    w'.messageAt c i = some m' ↔
      w.messageAt c i = some m' ∨
        (c = m.conversationId ∧ i = (w.timeline c).length ∧ m' = m) := by
  unfold Store.messageAt
  rw [h.timeline c]
  split
  · subst_vars
    rcases Nat.lt_trichotomy i (w.timeline m.conversationId).length with hi | hi | hi
    · simp [List.getElem?_append_left hi, Nat.ne_of_lt hi]
    · subst hi; simp [eq_comm]
    · have : (w.timeline m.conversationId)[i]? = none := List.getElem?_eq_none (by omega)
      rw [List.getElem?_eq_none (by simp; omega), this]
      simp [Nat.ne_of_gt hi]
  · simp [*]

theorem Posted.lastSequence (h : Posted env w m w') :
    m.sequence = some (lastSequence w'.toStore m.conversationId) := by
  obtain ⟨s, hs, -⟩ := h.sequence
  rw [lastSequence_eq, h.timeline]
  simp [hs]

theorem appendSystemMessage_noticed {text : String}
    (h : (appendSystemMessage env c actor text now).Runs w m w') : Noticed env w m w' := by
  simp only [appendSystemMessage, Tx.runs_get_bind, Tx.runs_okOr_bind] at h
  obtain ⟨conversation, -, h⟩ := h
  simp [sentMessage_runs, pushMessage, touchConversation, appendEvent_runs] at h
  obtain ⟨-, rfl, rfl⟩ := h
  refine ⟨⟨rfl, ⟨w.nextUuid + 1, ?_, ?_, rfl⟩, ⟨_, rfl, wrappingSucc_of_lt⟩⟩, rfl, rfl, rfl⟩
  · exact Nat.le_succ _
  · show w.nextUuid + 1 < w.nextUuid + 1 + 1 + 1
    omega

theorem appendSystemMessage_sender {text : String}
    (h : (appendSystemMessage env c actor text now).Runs w m w') :
    m.senderId = actor ∧ m.conversationId = c := by
  simp only [appendSystemMessage, Tx.runs_get_bind, Tx.runs_okOr_bind] at h
  obtain ⟨conversation, -, h⟩ := h
  simp [sentMessage_runs, pushMessage, touchConversation, appendEvent_runs] at h
  obtain ⟨-, rfl, rfl⟩ := h
  exact ⟨rfl, rfl⟩

/-- The acknowledgement of a request names a message: its id and its sequence. -/
structure MessageAck.Names (ack : MessageAck) (request : SendMessageRequest) (m : Message) :
    Prop where
  clientMessageId : ack.clientMessageId = request.clientMessageId
  messageId : ack.messageId = m.id
  sequence : m.sequence = some ack.sequence

theorem storeNewMessage_recorded {request : SendMessageRequest} {ack : MessageAck}
    (h : (storeNewMessage env actor c request now).Runs w (m, ack) w') :
    Recorded env w m w' ∧ ack.Names request m ∧ m.senderId = actor ∧ m.conversationId = c ∧
      m.clientMessageId = request.clientMessageId ∧ m.content = request.content := by
  simp only [storeNewMessage, Tx.runs_get_bind, Tx.runs_ofExcept_bind] at h
  obtain ⟨-, -, recipients, -, -, -, h⟩ := h
  simp [sentMessage_runs, pushMessage, recordDelivery, touchConversation, appendEvent_runs] at h
  -- the two cases: with and without an expiry
  obtain ⟨-, w₁, ⟨-, -, rfl⟩ | ⟨-, rfl⟩, ⟨rfl, rfl⟩, rfl⟩ := h
  all_goals
    refine ⟨⟨⟨rfl, ⟨w.nextUuid, Nat.le_refl _, ?_, rfl⟩, ⟨_, rfl, wrappingSucc_of_lt⟩⟩,
      ⟨_, rfl, rfl⟩⟩, ⟨rfl, rfl, rfl⟩, rfl, rfl, rfl, rfl⟩
    show w.nextUuid < w.nextUuid + 1 + 1
    omega

theorem appendForwardedMessage_recorded {content : MessageContent} {sequence : Nat}
    {recipients : List UserId} (hs : sequence = saturatingSucc (lastSequence w.toStore c))
    (h : (appendForwardedMessage env actor c content sequence recipients now).Runs w m w') :
    Recorded env w m w' ∧ m.senderId = actor ∧ m.conversationId = c ∧
      m.clientMessageId = env.uuid w.nextUuid ∧ m.sequence = some sequence := by
  subst hs
  simp [appendForwardedMessage, sentMessage_runs, pushMessage, recordDelivery, appendEvent_runs]
    at h
  obtain ⟨-, rfl, rfl⟩ := h
  refine ⟨⟨⟨rfl, ⟨w.nextUuid + 1, Nat.le_succ _, ?_, rfl⟩, ⟨_, rfl, saturatingSucc_of_lt⟩⟩,
    ⟨_, rfl, rfl⟩⟩, rfl, rfl, rfl, rfl⟩
  show w.nextUuid + 1 < w.nextUuid + 1 + 1 + 1
  omega

/-- **What a send does.** The client id is on record and nothing changes, or it is not and one
message is stored. -/
theorem sendMessageRequest_cases {request : SendMessageRequest} {ack : MessageAck}
    (h : (sendMessageRequest env actor c request now).Runs w (m, ack) w') :
    (∃ entry, w.messageDedup.get (actor, request.clientMessageId) = some entry ∧
      findMessage w.toStore entry.1 = some m ∧
      ack = ⟨request.clientMessageId, entry.1, entry.2, now⟩ ∧ w' = w) ∨
    (w.messageDedup.get (actor, request.clientMessageId) = none ∧
      Recorded env w m w' ∧ ack.Names request m ∧ m.senderId = actor ∧ m.conversationId = c ∧
      m.clientMessageId = request.clientMessageId ∧ m.content = request.content) := by
  simp only [sendMessageRequest, sendMessageInStore, Tx.runs_failIf_bind, Tx.runs_get_bind] at h
  obtain ⟨-, h⟩ := h
  cases he : w.messageDedup.get (actor, request.clientMessageId) with
  | none =>
    simp only [he, Option.isSome_none, Bool.false_eq_true, if_false] at h
    exact .inr ⟨rfl, storeNewMessage_recorded h⟩
  | some entry =>
    simp only [he, Option.isSome_some, if_true, Tx.runs_okOr_bind, Tx.runs_pure, Prod.mk.injEq,
      Option.some.injEq, exists_eq_left'] at h
    obtain ⟨existing, hfound, ⟨rfl, rfl⟩, rfl⟩ := h
    exact .inl ⟨entry, rfl, hfound, rfl, rfl⟩

end

/-! ## Relations kept when messages are stored -/

section
variable {env : Env} {R : World → World → Prop} [IsPreorder World R] {actor : UserId}
  {c : ConversationId} {now : DateTime}

/-- The loop of a forward. Its sequence is that of the last stored message. -/
theorem appendForwardedMessages_keeps {recipients : List UserId}
    (hR : ∀ {content sequence w m w'},
      (appendForwardedMessage env actor c content sequence recipients now).Runs w m w' →
      Recorded env w m w' → m.senderId = actor → m.clientMessageId = env.uuid w.nextUuid →
      R w w') {contents : List MessageContent}
    {sequence : Nat} {w w' : World} {ms : List Message} (hs : sequence = lastSequence w.toStore c)
    (h : (appendForwardedMessages env actor c recipients now sequence contents).Runs w ms w') :
    R w w' := by
  induction contents generalizing sequence w ms with
  | nil =>
    simp only [appendForwardedMessages, Tx.runs_pure] at h
    rw [h.2]
    exact refl w
  | cons content contents ih =>
    simp only [appendForwardedMessages, Tx.runs_bind, Tx.runs_pure] at h
    obtain ⟨m, w₁, hm, rest, w₂, hrest, -, rfl⟩ := h
    obtain ⟨hrec, hsender, hc, hclient, hseq⟩ :=
      appendForwardedMessage_recorded (congrArg saturatingSucc hs) hm
    have hlast := hrec.lastSequence
    rw [hseq, hc, Option.some.injEq] at hlast
    exact IsTrans.trans _ _ _ (hR hm hrec hsender hclient) (ih hlast hrest)

theorem forwardMessages_keeps [Touching R] {messageIds : List MessageId}
    {mode : ForwardMode} (hR : ∀ {content sequence recipients w m w'},
      (appendForwardedMessage env actor c content sequence recipients now).Runs w m w' →
      Recorded env w m w' → m.senderId = actor → m.clientMessageId = env.uuid w.nextUuid →
      R w w') :
    Tx.Keeps R (forwardMessages env actor messageIds c mode now) where
  runs h := by
    simp only [forwardMessages, forwardMessagesInStore, Tx.runs_failIf_bind, Tx.runs_get_bind,
      Tx.runs_ofExcept_bind, Tx.runs_okOr_bind] at h
    obtain ⟨-, -, sources, -, target, -, -, h⟩ := h
    obtain ⟨forwarded, w₁, hloop, h⟩ := Tx.runs_bind.mp h
    obtain ⟨_, w₂, htouch, h⟩ := Tx.runs_bind.mp h
    obtain ⟨-, rfl⟩ := Tx.runs_pure.mp h
    exact IsTrans.trans _ _ _ (appendForwardedMessages_keeps hR rfl hloop)
      (keeps_touchConversation.runs htouch)

end

/-! ## Recalling a message -/

/-- `m'` is `m` or its recalled form. -/
def Message.Amends (m m' : Message) : Prop := m' = m ∨ ∃ now, m' = m.recalled now

section
variable {m m' : Message}

theorem Message.Amends.id_eq (h : m.Amends m') : m'.id = m.id := by
  rcases h with rfl | ⟨now, rfl⟩ <;> rfl

theorem Message.Amends.sequence_eq (h : m.Amends m') : m'.sequence = m.sequence := by
  rcases h with rfl | ⟨now, rfl⟩ <;> rfl

theorem Message.Amends.conversationId_eq (h : m.Amends m') :
    m'.conversationId = m.conversationId := by
  rcases h with rfl | ⟨now, rfl⟩ <;> rfl

theorem Message.Amends.senderId_eq (h : m.Amends m') : m'.senderId = m.senderId := by
  rcases h with rfl | ⟨now, rfl⟩ <;> rfl

theorem Message.Amends.clientMessageId_eq (h : m.Amends m') :
    m'.clientMessageId = m.clientMessageId := by
  rcases h with rfl | ⟨now, rfl⟩ <;> rfl

end

theorem recallIn_amends (messageId : MessageId) (now : DateTime) (l : List Message) (i : Nat) :
    Option.Rel Message.Amends l[i]? (recallIn messageId now l)[i]? := by
  induction l generalizing i with
  | nil => exact .none
  | cons m ms ih =>
    unfold recallIn
    split
    · cases i with
      | zero => exact .some (.inr ⟨now, rfl⟩)
      | succ i =>
        show Option.Rel Message.Amends ms[i]? ms[i]?
        cases ms[i]? with
        | none => exact .none
        | some m' => exact .some (.inl rfl)
    · cases i with
      | zero => exact .some (.inl rfl)
      | succ i => exact ih i

/-- Every place of a timeline keeps its message, as it is or recalled. -/
def Amended (w w' : World) : Prop :=
  ∀ c i, Option.Rel Message.Amends (w.messageAt c i) (w'.messageAt c i)

theorem amended_recall (w : World) (c : ConversationId) (messageId : MessageId) (now : DateTime) :
    Amended w (w.set .messages (w.messages.modify c (recallIn messageId now))) := by
  intro c' i
  have hset : (w.set .messages (w.messages.modify c (recallIn messageId now))).timeline c' =
      if c' = c then recallIn messageId now (w.timeline c') else w.timeline c' := by
    show ((w.messages.modify c _).get c').getD [] = _
    rw [Map.get_modify]
    unfold Store.timeline
    split <;> cases w.messages.get c' <;> rfl
  unfold Store.messageAt
  rw [hset]
  split
  · exact recallIn_amends messageId now _ i
  · cases (w.timeline c')[i]? with
    | none => exact .none
    | some m => exact .some (.inl rfl)

theorem Amended.before {w w' : World} (h : Amended w w') {c : ConversationId} {i : Nat}
    {m' : Message} (hm : w'.messageAt c i = some m') :
    ∃ m, w.messageAt c i = some m ∧ m.Amends m' := by
  have := h c i
  rw [hm] at this
  cases hw : w.messageAt c i with
  | none => rw [hw] at this; cases this
  | some m => rw [hw] at this; cases this with | some ha => exact ⟨m, rfl, ha⟩

theorem Amended.after {w w' : World} (h : Amended w w') {c : ConversationId} {i : Nat}
    {m : Message} (hm : w.messageAt c i = some m) :
    ∃ m', w'.messageAt c i = some m' ∧ m.Amends m' := by
  have := h c i
  rw [hm] at this
  cases hw : w'.messageAt c i with
  | none => rw [hw] at this; cases this
  | some m' => rw [hw] at this; cases this with | some ha => exact ⟨m', rfl, ha⟩

/-! ## Invariants of the stored messages -/

/-- `I` only looks at the stored messages, the client ids on record and the draws made: more draws
and recalls keep it. -/
class Framed (I : World → Prop) : Prop where
  same : ∀ {w w'}, I w → Same .messages w w' → Same .messageDedup w w' →
    w.nextUuid ≤ w'.nextUuid → I w'
  amended : ∀ {w w'}, I w → Amended w w' → Same .messageDedup w w' →
    w'.nextUuid = w.nextUuid → I w'

/-- The messages that the service stores by itself, under a client id it draws, keep `I`. -/
class Storage (env : Env) (I : World → Prop) : Prop extends Framed I where
  noticed : ∀ {w m w'}, I w → Noticed env w m w' → I w'
  forwarded : ∀ {w m w'}, I w → Recorded env w m w' → m.clientMessageId = env.uuid w.nextUuid →
    I w'

section
variable {env : Env} {I : World → Prop}

instance framed_ignores [hI : Framed I] (f : Field) [hf : Has f (accountFields ++ sessionFields ++
    socialFields ++ groupFields ++ contentFields)] : Ignores (Tx.Preserving I) f where
  set w v h := by
    have hm : Field.messages ≠ f := by rintro rfl; exact absurd hf.mem (by decide)
    have hd : Field.messageDedup ≠ f := by rintro rfl; exact absurd hf.mem (by decide)
    have hn : Field.nextUuid ≠ f := by rintro rfl; exact absurd hf.mem (by decide)
    exact hI.same h (same_set hm w v) (same_set hd w v) (Nat.le_of_eq (same_set hn w v).symm)

instance framed_logged [hI : Framed I] : Logged env (Tx.Preserving I) :=
  logged_of fun ho hn h => hI.same h (ho .messages (by decide)) (ho .messageDedup (by decide)) hn

instance framed_recalling [hI : Framed I] : Recalling (Tx.Preserving I) where
  recalled w c messageId now h := hI.amended h (amended_recall w c messageId now) rfl rfl

instance storage_posting [hI : Storage env I] : Posting env (Tx.Preserving I) :=
  ⟨fun _ _ _ _ => ⟨fun hr h => hI.noticed h (appendSystemMessage_noticed hr)⟩⟩

instance storage_forward [hI : Storage env I] {actor : UserId} {messageIds : List MessageId}
    {c : ConversationId} {mode : ForwardMode} {now : DateTime} :
    Tx.Keeps (Tx.Preserving I) (forwardMessages env actor messageIds c mode now) :=
  forwardMessages_keeps fun _ hrec _ hclient h => hI.forwarded h hrec hclient

set_option synthInstance.maxSize 1000000000000 in
/-- **Step rule.** Of such an invariant only the case of a send is left to prove. -/
theorem Storage.step [hI : Storage env I] {op : Op} {w w' : World}
    (hs : (op.run env).Runs w () w')
    (hsend : ∀ {actor c request now m}, op = .sendMessageRequest actor c request now →
      w.messageDedup.get (actor, request.clientMessageId) = none → Recorded env w m w' →
      m.senderId = actor → m.clientMessageId = request.clientMessageId → I w → I w')
    (h : I w) : I w' := by
  cases op
  case sendMessageRequest actor c request now =>
    obtain ⟨⟨m, ack⟩, hr⟩ := Tx.runs_void.mp hs
    rcases sendMessageRequest_cases hr with ⟨-, -, -, -, rfl⟩ | ⟨hnone, hrec, -, hsender, -,
      hclient, -⟩
    · exact h
    · exact hsend rfl hnone hrec hsender hclient h
  all_goals
    dsimp only [Op.run] at hs
    exact Tx.Keeps.runs (R := Tx.Preserving I) hs h

end

/-! ## The invariant -/

structure Timelines (env : Env) (w : World) : Prop where
  /-- The `i`-th message has the sequence `i + 1`. -/
  sequences : ∀ {c i m}, w.messageAt c i = some m → i < u64Max → m.sequence = some (i + 1)
  home : ∀ {c i m}, w.messageAt c i = some m → m.conversationId = c
  drawn : ∀ {c i m}, w.messageAt c i = some m → ∃ k < w.nextUuid, m.id = env.uuid k
  unique : ∀ {c i c' j m m'}, w.messageAt c i = some m → w.messageAt c' j = some m' →
    m.id = m'.id → c = c' ∧ i = j

section
variable {env : Env} {w w' : World} {m : Message}

theorem Timelines.lastSequence (h : Timelines env w) {c : ConversationId}
    (hc : (w.timeline c).length ≤ u64Max) :
    lastSequence w.toStore c = (w.timeline c).length := by
  rw [lastSequence_eq, List.getLast?_eq_getElem?]
  cases hl : (w.timeline c)[(w.timeline c).length - 1]? with
  | none =>
    have : (w.timeline c).length = 0 := by
      have := List.getElem?_eq_none_iff.mp hl
      omega
    simp [this]
  | some m =>
    have hpos : (w.timeline c).length - 1 < (w.timeline c).length :=
      (List.getElem?_eq_some_iff.mp hl).1
    have hseq := h.sequences (c := c) hl (by omega)
    simp only [Option.bind_some, hseq, Option.getD_some]
    omega

/-- **Step.** Storing a message keeps the invariant. -/
theorem Timelines.posted (hu : Function.Injective env.uuid) (h : Timelines env w)
    (hp : Posted env w m w') : Timelines env w' := by
  obtain ⟨k, hk, hk', hid⟩ := hp.drawn
  -- a message stored before has an id drawn before
  have fresh : ∀ {c i m'}, w.messageAt c i = some m' → m'.id ≠ m.id := by
    intro c i m' hm' he
    obtain ⟨k', hlt, hid'⟩ := h.drawn hm'
    have : k' = k := hu (by rw [← hid', he, hid])
    omega
  refine ⟨?_, ?_, ?_, ?_⟩
  · intro c i m' hm' hi
    rcases hp.messageAt.mp hm' with hold | ⟨rfl, rfl, rfl⟩
    · exact h.sequences hold hi
    · obtain ⟨s, hs, hnext⟩ := hp.sequence
      rw [h.lastSequence (Nat.le_of_lt hi)] at hnext
      rw [hs, hnext hi]
  · intro c i m' hm'
    rcases hp.messageAt.mp hm' with hold | ⟨rfl, -, rfl⟩
    · exact h.home hold
    · rfl
  · intro c i m' hm'
    rcases hp.messageAt.mp hm' with hold | ⟨-, -, rfl⟩
    · obtain ⟨k', hlt, hid'⟩ := h.drawn hold
      exact ⟨k', by omega, hid'⟩
    · exact ⟨k, hk', hid⟩
  · intro c i c' j m₁ m₂ h₁ h₂ he
    rcases hp.messageAt.mp h₁ with h₁ | ⟨rfl, rfl, rfl⟩ <;>
      rcases hp.messageAt.mp h₂ with h₂ | ⟨rfl, rfl, rfl⟩
    · exact h.unique h₁ h₂ he
    · exact absurd he (fresh h₁)
    · exact absurd he.symm (fresh h₂)
    · exact ⟨rfl, rfl⟩

theorem Timelines.amended (h : Timelines env w) (ha : Amended w w')
    (hn : w'.nextUuid = w.nextUuid) : Timelines env w' where
  sequences hm hi := by
    obtain ⟨m₀, h₀, he⟩ := ha.before hm
    rw [he.sequence_eq, h.sequences h₀ hi]
  home hm := by
    obtain ⟨m₀, h₀, he⟩ := ha.before hm
    rw [he.conversationId_eq, h.home h₀]
  drawn hm := by
    obtain ⟨m₀, h₀, he⟩ := ha.before hm
    rw [he.id_eq, hn]
    exact h.drawn h₀
  unique h₁ h₂ he := by
    obtain ⟨m₁, h₁, he₁⟩ := ha.before h₁
    obtain ⟨m₂, h₂, he₂⟩ := ha.before h₂
    exact h.unique h₁ h₂ (by rw [← he₁.id_eq, ← he₂.id_eq, he])

/-- The invariant reads the timelines, and draws only add to it. -/
theorem Timelines.same (h : Timelines env w) (hm : Same .messages w w')
    (hn : w.nextUuid ≤ w'.nextUuid) : Timelines env w' := by
  have hat : ∀ c i, w'.messageAt c i = w.messageAt c i := Store.messageAt_eq hm
  refine ⟨fun h' => ?_, fun h' => ?_, fun h' => ?_, fun h₁ h₂ => ?_⟩
  · exact h.sequences (hat _ _ ▸ h')
  · exact h.home (hat _ _ ▸ h')
  · obtain ⟨k, hk, hid⟩ := h.drawn (hat _ _ ▸ h')
    exact ⟨k, by omega, hid⟩
  · exact h.unique (hat _ _ ▸ h₁) (hat _ _ ▸ h₂)

end

/-! ## Every run -/

theorem timelines_storage {env : Env} (hu : Function.Injective env.uuid) :
    Storage env (Timelines env) where
  same h hm _ hn := h.same hm hn
  amended h ha _ hn := h.amended ha hn
  noticed h hn := h.posted hu hn.toPosted
  forwarded h hr _ := h.posted hu hr.toPosted

theorem timelines_inductive {env : Env} (hu : Function.Injective env.uuid) :
    (service env).Inductive (Timelines env) where
  init w h := by
    subst h
    exact ⟨fun h => absurd h not_messageAt_init, fun h => absurd h not_messageAt_init,
      fun h => absurd h not_messageAt_init, fun h => absurd h not_messageAt_init⟩
  step w op w' h hs :=
    have := timelines_storage hu
    Storage.step hs (fun _ _ hrec _ _ h => h.posted hu hrec.toPosted) h

theorem reachable_timelines {env : Env} {w : World} (hu : Function.Injective env.uuid)
    (h : (service env).Reachable w) : Timelines env w := (timelines_inductive hu).reachable h

/-- **Sequences are gap-free.** In every conversation the stored messages carry the sequences
1, 2, ..., `n` in order and are stored under their own conversation, and no two stored messages
share an id. -/
theorem timelines_gapless (env : Env) (hu : Function.Injective env.uuid) (w : World)
    (hr : (service env).Reachable w) :
    (∀ c, (w.timeline c).length < u64Max →
      (w.timeline c).map (·.sequence) = (List.range' 1 (w.timeline c).length).map some) ∧
    (∀ c, ∀ m ∈ w.timeline c, m.conversationId = c) ∧
    ∀ c i c' j m m', w.messageAt c i = some m → w.messageAt c' j = some m' → m.id = m'.id →
      c = c' ∧ i = j := by
  have h := reachable_timelines hu hr
  refine ⟨fun c hc => ?_, fun c m hm => ?_, fun c i c' j m m' h₁ h₂ he => h.unique h₁ h₂ he⟩
  · refine List.ext_getElem (by simp) fun i hi _ => ?_
    have hi : i < (w.timeline c).length := by simpa using hi
    have hat : w.messageAt c i = some (w.timeline c)[i] := List.getElem?_eq_getElem hi
    simp only [List.getElem_map, List.getElem_range', Nat.one_mul]
    rw [h.sequences hat (by omega), Nat.add_comm]
  · obtain ⟨i, hi⟩ := Store.messageAt_of_mem hm
    exact h.home hi

/-- Two sends, a notice and a forwarded copy in one group. -/
theorem timelines_gapless_group : ∃ w, (service Env.numbered).Reachable w ∧
    (w.timeline 11).length = 4 ∧
    (w.timeline 11).map (·.sequence) = [some 1, some 2, some 3, some 4] := by
  obtain ⟨w, hw, hlen⟩ := reaches Env.numbered (aliceAndBob ++
    [.sendMessageRequest 1 11 (.text 100 "hi") 0, .sendMessageRequest 4 11 (.text 100 "hello") 0,
      .setGroupMute 1 11 ⟨true⟩ 0, .forwardMessages 1 [14] 11 .individually 0])
    (fun w => (w.timeline 11).length == 4) (by decide +kernel)
  have hlen : (w.timeline 11).length = 4 := by simpa using hlen
  refine ⟨w, reachable_of_run hw, hlen, ?_⟩
  rw [(timelines_gapless Env.numbered Env.numbered_injective w (reachable_of_run hw)).1 11
    (by rw [hlen]; decide), hlen]
  rfl

end IamRust
