import IamRust.L4Properties.Authorship
import IamRust.L4Properties.ClientIds
import IamRust.L4Properties.Expiry
import IamRust.L4Properties.Receipts

/-!
# Messages that are referred to

Receipts, reactions, expiries, favourites and the client ids on record are kept
under the ids of stored messages (`World.Linked`), and who is mentioned was a
member. A send stores the `reply_to` of its request as it is: it names an earlier
message of the conversation exactly when the request did.
-/
namespace IamRust

open Core

/-- A stored message has the id. -/
def Store.Stores (s : Store) (i : MessageId) : Prop := ∃ c, ∃ m ∈ s.timeline c, m.id = i

/-- What is kept beside the messages is of stored messages. -/
structure World.Linked (w : World) : Prop where
  receipts : ∀ i r, w.messageReceipts.get i = some r → w.Stores i
  reactions : ∀ i r, w.messageReactions.get i = some r → w.Stores i
  expirations : ∀ i e, w.messageExpirations.get i = some e → w.Stores i
  favorites : ∀ u i, (u, i) ∈ w.favoriteMessages → w.Stores i
  dedup : Deduped w

section
variable {env : Env} {w w' : World} {op : Op} {m : Message} {i : MessageId} {actor : UserId}
  {c : ConversationId} {now : DateTime}

theorem Store.stores_of_find {s : Store} (h : findMessage s i = some m) : s.Stores i := by
  obtain ⟨hid, c, hc⟩ := findMessage_some h
  exact ⟨c, m, hc, hid⟩

theorem Posted.stores (h : Posted env w m w') : w'.Stores m.id :=
  ⟨_, m, Store.mem_of_messageAt h.messageAt_new, rfl⟩

/-- No message is taken away. -/
theorem Op.stores (hr : (op.run env).Runs w () w') (h : w.Stores i) : w'.Stores i := by
  obtain ⟨c, m, hm, hid⟩ := h
  obtain ⟨k, hk⟩ := Store.messageAt_of_mem hm
  obtain ⟨m', hm', hamends⟩ := (Op.grown hr).kept c k m hk
  exact ⟨c, m', Store.mem_of_messageAt hm', hamends.id_eq.trans hid⟩

/-! ## Receipts -/

/-- New receipts are of stored messages, and no message is taken away. -/
structure Receipted (w w' : World) : Prop where
  stores : ∀ i, w.Stores i → w'.Stores i
  receipts : ∀ i r, w'.messageReceipts.get i = some r →
    (∃ r, w.messageReceipts.get i = some r) ∨ w'.Stores i

instance : IsPreorder World Receipted where
  refl _ := ⟨fun _ h => h, fun _ r h => .inl ⟨r, h⟩⟩
  trans _ _ _ h₁ h₂ := by
    refine ⟨fun i h => h₂.stores i (h₁.stores i h), fun i r hget => ?_⟩
    rcases h₂.receipts i r hget with ⟨r, hget⟩ | h
    · exact (h₁.receipts i r hget).imp_right (h₂.stores i)
    · exact .inr h

instance receipted_conversations : Ignores Receipted .conversations where
  set _ _ := ⟨fun _ h => h, fun _ r h => .inl ⟨r, h⟩⟩

theorem Posted.stores_mono (h : Posted env w m w') (hi : w.Stores i) : w'.Stores i := by
  obtain ⟨c, m', hm', hid⟩ := hi
  obtain ⟨k, hk⟩ := Store.messageAt_of_mem hm'
  exact ⟨c, m', Store.mem_of_messageAt (h.messageAt_mono hk), hid⟩

/-- A message stored with a delivery of its own. -/
theorem Posted.receipted (h : Posted env w m w') {u : UserId}
    (hreceipts : w'.messageReceipts = w.messageReceipts.upsert m.id .default fun receipts =>
      { receipts with deliveredTo := insert u receipts.deliveredTo }) : Receipted w w' := by
  refine ⟨fun _ => h.stores_mono, fun i r hget => ?_⟩
  rw [hreceipts, Map.get_upsert] at hget
  split at hget
  · subst_vars
    exact .inr h.stores
  · exact .inl ⟨r, hget⟩

/-- A new message was delivered to its sender. -/
theorem storeNewMessage_receipts {request : SendMessageRequest} {ack : MessageAck}
    (h : (storeNewMessage env actor c request now).Runs w (m, ack) w') :
    w'.messageReceipts = w.messageReceipts.upsert m.id .default fun receipts =>
      { receipts with deliveredTo := insert actor receipts.deliveredTo } := by
  simp only [storeNewMessage, Tx.runs_get_bind, Tx.runs_ofExcept_bind] at h
  obtain ⟨-, -, recipients, -, -, -, h⟩ := h
  simp [sentMessage_runs, pushMessage, recordDelivery, touchConversation, appendEvent_runs] at h
  obtain ⟨-, w₁, ⟨seconds, -, rfl⟩ | ⟨-, rfl⟩, ⟨rfl, rfl⟩, rfl⟩ := h <;> rfl

theorem storeNewMessage_receipted {request : SendMessageRequest} {ack : MessageAck}
    (h : (storeNewMessage env actor c request now).Runs w (m, ack) w') : Receipted w w' :=
  (storeNewMessage_recorded h).1.toPosted.receipted (storeNewMessage_receipts h)

theorem appendForwardedMessage_receipts {content : MessageContent} {sequence : Nat}
    {recipients : List UserId}
    (h : (appendForwardedMessage env actor c content sequence recipients now).Runs w m w') :
    w'.messageReceipts = w.messageReceipts.upsert m.id .default fun receipts =>
      { receipts with deliveredTo := insert actor receipts.deliveredTo } := by
  simp [appendForwardedMessage, sentMessage_runs, pushMessage, recordDelivery, appendEvent_runs]
    at h
  obtain ⟨-, rfl, rfl⟩ := h
  rfl

/-- **Receipts.** -/
theorem Op.receipts (hr : (op.run env).Runs w () w') {r : ReceiptState}
    (hget : w'.messageReceipts.get i = some r) :
    (∃ r, w.messageReceipts.get i = some r) ∨ w'.Stores i := by
  have hstores : w.Stores i → w'.Stores i := Op.stores hr
  cases op
  case sendMessageRequest actor c request now =>
    simp only [Op.run, Tx.runs_void, IamRust.sendMessageRequest, sendMessageInStore,
      Tx.runs_failIf_bind, Tx.runs_get_bind] at hr
    obtain ⟨⟨m, ack⟩, -, hr⟩ := hr
    split at hr
    · simp only [Tx.runs_okOr_bind, Tx.runs_pure] at hr
      obtain ⟨-, -, -, -, -, rfl⟩ := hr
      exact .inl ⟨r, hget⟩
    · exact (storeNewMessage_receipted hr).receipts i r hget
  case forwardMessages actor ids c mode now =>
    obtain ⟨ms, hr⟩ := Tx.runs_void.mp hr
    have hkeeps : Tx.Keeps Receipted (IamRust.forwardMessages env actor ids c mode now) :=
      forwardMessages_keeps fun hcopy hrecorded _ _ =>
        hrecorded.toPosted.receipted (appendForwardedMessage_receipts hcopy)
    exact (hkeeps.runs hr).receipts i r hget
  case acknowledgeDelivery actor messageId now =>
    simp only [Op.run, Tx.runs_void, IamRust.acknowledgeDelivery, Tx.runs_get_bind,
      Tx.runs_okOr_bind, Tx.runs_failIf_bind, recordDelivery, update_bind_runs,
      appendEvent_runs] at hr
    obtain ⟨_, m, hfind, conversation, -, -, rfl⟩ := hr
    have hget : (w.messageReceipts.upsert messageId .default _).get i = some r := hget
    rw [Map.get_upsert] at hget
    split at hget
    · subst_vars
      exact .inr (hstores (Store.stores_of_find hfind))
    · exact .inl ⟨r, hget⟩
  case markRead reader id through now =>
    obtain ⟨_, hr⟩ := Tx.runs_void.mp hr
    rcases (markRead_marks hr).receipts i with hsame | ⟨⟨m, hm, hid⟩, -⟩
    · exact .inl ⟨r, hsame ▸ hget⟩
    · exact .inr (hstores ⟨id, m, hm, hid⟩)
  all_goals
    have hsame : w'.messageReceipts = w.messageReceipts :=
      Op.same (f := .messageReceipts) hr (by dsimp only [Op.touches]; decide)
    exact .inl ⟨r, hsame ▸ hget⟩

theorem Op.reactions (hr : (op.run env).Runs w () w') {r : Map String (Finset UserId)}
    (hget : w'.messageReactions.get i = some r) :
    (∃ r, w.messageReactions.get i = some r) ∨ w.Stores i := by
  cases op
  case reactToMessage actor messageId emoji active now =>
    simp only [Op.run, Tx.runs_void, IamRust.reactToMessage, Tx.runs_failIf_bind, Tx.runs_get_bind,
      Tx.runs_okOr_bind, update_bind_runs] at hr
    obtain ⟨_, -, m, hfind, conversation, -, -, hr⟩ := hr
    obtain ⟨_, w₁, hevent, hr⟩ := Tx.runs_bind.mp hr
    obtain ⟨-, rfl⟩ := Tx.runs_pure.mp hr
    have hsame : w'.messageReactions = w.messageReactions.insert messageId _ :=
      appendEvent_only hevent .messageReactions (by decide)
    rw [hsame, Map.get_insert] at hget
    split at hget
    · subst_vars
      exact .inr (Store.stores_of_find hfind)
    · exact .inl ⟨r, hget⟩
  all_goals
    have hsame : w'.messageReactions = w.messageReactions :=
      Op.same (f := .messageReactions) hr (by dsimp only [Op.touches]; decide)
    exact .inl ⟨r, hsame ▸ hget⟩

theorem linked_inductive (env : Env) : (service env).Inductive World.Linked where
  init w h := by
    have hdedup := (deduped_inductive env).init w h
    subst h
    exact ⟨fun _ _ h => (nomatch h), fun _ _ h => (nomatch h), fun _ _ h => (nomatch h),
      fun _ _ h => absurd h (Finset.notMem_empty _), hdedup⟩
  step w op w' h hr := by
    refine ⟨fun i r hget => ?_, fun i r hget => ?_, fun i e hget => ?_, fun u i hmem => ?_,
      (deduped_inductive env).step w op w' h.dedup hr⟩
    · rcases Op.receipts hr hget with ⟨r, hold⟩ | hnew
      · exact Op.stores hr (h.receipts i r hold)
      · exact hnew
    · rcases Op.reactions hr hget with ⟨r, hold⟩ | hfound
      · exact Op.stores hr (h.reactions i r hold)
      · exact Op.stores hr hfound
    · rcases Op.expiration hr hget with hold | ⟨m, hrecorded, rfl⟩
      · exact Op.stores hr (h.expirations i e hold)
      · exact hrecorded.toPosted.stores
    · rcases Op.favorite hr hmem with ⟨hold, -⟩ | ⟨⟨m, hfind, -⟩, -⟩
      · exact Op.stores hr (h.favorites u i hold)
      · exact Op.stores hr (Store.stores_of_find hfind)

/-! ## Replies -/

/-- A reply names an earlier message of its conversation. -/
def World.Replied (w : World) : Prop :=
  ∀ c i m r, w.messageAt c i = some m → m.replyTo = some r →
    ∃ j < i, ∃ m', w.messageAt c j = some m' ∧ m'.id = r

/-- A send that is not answered from the record replies to a message of its conversation. -/
def Op.RepliesWithin (w : World) : Op → Prop
  | .sendMessageRequest actor c request _ =>
    w.messageDedup.get (actor, request.clientMessageId) = none →
      ∀ r, request.replyTo = some r → ∃ m ∈ w.timeline c, m.id = r
  | _ => True

theorem appendSystemMessage_plain {text : String}
    (h : (appendSystemMessage env c actor text now).Runs w m w') :
    m.replyTo = none ∧ m.mentions = [] := by
  simp only [appendSystemMessage, Tx.runs_get_bind, Tx.runs_okOr_bind] at h
  obtain ⟨conversation, -, h⟩ := h
  simp [sentMessage_runs, pushMessage, touchConversation, appendEvent_runs] at h
  obtain ⟨-, rfl, -⟩ := h
  exact ⟨rfl, rfl⟩

/-- **Step.** Replies stay within their conversations if that of the send does. -/
theorem World.Replied.step (h : w.Replied) (hr : (op.run env).Runs w () w')
    (hop : op.RepliesWithin w) : w'.Replied := by
  intro c i m r hat hreply
  have hkept : ∀ {m₀}, w.messageAt c i = some m₀ → m₀.replyTo = some r →
      ∃ j < i, ∃ m', w'.messageAt c j = some m' ∧ m'.id = r := by
    intro m₀ hat₀ hreply₀
    obtain ⟨j, hj, m', hat', hid⟩ := h c i m₀ r hat₀ hreply₀
    obtain ⟨m'', hat'', hamends⟩ := (Op.grown hr).kept c j m' hat'
    exact ⟨j, hj, m'', hat'', hamends.id_eq.trans hid⟩
  cases Op.origin hr hat with
  | kept hold => exact hkept hold hreply
  | recalled _ hold hrecalled =>
    rw [hrecalled] at hreply
    exact hkept hold hreply
  | notice hrun =>
    rw [(appendSystemMessage_plain hrun).1] at hreply
    cases hreply
  | forwarded _ _ _ hnone =>
    rw [hnone] at hreply
    cases hreply
  | sent hsend hnone hrun =>
    subst hsend
    obtain ⟨hrecorded, -⟩ := storeNewMessage_recorded hrun
    rcases hrecorded.messageAt.mp hat with hold | ⟨rfl, rfl, -⟩
    · exact hkept hold hreply
    · rw [(storeNewMessage_checked hrun).replyTo] at hreply
      obtain ⟨m', hm', hid⟩ := hop hnone r hreply
      obtain ⟨j, hj⟩ := Store.messageAt_of_mem hm'
      exact ⟨j, (List.getElem?_eq_some_iff.mp hj).1, m', hrecorded.messageAt_mono hj, hid⟩

/-- A send that replies to anything else stores the reply. -/
theorem World.Replied.step_iff (h : w.Replied) (hr : (op.run env).Runs w () w') :
    w'.Replied ↔ op.RepliesWithin w := by
  refine ⟨fun h' => ?_, h.step hr⟩
  cases op
  case sendMessageRequest actor c request now =>
    intro hnone r hreply
    obtain ⟨⟨m, ack⟩, hr⟩ := Tx.runs_void.mp hr
    simp only [IamRust.sendMessageRequest, sendMessageInStore, Tx.runs_failIf_bind,
      Tx.runs_get_bind] at hr
    obtain ⟨-, hr⟩ := hr
    rw [hnone] at hr
    have hrun : (storeNewMessage env actor c request now).Runs w (m, ack) w' := hr
    obtain ⟨hrecorded, -, -, rfl, -⟩ := storeNewMessage_recorded hrun
    rw [← (storeNewMessage_checked hrun).replyTo] at hreply
    obtain ⟨j, hj, m', hat', hid⟩ := h' _ _ m r hrecorded.messageAt_new hreply
    rcases hrecorded.messageAt.mp hat' with hold | ⟨-, hlast, -⟩
    · exact ⟨m', Store.mem_of_messageAt hold, hid⟩
    · exact absurd hlast (Nat.ne_of_lt hj)
  all_goals trivial

/-! ## Mentions -/

theorem validateMessageMentions_members {s : Store} {content : MessageContent}
    {mentions : List UserId} {mentionAll : Bool}
    (h : validateMessageMentions s actor c content mentions mentionAll = .ok ()) :
    ∀ u ∈ mentions, s.readable u c = true := by
  intro u hu
  unfold validateMessageMentions at h
  split at h
  · rename_i hnone
    rw [List.isEmpty_iff.mp hnone.1] at hu
    cases hu
  split at h
  · cases h
  split at h
  · cases h
  rename_i conversation hget
  split at h
  · cases h
  split at h
  · cases h
  split at h
  · cases h
  · rename_i hmembers
    refine readable_of hget ?_
    by_contra hnot
    refine hmembers (List.any_eq_true.mpr ⟨u, hu, ?_⟩)
    rw [Bool.or_eq_true, Bool.not_eq_true']
    exact .inr (Bool.of_not_eq_true hnot)

/-- Who a new message mentions is a member. -/
theorem Op.mentions (hr : (op.run env).Runs w () w') {k : Nat} (hnew : w.messageAt c k = none)
    (hat : w'.messageAt c k = some m) : ∀ u ∈ m.mentions, w.readable u c = true := by
  cases Op.origin hr hat with
  | kept hold => cases hnew.symm.trans hold
  | recalled _ hold => cases hnew.symm.trans hold
  | notice hrun =>
    rw [(appendSystemMessage_plain hrun).2]
    exact fun _ h => (nomatch h)
  | forwarded _ _ _ _ hnone =>
    rw [hnone]
    exact fun _ h => (nomatch h)
  | sent _ _ hrun =>
    have hchecked := storeNewMessage_checked hrun
    rw [hchecked.mentions]
    exact validateMessageMentions_members hchecked.members

end

/-! ## Every run -/

/-- The runs in which every send replies to a message of its conversation. -/
abbrev replyingService (env : Env) : LTS World Op :=
  (service env).restrict fun w op => op.RepliesWithin w

/-- Along a run no message loses its mentions. -/
theorem mentions_run {env : Env} {ls : List Op} {w w' : World} (h : (service env).Run w ls w')
    {c : ConversationId} {i : Nat} {m : Message} (hm : w.messageAt c i = some m) :
    ∃ m', w'.messageAt c i = some m' ∧ m'.mentions = m.mentions := by
  have hrun := h.relates (R := fun w w' => ∀ c i m, w.messageAt c i = some m →
      ∃ m', w'.messageAt c i = some m' ∧ m'.mentions = m.mentions)
    (fun _ _ _ m hm => ⟨m, hm, rfl⟩) (fun _ _ _ h₁ h₂ c i m hm => ?_)
    (fun _ op _ hs c i m hm => ?_)
  · exact hrun c i m hm
  · obtain ⟨m₁, hm₁, hsame₁⟩ := h₁ c i m hm
    obtain ⟨m₂, hm₂, hsame₂⟩ := h₂ c i m₁ hm₁
    exact ⟨m₂, hm₂, hsame₂.trans hsame₁⟩
  · obtain ⟨m', hm', rfl | ⟨now, rfl⟩⟩ := (Op.grown hs).kept c i m hm
    · exact ⟨m', hm', rfl⟩
    · exact ⟨_, hm', rfl⟩

/-- **References between messages.** In every run in which each send replies to a message of its
conversation, or to none: what is kept beside the messages is of stored messages, a reply names an
earlier message of its conversation, and who a message mentions was a member when a step of the run
stored it. The first send that replies to anything else ends that. -/
theorem replies_resolve (env : Env) (ls : List Op) (w : World)
    (hrun : (replyingService env).Run World.init ls w) :
    w.Linked ∧ w.Replied ∧
    (∀ c i m, w.messageAt c i = some m → ∃ before op after w₁ w₂, ls = before ++ op :: after ∧
      (replyingService env).Run World.init before w₁ ∧ (replyingService env).step w₁ op w₂ ∧
      (replyingService env).Run w₂ after w ∧ w₁.messageAt c i = none ∧
      ∀ u ∈ m.mentions, w₁.readable u c = true) ∧
    ∀ (op : Op) (w' : World), (op.run env).Runs w () w' → (w'.Replied ↔ op.RepliesWithin w) := by
  have hreplied : w.Replied := hrun.preserves (fun _ _ _ h hs => h.step hs.2 hs.1)
    fun _ _ _ _ hat => absurd hat not_messageAt_init
  refine ⟨(linked_inductive env).reachable ⟨_, ls, rfl, hrun.of_restrict⟩, hreplied,
    fun c i m hat => ?_, fun op w' hr => hreplied.step_iff hr⟩
  obtain ⟨before, op, after, w₁, w₂, rfl, hbefore, hs, hafter, hnew, hstored⟩ :=
    hrun.crosses (P := fun v => (v.messageAt c i).isSome = true) nofun
      (by rw [hat]; rfl)
  obtain ⟨m₂, hat₂⟩ := Option.isSome_iff_exists.mp hstored
  have hnone : w₁.messageAt c i = none := Option.not_isSome_iff_eq_none.mp hnew
  obtain ⟨m', hat', hsame⟩ := mentions_run hafter.of_restrict hat₂
  cases hat.symm.trans hat'
  refine ⟨before, op, after, w₁, w₂, rfl, hbefore, hs, hafter, hnone, ?_⟩
  rw [hsame]
  exact Op.mentions hs.2 hnone hat₂

/-! ## Two runs -/

/-- The condition on a send, decided. -/
def Op.repliesWithin (w : World) : Op → Bool
  | .sendMessageRequest _ c request _ =>
    request.replyTo.all fun r => (w.timeline c).any fun m => decide (m.id = r)
  | _ => true

theorem repliesWithin_of_check (w : World) (op : Op) (h : op.repliesWithin w = true) :
    op.RepliesWithin w := by
  cases op
  case sendMessageRequest actor c request now =>
    intro _ r hreply
    simp only [Op.repliesWithin, hreply, Option.all_some, List.any_eq_true,
      decide_eq_true_eq] at h
    exact h
  all_goals trivial

/-- A reply to a message, as a client writes it. -/
def SendMessageRequest.reply (clientMessageId replyTo : MessageId)
    (mentions : List UserId) : SendMessageRequest :=
  { SendMessageRequest.text clientMessageId "yes" with replyTo := some replyTo, mentions := mentions }

/-- Alice answers a message of the group and mentions Bob. -/
theorem replies_resolve_answer : ∃ w m, (service Env.numbered).Reachable w ∧
    w.messageAt 11 1 = some m ∧ m.replyTo = some 14 ∧ m.mentions = [4] ∧ w.Linked ∧ w.Replied ∧
    ∃ w₁ : World, w₁.messageAt 11 1 = none ∧ w₁.readable 4 11 = true := by
  obtain ⟨w, ⟨_, ls, rfl, hrun⟩, hp⟩ := reaches_checked Env.numbered Op.repliesWithin
    repliesWithin_of_check (aliceAndBob ++ [.sendMessageRequest 4 11 (.text 100 "tea?") 0,
      .sendMessageRequest 1 11 (.reply 101 14 [4]) 0])
    (fun w => (w.messageAt 11 1).any fun (m : Message) => decide (m.replyTo = some 14) &&
      decide (m.mentions = [4])) (by decide +kernel)
  obtain ⟨m, hm, hp⟩ := (Option.any_eq_true ..).mp hp
  simp only [Bool.and_eq_true, decide_eq_true_eq] at hp
  obtain ⟨hlinked, hreplied, hmentions, -⟩ := replies_resolve Env.numbered ls w hrun
  obtain ⟨_, _, _, w₁, _, -, -, -, -, hnone, hmembers⟩ := hmentions 11 1 m hm
  refine ⟨w, m, ⟨_, ls, rfl, hrun.of_restrict⟩, hm, hp.1, hp.2, hlinked, hreplied, w₁, hnone, ?_⟩
  exact hmembers 4 (hp.2 ▸ List.mem_singleton_self 4)

/-- Alice answers a message that does not exist: the reply is stored. -/
theorem reply_to_nothing : ∃ w m, (service Env.numbered).Reachable w ∧
    w.messageAt 9 0 = some m ∧ m.replyTo = some 999 ∧ ¬ w.Stores 999 := by
  obtain ⟨w, hw, hp⟩ := reaches Env.numbered
    (aliceAndBob ++ [.sendMessageRequest 1 9 (.reply 100 999 []) 0])
    (fun w => ((w.messageAt 9 0).any fun (m : Message) => decide (m.replyTo = some 999)) &&
      w.messages.values.flatten.all fun m => decide (m.id ≠ 999)) (by decide +kernel)
  obtain ⟨hreply, hall⟩ := Bool.and_eq_true_iff.mp hp
  obtain ⟨m, hm, hreply⟩ := (Option.any_eq_true ..).mp hreply
  refine ⟨w, m, reachable_of_run hw, hm, of_decide_eq_true hreply, ?_⟩
  rintro ⟨c, m', hm', hid⟩
  exact of_decide_eq_true (List.all_eq_true.mp hall m' (mem_messages.mpr ⟨c, hm'⟩)) hid

end IamRust
