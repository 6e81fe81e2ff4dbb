import IamRust.L4Properties.Timelines

/-!
# Client ids

`message_dedup` answers a repeated send from what it has on record for the
user and the client id.

* `Deduped`: an entry names a stored message of that user with that client id.
  With unique ids an acknowledgement is then truthful
  (`sendMessageRequest_acknowledged`).
* `OnRecord`: an entry stays, so a repeated send is answered alike after every
  later history (`OnRecord.answers`).
* `OncePerAuthor`: at most one stored message for a user and a client id. A
  notice is not recorded, so its client id can be used once more
  (`notice_clientId_reused`).
-/
namespace IamRust

open Core

/-! ## Entries name stored messages -/

/-- `m` is what an entry `e` for the key says. -/
structure Message.Matches (m : Message) (key : UserId × MessageId) (e : MessageId × Nat) :
    Prop where
  senderId : m.senderId = key.1
  clientMessageId : m.clientMessageId = key.2
  id : m.id = e.1
  sequence : m.sequence = some e.2

theorem Message.Matches.amends {m m' : Message} {key : UserId × MessageId} {e : MessageId × Nat}
    (h : m.Matches key e) (ha : m.Amends m') : m'.Matches key e :=
  ⟨ha.senderId_eq.trans h.senderId, ha.clientMessageId_eq.trans h.clientMessageId,
    ha.id_eq.trans h.id, ha.sequence_eq.trans h.sequence⟩

def Deduped (w : World) : Prop :=
  ∀ key e, w.messageDedup.get key = some e →
    ∃ c i m, w.messageAt c i = some m ∧ m.Matches key e

section
variable {env : Env} {w w' : World} {m : Message}

theorem Posted.messageAt_mono (h : Posted env w m w') {c : ConversationId} {i : Nat}
    {m' : Message} (hm : w.messageAt c i = some m') : w'.messageAt c i = some m' :=
  h.messageAt.mpr (.inl hm)

theorem Posted.messageAt_new (h : Posted env w m w') :
    w'.messageAt m.conversationId (w.timeline m.conversationId).length = some m :=
  h.messageAt.mpr (.inr ⟨rfl, rfl, rfl⟩)

theorem Deduped.same (h : Deduped w) (hm : Same .messages w w') (hd : Same .messageDedup w w') :
    Deduped w' := by
  intro key e he
  rw [show w'.messageDedup = w.messageDedup from hd] at he
  obtain ⟨c, i, m, hat, hmatch⟩ := h key e he
  exact ⟨c, i, m, (Store.messageAt_eq hm c i).trans hat, hmatch⟩

theorem Deduped.noticed (h : Deduped w) (hn : Noticed env w m w') : Deduped w' := by
  intro key e he
  rw [hn.dedup] at he
  obtain ⟨c, i, m', hat, hmatch⟩ := h key e he
  exact ⟨c, i, m', hn.messageAt_mono hat, hmatch⟩

theorem Deduped.recorded (h : Deduped w) (hr : Recorded env w m w') : Deduped w' := by
  obtain ⟨s, hs, hd⟩ := hr.dedup
  intro key e he
  rw [hd, Map.get_insert] at he
  split at he
  · cases he
    subst_vars
    exact ⟨_, _, m, hr.messageAt_new, rfl, rfl, rfl, hs⟩
  · obtain ⟨c, i, m', hat, hmatch⟩ := h key e he
    exact ⟨c, i, m', hr.messageAt_mono hat, hmatch⟩

theorem Deduped.amended (h : Deduped w) (ha : Amended w w') (hd : Same .messageDedup w w') :
    Deduped w' := by
  intro key e he
  rw [show w'.messageDedup = w.messageDedup from hd] at he
  obtain ⟨c, i, m, hat, hmatch⟩ := h key e he
  obtain ⟨m', hat', hm'⟩ := ha.after hat
  exact ⟨c, i, m', hat', hmatch.amends hm'⟩

end

theorem deduped_storage (env : Env) : Storage env Deduped where
  same h hm hd _ := Deduped.same h hm hd
  amended h ha hd _ := Deduped.amended h ha hd
  noticed h hn := Deduped.noticed h hn
  forwarded h hr _ := Deduped.recorded h hr

theorem deduped_inductive (env : Env) : (service env).Inductive Deduped where
  init w h := by
    subst h
    intro key e he
    have hnone : World.init.messageDedup.get key = none := Map.get_empty key
    rw [hnone] at he
    cases he
  step w op w' h hs :=
    have := deduped_storage env
    Storage.step hs (fun _ _ hrec _ _ h => Deduped.recorded h hrec) h

theorem reachable_deduped {env : Env} {w : World} (h : (service env).Reachable w) : Deduped w :=
  (deduped_inductive env).reachable h

/-! ## Acknowledgements -/

/-- With unique ids an entry leads back to its message. -/
theorem Deduped.find {env : Env} {w : World} (h : Deduped w) (ht : Timelines env w)
    {key : UserId × MessageId} {e : MessageId × Nat} (he : w.messageDedup.get key = some e)
    {m : Message} (hm : findMessage w.toStore e.1 = some m) : m.Matches key e := by
  obtain ⟨c, i, m', hat, hmatch⟩ := h key e he
  obtain ⟨hid, c', hc'⟩ := findMessage_some hm
  obtain ⟨j, hat'⟩ := Store.messageAt_of_mem hc'
  obtain ⟨rfl, rfl⟩ := ht.unique hat' hat (hid.trans hmatch.id.symm)
  cases hat'.symm.trans hat
  exact hmatch

/-- **Acknowledgements are truthful.** What a send returns is a stored message of the actor with
the client id of the request, named by the acknowledgement with its sequence. It is the request's
own message if the actor had no message on record under the client id; if there was one, it is
that one, and nothing changes. -/
theorem sendMessageRequest_acknowledged (env : Env) (hu : Function.Injective env.uuid) (w : World)
    (hr : (service env).Reachable w) (actor : UserId) (c : ConversationId)
    (request : SendMessageRequest) (now : DateTime) (m : Message) (ack : MessageAck) (w' : World)
    (h : (sendMessageRequest env actor c request now).Runs w (m, ack) w') :
    (∃ c', m ∈ w'.timeline c') ∧ m.senderId = actor ∧
    m.clientMessageId = request.clientMessageId ∧ ack.Names request m ∧
    (w.messageDedup.get (actor, request.clientMessageId) = none →
      m ∈ w'.timeline c ∧ m.conversationId = c ∧ m.content = request.content) ∧
    ∀ e, w.messageDedup.get (actor, request.clientMessageId) = some e →
      ack.messageId = e.1 ∧ ack.sequence = e.2 ∧ w' = w := by
  rcases sendMessageRequest_cases h with ⟨e, he, hfound, rfl, rfl⟩ | ⟨hnone, hrec, hack, hsender,
    hc, hclient, hcontent⟩
  · have hmatch := (reachable_deduped hr).find (reachable_timelines hu hr) he hfound
    obtain ⟨-, c', hc'⟩ := findMessage_some hfound
    refine ⟨⟨c', hc'⟩, hmatch.senderId, hmatch.clientMessageId,
      ⟨rfl, hmatch.id.symm, hmatch.sequence⟩, ?_, ?_⟩
    · intro hnone
      rw [hnone] at he
      cases he
    · rintro e' he'
      cases he.symm.trans he'
      exact ⟨rfl, rfl, rfl⟩
  · have hmem : m ∈ w'.timeline c := by
      rw [← hc]
      exact Store.mem_of_messageAt hrec.messageAt_new
    refine ⟨⟨c, hmem⟩, hsender, hclient, hack, fun _ => ⟨hmem, hc, hcontent⟩, ?_⟩
    intro e he
    rw [hnone] at he
    cases he

/-- Alice's first message. -/
theorem sendMessageRequest_acknowledged_first : ∃ w m ack w', (service Env.numbered).Reachable w ∧
    (sendMessageRequest Env.numbered 1 9 (.text 100 "hi") 0).Runs w (m, ack) w' ∧
    m ∈ w'.timeline 9 ∧ ack.Names (.text 100 "hi") m := by
  obtain ⟨w, ⟨m, ack⟩, w', hw, h, hnone⟩ := reaches_runs Env.numbered aliceAndBob
    (sendMessageRequest Env.numbered 1 9 (.text 100 "hi") 0)
    (fun w _ _ => w.messageDedup.get (1, 100) == none) (by decide +kernel)
  obtain ⟨-, -, -, hack, hnew, -⟩ := sendMessageRequest_acknowledged Env.numbered
    Env.numbered_injective w (reachable_of_run hw) 1 9 (.text 100 "hi") 0 m ack w' h
  have hnone : w.messageDedup.get (1, 100) = none := by simpa using hnone
  exact ⟨w, m, ack, w', reachable_of_run hw, h, (hnew hnone).1, hack⟩

/-- The client id decides alone: a second request in another conversation is acknowledged with the
first message, and nothing is stored there. -/
theorem sendMessageRequest_acknowledged_elsewhere : ∃ w m ack w',
    (service Env.numbered).Reachable w ∧
    (sendMessageRequest Env.numbered 1 11 (.text 100 "for the group") 0).Runs w (m, ack) w' ∧
    ¬ ∃ m' ∈ w'.timeline 11, m'.senderId = 1 ∧ m'.clientMessageId = 100 := by
  obtain ⟨w, ⟨m, ack⟩, w', hw, h, hp⟩ := reaches_runs Env.numbered
    (aliceAndBob ++ [.sendMessageRequest 1 9 (.text 100 "hi") 0])
    (sendMessageRequest Env.numbered 1 11 (.text 100 "for the group") 0)
    (fun _ _ w => (w.timeline 11).isEmpty) (by decide +kernel)
  refine ⟨w, m, ack, w', reachable_of_run hw, h, ?_⟩
  simp [List.isEmpty_iff.mp hp]

/-! ## Conditions on a send -/

/-- No later draw repeats the client id a send brings. -/
def Op.Fresh (env : Env) (w : World) : Op → Prop
  | .sendMessageRequest _ _ request _ =>
    ∀ n, w.nextUuid ≤ n → request.clientMessageId ≠ env.uuid n
  | _ => True

/-- A send does not take the client id of a stored message of its author that is not on record. -/
def Op.Unused (w : World) : Op → Prop
  | .sendMessageRequest actor _ request _ =>
    w.messageDedup.get (actor, request.clientMessageId) = none →
      ∀ c, ∀ m ∈ w.timeline c, m.senderId = actor → m.clientMessageId ≠ request.clientMessageId
  | _ => True

/-! ## Entries stay -/

/-- The client ids of stored messages are not drawn again. -/
def Known (env : Env) (w : World) : Prop :=
  ∀ c i m, w.messageAt c i = some m → ∀ n, w.nextUuid ≤ n → m.clientMessageId ≠ env.uuid n

section
variable {env : Env} {w w' : World} {m : Message}

theorem Known.same (h : Known env w) (hm : Same .messages w w') (hn : w.nextUuid ≤ w'.nextUuid) :
    Known env w' := by
  intro c i m hat n hle
  rw [Store.messageAt_eq hm] at hat
  exact h c i m hat n (hn.trans hle)

theorem Known.amended (h : Known env w) (ha : Amended w w') (hn : w'.nextUuid = w.nextUuid) :
    Known env w' := by
  intro c i m hat n hle
  obtain ⟨m₀, hat₀, he⟩ := ha.before hat
  rw [he.clientMessageId_eq]
  exact h c i m₀ hat₀ n (hn ▸ hle)

theorem Known.posted (h : Known env w) (hp : Posted env w m w')
    (hm : ∀ n, w'.nextUuid ≤ n → m.clientMessageId ≠ env.uuid n) : Known env w' := by
  intro c i m' hat n hle
  rcases hp.messageAt.mp hat with hold | ⟨-, -, rfl⟩
  · exact h c i m' hold n (hp.draws.le.trans hle)
  · exact hm n hle

/-- A client id drawn when the message was stored is not drawn again. -/
theorem Known.posted_drawn (hu : Function.Injective env.uuid) (h : Known env w)
    (hp : Posted env w m w') (hm : m.clientMessageId = env.uuid w.nextUuid) : Known env w' := by
  refine h.posted hp fun n hle he => ?_
  have : w.nextUuid = n := hu (hm.symm.trans he)
  have := hp.draws
  omega

end

/-- The entry `e` is on record for the key, and will not be drawn over. -/
structure OnRecord (env : Env) (key : UserId × MessageId) (e : MessageId × Nat) (w : World) :
    Prop where
  entry : w.messageDedup.get key = some e
  deduped : Deduped w
  known : Known env w

section
variable {env : Env} {key : UserId × MessageId} {e : MessageId × Nat} {w w' : World} {m : Message}

theorem OnRecord.same (h : OnRecord env key e w) (hm : Same .messages w w')
    (hd : Same .messageDedup w w') (hn : w.nextUuid ≤ w'.nextUuid) : OnRecord env key e w' :=
  ⟨(congrArg (·.get key) hd).trans h.entry, h.deduped.same hm hd, h.known.same hm hn⟩

theorem OnRecord.noticed (hu : Function.Injective env.uuid) (h : OnRecord env key e w)
    (hn : Noticed env w m w') : OnRecord env key e w' :=
  ⟨by rw [hn.dedup]; exact h.entry, h.deduped.noticed hn,
    h.known.posted_drawn hu hn.toPosted hn.clientId⟩

/-- Another key is recorded: the old entry is still there. -/
theorem OnRecord.recorded (h : OnRecord env key e w) (hr : Recorded env w m w')
    (hk : key ≠ (m.senderId, m.clientMessageId)) (hknown : Known env w') :
    OnRecord env key e w' := by
  obtain ⟨s, -, hd⟩ := hr.dedup
  refine ⟨?_, h.deduped.recorded hr, hknown⟩
  rw [hd, Map.get_insert_ne hk]
  exact h.entry

theorem OnRecord.recorded_drawn (hu : Function.Injective env.uuid) (h : OnRecord env key e w)
    (hr : Recorded env w m w') (hm : m.clientMessageId = env.uuid w.nextUuid) :
    OnRecord env key e w' := by
  refine h.recorded hr ?_ (h.known.posted_drawn hu hr.toPosted hm)
  -- the key is the client id of a stored message, which is not drawn again
  rintro rfl
  obtain ⟨c, i, m', hat, hmatch⟩ := h.deduped _ e h.entry
  exact h.known c i m' hat _ (Nat.le_refl _) (hmatch.clientMessageId.trans hm)

end

section
variable {env : Env} {key : UserId × MessageId} {e : MessageId × Nat} {w w' : World}

theorem onRecord_storage (hu : Function.Injective env.uuid) :
    Storage env (OnRecord env key e) where
  same h hm hd hn := h.same hm hd hn
  amended h ha hd hn := ⟨(congrArg (·.get key) hd).trans h.entry, h.deduped.amended ha hd,
    h.known.amended ha hn⟩
  noticed h hn := h.noticed hu hn
  forwarded h hr hm := h.recorded_drawn hu hr hm

/-- **Step.** Whatever the next operation is, an entry on record stays. -/
theorem OnRecord.step (hu : Function.Injective env.uuid) {op : Op} (hf : op.Fresh env w)
    (hs : (op.run env).Runs w () w') (h : OnRecord env key e w) : OnRecord env key e w' := by
  have : Storage env (OnRecord env key e) := onRecord_storage hu
  refine Storage.step hs ?_ h
  rintro actor c request now m rfl hnone hrec hsender hclient h
  refine h.recorded hrec ?_ (h.known.posted hrec.toPosted fun n hle => ?_)
  · rintro rfl
    have := h.entry
    rw [hsender, hclient, hnone] at this
    cases this
  · rw [hclient]
    exact hf n (hrec.draws.le.trans hle)

/-- **A repeated send is answered from the record**, and changes nothing. -/
theorem OnRecord.answers (h : OnRecord env key e w) (c : ConversationId)
    (request : SendMessageRequest) (now : DateTime) (hk : request.clientMessageId = key.2)
    (hexp : invalidExpiry request.expiresInSeconds = false) :
    ∃ m, (sendMessageRequest env key.1 c request now).Runs w
      (m, ⟨request.clientMessageId, e.1, e.2, now⟩) w := by
  obtain ⟨c', i, m, hat, hmatch⟩ := h.deduped key e h.entry
  obtain ⟨found, hfound⟩ := findMessage_isSome (Store.mem_of_messageAt hat)
  rw [hmatch.id] at hfound
  have hentry : w.messageDedup.get (key.1, request.clientMessageId) = some e := by
    rw [hk]
    exact h.entry
  exact ⟨found, by simp [sendMessageRequest, sendMessageInStore, hexp, hentry, hfound]⟩

end

/-! ## One message for an author and a client id -/

def OncePerAuthor (w : World) : Prop :=
  ∀ c i c' j m m', w.messageAt c i = some m → w.messageAt c' j = some m' →
    m.senderId = m'.senderId → m.clientMessageId = m'.clientMessageId → c = c' ∧ i = j

structure ClientIds (env : Env) (w : World) : Prop where
  known : Known env w
  once : OncePerAuthor w

section
variable {env : Env} {w w' : World} {m : Message}

theorem OncePerAuthor.amended (h : OncePerAuthor w) (ha : Amended w w') : OncePerAuthor w' := by
  intro c i c' j m m' h₁ h₂ hs hk
  obtain ⟨m₁, h₁, he₁⟩ := ha.before h₁
  obtain ⟨m₂, h₂, he₂⟩ := ha.before h₂
  exact h c i c' j m₁ m₂ h₁ h₂ (by rw [← he₁.senderId_eq, ← he₂.senderId_eq, hs])
    (by rw [← he₁.clientMessageId_eq, ← he₂.clientMessageId_eq, hk])

theorem OncePerAuthor.posted (h : OncePerAuthor w) (hp : Posted env w m w')
    (hnew : ∀ c, ∀ m' ∈ w.timeline c, m'.senderId = m.senderId →
      m'.clientMessageId ≠ m.clientMessageId) : OncePerAuthor w' := by
  intro c i c' j m₁ m₂ h₁ h₂ hs hk
  rcases hp.messageAt.mp h₁ with h₁ | ⟨rfl, rfl, rfl⟩ <;>
    rcases hp.messageAt.mp h₂ with h₂ | ⟨rfl, rfl, rfl⟩
  · exact h c i c' j m₁ m₂ h₁ h₂ hs hk
  · exact absurd hk (hnew c m₁ (Store.mem_of_messageAt h₁) hs)
  · exact absurd hk.symm (hnew c' m₂ (Store.mem_of_messageAt h₂) hs.symm)
  · exact ⟨rfl, rfl⟩

theorem ClientIds.posted_drawn (hu : Function.Injective env.uuid) (h : ClientIds env w)
    (hp : Posted env w m w') (hm : m.clientMessageId = env.uuid w.nextUuid) : ClientIds env w' := by
  refine ⟨h.known.posted_drawn hu hp hm, h.once.posted hp fun c m' hm' _ he => ?_⟩
  obtain ⟨i, hat⟩ := Store.messageAt_of_mem hm'
  exact h.known c i m' hat _ (Nat.le_refl _) (he.trans hm)

theorem clientIds_storage (hu : Function.Injective env.uuid) : Storage env (ClientIds env) where
  same h hm _ hn := ⟨h.known.same hm hn, fun c i c' j m m' h₁ h₂ =>
    h.once c i c' j m m' (Store.messageAt_eq hm c i ▸ h₁) (Store.messageAt_eq hm c' j ▸ h₂)⟩
  amended h ha _ hn := ⟨h.known.amended ha hn, h.once.amended ha⟩
  noticed h hn := h.posted_drawn hu hn.toPosted hn.clientId
  forwarded h hr hm := h.posted_drawn hu hr.toPosted hm

end

/-- The runs in which the client ids that sends bring are not drawn afterwards. -/
def freshService (env : Env) : LTS World Op := (service env).restrict fun w op => op.Fresh env w

/-- Those in which besides no send takes the client id of a stored message of its author that is
not on record. -/
def carefulService (env : Env) : LTS World Op := (freshService env).restrict fun w op => op.Unused w

theorem clientIds_inductive {env : Env} (hu : Function.Injective env.uuid) :
    (carefulService env).Inductive (ClientIds env) where
  init w h := by
    subst h
    exact ⟨fun _ _ _ h => absurd h not_messageAt_init,
      fun _ _ _ _ _ _ h => absurd h not_messageAt_init⟩
  step w op w' h hs := by
    obtain ⟨hunused, hfresh, hs⟩ := hs
    have := clientIds_storage hu
    refine Storage.step hs ?_ h
    rintro actor c request now m rfl hnone hrec hsender hclient h
    refine ⟨h.known.posted hrec.toPosted fun n hle => ?_,
      h.once.posted hrec.toPosted fun c' m' hm' hs' => ?_⟩
    · rw [hclient]
      exact hfresh n (hrec.draws.le.trans hle)
    · rw [hclient]
      exact hunused hnone c' m' hm' (hs'.trans hsender)

theorem known_inductive {env : Env} (hu : Function.Injective env.uuid) :
    (freshService env).Inductive (Known env) where
  init w h := by
    subst h
    exact fun _ _ _ h => absurd h not_messageAt_init
  step w op w' h hs := by
    obtain ⟨hfresh, hs⟩ := hs
    have : Storage env (Known env) := {
      same := fun h hm _ hn => h.same hm hn
      amended := fun h ha _ hn => h.amended ha hn
      noticed := fun h hn => h.posted_drawn hu hn.toPosted hn.clientId
      forwarded := fun h hr hm => h.posted_drawn hu hr.toPosted hm }
    refine Storage.step hs ?_ h
    rintro actor c request now m rfl - hrec - hclient h
    refine h.posted hrec.toPosted fun n hle => ?_
    rw [hclient]
    exact hfresh n (hrec.draws.le.trans hle)

/-! ## Idempotent sending -/

section
variable {env : Env} {w w' : World} {m : Message} {ack : MessageAck} {actor : UserId}
  {c : ConversationId} {request : SendMessageRequest} {now : DateTime}

/-- A successful send leaves its acknowledgement on record. -/
theorem onRecord_of_send (hd : Deduped w) (hk : Known env w)
    (hf : (Op.sendMessageRequest actor c request now).Fresh env w)
    (h : (sendMessageRequest env actor c request now).Runs w (m, ack) w') :
    OnRecord env (actor, request.clientMessageId) (ack.messageId, ack.sequence) w' := by
  rcases sendMessageRequest_cases h with ⟨e, he, -, rfl, rfl⟩ | ⟨-, hrec, hack, hsender, -,
    hclient, -⟩
  · exact ⟨he, hd, hk⟩
  · obtain ⟨s, hs, hins⟩ := hrec.dedup
    have hs : s = ack.sequence := by
      rw [hack.sequence] at hs
      exact (Option.some.inj hs).symm
    refine ⟨?_, Deduped.recorded hd hrec, hk.posted hrec.toPosted fun n hle => ?_⟩
    · rw [hins, hsender, hclient, ← hack.messageId, hs]
      exact Map.get_insert_self ..
    · rw [hclient]
      exact hf n (hrec.draws.le.trans hle)

/-- After every later history a send with the same client id is answered alike. -/
theorem send_repeated (hu : Function.Injective env.uuid) (hr : (freshService env).Reachable w)
    (hf : (Op.sendMessageRequest actor c request now).Fresh env w)
    (h : (sendMessageRequest env actor c request now).Runs w (m, ack) w') {ops : List Op}
    {w₂ : World} (hops : (freshService env).Run w' ops w₂) :
    OnRecord env (actor, request.clientMessageId) (ack.messageId, ack.sequence) w₂ := by
  have hd := reachable_deduped hr.of_restrict
  have hk := (known_inductive hu).reachable hr
  refine hops.preserves (fun s op s' hs hstep => ?_) (onRecord_of_send hd hk hf h)
  exact hs.step hu hstep.1 hstep.2

end

/-- **Sending is idempotent.** A send answers every later send of the user under the same client
id, whatever happens in between; and a user has at most one stored message under a client id,
unless a send takes the client id of a notice. -/
theorem send_idempotent (env : Env) (hu : Function.Injective env.uuid) :
    (∀ w actor c request now m ack w' ops w₂, (freshService env).Reachable w →
      (Op.sendMessageRequest actor c request now).Fresh env w →
      (sendMessageRequest env actor c request now).Runs w (m, ack) w' →
      (freshService env).Run w' ops w₂ →
      ∀ c' request' now', request'.clientMessageId = request.clientMessageId →
        invalidExpiry request'.expiresInSeconds = false →
        ∃ m', (sendMessageRequest env actor c' request' now').Runs w₂
          (m', ⟨request.clientMessageId, ack.messageId, ack.sequence, now'⟩) w₂) ∧
    ∀ w, (carefulService env).Reachable w → OncePerAuthor w := by
  constructor
  · intro w actor c request now m ack w' ops w₂ hr hf h hops c' request' now' hk hexp
    obtain ⟨m', hm'⟩ := (send_repeated hu hr hf h hops).answers c' request' now' hk hexp
    rw [hk] at hm'
    exact ⟨m', hm'⟩
  · intro w hr
    exact ((clientIds_inductive hu).reachable hr).once

/-- The runs of a list without sends. -/
theorem careful_of_no_send {env : Env} {ops : List Op} {w w' : World}
    (h : (service env).Run w ops w')
    (hops : ∀ op ∈ ops, ∀ actor c request now, op ≠ .sendMessageRequest actor c request now) :
    (carefulService env).Run w ops w' := by
  refine (h.restrict fun op hop w => ?_).restrict fun op hop w => ?_
  all_goals
    cases op
    case sendMessageRequest => exact absurd rfl (hops _ hop _ _ _ _)
    all_goals exact trivial

/-- Alice sends, recalls, and sends under the same client id to the group: the first
acknowledgement again. -/
theorem send_idempotent_recalled : ∃ w m ack w' w₂ m', (carefulService Env.numbered).Reachable w ∧
    OncePerAuthor w ∧
    (sendMessageRequest Env.numbered 1 9 (.text 0 "hi") 0).Runs w (m, ack) w' ∧
    (service Env.numbered).Run w' [.recallMessage 1 14 1] w₂ ∧
    (sendMessageRequest Env.numbered 1 11 (.text 0 "again") 5).Runs w₂
      (m', ⟨0, ack.messageId, ack.sequence, 5⟩) w₂ := by
  obtain ⟨w, ⟨m, ack⟩, w₂, hw, hr, -⟩ := reaches_runs Env.numbered aliceAndBob
    (do
      let r ← sendMessageRequest Env.numbered 1 9 (.text 0 "hi") 0
      (recallMessage Env.numbered 1 14 1).void
      pure r)
    (fun _ _ _ => true) (by decide +kernel)
  obtain ⟨r, w', hsend, hr⟩ := Tx.runs_bind.mp hr
  obtain ⟨_, w₂', hrecall, hr⟩ := Tx.runs_bind.mp hr
  obtain ⟨rfl, rfl⟩ := Tx.runs_pure.mp hr
  have hw := careful_of_no_send hw (by simp [aliceAndBob])
  have hrun : (service Env.numbered).Run w' [.recallMessage 1 14 1] w₂ :=
    .cons hrecall (.nil _)
  have hcareful : (carefulService Env.numbered).Reachable w := ⟨World.init, _, rfl, hw⟩
  obtain ⟨hrepeat, honce⟩ := send_idempotent Env.numbered Env.numbered_injective
  obtain ⟨m', hm'⟩ := hrepeat w 1 9 (.text 0 "hi") 0 m ack w' _ w₂ hcareful.of_restrict
    (fun n _ he => by cases he) hsend (careful_of_no_send hrun (by simp)).of_restrict 11
    (.text 0 "again") 5 rfl rfl
  exact ⟨w, m, ack, w', w₂, m', hcareful, honce w hcareful, hsend, hrun, hm'⟩

/-- Alice mutes the group, which stores the notice 15 under the client id 14, and sends a message
under 14: two stored messages of hers share it. -/
theorem notice_clientId_reused : ∃ w, (freshService Env.numbered).Reachable w ∧
    ¬ OncePerAuthor w := by
  obtain ⟨w, r, w', hw, hsend, hp⟩ := reaches_runs Env.numbered
    (aliceAndBob ++ [.setGroupMute 1 11 ⟨true⟩ 0])
    (sendMessageRequest Env.numbered 1 11 (.text 14 "hi") 0)
    (fun w _ w' => w.nextUuid == 17 &&
      (w'.timeline 11).map (fun m => (m.senderId, m.clientMessageId)) == [(1, 14), (1, 14)])
    (by decide +kernel)
  simp only [Bool.and_eq_true, beq_iff_eq] at hp
  obtain ⟨hnext, htwo⟩ := hp
  have hw := (careful_of_no_send hw (by simp [aliceAndBob])).of_restrict
  have hstep : (freshService Env.numbered).step w (.sendMessageRequest 1 11 (.text 14 "hi") 0) w' := by
    refine ⟨fun n hn he => ?_, Tx.runs_void.mpr ⟨r, hsend⟩⟩
    have : 14 = n + 1 := he
    omega
  refine ⟨w', ⟨World.init, _, rfl, hw.snoc hstep⟩, fun honce => ?_⟩
  have hat : ∀ i : Nat, i < 2 → ∃ m, w'.messageAt 11 i = some m ∧ m.senderId = 1 ∧
      m.clientMessageId = 14 := by
    intro i hi
    have h : ((w'.timeline 11).map fun m => (m.senderId, m.clientMessageId))[i]? =
        some (1, 14) := by
      rw [htwo]
      match i, hi with
      | 0, _ => rfl
      | 1, _ => rfl
    rw [List.getElem?_map, Option.map_eq_some_iff] at h
    obtain ⟨m, hm, he⟩ := h
    exact ⟨m, hm, (Prod.mk.inj he).1, (Prod.mk.inj he).2⟩
  obtain ⟨m₁, h₁, hs₁, hk₁⟩ := hat 0 (by decide)
  obtain ⟨m₂, h₂, hs₂, hk₂⟩ := hat 1 (by decide)
  cases (honce 11 0 11 1 m₁ m₂ h₁ h₂ (hs₁.trans hs₂.symm) (hk₁.trans hk₂.symm)).2

end IamRust
