import IamRust.L4Properties.Downloads

/-!
# Expired messages

Nothing deletes a message that has expired; `messages` leaves it out, the other
readers do not ask. So an expired message is hidden exactly when nobody could
reach it anyway (`Store.Unseen`), and a copy that a forward makes has no expiry
of its own: none outlives its source exactly when no source will expire.
-/
namespace IamRust

open Core

/-- The store without the messages that have expired. -/
def Store.current (s : Store) (now : DateTime) : Store :=
  { s with messages := s.messages.mapValues (·.filter (unexpired s now)) }

/-- No reader shows a message that has expired, or lets an attachment through on its account. -/
structure Hides (env : Env) (w : World) (now : DateTime) : Prop where
  shows : ShowsOnly env w now fun _ m => unexpired w.toStore now m = true
  downloads : ∀ {u a}, w.Downloads u a → (w.toStore.current now).Downloads u a

/-- Each message that has expired is of a conversation without members, and nobody's favourite. -/
def Store.Unseen (s : Store) (now : DateTime) : Prop :=
  ∀ id, ∀ m ∈ s.timeline id, unexpired s now m = false →
    (∀ u, s.readable u id = false) ∧ ∀ u, (u, m.id) ∉ s.favoriteMessages

section
variable {env : Env} {w w' : World} {s : Store} {now : DateTime} {u : UserId}
  {id : ConversationId} {i : MessageId} {m : Message}

/-! ## The readers -/

/-- The status shown is no part of the expiry. -/
theorem messages_unexpired {before : Option Nat} {limit : Nat} {l : List Message}
    (h : messages s now u id before limit = .ok l) (hm : m ∈ l) : unexpired s now m = true := by
  obtain ⟨-, m₀, -, hunexpired, rfl⟩ := messages_ok h hm
  exact hunexpired

theorem timeline_current (id : ConversationId) :
    (s.current now).timeline id = (s.timeline id).filter (unexpired s now) := by
  unfold Store.current Store.timeline
  rw [Map.get_mapValues]
  cases s.messages.get id <;> rfl

theorem Store.Unseen.unexpired (h : s.Unseen now) (hm : m ∈ s.timeline id)
    (hread : s.readable u id = true) : unexpired s now m = true := by
  by_contra hexpired
  rw [(h id m hm (Bool.eq_false_of_not_eq_true hexpired)).1 u] at hread
  cases hread

/-- **Expired messages.** They are hidden exactly when nobody could see them. -/
theorem hides_iff (ht : Timelines env w) (hn : Named w) : Hides env w now ↔ w.Unseen now := by
  have hshows : ShowsOnly env w now (fun _ m => unexpired w.toStore now m = true) ↔
      w.Unseen now := by
    rw [showsOnly_iff ht hn fun _ hunexpired => hunexpired]
    constructor
    · intro h id m hm hexpired
      have hnot : ¬ unexpired w.toStore now m = true := by simp [hexpired]
      refine ⟨fun u => Bool.eq_false_of_not_eq_true fun hread => ?_, fun u hmem => ?_⟩
      · exact hnot (h u id m hm (.inl hread))
      · exact hnot (h u id m hm (.inr hmem))
    · rintro h u id m hm (hread | hmem)
      · exact h.unexpired hm hread
      · by_contra hexpired
        exact (h id m hm (Bool.eq_false_of_not_eq_true hexpired)).2 u hmem
  refine ⟨fun h => hshows.mp h.shows, fun h => ⟨hshows.mpr h, fun {u a} hdownload => ?_⟩⟩
  obtain ⟨pending, hget, havailable, hgranted⟩ := downloads_iff.mp hdownload
  refine downloads_iff.mpr ⟨pending, hget, havailable, ?_⟩
  cases hgranted with
  | own howner => exact .own howner
  | account hi havatar => exact .account hi havatar
  | group hc havatar hread => exact .group hc havatar hread
  | @message id m hm hcontains hread =>
    have hunexpired := h.unexpired hm (ht.home_of_mem hm ▸ hread)
    have hcurrent : m ∈ (w.toStore.current now).timeline id := by
      rw [timeline_current]
      exact List.mem_filter.mpr ⟨hm, hunexpired⟩
    exact .message hcurrent hcontains hread

/-! ## Copies -/

/-- Every message with an expiry has a drawn id. -/
def Dated (env : Env) (w : World) : Prop :=
  ∀ i e, w.messageExpirations.get i = some e → ∃ k < w.nextUuid, i = env.uuid k

theorem storeNewMessage_expirations {actor : UserId} {request : SendMessageRequest}
    {ack : MessageAck} (h : (storeNewMessage env actor id request now).Runs w (m, ack) w')
    {e : DateTime}
    (hget : w'.messageExpirations.get i = some e) :
    w.messageExpirations.get i = some e ∨ i = m.id := by
  simp only [storeNewMessage, Tx.runs_get_bind, Tx.runs_ofExcept_bind] at h
  obtain ⟨-, -, recipients, -, -, -, h⟩ := h
  simp [sentMessage_runs, pushMessage, recordDelivery, touchConversation, appendEvent_runs] at h
  obtain ⟨-, w₁, ⟨seconds, -, rfl⟩ | ⟨-, rfl⟩, ⟨rfl, rfl⟩, rfl⟩ := h
  · simp only [Map.get_insert] at hget
    split at hget
    · exact .inr ‹_›
    · exact .inl hget
  · exact .inl hget

theorem recallMessage_expirations {actor : UserId}
    (h : (recallMessage env actor i now).Runs w m w') :
    w'.messageExpirations = w.messageExpirations.remove i := by
  unfold recallMessage at h
  simp only [Tx.runs_get_bind, Tx.runs_okOr_bind] at h
  obtain ⟨original, -, c, -, h⟩ := h
  split at h
  · simp only [Tx.runs_ofExcept_bind, Tx.runs_failIf_bind, update_bind_runs] at h
    obtain ⟨-, -, -, -, h⟩ := h
    obtain ⟨_, w₁, hevent, h⟩ := Tx.runs_bind.mp h
    obtain ⟨-, rfl⟩ := Tx.runs_pure.mp h
    exact appendEvent_only hevent .messageExpirations (by decide)
  · obtain ⟨_, _, hpure, hrest⟩ := Tx.runs_bind.mp h
    obtain ⟨rfl, rfl⟩ := Tx.runs_pure.mp hpure
    simp only [Tx.runs_failIf_bind, update_bind_runs] at hrest
    obtain ⟨-, -, h⟩ := hrest
    obtain ⟨_, w₁, hevent, h⟩ := Tx.runs_bind.mp h
    obtain ⟨-, rfl⟩ := Tx.runs_pure.mp h
    exact appendEvent_only hevent .messageExpirations (by decide)

/-- An expiry is an old one, or that of the message the step stores. -/
theorem Op.expiration {op : Op} (hr : (op.run env).Runs w () w') {e : DateTime}
    (hget : w'.messageExpirations.get i = some e) : w.messageExpirations.get i = some e ∨
      ∃ m, Recorded env w m w' ∧ i = m.id := by
  cases op
  case sendMessageRequest actor id request now =>
    simp only [Op.run, Tx.runs_void, IamRust.sendMessageRequest, sendMessageInStore,
      Tx.runs_failIf_bind, Tx.runs_get_bind] at hr
    obtain ⟨⟨m, ack⟩, -, hr⟩ := hr
    split at hr
    · simp only [Tx.runs_okOr_bind, Tx.runs_pure] at hr
      obtain ⟨-, -, -, -, -, rfl⟩ := hr
      exact .inl hget
    · exact (storeNewMessage_expirations hr hget).imp_right fun hid =>
        ⟨m, (storeNewMessage_recorded hr).1, hid⟩
  case recallMessage actor messageId now =>
    obtain ⟨m, hr⟩ := Tx.runs_void.mp hr
    rw [recallMessage_expirations hr] at hget
    exact .inl (Map.get_of_remove hget)
  all_goals
    have hsame : w'.messageExpirations = w.messageExpirations :=
      Op.same (f := .messageExpirations) hr (by dsimp only [Op.touches]; decide)
    exact .inl (hsame ▸ hget)

theorem dated_inductive (env : Env) : (service env).Inductive (Dated env) where
  init w h i e he := by
    have h : w = World.init := h
    subst h
    cases (Map.get_empty _).symm.trans he
  step w op w' h hr i e he := by
    rcases Op.expiration hr he with hold | ⟨m, hrecorded, rfl⟩
    · obtain ⟨k, hk, hid⟩ := h i e hold
      exact ⟨k, hk.trans_le ((op.evolves env).runs hr).uuids, hid⟩
    · obtain ⟨k, -, hk, hid⟩ := hrecorded.drawn
      exact ⟨k, hk, hid⟩

/-- The messages named, each with the copies made of it. -/
def copies (mode : ForwardMode) (ids : List MessageId) (ms : List Message) :
    List (MessageId × Message) :=
  match mode with
  | .individually => ids.zip ms
  | .merged => ids.product ms

/-- No copy of a message that will expire outlives it. -/
def NoneOutlives (w w' : World) (now : DateTime) (l : List (MessageId × Message)) : Prop :=
  ∀ i m, (i, m) ∈ l → ∀ e, w.messageExpirations.get i = some e → now < e →
    ∃ e', w'.messageExpirations.get m.id = some e' ∧ e' ≤ e

theorem mem_of_mem_copies {mode : ForwardMode} {ids : List MessageId} {ms : List Message}
    (h : (i, m) ∈ copies mode ids ms) : i ∈ ids ∧ m ∈ ms := by
  cases mode with
  | individually => exact List.of_mem_zip h
  | merged => exact List.pair_mem_product.mp h

/-- Every message named is copied. -/
theorem exists_copy {actor : UserId} {mode : ForwardMode} {ids : List MessageId}
    {sources : List ForwardedMessage} {ms : List Message}
    (hsources : collectForwardSources s actor mode ids = .ok sources)
    (hcontents : ms.map (·.content) = forwardContents mode sources) (hi : i ∈ ids) :
    ∃ m ∈ ms, (i, m) ∈ copies mode ids ms := by
  have hlength := congrArg List.length hcontents
  rw [List.length_map] at hlength
  cases mode with
  | individually =>
    rw [forwardContents, List.length_map,
      ← (collectForwardSources_each hsources).length_eq] at hlength
    obtain ⟨k, hk, rfl⟩ := List.mem_iff_getElem.mp hi
    refine ⟨ms[k], List.getElem_mem _, ?_⟩
    have hzip : k < (ids.zip ms).length := by
      rw [List.length_zip]
      omega
    exact List.getElem_zip (h := hzip) ▸ List.getElem_mem hzip
  | merged =>
    obtain ⟨m, rfl⟩ := List.length_eq_one_iff.mp hlength
    exact ⟨m, List.mem_singleton_self m, List.pair_mem_product.mpr ⟨hi, List.mem_singleton_self m⟩⟩

/-- The copies are new messages. -/
theorem forwardMessages_fresh {actor : UserId} {mode : ForwardMode} {ids : List MessageId}
    {ms : List Message} (h : (forwardMessages env actor ids id mode now).Runs w ms w')
    (hm : m ∈ ms) : ∃ k, w.nextUuid ≤ k ∧ m.id = env.uuid k := by
  obtain ⟨-, sources, target, -, -, -, htimeline, -⟩ := forwardMessages_cases h
  have hstep : ((Op.forwardMessages actor ids id mode now).run env).Runs w () w' :=
    Tx.runs_void.mpr ⟨ms, h⟩
  have hgrown := Op.grown hstep
  obtain ⟨k, hk, rfl⟩ := List.mem_iff_getElem.mp hm
  have hat : w'.messageAt id ((w.timeline id).length + k) = some ms[k] := by
    rw [Store.messageAt, htimeline, List.getElem?_append_right (Nat.le_add_right _ _)]
    simp
  rcases hgrown.added _ _ _ hat with ⟨m, hold, -⟩ | ⟨-, -, k, hle, -, hid⟩
  · have hlt := (List.getElem?_eq_some_iff.mp hold).1
    omega
  · exact ⟨k, hle, hid⟩

/-- **Copies.** None outlives its source exactly when no source will expire. -/
theorem forward_outlives_iff (hu : Function.Injective env.uuid) (hdated : Dated env w)
    {actor : UserId} {mode : ForwardMode} {ids : List MessageId} {ms : List Message}
    (h : (forwardMessages env actor ids id mode now).Runs w ms w') :
    NoneOutlives w w' now (copies mode ids ms) ↔
      ∀ i ∈ ids, ∀ e, w.messageExpirations.get i = some e → e ≤ now := by
  constructor
  · intro hnone i hi e he
    by_contra hlater
    obtain ⟨-, sources, target, hsources, -, -, -, hcontents⟩ := forwardMessages_cases h
    obtain ⟨m, hm, hcopy⟩ := exists_copy hsources hcontents hi
    obtain ⟨e', he', -⟩ := hnone i m hcopy e he (not_le.mp hlater)
    have hstep : ((Op.forwardMessages actor ids id mode now).run env).Runs w () w' :=
      Tx.runs_void.mpr ⟨ms, h⟩
    have hsame : w'.messageExpirations = w.messageExpirations :=
      Op.same (f := .messageExpirations) hstep (by dsimp only [Op.touches]; decide)
    -- the copy's id is drawn in this step, so nothing is recorded under it
    obtain ⟨k, hk, hid⟩ := hdated m.id e' (hsame ▸ he')
    obtain ⟨k', hk', hid'⟩ := forwardMessages_fresh h hm
    have := hu (hid.symm.trans hid')
    omega
  · intro hall i m hcopy e he hlater
    exact absurd (hall i (mem_of_mem_copies hcopy).1 e he) (not_le.mpr hlater)

/-! ## Exactly when expired messages are gone -/

/-- **Expired messages.** `messages` never shows one. The readers together hide them at a time
exactly when each message that has expired by then is of a conversation without members and
nobody's favourite; and no copy made by a forward outlives its source exactly when none of the
messages named has an expiry to come. -/
theorem expired_hidden (env : Env) (hu : Function.Injective env.uuid) (w : World)
    (hw : (service env).Reachable w) (now : DateTime) :
    (∀ u id before limit l, messages w.toStore now u id before limit = .ok l →
      ∀ m ∈ l, unexpired w.toStore now m = true) ∧
    (Hides env w now ↔ w.Unseen now) ∧
    ∀ actor ids target mode ms w', (forwardMessages env actor ids target mode now).Runs w ms w' →
      (NoneOutlives w w' now (copies mode ids ms) ↔
        ∀ i ∈ ids, ∀ e, w.messageExpirations.get i = some e → e ≤ now) :=
  ⟨fun _ _ _ _ _ hok _ hm => messages_unexpired hok hm,
    hides_iff (reachable_timelines hu hw) ((named_inductive env).reachable hw),
    fun _ _ _ _ _ _ hr => forward_outlives_iff hu ((dated_inductive env).reachable hw) hr⟩

end

/-- A text that expires after a minute. -/
def SendMessageRequest.briefText (clientMessageId : MessageId) (text : String) :
    SendMessageRequest :=
  { SendMessageRequest.text clientMessageId text with expiresInSeconds := some 60 }

/-- Alice sends a message that expires, and disbands the group: nobody is shown it later. -/
theorem expired_hidden_disbanded : ∃ w now, (service Env.numbered).Reachable w ∧
    (∃ m ∈ w.timeline 11, unexpired w.toStore now m = false) ∧ Hides Env.numbered w now := by
  obtain ⟨w, hw, hp⟩ := reaches Env.numbered
    (aliceAndBob ++ [.sendMessageRequest 1 11 (.briefText 100 "hi") 0, .disbandGroup 1 11 0])
    (fun w => ((w.timeline 11).any fun m => !unexpired w.toStore (Duration.minutes 1) m) &&
      decide (w.favoriteMessages = ∅) && (w.conversations.get 11).isNone &&
      decide (w.messages.keys = [11])) (by decide +kernel)
  simp only [Bool.and_eq_true, decide_eq_true_eq, Option.isNone_iff_eq_none, List.any_eq_true,
    Bool.not_eq_true'] at hp
  obtain ⟨⟨⟨hexpired, hfavorites⟩, hgone⟩, honly⟩ := hp
  refine ⟨w, Duration.minutes 1, reachable_of_run hw, hexpired, ?_⟩
  refine ((expired_hidden Env.numbered Env.numbered_injective w (reachable_of_run hw)
    (Duration.minutes 1)).2.1).mpr fun id m hm _ => ⟨fun u => ?_, fun u => ?_⟩
  · have hid : id ∈ w.messages.keys := by
      rw [Map.mem_keys]
      cases hget : w.messages.get id with
      | none => simp [Store.timeline, hget] at hm
      | some l => exact ⟨l, rfl⟩
    rw [honly, List.mem_singleton] at hid
    simp [hid, Store.readable, readableIn, hgone]
  · rw [hfavorites]
    exact Finset.notMem_empty _

/-- Bob is shown the details of a message that has expired, and a copy made before stays. -/
theorem expired_shown : ∃ w ms w' details, (service Env.numbered).Reachable w ∧
    (forwardMessages Env.numbered 4 [14] 9 .individually 0).Runs w ms w' ∧
    ¬ NoneOutlives w w' 0 (copies .individually [14] ms) ∧
    messageDetails w'.toStore 4 14 = .ok details ∧
    unexpired w'.toStore (Duration.minutes 1) details.message = false := by
  obtain ⟨w, ms, w', hw, hr, hp⟩ := reaches_runs Env.numbered
    (aliceAndBob ++ [.sendMessageRequest 1 11 (.briefText 100 "hi") 0])
    (forwardMessages Env.numbered 4 [14] 9 .individually 0)
    (fun w ms w' => decide (w.messageExpirations.get 14 = some (Duration.minutes 1)) &&
      decide (ms.length = 1) && ms.all (fun m => (w'.messageExpirations.get m.id).isNone) &&
      (messageDetails w'.toStore 4 14).toOption.any fun details =>
        !unexpired w'.toStore (Duration.minutes 1) details.message) (by decide +kernel)
  simp only [Bool.and_eq_true, decide_eq_true_eq, Option.any_eq_true, Bool.not_eq_true'] at hp
  obtain ⟨⟨⟨hexpires, hlength⟩, hcopy⟩, details, hdetails, hexpired⟩ := hp
  obtain ⟨m, rfl⟩ := List.length_eq_one_iff.mp hlength
  refine ⟨w, [m], w', details, reachable_of_run hw, hr, fun hnone => ?_, ?_, hexpired⟩
  · obtain ⟨e', he', -⟩ := hnone 14 _ (List.mem_singleton_self _) _ hexpires (by decide)
    simp [he'] at hcopy
  · cases hok : messageDetails w'.toStore 4 14 with
    | error e => simp [hok, Except.toOption] at hdetails
    | ok d => simpa [hok, Except.toOption] using hdetails

end IamRust
