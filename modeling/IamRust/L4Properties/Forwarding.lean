import IamRust.L4Properties.Timelines

/-!
# Forwarding and sending

A send asks `messageRecipientsForSend` about the target, a forward only
`canSend`. The two agree on membership and mutes of a member; what a forward
leaves out is the mute of the whole group and, in a direct conversation,
friendship, blocks and the peer's choice about files. `MaySend` is what is left
out: a forward obeys the rules of a send exactly where it holds
(`forward_obeys_send_rules`).
-/
namespace IamRust

open Core

/-- What is related to an entry. -/
theorem related_of_mem {α β : Type} {r : α → β → Prop} {l : List α} {l' : List β}
    (h : List.Forall₂ r l l') {a : α} (ha : a ∈ l) : ∃ b ∈ l', r a b := by
  induction h with
  | nil => cases ha
  | cons hab _ ih =>
    rcases List.mem_cons.mp ha with rfl | ha
    · exact ⟨_, List.mem_cons_self, hab⟩
    · obtain ⟨b, hb, hr⟩ := ih ha
      exact ⟨b, List.mem_cons_of_mem _ hb, hr⟩

/-! ## What a forward appends -/

section
variable {s : Store} {actor : UserId} {mode : ForwardMode}

theorem forwardSource_content {id : MessageId} {source : ForwardedMessage}
    (h : forwardSource s actor mode id = .ok source) :
    ∃ m, findMessage s id = some m ∧ source.content = m.content := by
  unfold forwardSource at h
  split at h
  · cases h
  rename_i m hm
  split at h
  · cases h
  split at h
  · cases h
  split at h
  · cases h
  · cases h
    exact ⟨m, hm, rfl⟩

/-- A source for each id, in order. -/
theorem collectForwardSources_each {ids : List MessageId} {sources : List ForwardedMessage}
    (h : collectForwardSources s actor mode ids = .ok sources) :
    List.Forall₂ (fun id source => forwardSource s actor mode id = .ok source) ids sources := by
  induction ids generalizing sources with
  | nil =>
    cases h
    exact .nil
  | cons id ids ih =>
    unfold collectForwardSources at h
    split at h
    · cases h
    rename_i source hsource
    cases hrest : collectForwardSources s actor mode ids with
    | error e =>
      rw [hrest] at h
      cases h
    | ok rest =>
      rw [hrest] at h
      cases h
      exact .cons hsource (ih hrest)

/-- The sources are the messages named, in order. -/
theorem collectForwardSources_contents {ids : List MessageId} {sources : List ForwardedMessage}
    (h : collectForwardSources s actor mode ids = .ok sources) :
    List.Forall₂ (fun id source => ∃ m, findMessage s id = some m ∧ source.content = m.content)
      ids sources :=
  (collectForwardSources_each h).imp fun _ _ => forwardSource_content

end

section
variable {env : Env} {actor : UserId} {c : ConversationId} {now : DateTime} {w w' : World}

theorem appendForwardedMessage_content {content : MessageContent} {sequence : Nat}
    {recipients : List UserId} {m : Message}
    (h : (appendForwardedMessage env actor c content sequence recipients now).Runs w m w') :
    m.content = content := by
  simp [appendForwardedMessage, sentMessage_runs, pushMessage, recordDelivery, appendEvent_runs]
    at h
  obtain ⟨-, rfl, -⟩ := h
  rfl

/-- One message to each content, behind what was stored before. -/
theorem appendForwardedMessages_appends {recipients : List UserId}
    {contents : List MessageContent} {sequence : Nat} {ms : List Message}
    (hs : sequence = lastSequence w.toStore c)
    (h : (appendForwardedMessages env actor c recipients now sequence contents).Runs w ms w') :
    w'.timeline c = w.timeline c ++ ms ∧ ms.map (·.content) = contents := by
  induction contents generalizing sequence w ms with
  | nil =>
    obtain ⟨rfl, rfl⟩ := Tx.runs_pure.mp h
    exact ⟨(List.append_nil _).symm, rfl⟩
  | cons content contents ih =>
    obtain ⟨m, w₁, hm, h⟩ := Tx.runs_bind.mp h
    obtain ⟨rest, w₂, hrest, h⟩ := Tx.runs_bind.mp h
    obtain ⟨rfl, rfl⟩ := Tx.runs_pure.mp h
    obtain ⟨hrec, -, hc, -, hseq⟩ := appendForwardedMessage_recorded (congrArg saturatingSucc hs) hm
    have hlast := hrec.lastSequence
    rw [hseq, hc, Option.some.injEq] at hlast
    obtain ⟨hw', hrestContents⟩ := ih hlast hrest
    have hw₁ : w₁.timeline c = w.timeline c ++ [m] := by
      rw [hrec.timeline, if_pos hc.symm]
    refine ⟨by rw [hw', hw₁, List.append_assoc, List.singleton_append], ?_⟩
    rw [List.map_cons, hrestContents, appendForwardedMessage_content hm]

/-- **What a forward does.** -/
theorem forwardMessages_cases {ids : List MessageId} {mode : ForwardMode} {ms : List Message}
    (h : (forwardMessages env actor ids c mode now).Runs w ms w') :
    ids ≠ [] ∧ ∃ sources target, collectForwardSources w.toStore actor mode ids = .ok sources ∧
      w.conversations.get c = some target ∧ target.canSend actor now = true ∧
      w'.timeline c = w.timeline c ++ ms ∧
      ms.map (·.content) = forwardContents mode sources := by
  simp only [forwardMessages, forwardMessagesInStore, Tx.runs_failIf_bind, Tx.runs_get_bind,
    Tx.runs_ofExcept_bind, Tx.runs_okOr_bind] at h
  obtain ⟨hcount, -, sources, hsources, target, htarget, hsend, h⟩ := h
  obtain ⟨forwarded, w₁, hloop, h⟩ := Tx.runs_bind.mp h
  obtain ⟨_, w₂, htouch, h⟩ := Tx.runs_bind.mp h
  obtain ⟨rfl, rfl⟩ := Tx.runs_pure.mp h
  obtain ⟨hw₁, hcontents⟩ := appendForwardedMessages_appends rfl hloop
  have hw' : w'.timeline c = w₁.timeline c := by
    obtain rfl := Tx.runs_modify.mp htouch
    rfl
  refine ⟨?_, sources, target, hsources, htarget, Bool.of_not_eq_false hsend, hw'.trans hw₁,
    hcontents⟩
  rintro rfl
  exact hcount (.inl rfl)

end

/-! ## What a forward leaves out -/

/-- The rest of the rules of a send: a plain member is silent in a muted group; in a direct
conversation the two are friends, neither blocks the other, and where a file is among the
messages (`files`) the peer takes files. -/
def MaySend (s : Store) (actor : UserId) (id : ConversationId) (target : Conversation)
    (files : Prop) : Prop :=
  if target.isGroup = true then
    ¬ (id ∈ s.groupMuteAll ∧ (target.members.get actor).map (·.role) = some .member)
  else
    ∃ peer, target.members.keys.find? (· ≠ actor) = some peer ∧ areFriends s actor peer = true ∧
      (actor, peer) ∉ s.blocks ∧ (peer, actor) ∉ s.blocks ∧
      (files → (s.friendSettings.get (peer, actor)).all (·.allowFiles) = true)

theorem directRefuses_eq_false {s : Store} {actor peer : UserId} {content : MessageContent} :
    directRefuses s actor peer content = false ↔
      areFriends s actor peer = true ∧ (actor, peer) ∉ s.blocks ∧ (peer, actor) ∉ s.blocks ∧
      (content.attachment?.isSome = true →
        (s.friendSettings.get (peer, actor)).all (·.allowFiles) = true) := by
  unfold directRefuses
  cases hs : s.friendSettings.get (peer, actor) <;>
    cases hf : content.attachment?.isSome <;> simp [and_assoc]

/-- A send is allowed to a member who is not muted, if the rest of the rules allows it. -/
theorem messageRecipientsForSend_ok {s : Store} {actor : UserId} {id : ConversationId}
    {target : Conversation} {content : MessageContent} {now : DateTime}
    (ht : s.conversations.get id = some target) (hsend : target.canSend actor now = true) :
    (∃ recipients, messageRecipientsForSend s actor id content now = .ok recipients) ↔
      MaySend s actor id target (content.attachment?.isSome = true) := by
  unfold messageRecipientsForSend MaySend
  simp only [ht, hsend, Bool.true_eq_false, if_false]
  by_cases hg : target.isGroup = true
  · simp only [hg, if_true]
    split
    · rename_i hmute
      simp [hmute]
    · rename_i hmute
      exact iff_of_true ⟨_, rfl⟩ hmute
  · simp only [hg]
    cases hp : target.members.keys.find? (· ≠ actor) with
    | none => simp
    | some peer =>
      simp only [Option.some.injEq, exists_eq_left', ← directRefuses_eq_false]
      cases directRefuses s actor peer content <;> simp

theorem maySend_iff_forall {s : Store} {actor : UserId} {id : ConversationId}
    {target : Conversation} {α : Type} {files : α → Prop} {l : List α} (hl : l ≠ []) :
    (∀ a ∈ l, MaySend s actor id target (files a)) ↔
      MaySend s actor id target (∃ a ∈ l, files a) := by
  obtain ⟨b, hb⟩ := List.exists_mem_of_ne_nil l hl
  unfold MaySend
  split
  · exact ⟨fun h => h b hb, fun h _ _ => h⟩
  constructor
  · intro h
    obtain ⟨peer, hp, hfriends, hblocks, hblocked, -⟩ := h b hb
    refine ⟨peer, hp, hfriends, hblocks, hblocked, ?_⟩
    rintro ⟨a, ha, hfile⟩
    obtain ⟨peer', hp', -, -, -, hfiles⟩ := h a ha
    obtain rfl := Option.some.inj (hp.symm.trans hp')
    exact hfiles hfile
  · rintro ⟨peer, hp, hfriends, hblocks, hblocked, hfiles⟩ a ha
    exact ⟨peer, hp, hfriends, hblocks, hblocked, fun hfile => hfiles ⟨a, ha, hfile⟩⟩

/-- One of the messages named carries a file, and they are forwarded one by one. -/
def ForwardsFile (s : Store) (mode : ForwardMode) (ids : List MessageId) : Prop :=
  mode = .individually ∧
    ∃ id ∈ ids, ∃ m, findMessage s id = some m ∧ m.content.attachment?.isSome = true

/-- The contents appended carry a file where the messages named do; a bundle is no file. -/
theorem forwardContents_file {s : Store} {actor : UserId} {mode : ForwardMode}
    {ids : List MessageId} {sources : List ForwardedMessage}
    (h : collectForwardSources s actor mode ids = .ok sources) :
    (∃ content ∈ forwardContents mode sources, content.attachment?.isSome = true) ↔
      ForwardsFile s mode ids := by
  cases mode with
  | merged => simp [forwardContents, ForwardsFile, MessageContent.attachment?]
  | individually =>
    have hcontents := collectForwardSources_contents h
    clear h
    simp only [forwardContents, ForwardsFile, true_and, List.mem_map, exists_exists_and_eq_and]
    induction hcontents with
    | nil => simp
    | @cons id source ids sources hsource _ ih =>
      obtain ⟨m, hm, hcontent⟩ := hsource
      simp only [List.mem_cons, exists_eq_or_imp, ih, hm, hcontent, Option.some.injEq,
        exists_eq_left']

/-! ## Exactly when a forward obeys the rules -/

/-- **A forward and the rules of a send.** Of the messages a forward appends, each could have been
sent in the state before, exactly where the rules a forward does not look at allow it. -/
theorem forward_obeys_send_rules {env : Env} {actor : UserId} {c : ConversationId}
    {ids : List MessageId} {mode : ForwardMode} {now : DateTime} {w w' : World} {ms : List Message}
    (h : (forwardMessages env actor ids c mode now).Runs w ms w') :
    ∃ target, w.conversations.get c = some target ∧ w'.timeline c = w.timeline c ++ ms ∧
      ((∀ m ∈ ms, ∃ recipients,
          messageRecipientsForSend w.toStore actor c m.content now = .ok recipients) ↔
        MaySend w.toStore actor c target (ForwardsFile w.toStore mode ids)) := by
  obtain ⟨hids, sources, target, hsources, htarget, hsend, htimeline, hcontents⟩ :=
    forwardMessages_cases h
  refine ⟨target, htarget, htimeline, ?_⟩
  have hne : forwardContents mode sources ≠ [] := by
    have hlength := (collectForwardSources_contents hsources).length_eq
    cases mode <;> simp_all [forwardContents, ← List.length_eq_zero_iff]
  rw [← forwardContents_file hsources, ← maySend_iff_forall hne, ← hcontents, List.forall_mem_map]
  exact forall₂_congr fun m _ => messageRecipientsForSend_ok htarget hsend

/-- Bob forwards Alice's message from their direct conversation to the group, where he may send. -/
theorem forward_obeys_send_rules_allowed : ∃ w ms w', (service Env.numbered).Reachable w ∧
    (forwardMessages Env.numbered 4 [14] 11 .individually 0).Runs w ms w' ∧ ms ≠ [] ∧
    ∀ m ∈ ms, ∃ recipients,
      messageRecipientsForSend w.toStore 4 11 m.content 0 = .ok recipients := by
  obtain ⟨w, ms, w', hw, hforward, hp⟩ := reaches_runs Env.numbered
    (aliceAndBob ++ [.sendMessageRequest 1 9 (.text 100 "hi") 0])
    (forwardMessages Env.numbered 4 [14] 11 .individually 0)
    (fun w ms _ => !ms.isEmpty && decide (w.groupMuteAll = ∅) &&
      (w.conversations.get 11).all (·.isGroup)) (by decide +kernel)
  simp only [Bool.and_eq_true, Bool.not_eq_true', List.isEmpty_eq_false_iff,
    decide_eq_true_eq] at hp
  obtain ⟨⟨hne, hunmuted⟩, hall⟩ := hp
  obtain ⟨target, htarget, -, hobeys⟩ := forward_obeys_send_rules hforward
  have hgroup : target.isGroup = true := by simpa [htarget] using hall
  refine ⟨w, ms, w', reachable_of_run hw, hforward, hne, hobeys.mpr ?_⟩
  rw [MaySend, if_pos hgroup, hunmuted]
  exact fun hmute => absurd hmute.1 (Finset.notMem_empty _)

/-- Alice mutes the group. Bob, a plain member, still forwards a message into it, which he may not
send. -/
theorem forward_into_muted_group : ∃ w ms w', (service Env.numbered).Reachable w ∧
    (forwardMessages Env.numbered 4 [14] 11 .individually 0).Runs w ms w' ∧
    ∃ m ∈ ms, ∀ recipients,
      messageRecipientsForSend w.toStore 4 11 m.content 0 ≠ .ok recipients := by
  obtain ⟨w, ms, w', hw, hforward, hp⟩ := reaches_runs Env.numbered
    (aliceAndBob ++ [.sendMessageRequest 1 9 (.text 100 "hi") 0, .setGroupMute 1 11 ⟨true⟩ 0])
    (forwardMessages Env.numbered 4 [14] 11 .individually 0)
    (fun w ms _ => ms.any fun m =>
      (messageRecipientsForSend w.toStore 4 11 m.content 0).toOption.isNone) (by decide +kernel)
  obtain ⟨m, hm, hrefused⟩ := List.any_eq_true.mp hp
  refine ⟨w, ms, w', reachable_of_run hw, hforward, m, hm, fun recipients hr => ?_⟩
  rw [hr] at hrefused
  cases hrefused

end IamRust
