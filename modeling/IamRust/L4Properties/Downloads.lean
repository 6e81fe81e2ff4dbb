import IamRust.L4Properties.Profiles
import IamRust.L4Properties.Readers
import IamRust.L4Properties.Suspension

/-!
# Who downloads an attachment

`attachment_for_download` lets through the owner, everybody for an avatar of an
account, and the readers of a group with the avatar or of a message with the
attachment in it (`Granted`). `download_spreads`: whoever gains the permission
in a step got it from the operation of a user who had it, unless the owner
completed the attachment in that step.
-/
namespace IamRust

open Core

/-- `attachment_for_download` succeeds. -/
def Store.Downloads (s : Store) (u : UserId) (a : AttachmentId) : Prop :=
  ∃ attachment, attachmentForDownload s u a = .ok attachment

/-- What the permission rests on, for an attachment of the owner's. -/
inductive Granted (s : Store) (u : UserId) (a : AttachmentId) (owner : UserId) : Prop where
  | own (howner : owner = u)
  | account {i : UserId} {account : Account} (hget : s.accounts.get i = some account)
    (havatar : account.profile.avatarAttachmentId = some a)
  | group {id : ConversationId} {c : Conversation} (hget : s.conversations.get id = some c)
    (havatar : c.avatarAttachmentId = some a) (hread : c.canRead u = true)
  | message {id : ConversationId} {m : Message} (hmem : m ∈ s.timeline id)
    (hcontains : messageContainsAttachment a m.content = true)
    (hread : s.readable u m.conversationId = true)

section
variable {s : Store} {u : UserId} {a : AttachmentId}

theorem any_accounts : (s.accounts.values.any fun account =>
      account.profile.avatarAttachmentId == some a) = true ↔
    ∃ i account, s.accounts.get i = some account ∧ account.profile.avatarAttachmentId = some a := by
  simp only [List.any_eq_true, Map.mem_values, beq_iff_eq]
  constructor
  · rintro ⟨account, ⟨i, hget⟩, havatar⟩
    exact ⟨i, account, hget, havatar⟩
  · rintro ⟨i, account, hget, havatar⟩
    exact ⟨account, ⟨i, hget⟩, havatar⟩

theorem any_groups : (s.conversations.values.any fun conversation =>
      conversation.avatarAttachmentId == some a && conversation.canRead u) = true ↔
    ∃ id c, s.conversations.get id = some c ∧ c.avatarAttachmentId = some a ∧
      c.canRead u = true := by
  simp only [List.any_eq_true, Map.mem_values, Bool.and_eq_true, beq_iff_eq]
  constructor
  · rintro ⟨c, ⟨id, hget⟩, h⟩
    exact ⟨id, c, hget, h⟩
  · rintro ⟨id, c, hget, h⟩
    exact ⟨c, ⟨id, hget⟩, h⟩

theorem mem_messages {m : Message} :
    m ∈ s.messages.values.flatten ↔ ∃ id, m ∈ s.timeline id := by
  simp only [List.mem_flatten, Map.mem_values, Store.timeline]
  constructor
  · rintro ⟨l, ⟨id, hget⟩, hm⟩
    exact ⟨id, by simpa [hget] using hm⟩
  · rintro ⟨id, hm⟩
    cases hget : s.messages.get id with
    | none => simp [hget] at hm
    | some l => exact ⟨l, ⟨id, hget⟩, by simpa [hget] using hm⟩

theorem any_messages : (s.messages.values.flatten.any fun message =>
      messageContainsAttachment a message.content &&
        (s.conversations.get message.conversationId).any (·.canRead u)) = true ↔
    ∃ id m, m ∈ s.timeline id ∧ messageContainsAttachment a m.content = true ∧
      s.readable u m.conversationId = true := by
  simp only [List.any_eq_true, mem_messages, Bool.and_eq_true]
  constructor
  · rintro ⟨m, ⟨id, hm⟩, h⟩
    exact ⟨id, m, hm, h⟩
  · rintro ⟨id, m, hm, h⟩
    exact ⟨m, ⟨id, hm⟩, h⟩

/-- **Downloads.** The attachment is complete, and there is a reason. -/
theorem downloads_iff : s.Downloads u a ↔ ∃ pending, s.attachments.get a = some pending ∧
    pending.available = true ∧ Granted s u a pending.ownerId := by
  unfold Store.Downloads attachmentForDownload
  cases hget : (s.attachments.get a).filter (·.available) with
  | none =>
    refine iff_of_false (by rintro ⟨_, h⟩; cases h) ?_
    rintro ⟨pending, hp, havailable, -⟩
    rw [hp, Option.filter_some, if_pos havailable] at hget
    cases hget
  | some pending =>
    obtain ⟨hp, havailable⟩ := Option.filter_eq_some_iff.mp hget
    rw [hp]
    simp only [Option.some.injEq, exists_eq_left', havailable, true_and]
    constructor
    · rintro ⟨attachment, h⟩
      split at h
      · exact .own ‹_›
      split at h
      · obtain ⟨i, account, hi, havatar⟩ := any_accounts.mp ‹_›
        exact .account hi havatar
      split at h
      · obtain ⟨id, c, hc, havatar, hread⟩ := any_groups.mp ‹_›
        exact .group hc havatar hread
      split at h
      · obtain ⟨id, m, hm, hcontains, hread⟩ := any_messages.mp ‹_›
        exact .message hm hcontains hread
      · cases h
    · intro h
      by_cases hown : pending.ownerId = u
      · exact ⟨_, if_pos hown⟩
      rw [if_neg hown]
      by_cases haccount : (s.accounts.values.any fun account =>
          account.profile.avatarAttachmentId == some a) = true
      · exact ⟨_, if_pos haccount⟩
      rw [if_neg haccount]
      by_cases hgroup : (s.conversations.values.any fun conversation =>
          conversation.avatarAttachmentId == some a && conversation.canRead u) = true
      · exact ⟨_, if_pos hgroup⟩
      rw [if_neg hgroup]
      refine ⟨_, if_pos (any_messages.mpr ?_)⟩
      cases h with
      | own h => exact absurd h hown
      | account hi havatar => exact absurd (any_accounts.mpr ⟨_, _, hi, havatar⟩) haccount
      | group hc havatar hread => exact absurd (any_groups.mpr ⟨_, _, hc, havatar, hread⟩) hgroup
      | message hm hcontains hread => exact ⟨_, _, hm, hcontains, hread⟩

/-- The check of a new avatar passes for the owner. -/
theorem checkAvatar_downloads (h : checkAvatar s u a = .ok ()) : s.Downloads u a := by
  unfold checkAvatar at h
  split at h
  · cases h
  rename_i pending hget
  obtain ⟨hp, hok⟩ := Option.filter_eq_some_iff.mp hget
  simp only [Bool.and_eq_true, beq_iff_eq] at hok
  exact downloads_iff.mpr ⟨pending, hp, hok.2, .own hok.1⟩

theorem contains_attachment? {content : MessageContent} (hbundle : content.isForwardBundle = false)
    (h : messageContainsAttachment a content = true) :
    ∃ attachment, content.attachment? = some attachment ∧ attachment.id = a := by
  cases content <;> simp_all [messageContainsAttachment, MessageContent.attachment?,
    MessageContent.isForwardBundle]

/-- A message is sent with an attachment by its owner. -/
theorem validateMessageAttachment_downloads {content : MessageContent}
    (h : validateMessageAttachment s u content = .ok ())
    (hcontains : messageContainsAttachment a content = true) : s.Downloads u a := by
  unfold validateMessageAttachment at h
  split at h
  · cases h
  obtain ⟨attachment, hattachment, rfl⟩ :=
    contains_attachment? (Bool.eq_false_iff.mpr ‹_›) hcontains
  rw [hattachment] at h
  dsimp only at h
  split at h
  · cases h
  rename_i pending hget
  obtain ⟨hp, hok⟩ := Option.filter_eq_some_iff.mp hget
  simp only [Bool.and_eq_true, beq_iff_eq] at hok
  exact downloads_iff.mpr ⟨pending, hp, hok.2, .own hok.1⟩

/-! ## Forwards -/

theorem messagesContain_iff {messages : List ForwardedMessage} :
    messagesContainAttachment a messages = true ↔
      ∃ m ∈ messages, messageContainsAttachment a m.content = true := by
  induction messages with
  | nil => simp [messagesContainAttachment]
  | cons m messages ih => simp [messagesContainAttachment, ih]

/-- A forward appends what its sources contain. -/
theorem forwardContents_contains {mode : ForwardMode} {sources : List ForwardedMessage}
    {content : MessageContent} (hmem : content ∈ forwardContents mode sources)
    (h : messageContainsAttachment a content = true) :
    ∃ source ∈ sources, messageContainsAttachment a source.content = true := by
  cases mode with
  | individually =>
    obtain ⟨source, hsource, rfl⟩ := List.mem_map.mp hmem
    exact ⟨source, hsource, h⟩
  | merged =>
    obtain rfl := List.mem_singleton.mp hmem
    rw [messageContainsAttachment] at h
    exact messagesContain_iff.mp h

end

/-- A user who posts a message with the attachment could download it. -/
theorem Op.Posts.downloads {w : World} {op : Op} {m : Message} {a : AttachmentId}
    {pending : PendingAttachment} (h : op.Posts w m)
    (hcontains : messageContainsAttachment a m.content = true)
    (hget : w.attachments.get a = some pending) (havailable : pending.available = true) :
    ∃ u, op.actor = some u ∧ w.Downloads u a := by
  cases op
  case sendMessageRequest actor id request now =>
    obtain ⟨-, hcontent, hvalid⟩ := h
    rw [hcontent] at hcontains
    exact ⟨actor, rfl, validateMessageAttachment_downloads hvalid hcontains⟩
  case forwardMessages actor ids id mode now =>
    obtain ⟨-, sources, hsources, hmem⟩ := h
    obtain ⟨source, hsource, hcontains⟩ := forwardContents_contains hmem hcontains
    obtain ⟨i, -, m₀, hfind, hcontent, hread⟩ :=
      collectForwardSources_readable hsources hsource
    obtain ⟨-, c, hm₀⟩ := findMessage_some hfind
    rw [hcontent] at hcontains
    exact ⟨actor, rfl, downloads_iff.mpr ⟨pending, hget, havailable,
      .message hm₀ hcontains hread⟩⟩
  all_goals exact h.elim

/-! ## What a step does to the reasons -/

section
variable {c c' : Conversation} {now : DateTime} {actor target : UserId}

theorem Conversation.direct_avatar {id : ConversationId} {a b : UserId}
    (h : Conversation.direct id a b now = .ok c) : c.avatarAttachmentId = none := by
  unfold Conversation.direct at h
  split at h <;> cases h
  rfl

theorem Conversation.group_avatar {id : ConversationId} {groupId : GroupId} {owner : UserId}
    {memberIds : List UserId} {name : String}
    (h : Conversation.group id groupId owner memberIds name now = .ok c) :
    c.avatarAttachmentId = none := by
  unfold Conversation.group at h
  split at h
  · cases h
  split at h <;> cases h
  rfl

theorem Conversation.transferOwnership_avatar
    (h : c.transferOwnership actor target now = .ok c') :
    c'.avatarAttachmentId = c.avatarAttachmentId := by
  unfold Conversation.transferOwnership at h
  split at h
  · cases h
  split at h <;> cases h
  rfl

theorem Conversation.detach_avatar :
    (c.detach actor now).avatarAttachmentId = c.avatarAttachmentId := by
  unfold Conversation.detach
  split <;> rfl

theorem Conversation.avatar_updateGroup {a : AttachmentId} {request : UpdateGroupRequest}
    (h : (c.updateGroup request now).avatarAttachmentId = some a) :
    c.avatarAttachmentId = some a ∨ request.avatarAttachmentId = some (some a) := by
  obtain ⟨_ | _, _ | _, _ | _ | _⟩ := request <;> simp_all [Conversation.updateGroup]

end

section
variable {env : Env} {w w' : World} {op : Op} {a : AttachmentId}

/-- What a transaction makes of the attachments. -/
inductive Attached (env : Env) (w w' : World) : Op → Prop
  | same {op : Op} (h : w'.attachments = w.attachments) : Attached env w w' op
  | authorized {actor fileName mimeType byteSize sha256 now} {pending : PendingAttachment}
    (hdraws : w.nextUuid < w'.nextUuid) (hid : pending.attachment.id = env.uuid w.nextUuid)
    (hkey : pending.attachment.storageKey =
      "uploads/" ++ Uuid.toString pending.ownerId ++ "/" ++ Uuid.toString (env.uuid w.nextUuid))
    (havailable : pending.available = false)
    (h : w'.attachments = w.attachments.insert (env.uuid w.nextUuid) pending) :
    Attached env w w' (.authorizeAttachment actor fileName mimeType byteSize sha256 now)
  | completed {id now} {old : PendingAttachment} (hget : w.attachments.get id = some old)
    (hclean : old.quarantined = false)
    (h : w'.attachments = w.attachments.insert id { old with available := true }) :
    Attached env w w' (.completeAttachment old.ownerId id now)
  | quarantined {id now expiresAt} {old : PendingAttachment}
    (hget : w.attachments.get id = some old) (havailable : old.available = false)
    (h : w'.attachments =
      w.attachments.insert id { old with quarantined := true, expiresAt := expiresAt }) :
    Attached env w w' (.quarantineAttachment old.ownerId id now)
  | collected {now} (h : w'.attachments =
      w.attachments.retain fun _ p => p.available || decide (p.expiresAt > now)) :
    Attached env w w' (.cleanupExpiredAttachments now)

theorem Op.attached (hr : (op.run env).Runs w () w') : Attached env w w' op := by
  cases op
  case authorizeAttachment actor fileName mimeType byteSize sha256 now =>
    simp only [Op.run, Tx.runs_void, IamRust.authorizeAttachment, check_bind_runs,
      Tx.runs_bind (t := newUuid env), newUuid_runs, update_bind_runs, Tx.runs_pure] at hr
    obtain ⟨_, -, id, _, ⟨rfl, rfl⟩, -, rfl⟩ := hr
    exact .authorized (Nat.lt_succ_self _) rfl rfl rfl rfl
  case completeAttachment actor id now =>
    simp only [Op.run, Tx.runs_void, IamRust.completeAttachment, Tx.runs_get_bind,
      Tx.runs_okOr_bind, Tx.runs_failIf_bind, update_bind_runs, Tx.runs_pure] at hr
    obtain ⟨_, old, hold, -, hclean, -, rfl⟩ := hr
    obtain ⟨hget, howner⟩ := Option.filter_eq_some_iff.mp hold
    obtain rfl := beq_iff_eq.mp howner
    exact .completed hget (Bool.of_not_eq_true hclean) rfl
  case quarantineAttachment actor id now =>
    simp only [Op.run, Tx.runs_void, IamRust.quarantineAttachment, Tx.runs_get_bind,
      Tx.runs_okOr_bind, update_runs] at hr
    obtain ⟨_, old, hold, rfl⟩ := hr
    obtain ⟨hget, hok⟩ := Option.filter_eq_some_iff.mp hold
    simp only [Bool.and_eq_true, beq_iff_eq, Bool.not_eq_true'] at hok
    obtain ⟨rfl, havailable⟩ := hok
    exact .quarantined hget havailable rfl
  case cleanupExpiredAttachments now =>
    simp only [Op.run, Tx.runs_void, IamRust.cleanupExpiredAttachments, Tx.runs_get_bind,
      update_bind_runs, Tx.runs_pure] at hr
    obtain ⟨_, -, rfl⟩ := hr
    exact .collected rfl
  all_goals exact .same (Op.same (f := .attachments) hr (by dsimp only [Op.touches]; decide))

/-- An attachment available after a step was so before, or its owner completed it. -/
theorem Attached.available (h : Attached env w w' op) {pending : PendingAttachment}
    (hget : w'.attachments.get a = some pending) (havailable : pending.available = true) :
    w.attachments.get a = some pending ∨ ∃ old now, w.attachments.get a = some old ∧
      op = .completeAttachment old.ownerId a now := by
  cases h with
  | same h => exact .inl (h ▸ hget)
  | authorized _ _ _ hnone h =>
    rw [h, Map.get_insert] at hget
    split at hget
    · cases hget
      cases hnone.symm.trans havailable
    · exact .inl hget
  | @completed id now old hold _ h =>
    rw [h, Map.get_insert] at hget
    split at hget
    · subst_vars
      exact .inr ⟨old, now, hold, rfl⟩
    · exact .inl hget
  | quarantined _ hnone h =>
    rw [h, Map.get_insert] at hget
    split at hget
    · cases hget
      cases hnone.symm.trans havailable
    · exact .inl hget
  | collected h => exact .inl (Map.get_of_retain (h ▸ hget))

/-- A profile without the avatar keeps so, unless its user may give it to it. -/
theorem Op.account_avatar (hr : (op.run env).Runs w () w') {i : UserId} {account : Account}
    (hget : w'.accounts.get i = some account)
    (havatar : account.profile.avatarAttachmentId = some a) :
    (∃ i account, w.accounts.get i = some account ∧
      account.profile.avatarAttachmentId = some a) ∨
    ∃ u, op.actor = some u ∧ w.Downloads u a := by
  by_contra hnone
  rw [not_or] at hnone
  obtain ⟨hold, hnone⟩ := hnone
  have : Showing fun _ _ avatar => avatar ≠ some a := ⟨fun _ => nofun, fun _ => nofun⟩
  refine Shown.step (P := fun _ _ avatar => avatar ≠ some a) hr
    (fun i account hget havatar => hold ⟨i, account, hget, havatar⟩) ?_ i account hget havatar
  rintro actor input utcNow now rfl _ _ - hinput
  refine hnone ⟨actor, rfl, checkAvatar_downloads ?_⟩
  simp only [Op.run, Tx.runs_void, IamRust.updateProfile, Tx.runs_get_bind,
    Tx.runs_bind (t := Tx.whenSome _ _),
    Tx.runs_whenSome, Tx.runs_ofExcept] at hr
  obtain ⟨_, _, _, ⟨avatar, havatar, hok, -⟩ | ⟨hnone, -⟩, -⟩ := hr
  · rw [hinput] at havatar
    cases havatar
    exact hok
  · rw [hinput] at hnone
    cases hnone

/-- A conversation has the avatar it had, unless its user may give it to it. -/
theorem Reshaped.avatar {n : Nat} {m : Map ConversationId Conversation}
    (h : Reshaped env w n op m) {id : ConversationId} {c : Conversation} (hget : m.get id = some c)
    (havatar : c.avatarAttachmentId = some a) :
    (∃ c₀, w.conversations.get id = some c₀ ∧ c₀.avatarAttachmentId = some a) ∨
      ∃ u, op.actor = some u ∧ w.Downloads u a := by
  have hnew : ∀ {i : ConversationId} {c₁ : Conversation}, c₁.avatarAttachmentId = none →
      (w.conversations.insert i c₁).get id = some c →
      ∃ c₀, w.conversations.get id = some c₀ ∧ c₀.avatarAttachmentId = some a := by
    intro i c₁ hnone hget
    rw [Map.get_insert] at hget
    split at hget
    · cases hget
      cases hnone.symm.trans havatar
    · exact ⟨c, hget, havatar⟩
  have hrewrite : ∀ {i : ConversationId} {c₀ c₁ : Conversation}, w.conversations.get i = some c₀ →
      (w.conversations.insert i c₁).get id = some c →
      c₁.avatarAttachmentId = c₀.avatarAttachmentId →
      ∃ c₀, w.conversations.get id = some c₀ ∧ c₀.avatarAttachmentId = some a := by
    intro i c₀ c₁ hold hget hsame
    rw [Map.get_insert] at hget
    split at hget
    · cases hget
      exact ⟨c₀, ‹id = i› ▸ hold, hsame.symm.trans havatar⟩
    · exact ⟨c, hget, havatar⟩
  cases h with
  | same => exact .inl ⟨c, hget, havatar⟩
  | declined => exact .inl ⟨c, hget, havatar⟩
  | befriended _ _ hdirect => exact .inl (hnew (Conversation.direct_avatar hdirect) hget)
  | reopened => exact .inl ⟨c, hget, havatar⟩
  | opened _ _ _ hdirect => exact .inl (hnew (Conversation.direct_avatar hdirect) hget)
  | founded _ hgroup => exact .inl (hnew (Conversation.group_avatar hgroup) hget)
  | updated hold _ _ hcheck =>
    rw [Map.get_insert] at hget
    split at hget
    · cases hget
      rcases Conversation.avatar_updateGroup havatar with havatar | hrequest
      · exact .inl ⟨_, ‹id = _› ▸ hold, havatar⟩
      · exact .inr ⟨_, rfl, checkAvatar_downloads (hcheck a hrequest)⟩
    · exact .inl ⟨c, hget, havatar⟩
  | invited hold => exact .inl (hrewrite hold hget rfl)
  | left hold => exact .inl (hrewrite hold hget rfl)
  | disbanded => exact .inl ⟨c, Map.get_of_remove hget, havatar⟩
  | amended hold => exact .inl (hrewrite hold hget rfl)
  | expelled hold _ hremove =>
    obtain ⟨rfl, -⟩ := Conversation.removeMember_ok hremove
    exact .inl (hrewrite hold hget rfl)
  | transferred hold _ htransfer =>
    exact .inl (hrewrite hold hget (Conversation.transferOwnership_avatar htransfer))
  | refused => exact .inl ⟨c, hget, havatar⟩
  | admitted _ _ hold => exact .inl (hrewrite hold hget rfl)
  | detached =>
    rw [Map.get_mapValues, Option.map_eq_some_iff] at hget
    obtain ⟨c₀, hc₀, rfl⟩ := hget
    exact .inl ⟨c₀, hc₀, Conversation.detach_avatar.symm.trans havatar⟩

/-- Whoever makes a user a member is a member, or the conversation is new. -/
theorem Op.admitter (hr : (op.run env).Runs w () w') {u : UserId} {id : ConversationId}
    (h : op.Admits env w u id) : id = env.uuid w.nextUuid ∨
      ∃ v, op.actor = some v ∧ w.readable v id = true := by
  obtain ⟨n, m, hshape, -, -⟩ := Op.reshaped hr
  cases hshape with
  | @same op hop => cases op <;> simp_all [Op.Admits, Op.reshapes]
  | befriended => exact .inl h.1
  | reopened => exact .inl h.2.1
  | opened => exact .inl h.2.1
  | founded => exact .inl h.1
  | invited hget _ hmember =>
    obtain ⟨rfl, -⟩ := h
    exact .inr ⟨_, rfl, readable_of hget hmember⟩
  | admitted _ hpending hget hrole =>
    obtain ⟨-, pending, hpending', rfl, -⟩ := h
    cases hpending.symm.trans hpending'
    obtain ⟨member, hmember, -⟩ := hrole
    exact .inr ⟨_, rfl, readable_of hget (Map.containsKey_iff.mpr ⟨member, hmember⟩)⟩
  | declined | updated | left | disbanded | amended | expelled | transferred | detached =>
    exact h.elim
  | refused haccept => exact absurd (haccept.symm.trans h.1) Bool.false_ne_true

/-! ## Messages are of drawn conversations -/

/-- Every timeline is one of a conversation whose id was drawn. -/
def Housed (env : Env) (w : World) : Prop :=
  ∀ c i m, w.messageAt c i = some m → ∃ k < w.nextUuid, c = env.uuid k

theorem housed_inductive (hu : Function.Injective env.uuid) :
    (service env).Inductive fun w => Placed env w ∧ Housed env w where
  init w h := by
    refine ⟨(placed_inductive hu).init w h, fun c i m hm => ?_⟩
    subst h
    exact absurd hm not_messageAt_init
  step w op w' h hr := by
    have hplaced := (placed_inductive hu).step w op w' h.1 hr
    have hgrown := Op.grown hr
    refine ⟨hplaced, fun c i m' hm' => ?_⟩
    rcases hgrown.added c i m' hm' with ⟨m, hm, -⟩ | ⟨-, hc, -⟩
    · obtain ⟨k, hk, hid⟩ := h.2 c i m hm
      exact ⟨k, Nat.lt_of_lt_of_le hk hgrown.uuids, hid⟩
    · obtain ⟨conversation, hget⟩ := Option.isSome_iff_exists.mp hc
      exact hplaced.drawn c conversation hget

/-- The next id is that of no timeline. -/
theorem Housed.fresh (h : Housed env w) (hu : Function.Injective env.uuid) {i : Nat} {m : Message} :
    w.messageAt (env.uuid w.nextUuid) i ≠ some m := by
  intro hm
  obtain ⟨k, hk, hid⟩ := h _ i m hm
  exact absurd (hu hid) (Nat.ne_of_gt hk)

/-! ## Every step -/

theorem Message.Amends.contains {m m' : Message} (h : m.Amends m')
    (hcontains : messageContainsAttachment a m'.content = true) :
    messageContainsAttachment a m.content = true := by
  rcases h with rfl | ⟨now, rfl⟩
  · exact hcontains
  · simp [Message.recalled, messageContainsAttachment] at hcontains

theorem not_contains_of_isSystem {content : MessageContent} (h : content.isSystem = true) :
    messageContainsAttachment a content = false := by
  cases content <;> simp_all [MessageContent.isSystem, messageContainsAttachment]

/-- **Download access spreads from those who have it.** Whoever gains the download of an
attachment in a step of a run: the owner completed the attachment in that step, or the operation is
one of a user, or the delivery of their scheduled message, and that user could download it. -/
theorem download_spreads (env : Env) (hu : Function.Injective env.uuid) (w w' : World)
    (hw : (service env).Reachable w) (op : Op) (hr : (op.run env).Runs w () w') (a : AttachmentId)
    (v : UserId) (hbefore : ¬ ∃ attachment, attachmentForDownload w.toStore v a = .ok attachment)
    (hafter : ∃ attachment, attachmentForDownload w'.toStore v a = .ok attachment) :
    (∃ pending now, w.attachments.get a = some pending ∧
      op = .completeAttachment pending.ownerId a now) ∨
    ∃ u, op.actor = some u ∧
      ∃ attachment, attachmentForDownload w.toStore u a = .ok attachment := by
  obtain ⟨hplaced, hhoused⟩ := (housed_inductive hu).reachable hw
  have htimelines := reachable_timelines hu hw
  have hfresh := hplaced.fresh hu
  obtain ⟨pending, hget', havailable, hgranted⟩ := downloads_iff.mp hafter
  rcases (Op.attached hr).available hget' havailable with hget | hcompleted
  case inr => exact .inl hcompleted
  refine .inr ?_
  have hallowed : ∀ u, Granted w.toStore u a pending.ownerId → w.Downloads u a :=
    fun u h => downloads_iff.mpr ⟨pending, hget, havailable, h⟩
  have hnone : ¬ Granted w.toStore v a pending.ownerId := fun h => hbefore (hallowed v h)
  cases hgranted with
  | own howner => exact absurd (.own howner) hnone
  | account hi havatar =>
    rcases Op.account_avatar hr hi havatar with ⟨i, account, hi, havatar⟩ | h
    · exact absurd (.account hi havatar) hnone
    · exact h
  | @group id c' hc' havatar hread =>
    obtain ⟨n, m, hshape, -, htouch⟩ := Op.reshaped hr
    obtain ⟨c₁, hc₁, htime⟩ := htouch.before hc'
    rcases hshape.avatar hc₁ ((timeless_avatar htime).trans havatar) with ⟨c, hc, hold⟩ | h
    case inr => exact h
    rcases (op.readable hr hfresh).mp (readable_of hc' hread) with ⟨hread, -⟩ | hadmits
    · obtain ⟨c₀, hc₀, hread⟩ := Store.readable_iff.mp hread
      cases hc.symm.trans hc₀
      exact absurd (.group hc hold hread) hnone
    rcases Op.admitter hr hadmits with rfl | ⟨u, hactor, hread⟩
    · cases hfresh.symm.trans hc
    · obtain ⟨c₀, hc₀, hread⟩ := Store.readable_iff.mp hread
      cases hc.symm.trans hc₀
      exact ⟨u, hactor, hallowed u (.group hc hold hread)⟩
  | @message id m' hm' hcontains hread =>
    obtain ⟨i, hi⟩ := Store.messageAt_of_mem hm'
    rcases (Op.grown hr).added id i m' hi with ⟨m, hm, hamends⟩ | ⟨hsystem | hposts, -⟩
    · have hold := hamends.contains hcontains
      have hhome := htimelines.home hm
      rw [hamends.conversationId_eq, hhome] at hread
      rcases (op.readable hr hfresh).mp hread with ⟨hread, -⟩ | hadmits
      · exact absurd (.message (Store.mem_of_messageAt hm) hold (hhome ▸ hread)) hnone
      rcases Op.admitter hr hadmits with rfl | ⟨u, hactor, hread⟩
      · exact absurd hm (hhoused.fresh hu)
      · exact ⟨u, hactor,
          hallowed u (.message (Store.mem_of_messageAt hm) hold (hhome ▸ hread))⟩
    · rw [not_contains_of_isSystem hsystem] at hcontains
      cases hcontains
    · exact hposts.downloads hcontains hget havailable

end

/-- The picture Alice uploads, attachment 14. -/
def alicePicture : Attachment where
  id := 14
  kind := .image
  fileName := "cat.png"
  mimeType := "image/png"
  byteSize := 1
  sha256 := none
  storageKey := "uploads/" ++ Uuid.toString 1 ++ "/" ++ Uuid.toString 14
  thumbnailKey := none

/-- Alice sends her picture to the group: Bob may download it from then on, as she could before. -/
theorem download_spreads_sent : ∃ w w', (service Env.numbered).Reachable w ∧
    ((Op.sendMessageRequest 1 11 { SendMessageRequest.text 100 "" with
      content := .image alicePicture } 0).run Env.numbered).Runs w () w' ∧
    (¬ ∃ attachment, attachmentForDownload w.toStore 4 14 = .ok attachment) ∧
    (∃ attachment, attachmentForDownload w'.toStore 4 14 = .ok attachment) ∧
    ∃ attachment, attachmentForDownload w.toStore 1 14 = .ok attachment := by
  obtain ⟨w, _, w', hw, hr, hp⟩ := reaches_runs Env.numbered
    (aliceAndBob ++ [.authorizeAttachment 1 "cat.png" "image/png" 1 none 0,
      .completeAttachment 1 14 0])
    ((Op.sendMessageRequest 1 11 { SendMessageRequest.text 100 "" with
      content := .image alicePicture } 0).run Env.numbered)
    (fun w _ w' => (attachmentForDownload w.toStore 4 14).toOption.isNone &&
      (attachmentForDownload w'.toStore 4 14).toOption.isSome) (by decide +kernel)
  obtain ⟨hbefore, hafter⟩ := Bool.and_eq_true_iff.mp hp
  have hnone : ¬ ∃ attachment, attachmentForDownload w.toStore 4 14 = .ok attachment := by
    rintro ⟨attachment, h⟩
    rw [h] at hbefore
    cases hbefore
  have hsome : ∃ attachment, attachmentForDownload w'.toStore 4 14 = .ok attachment := by
    cases h : attachmentForDownload w'.toStore 4 14 with
    | error e =>
      rw [h] at hafter
      cases hafter
    | ok attachment => exact ⟨attachment, rfl⟩
  refine ⟨w, w', reachable_of_run hw, hr, hnone, hsome, ?_⟩
  rcases download_spreads Env.numbered Env.numbered_injective w w' (reachable_of_run hw) _ hr 14 4
    hnone hsome with ⟨_, _, -, hop⟩ | ⟨u, hactor, h⟩
  · cases hop
  · cases hactor
    exact h

end IamRust
