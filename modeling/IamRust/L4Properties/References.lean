import IamRust.L4Properties.Authorship
import IamRust.L4Properties.Downloads

/-!
# Attachments that are referred to

A message, a sticker and an avatar refer to an attachment of `Store.attachments`.
Whoever sets such a reference owns the attachment and has completed it, or copies
the reference from a message; a complete attachment stays as it is
(`Attached.kept`), and the collection takes the incomplete ones.
-/
namespace IamRust

open Core

/-- The attachment is complete, with these metadata. -/
def Store.Holds (s : Store) (a : Attachment) : Prop :=
  ∃ p, s.attachments.get a.id = some p ∧ p.available = true ∧ p.attachment = a

/-- An attachment is shown, with its metadata, by a message or a sticker. -/
inductive Store.Shows (s : Store) (a : Attachment) : Prop where
  | message {c m part} (hm : m ∈ s.timeline c) (hpart : part ∈ m.content.parts)
    (ha : part.attachment? = some a)
  | sticker {id} {sticker : Sticker} (hget : s.stickers.get id = some sticker)
    (ha : sticker.attachment = a)

/-- An attachment is referred to: it is shown, or the avatar of an account or a group. -/
inductive Store.Refers (s : Store) : AttachmentId → Prop where
  | shown {a : Attachment} (h : s.Shows a) : Store.Refers s a.id
  | profile {i a} {account : Account} (hget : s.accounts.get i = some account)
    (havatar : account.profile.avatarAttachmentId = some a) : Store.Refers s a
  | group {i a} {c : Conversation} (hget : s.conversations.get i = some c)
    (havatar : c.avatarAttachmentId = some a) : Store.Refers s a

/-! ## The attachments -/

/-- How an attachment is filed under its id. -/
structure PendingAttachment.Filed (env : Env) (w : World) (id : AttachmentId)
    (p : PendingAttachment) : Prop where
  drawn : ∃ k < w.nextUuid, id = env.uuid k
  id_eq : p.attachment.id = id
  key : p.attachment.storageKey =
    "uploads/" ++ Uuid.toString p.ownerId ++ "/" ++ Uuid.toString id
  clean : p.available = true → p.quarantined = false

def AllFiled (env : Env) (w : World) : Prop :=
  ∀ id p, w.attachments.get id = some p → p.Filed env w id

section
variable {env : Env} {w w' : World} {op : Op} {id : AttachmentId} {p : PendingAttachment}

theorem PendingAttachment.Filed.mono (h : p.Filed env w id) (hle : w.nextUuid ≤ w'.nextUuid) :
    p.Filed env w' id := by
  obtain ⟨k, hk, hid⟩ := h.drawn
  exact ⟨⟨k, hk.trans_le hle, hid⟩, h.id_eq, h.key, h.clean⟩

theorem Attached.filed (h : Attached env w w' op) (hw : AllFiled env w)
    (hle : w.nextUuid ≤ w'.nextUuid) : AllFiled env w' := by
  intro id p hget
  have hkept : ∀ {p}, w.attachments.get id = some p → p.Filed env w' id :=
    fun hget => (hw id _ hget).mono hle
  cases h with
  | same h => exact hkept (h ▸ hget)
  | authorized hdraws hid hkey havailable h =>
    rw [h, Map.get_insert] at hget
    split at hget
    · cases hget
      subst_vars
      exact ⟨⟨_, hdraws, rfl⟩, hid, hkey, fun h => nomatch havailable.symm.trans h⟩
    · exact hkept hget
  | completed hold hclean h =>
    rw [h, Map.get_insert] at hget
    split at hget
    · cases hget
      subst_vars
      obtain ⟨hdrawn, hid, hkey, -⟩ := hkept hold
      exact ⟨hdrawn, hid, hkey, fun _ => hclean⟩
    · exact hkept hget
  | quarantined hold havailable h =>
    rw [h, Map.get_insert] at hget
    split at hget
    · cases hget
      subst_vars
      obtain ⟨hdrawn, hid, hkey, -⟩ := hkept hold
      exact ⟨hdrawn, hid, hkey, fun h => nomatch havailable.symm.trans h⟩
    · exact hkept hget
  | collected h => exact hkept (Map.get_of_retain (h ▸ hget))

/-- A complete attachment stays as it is. -/
theorem Attached.kept (h : Attached env w w' op) (hu : Function.Injective env.uuid)
    (hw : AllFiled env w) (hget : w.attachments.get id = some p) (havailable : p.available = true) :
    w'.attachments.get id = some p := by
  cases h with
  | same h => rw [h, hget]
  | authorized _ _ _ _ h =>
    obtain ⟨k, hk, hid⟩ := (hw id p hget).drawn
    rw [h, Map.get_insert_ne, hget]
    rw [hid]
    exact hu.ne (Nat.ne_of_lt hk)
  | completed hold _ h =>
    rw [h, Map.get_insert]
    split
    · subst_vars
      cases hold.symm.trans hget
      rw [← havailable]
    · exact hget
  | quarantined hold hpending h =>
    rw [h, Map.get_insert]
    split
    · subst_vars
      cases hold.symm.trans hget
      cases hpending.symm.trans havailable
    · exact hget
  | collected h => rw [h, Map.get_retain, hget, Option.filter_some, havailable, Bool.true_or,
      if_pos rfl]

end

/-! ## The stickers -/

/-- No sticker is new. -/
def FewerStickers (w w' : World) : Prop :=
  ∀ id sticker, w'.stickers.get id = some sticker → w.stickers.get id = some sticker

instance : IsPreorder World FewerStickers where
  refl _ _ _ h := h
  trans _ _ _ h₁ h₂ id sticker h := h₁ id sticker (h₂ id sticker h)

section
variable {env : Env} {w w' : World} {op : Op}

theorem fewerStickers_same (h : Same .stickers w w') : FewerStickers w w' :=
  fun _ _ hget => (show w'.stickers = w.stickers from h) ▸ hget

instance fewerStickers_ignores (f : Field) [hf : Has f (accountFields ++ sessionFields ++
    socialFields ++ [.conversations, .conversationSettings, .readPositions, .favoriteMessages,
      .scheduledMessages])] : Ignores FewerStickers f where
  set w v := by
    have hne : Field.stickers ≠ f := by rintro rfl; exact absurd hf.mem (by decide)
    exact fewerStickers_same (same_set hne w v)

instance fewerStickers_logged : Logged env FewerStickers :=
  logged_of fun ho _ => fewerStickers_same (ho .stickers (by decide))

set_option synthInstance.maxSize 1000000000000 in
theorem deleteAccount_fewerStickers {actor : UserId} {currentPassword confirmation : String}
    {now : DateTime} {u : Unit}
    (h : (deleteAccount env actor currentPassword confirmation now).Runs w u w') :
    FewerStickers w w' := by
  have : Tx.Keeps FewerStickers
      (update .stickers fun w => w.stickers.retain fun _ sticker => sticker.ownerId != actor) :=
    Tx.keeps_modify fun _ _ _ hget => Map.get_of_retain hget
  have : Tx.Keeps FewerStickers (purgeAccountRelationships actor now) := by
    unfold purgeAccountRelationships; infer_instance
  have : Tx.Keeps FewerStickers
      (deleteAccount env actor currentPassword confirmation now) := by
    unfold deleteAccount deleteAccountInStore; infer_instance
  exact this.runs h

/-- A sticker is made of a complete attachment. -/
theorem Op.sticker (hr : (op.run env).Runs w () w') (hfiled : AllFiled env w) {id : Uuid}
    {sticker : Sticker} (hget : w'.stickers.get id = some sticker) :
    w.stickers.get id = some sticker ∨ w.Holds sticker.attachment := by
  cases op
  case createSticker actor request now =>
    simp only [Op.run, Tx.runs_void, IamRust.createSticker, Tx.runs_failIf_bind, Tx.runs_get_bind,
      Tx.runs_okOr_bind, Tx.runs_bind (t := newUuid env), newUuid_runs, update_bind_runs,
      Tx.runs_pure] at hr
    obtain ⟨_, -, -, pending, hpending, _, _, ⟨rfl, rfl⟩, rfl, rfl⟩ := hr
    obtain ⟨hold, hok⟩ := Option.filter_eq_some_iff.mp hpending
    simp only [PendingAttachment.stickerOf, Bool.and_eq_true] at hok
    simp only [World.set, Map.get_insert] at hget
    split at hget
    · cases hget
      refine .inr ⟨pending, ?_, hok.1.1.2, rfl⟩
      rw [(hfiled _ _ hold).id_eq]
      exact hold
    · exact .inl hget
  case deleteSticker actor stickerId =>
    simp only [Op.run, Tx.runs_void, IamRust.deleteSticker, Tx.runs_get_bind, Tx.runs_failIf_bind,
      update_runs] at hr
    obtain ⟨_, -, rfl⟩ := hr
    exact .inl (Map.get_of_remove hget)
  case deleteAccount =>
    obtain ⟨_, hr⟩ := Tx.runs_void.mp hr
    exact .inl (deleteAccount_fewerStickers hr id sticker hget)
  all_goals
    have hsame : w'.stickers = w.stickers :=
      Op.same (f := .stickers) hr (by dsimp only [Op.touches]; decide)
    exact .inl (hsame ▸ hget)

end

/-! ## Every reference -/

/-- What is in a bundle is no notice and no bundle. -/
def MessageContent.Flat (content : MessageContent) : Prop :=
  ∀ title messages, content = .forwardBundle title messages →
    ∀ message ∈ messages, message.content.isSystem = false ∧
      message.content.isForwardBundle = false

theorem MessageContent.flat_of_not_bundle {content : MessageContent}
    (h : content.isForwardBundle = false) : content.Flat := by
  rintro title messages rfl
  cases h

/-- The attachment is complete. -/
def Store.Completed (s : Store) (id : AttachmentId) : Prop :=
  ∃ p, s.attachments.get id = some p ∧ p.available = true

/-- What is referred to is complete. -/
structure Referenced (env : Env) (w : World) : Prop where
  filed : AllFiled env w
  messages : w.Parts fun part => ∀ a, part.attachment? = some a → w.Holds a
  flat : ∀ c, ∀ m ∈ w.timeline c, m.content.Flat
  stickers : ∀ id sticker, w.stickers.get id = some sticker → w.Holds sticker.attachment
  profiles : ∀ i account a, w.accounts.get i = some account →
    account.profile.avatarAttachmentId = some a → w.Completed a
  groups : ∀ i c a, w.conversations.get i = some c → c.avatarAttachmentId = some a →
    w.Completed a

section
variable {env : Env} {w w' : World} {op : Op}

theorem validateMessageAttachment_holds {s : Store} {actor : UserId} {content : MessageContent}
    (h : validateMessageAttachment s actor content = .ok ()) {a : Attachment}
    (ha : content.attachment? = some a) : s.Holds a := by
  unfold validateMessageAttachment at h
  split at h
  · cases h
  rw [ha] at h
  dsimp only at h
  split at h
  · cases h
  rename_i pending hget
  split at h
  · cases h
  rename_i hsame
  obtain ⟨hget, hok⟩ := Option.filter_eq_some_iff.mp hget
  exact ⟨pending, hget, (Bool.and_eq_true_iff.mp hok).2, not_not.mp hsame⟩

theorem Store.Downloads.completed {s : Store} {u : UserId} {a : AttachmentId}
    (h : s.Downloads u a) : s.Completed a := by
  obtain ⟨pending, hget, havailable, -⟩ := downloads_iff.mp h
  exact ⟨pending, hget, havailable⟩

/-- A new bundle is made of sources that are no bundles. -/
theorem Op.flat (hr : (op.run env).Runs w () w') (hw : ∀ c, ∀ m ∈ w.timeline c, m.content.Flat)
    {c : ConversationId} {m : Message} (hm : m ∈ w'.timeline c) : m.content.Flat := by
  obtain ⟨i, hat⟩ := Store.messageAt_of_mem hm
  cases Op.origin hr hat with
  | kept hat => exact hw c m (Store.mem_of_messageAt hat)
  | recalled _ _ hrecalled =>
    subst hrecalled
    exact MessageContent.flat_of_not_bundle rfl
  | notice hrun =>
    have hsystem := (appendSystemMessage_noticed hrun).system
    refine MessageContent.flat_of_not_bundle ?_
    cases hcontent : m.content <;> rw [hcontent] at hsystem <;> first | rfl | cases hsystem
  | sent _ _ hrun =>
    have hchecked := storeNewMessage_checked hrun
    rw [hchecked.content]
    exact MessageContent.flat_of_not_bundle (not_bundle_of_checked hchecked)
  | @forwarded _ _ mode _ _ _ hsources hcontent =>
    cases mode with
    | individually =>
      obtain ⟨source, hsource, he⟩ := List.mem_map.mp hcontent
      obtain ⟨c', m', hm', hcontent', -⟩ := collectForwardSources_plain hsources hsource
      rw [← he, hcontent']
      exact hw c' m' hm'
    | merged =>
      rw [List.mem_singleton.mp hcontent]
      rintro _ _ ⟨⟩ source hsource
      obtain ⟨_, m', -, hcontent', hsystem, hbundle⟩ :=
        collectForwardSources_plain hsources hsource
      rw [hcontent']
      exact ⟨hsystem, hbundle rfl⟩

theorem Referenced.step (hu : Function.Injective env.uuid) (hw : Referenced env w)
    (hr : (op.run env).Runs w () w') : Referenced env w' := by
  have hattached := Op.attached hr
  have hcompleted : ∀ {a}, w.Completed a → w'.Completed a := by
    rintro a ⟨p, hget, havailable⟩
    exact ⟨p, hattached.kept hu hw.filed hget havailable, havailable⟩
  have hholds : ∀ {a}, w.Holds a → w'.Holds a := by
    rintro a ⟨p, hget, havailable, ha⟩
    exact ⟨p, hattached.kept hu hw.filed hget havailable, havailable, ha⟩
  refine ⟨hattached.filed hw.filed ((op.evolves env).runs hr).uuids, ?_,
    fun _ _ => Op.flat hr hw.flat, ?_, ?_, ?_⟩
  · have hparts := hw.messages.step hr fun _ hchecked _ a ha =>
      validateMessageAttachment_holds hchecked.attachment ha
    intro c m hm hsystem part hpart
    obtain ⟨hplain, hheld⟩ := hparts c m hm hsystem part hpart
    exact ⟨hplain, fun a ha => hholds (hheld a ha)⟩
  · intro id sticker hget
    rcases Op.sticker hr hw.filed hget with hget | h
    · exact hholds (hw.stickers id sticker hget)
    · exact hholds h
  · intro i account a hget havatar
    rcases Op.account_avatar hr hget havatar with ⟨i, account, hget, havatar⟩ | ⟨u, -, h⟩
    · exact hcompleted (hw.profiles i account a hget havatar)
    · exact hcompleted h.completed
  · intro i c' a hc' havatar
    obtain ⟨n, m, hshape, -, htouch⟩ := Op.reshaped hr
    obtain ⟨c₁, hc₁, htime⟩ := htouch.before hc'
    rcases hshape.avatar hc₁ ((timeless_avatar htime).trans havatar) with ⟨c, hc, hold⟩ | ⟨u, -, h⟩
    · exact hcompleted (hw.groups i c a hc hold)
    · exact hcompleted h.completed

theorem referenced_inductive (hu : Function.Injective env.uuid) :
    (service env).Inductive (Referenced env) where
  init w h := by
    subst h
    refine ⟨fun _ _ h => (nomatch h), parts_init _, fun c m hm => ?_, fun _ _ h => (nomatch h),
      fun _ _ _ h => (nomatch h), fun _ _ _ h => (nomatch h)⟩
    obtain ⟨i, hi⟩ := Store.messageAt_of_mem hm
    exact absurd hi not_messageAt_init
  step _ _ _ hw hr := hw.step hu hr

theorem Referenced.holds (h : Referenced env w) {a : Attachment} (ha : w.Shows a) : w.Holds a := by
  cases ha with
  | @message c m part hm hpart ha =>
    cases hsystem : m.content.isSystem with
    | false => exact (h.messages c m hm hsystem part hpart).2 a ha
    | true =>
      cases hcontent : m.content <;> simp_all [MessageContent.isSystem, MessageContent.parts,
        MessageContent.attachment?]
  | sticker hget ha => exact ha ▸ h.stickers _ _ hget

theorem Referenced.completed (h : Referenced env w) {id : AttachmentId} (hid : w.Refers id) :
    w.Completed id := by
  cases hid with
  | shown ha =>
    obtain ⟨p, hget, havailable, -⟩ := h.holds ha
    exact ⟨p, hget, havailable⟩
  | profile hget havatar => exact h.profiles _ _ _ hget havatar
  | group hget havatar => exact h.groups _ _ _ hget havatar

/-- The keys of two attachments end in their ids. -/
theorem PendingAttachment.Filed.key_inj (hfits : ∀ k < w.nextUuid, env.uuid k < 2 ^ 128)
    {id id' : AttachmentId} {p p' : PendingAttachment} (h : p.Filed env w id)
    (h' : p'.Filed env w id') (hkey : p.attachment.storageKey = p'.attachment.storageKey) :
    id = id' := by
  obtain ⟨k, hk, rfl⟩ := h.drawn
  obtain ⟨k', hk', rfl⟩ := h'.drawn
  rw [h.key, h'.key] at hkey
  replace hkey := congrArg String.toList hkey
  simp only [String.toList_append] at hkey
  have hid := (List.append_inj' hkey (by simp)).2
  exact Uuid.toString_inj (hfits k hk) (hfits k' hk') (String.toList_injective hid)

/-- The collection takes no complete attachment. -/
theorem AllFiled.collect (hfits : ∀ k < w.nextUuid, env.uuid k < 2 ^ 128) (h : AllFiled env w)
    {id : AttachmentId} {p : PendingAttachment} (hget : w.attachments.get id = some p)
    (havailable : p.available = true) {now : DateTime} {keys : List String}
    (hr : (cleanupExpiredAttachments now).Runs w keys w') : p.attachment.storageKey ∉ keys := by
  simp only [cleanupExpiredAttachments, Tx.runs_get_bind, update_bind_runs, Tx.runs_pure] at hr
  obtain ⟨rfl, -⟩ := hr
  intro hkey
  obtain ⟨p', hp', hkey⟩ := List.mem_map.mp hkey
  obtain ⟨hvalue, hexpired⟩ := List.mem_filter.mp hp'
  obtain ⟨id', hget'⟩ := Map.mem_values.mp hvalue
  obtain rfl := (h id' p' hget').key_inj hfits (h id p hget) hkey
  cases hget.symm.trans hget'
  rw [havailable] at hexpired
  cases hexpired

end

/-- **References resolve.** In every store that is reached: what a message or a sticker shows is
filed with the same metadata; what is referred to is complete and was not quarantined, and the
collection leaves it and its object; in a bundle is no notice and no bundle. -/
theorem references_resolve (env : Env) (hu : Function.Injective env.uuid) (w : World)
    (hfits : ∀ k < w.nextUuid, env.uuid k < 2 ^ 128) (hw : (service env).Reachable w) :
    (∀ a, w.Shows a → ∃ p, w.attachments.get a.id = some p ∧ p.attachment = a) ∧
    (∀ id, w.Refers id → ∃ p, w.attachments.get id = some p ∧ p.available = true ∧
      p.quarantined = false ∧ ∀ now keys w', (cleanupExpiredAttachments now).Runs w keys w' →
        p.attachment.storageKey ∉ keys ∧ w'.attachments.get id = some p) ∧
    ∀ c, ∀ m ∈ w.timeline c, m.content.Flat := by
  have h := (referenced_inductive hu).reachable hw
  refine ⟨fun a ha => ?_, fun id hid => ?_, h.flat⟩
  · obtain ⟨p, hget, -, hsame⟩ := h.holds ha
    exact ⟨p, hget, hsame⟩
  · obtain ⟨p, hget, havailable⟩ := h.completed hid
    refine ⟨p, hget, havailable, (h.filed id p hget).clean havailable, fun now keys w' hr => ?_⟩
    have hrun : ((Op.cleanupExpiredAttachments now).run env).Runs w () w' :=
      Tx.runs_void.mpr ⟨keys, hr⟩
    exact ⟨h.filed.collect hfits hget havailable hr,
      (Op.attached hrun).kept hu h.filed hget havailable⟩

/-- Alice sends her picture and forwards it in a bundle. -/
theorem references_resolve_forwarded : ∃ w p, (service Env.numbered).Reachable w ∧
    w.Shows alicePicture ∧ w.attachments.get 14 = some p ∧ p.attachment = alicePicture ∧
    ∀ now keys w', (cleanupExpiredAttachments now).Runs w keys w' →
      alicePicture.storageKey ∉ keys := by
  obtain ⟨w, hw, hp⟩ := reaches Env.numbered (aliceAndBob ++
    [.authorizeAttachment 1 "cat.png" "image/png" 1 none 0, .completeAttachment 1 14 0,
      .sendMessageRequest 1 11 { SendMessageRequest.text 100 "" with
        content := .image alicePicture } 0,
      .sendMessageRequest 1 11 (.text 101 "hi") 0, .forwardMessages 1 [15, 17] 9 .merged 0])
    (fun w => decide (w.nextUuid < 2 ^ 64) && (w.messageAt 9 0).any fun m =>
      m.content.isForwardBundle && m.content.parts.any (·.attachment? == some alicePicture))
    (by decide +kernel)
  obtain ⟨hsmall, hp⟩ := Bool.and_eq_true_iff.mp hp
  obtain ⟨m, hm, hp⟩ := (Option.any_eq_true ..).mp hp
  obtain ⟨part, hpart, ha⟩ := List.any_eq_true.mp (Bool.and_eq_true_iff.mp hp).2
  have hshows : w.Shows alicePicture :=
    .message (Store.mem_of_messageAt hm) hpart (beq_iff_eq.mp ha)
  have hfits : ∀ k < w.nextUuid, Env.numbered.uuid k < 2 ^ 128 := fun k hk => by
    have := of_decide_eq_true hsmall
    show k + 1 < 2 ^ 128
    omega
  obtain ⟨hheld, hreferred, -⟩ :=
    references_resolve Env.numbered Env.numbered_injective w hfits (reachable_of_run hw)
  obtain ⟨p, hget, hsame⟩ := hheld _ hshows
  obtain ⟨p', hget', -, -, hcollect⟩ := hreferred _ (.shown hshows)
  cases hget.symm.trans hget'
  exact ⟨w, p, reachable_of_run hw, hshows, hget, hsame, fun now keys w' hr =>
    hsame ▸ (hcollect now keys w' hr).1⟩

end IamRust
