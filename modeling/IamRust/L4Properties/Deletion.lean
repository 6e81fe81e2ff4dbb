import IamRust.L4Properties.AccountKeys
import IamRust.L4Properties.Owners

/-!
# Account deletion

`Gone` is what the deletion of an account leaves: the user in no conversation,
without friends, settings, scheduled messages, valid tokens or login names, and
the anonymised profile. Every operation keeps it, by whomever and in whichever
order, apart from three that do not look whether an account is deleted:
`updateProfile`, a decision that accepts a join request of the user, and one
that accepts a friend request from the user (`deleted_user_comes_back`). The runs
without such a step keep it for good (`deletion_permanent`).
-/
namespace IamRust

open Core

structure Gone (env : Env) (u : UserId) (profile : UserProfile) (w : World) : Prop where
  account : ∃ a, w.accounts.get u = some a ∧ a.profile = profile ∧ a.deletedAt.isSome = true
  drawn : ∃ k < w.nextUuid, u = env.uuid k
  byEmail : ∀ key, w.byEmail.get key ≠ some u
  byUsername : ∀ key, w.byUsername.get key ≠ some u
  accessTokens : ∀ key t, w.accessTokens.get key = some t → t.userId = u → t.revoked = true
  refreshTokens : ∀ key t, w.refreshTokens.get key = some t → t.userId = u → t.revoked = true
  friendships : ∀ f ∈ w.friendships, f.contains u = false
  friendSettings : ∀ key s, w.friendSettings.get key = some s → key.1 ≠ u ∧ key.2 ≠ u
  conversations : ∀ id c, w.conversations.get id = some c → c.members.get u = none
  conversationSettings : ∀ id, w.conversationSettings.get (u, id) = none
  scheduledMessages : ∀ m ∈ w.scheduledMessages, m.actor ≠ u

section
variable {env : Env} {u : UserId} {profile : UserProfile}

instance gone_ignores (f : Field) [hf : Has f ([.profilePrivacy, .preferredPresence, .devices,
    .consumedRefreshTokens, .passwordResets, .friendRequests, .blocks, .reports, .auditEvents,
    .groupMuteAll, .groupAnnouncements, .groupJoinRequests, .groupPolls, .messages, .messageDedup,
    .messageReactions, .messageReceipts, .favoriteMessages, .messageExpirations, .attachments,
    .stickers, .readPositions])] : Ignores (Tx.Preserving (Gone env u profile)) f where
  set w v h := by
    have hm := hf.mem
    cases f <;> first
      | exact ⟨h.account, h.drawn, h.byEmail, h.byUsername, h.accessTokens, h.refreshTokens,
          h.friendships, h.friendSettings, h.conversations, h.conversationSettings,
          h.scheduledMessages⟩
      | exact absurd hm (by decide)

instance gone_logged : Logged env (Tx.Preserving (Gone env u profile)) :=
  logged_of fun {w w'} ho hn h => by
    obtain ⟨k, hk, hid⟩ := h.drawn
    have haccounts : w'.accounts = w.accounts := ho .accounts (by decide)
    have hemail : w'.byEmail = w.byEmail := ho .byEmail (by decide)
    have husername : w'.byUsername = w.byUsername := ho .byUsername (by decide)
    have haccess : w'.accessTokens = w.accessTokens := ho .accessTokens (by decide)
    have hrefresh : w'.refreshTokens = w.refreshTokens := ho .refreshTokens (by decide)
    have hfriends : w'.friendships = w.friendships := ho .friendships (by decide)
    have hfriendSettings : w'.friendSettings = w.friendSettings := ho .friendSettings (by decide)
    have hconv : w'.conversations = w.conversations := ho .conversations (by decide)
    have hsettings : w'.conversationSettings = w.conversationSettings :=
      ho .conversationSettings (by decide)
    have hscheduled : w'.scheduledMessages = w.scheduledMessages :=
      ho .scheduledMessages (by decide)
    exact ⟨haccounts ▸ h.account, ⟨k, by omega, hid⟩, hemail ▸ h.byEmail,
      husername ▸ h.byUsername, haccess ▸ h.accessTokens, hrefresh ▸ h.refreshTokens,
      hfriends ▸ h.friendships, hfriendSettings ▸ h.friendSettings, hconv ▸ h.conversations,
      hsettings ▸ h.conversationSettings, hscheduled ▸ h.scheduledMessages⟩

/-! ### Writes that keep it -/

variable (env u profile)

theorem gone_account_insert {v : UserId} {a : Account}
    (h : v = u → a.profile = profile ∧ a.deletedAt.isSome = true) :
    Tx.Keeps (Tx.Preserving (Gone env u profile))
      (update .accounts fun w => w.accounts.insert v a) := by
  refine Tx.keeps_modify fun w hw => { hw with account := ?_ }
  show ∃ a', (w.accounts.insert v a).get u = some a' ∧ _
  rw [Map.get_insert]
  split
  · subst_vars
    exact ⟨a, rfl, h rfl⟩
  · exact hw.account

theorem gone_byEmail {v : UserId} (hv : v ≠ u) (key : String) :
    Tx.Keeps (Tx.Preserving (Gone env u profile))
      (update .byEmail fun w => w.byEmail.insert key v) := by
  refine Tx.keeps_modify fun w hw => { hw with byEmail := fun key' he => ?_ }
  replace he : (w.byEmail.insert key v).get key' = some u := he
  rw [Map.get_insert] at he
  split at he
  · exact hv (Option.some.inj he)
  · exact hw.byEmail key' he

theorem gone_byUsername {v : UserId} (hv : v ≠ u) (key : String) :
    Tx.Keeps (Tx.Preserving (Gone env u profile))
      (update .byUsername fun w => w.byUsername.insert key v) := by
  refine Tx.keeps_modify fun w hw => { hw with byUsername := fun key' he => ?_ }
  replace he : (w.byUsername.insert key v).get key' = some u := he
  rw [Map.get_insert] at he
  split at he
  · exact hv (Option.some.inj he)
  · exact hw.byUsername key' he

theorem gone_access {t : TokenRecord} (ht : t.userId ≠ u) (hash : String) :
    Tx.Keeps (Tx.Preserving (Gone env u profile))
      (update .accessTokens fun w => w.accessTokens.insert hash t) := by
  refine Tx.keeps_modify fun w hw => { hw with accessTokens := fun key t' he hu => ?_ }
  replace he : (w.accessTokens.insert hash t).get key = some t' := he
  rw [Map.get_insert] at he
  split at he
  · cases he
    exact absurd hu ht
  · exact hw.accessTokens key t' he hu

theorem gone_refresh {t : TokenRecord} (ht : t.userId ≠ u) (hash : String) :
    Tx.Keeps (Tx.Preserving (Gone env u profile))
      (update .refreshTokens fun w => w.refreshTokens.insert hash t) := by
  refine Tx.keeps_modify fun w hw => { hw with refreshTokens := fun key t' he hu => ?_ }
  replace he : (w.refreshTokens.insert hash t).get key = some t' := he
  rw [Map.get_insert] at he
  split at he
  · cases he
    exact absurd hu ht
  · exact hw.refreshTokens key t' he hu

/-- A conversation is stored that the user is not in. -/
theorem gone_conversation {c : Conversation} (hc : c.members.get u = none) (id : ConversationId) :
    Tx.Keeps (Tx.Preserving (Gone env u profile))
      (update .conversations fun w => w.conversations.insert id c) := by
  refine Tx.keeps_modify fun w hw => { hw with conversations := fun id' c' he => ?_ }
  replace he : (w.conversations.insert id c).get id' = some c' := he
  rw [Map.get_insert] at he
  split at he
  · cases he; exact hc
  · exact hw.conversations id' c' he

/-- Conversations change in place, without new members. -/
theorem gone_conversations {g : World → Map ConversationId Conversation}
    (h : ∀ w id c, (g w).get id = some c → ∃ c₀, w.conversations.get id = some c₀ ∧
      (c₀.members.get u = none → c.members.get u = none)) :
    Tx.Keeps (Tx.Preserving (Gone env u profile)) (update .conversations g) := by
  refine Tx.keeps_modify fun w hw => { hw with conversations := fun id c he => ?_ }
  obtain ⟨c₀, h₀, hc⟩ := h w id c he
  exact hc (hw.conversations id c₀ h₀)

/-- The settings written belong to somebody else. -/
theorem gone_conversationSettings {v : UserId} (hv : v ≠ u) (id : ConversationId)
    (g : World → ConversationSettings) : Tx.Keeps (Tx.Preserving (Gone env u profile))
      (update .conversationSettings fun w => w.conversationSettings.insert (v, id) (g w)) := by
  refine Tx.keeps_modify fun w hw => { hw with conversationSettings := fun id' => ?_ }
  show (w.conversationSettings.insert (v, id) (g w)).get (u, id') = none
  rw [Map.get_insert_ne fun he => hv (congrArg Prod.fst he).symm]
  exact hw.conversationSettings id'

theorem gone_friendSettings {a b : UserId} (ha : a ≠ u) (hb : b ≠ u) (settings : FriendSettings) :
    Tx.Keeps (Tx.Preserving (Gone env u profile))
      (update .friendSettings fun w => w.friendSettings.insert (a, b) settings) := by
  refine Tx.keeps_modify fun w hw => { hw with friendSettings := fun key' s he => ?_ }
  replace he : (w.friendSettings.insert (a, b) settings).get key' = some s := he
  rw [Map.get_insert] at he
  split at he
  · subst_vars; exact ⟨ha, hb⟩
  · exact hw.friendSettings key' s he

/-! Taking records away keeps it. -/

theorem gone_byEmail_less {g : World → Map String UserId}
    (h : ∀ w key v, (g w).get key = some v → w.byEmail.get key = some v) :
    Tx.Keeps (Tx.Preserving (Gone env u profile)) (update .byEmail g) :=
  Tx.keeps_modify fun w hw =>
    { hw with byEmail := fun key he => hw.byEmail key (h w key u he) }

theorem gone_byUsername_less {g : World → Map String UserId}
    (h : ∀ w key v, (g w).get key = some v → w.byUsername.get key = some v) :
    Tx.Keeps (Tx.Preserving (Gone env u profile)) (update .byUsername g) :=
  Tx.keeps_modify fun w hw =>
    { hw with byUsername := fun key he => hw.byUsername key (h w key u he) }

theorem gone_friendships {g : World → List Friendship} (h : ∀ w, g w ⊆ w.friendships) :
    Tx.Keeps (Tx.Preserving (Gone env u profile)) (update .friendships g) :=
  Tx.keeps_modify fun w hw => { hw with friendships := fun f hf => hw.friendships f (h w hf) }

theorem gone_scheduled {g : World → List ScheduledMessage} (h : ∀ w, g w ⊆ w.scheduledMessages) :
    Tx.Keeps (Tx.Preserving (Gone env u profile)) (update .scheduledMessages g) :=
  Tx.keeps_modify fun w hw =>
    { hw with scheduledMessages := fun m hm => hw.scheduledMessages m (h w hm) }

theorem gone_friendSettings_less {g : World → Map (UserId × UserId) FriendSettings}
    (h : ∀ w key s, (g w).get key = some s → w.friendSettings.get key = some s) :
    Tx.Keeps (Tx.Preserving (Gone env u profile)) (update .friendSettings g) :=
  Tx.keeps_modify fun w hw =>
    { hw with friendSettings := fun key s he => hw.friendSettings key s (h w key s he) }

theorem gone_conversationSettings_less
    {g : World → Map (UserId × ConversationId) ConversationSettings}
    (h : ∀ w key, w.conversationSettings.get key = none → (g w).get key = none) :
    Tx.Keeps (Tx.Preserving (Gone env u profile)) (update .conversationSettings g) :=
  Tx.keeps_modify fun w hw =>
    { hw with conversationSettings := fun id => h w _ (hw.conversationSettings id) }

variable {env u profile}

/-! ### Accounts and sessions -/

theorem Gone.ne_active {s : World} (h : Gone env u profile s) {v : UserId} {a : Account}
    (ha : s.activeAccount v = some a) : v ≠ u := by
  rintro rfl
  obtain ⟨a', ha', -, hdeleted⟩ := h.account
  obtain ⟨hget, hnone⟩ := activeAccount_some.mp ha
  cases ha'.symm.trans hget
  simp [hnone] at hdeleted

instance gone_accounting : Accounting (Gone env u profile) where
  write_active hs hacc a' := gone_account_insert _ _ _ fun he => absurd he (hs.ne_active hacc)
  write_same hs hacc a' hp hd := by
    refine gone_account_insert _ _ _ fun he => ?_
    obtain ⟨a, ha, hprofile, hdeleted⟩ := hs.account
    rw [← he, hacc] at ha
    cases ha
    exact ⟨hp.trans hprofile, hd ▸ hdeleted⟩
  access hs hacc hash := gone_access _ _ _ (hs.ne_active hacc) hash
  refresh hs hacc hash := gone_refresh _ _ _ (hs.ne_active hacc) hash
  revoke p := by
    have haccess : Tx.Keeps (Tx.Preserving (Gone env u profile))
        (update .accessTokens fun w => w.accessTokens.mapValues fun record =>
          if p record then { record with revoked := true } else record) := by
      refine Tx.keeps_modify fun w hw => { hw with accessTokens := fun key t he hu => ?_ }
      replace he : (w.accessTokens.mapValues _).get key = some t := he
      rw [Map.get_mapValues, Option.map_eq_some_iff] at he
      obtain ⟨t₀, h₀, rfl⟩ := he
      split
      · rfl
      · rename_i hp
        rw [if_neg hp] at hu
        exact hw.accessTokens key t₀ h₀ hu
    have hrefresh : Tx.Keeps (Tx.Preserving (Gone env u profile))
        (update .refreshTokens fun w => w.refreshTokens.mapValues fun record =>
          if p record then { record with revoked := true } else record) := by
      refine Tx.keeps_modify fun w hw => { hw with refreshTokens := fun key t he hu => ?_ }
      replace he : (w.refreshTokens.mapValues _).get key = some t := he
      rw [Map.get_mapValues, Option.map_eq_some_iff] at he
      obtain ⟨t₀, h₀, rfl⟩ := he
      split
      · rfl
      · rename_i hp
        rw [if_neg hp] at hu
        exact hw.refreshTokens key t₀ h₀ hu
    unfold revokeTokens; infer_instance
  consume hash := by
    refine Tx.keeps_modify fun w hw => { hw with refreshTokens := fun key t he hu => ?_ }
    replace he : (w.refreshTokens.remove hash).get key = some t := he
    exact hw.refreshTokens key t (Map.get_of_remove he) hu

set_option synthInstance.maxSize 1000000000000

variable {actor target : UserId} {now : DateTime} {id : ConversationId}

/-- What is drawn now is not the id of the deleted user. -/
theorem gone_draw_then {α : Type} (hu : Function.Injective env.uuid) {f : Uuid → Service α}
    (h : ∀ id, id ≠ u → Tx.Keeps (Tx.Preserving (Gone env u profile)) (f id)) :
    Tx.Keeps (Tx.Preserving (Gone env u profile)) (newUuid env >>= f) where
  runs {s a s'} hr hg := by
    obtain ⟨id, s₁, hdraw, hr⟩ := Tx.runs_bind.mp hr
    obtain ⟨k, hk, hid⟩ := hg.drawn
    have hne : id ≠ u := by
      rw [((newUuid_runs env).mp hdraw).1, hid]
      intro he
      have := hu he
      omega
    exact (h id hne).runs hr (Tx.Keeps.runs (R := Tx.Preserving (Gone env u profile)) hdraw hg)

/-- A registered user is somebody else. -/
theorem gone_register (hu : Function.Injective env.uuid) {input : RegisterInput} :
    Tx.Keeps (Tx.Preserving (Gone env u profile)) (register env input now) := by
  unfold register
  refine Tx.keeps_then inferInstance fun _ => Tx.keeps_then inferInstance fun _ =>
    Tx.keeps_then inferInstance fun _ => Tx.keeps_then inferInstance fun _ =>
    Tx.keeps_then inferInstance fun _ => Tx.keeps_then inferInstance fun _ =>
    Tx.keeps_then inferInstance fun hash => gone_draw_then hu fun userId hne => ?_
  have := gone_byEmail env u profile hne
  have := gone_byUsername env u profile hne
  have := fun a => gone_account_insert env u profile (a := a)
    fun he => absurd he hne
  have := fun d f e => gone_access env u profile
    (t := ⟨userId, d, f, e, false⟩) hne
  have := fun d f e => gone_refresh env u profile
    (t := ⟨userId, d, f, e, false⟩) hne
  unfold issueSession issueSessionInFamily; infer_instance

/-! ### Deleting another account -/

theorem get_detach {c : Conversation} (h : c.members.get u = none) :
    (c.detach actor now).members.get u = none := by
  unfold Conversation.detach
  split
  · exact h
  · dsimp only
    refine Map.get_remove_none ?_
    split
    · rw [Map.get_modify]
      split <;> simp [h]
    · exact h

instance gone_detach :
    Tx.Keeps (Tx.Preserving (Gone env u profile)) (detachAccountFromConversations actor now) := by
  refine gone_conversations _ _ _ fun w id c he => ?_
  rw [Map.get_mapValues, Option.map_eq_some_iff] at he
  obtain ⟨c₀, h₀, rfl⟩ := he
  exact ⟨c₀, h₀, get_detach⟩

theorem gone_anonymize (hne : actor ≠ u) :
    Tx.Keeps (Tx.Preserving (Gone env u profile)) (anonymizeAccount actor now) := by
  unfold anonymizeAccount
  have := fun a => gone_account_insert env u profile (a := a)
    fun he => absurd he hne
  infer_instance

instance gone_purge :
    Tx.Keeps (Tx.Preserving (Gone env u profile)) (purgeAccountRelationships actor now) := by
  have := gone_byEmail_less env u profile
    (g := fun w => w.byEmail.retain fun _ userId => userId != actor)
    fun w key v he => Map.get_of_retain he
  have := gone_byUsername_less env u profile
    (g := fun w => w.byUsername.retain fun _ userId => userId != actor)
    fun w key v he => Map.get_of_retain he
  have := gone_friendships env u profile
    (g := fun w => w.friendships.filter fun f => !f.contains actor)
    fun w => List.filter_sublist.subset
  have := gone_scheduled env u profile
    (g := fun w => w.scheduledMessages.filter fun m => m.actor != actor)
    fun w => List.filter_sublist.subset
  have := gone_friendSettings_less env u profile
    (g := fun w => w.friendSettings.retain fun key _ => key.1 != actor && key.2 != actor)
    fun w key s he => Map.get_of_retain he
  have := gone_conversationSettings_less env u profile
    (g := fun w => w.conversationSettings.retain fun key _ => key.1 != actor)
    fun w key he => by rw [Map.get_retain, he]; rfl
  unfold purgeAccountRelationships; infer_instance

instance gone_deleteAccount {currentPassword confirmation : String} :
    Tx.Keeps (Tx.Preserving (Gone env u profile))
      (deleteAccount env actor currentPassword confirmation now) := by
  unfold deleteAccount deleteAccountInStore
  refine Tx.keeps_then inferInstance fun _ => Tx.keeps_get_then fun s hs =>
    Tx.keeps_okOr_then fun account hacc => ?_
  have hne := hs.ne_active hacc
  have : Tx.Keeps (Tx.Preserving (Gone env u profile)) (anonymizeAccount actor now) :=
    gone_anonymize hne
  infer_instance

/-! ### Friends -/

/-- A deleted user has no friends. -/
theorem Gone.not_friends {s : World} (h : Gone env u profile s) {a b : UserId}
    (hf : areFriends s.toStore a b = true) : a ≠ u ∧ b ≠ u := by
  obtain ⟨f, hmem, hab⟩ := List.any_eq_true.mp hf
  obtain ⟨ha, hb⟩ := (Bool.and_eq_true ..).mp hab
  have hu := h.friendships f hmem
  constructor
  · rintro rfl
    rw [hu] at ha
    cases ha
  · rintro rfl
    rw [hu] at hb
    cases hb

instance gone_updateFriendSettings {request : UpdateFriendSettingsRequest} :
    Tx.Keeps (Tx.Preserving (Gone env u profile))
      (updateFriendSettings env actor target request now) := by
  unfold updateFriendSettings
  refine Tx.keeps_then inferInstance fun _ => Tx.keeps_then inferInstance fun _ =>
    Tx.keeps_get_then fun s hs => Tx.keeps_failIf_then fun hf => ?_
  obtain ⟨ha, ht⟩ := hs.not_friends (Bool.of_not_eq_false hf)
  have := gone_friendSettings env u profile ha ht
  infer_instance

instance gone_withoutFriendship : Tx.Keeps (Tx.Preserving (Gone env u profile))
    (update .friendships fun w => withoutFriendship actor target w.friendships) :=
  gone_friendships _ _ _ fun _ => List.filter_sublist.subset

instance gone_removeFriendSettings {key : UserId × UserId} :
    Tx.Keeps (Tx.Preserving (Gone env u profile))
      (update .friendSettings fun w => w.friendSettings.remove key) := by
  refine gone_friendSettings_less _ _ _ fun w key' s he => ?_
  exact Map.get_of_remove he

instance gone_deleteFriend :
    Tx.Keeps (Tx.Preserving (Gone env u profile)) (deleteFriend env actor target now) := by
  unfold deleteFriend; infer_instance

instance gone_blockUser :
    Tx.Keeps (Tx.Preserving (Gone env u profile)) (blockUser env actor target now) := by
  unfold blockUser; infer_instance

/-! ### Conversations -/

/-- A conversation without the user is stored with settings for its members. -/
theorem gone_store {c : Conversation} (hc : c.members.get u = none) :
    Tx.Keeps (Tx.Preserving (Gone env u profile)) (storeConversation c) := by
  have := gone_conversation env u profile hc c.id
  have hsettings : Tx.Keeps (Tx.Preserving (Gone env u profile))
      (Tx.forEach c.members.keys fun userId => update .conversationSettings fun w =>
        w.conversationSettings.orInsert (userId, c.id) (defaultConversationSettings c.id)) := by
    refine Tx.keeps_forEach_mem fun userId hmem => ?_
    have hne : userId ≠ u := by
      rintro rfl
      obtain ⟨m, hm⟩ := Map.mem_keys.mp hmem
      rw [hc] at hm
      cases hm
    exact gone_conversationSettings _ _ _ hne _ _
  unfold storeConversation; infer_instance

theorem get_direct {c : Conversation} {a b v : UserId} (ha : v ≠ a) (hb : v ≠ b)
    (h : Conversation.direct id a b now = .ok c) : c.members.get v = none := by
  unfold Conversation.direct at h
  split at h
  · cases h
  · cases h
    simp [Map.get_insert, ha, hb]

instance gone_createDirect :
    Tx.Keeps (Tx.Preserving (Gone env u profile)) (createDirect env actor target now) := by
  unfold createDirect
  refine Tx.keeps_get_then fun s hs => Tx.keeps_failIf_then fun hf => ?_
  obtain ⟨ha, ht⟩ := hs.not_friends (Bool.of_not_eq_false hf)
  split
  · infer_instance
  · refine Tx.keeps_then inferInstance fun id => Tx.keeps_ofExcept_then fun c hc => ?_
    have : Tx.Keeps (Tx.Preserving (Gone env u profile)) (storeConversation c) :=
      gone_store (get_direct ha.symm ht.symm (liftDomain_ok.mp hc))
    infer_instance

/-- What a befriending writes, between two others. -/
theorem gone_befriend {request : FriendRequest} (hsender : request.senderId ≠ u)
    (hrecipient : request.recipientId ≠ u) :
    Tx.Keeps (Tx.Preserving (Gone env u profile)) (befriend env request now) := by
  unfold befriend
  refine Tx.keeps_ofExcept_then fun friendship hf => ?_
  have : Tx.Keeps (Tx.Preserving (Gone env u profile))
      (update .friendships fun w => w.friendships ++ [friendship]) := by
    refine Tx.keeps_modify fun w hw => { hw with friendships := fun f hmem => ?_ }
    rcases List.mem_append.mp hmem with hmem | hmem
    · exact hw.friendships f hmem
    · rw [List.mem_singleton.mp hmem]
      have hnew := liftDomain_ok.mp hf
      unfold Friendship.new at hnew
      split at hnew
      · cases hnew
      · cases hnew
        split <;> simp [Friendship.contains, hsender, hrecipient]
  have hsettings : Tx.Keeps (Tx.Preserving (Gone env u profile)) (Tx.forEach
      [(request.senderId, request.recipientId), (request.recipientId, request.senderId)]
      fun key => update .friendSettings fun w =>
        w.friendSettings.insert key ⟨key.2, none, none, true, true⟩) := by
    refine Tx.keeps_forEach_mem fun key hmem => ?_
    simp only [List.mem_cons, List.not_mem_nil, or_false] at hmem
    rcases hmem with rfl | rfl
    · exact gone_friendSettings _ _ _ hsender hrecipient _
    · exact gone_friendSettings _ _ _ hrecipient hsender _
  refine Tx.keeps_then inferInstance fun _ => Tx.keeps_then hsettings fun _ =>
    Tx.keeps_then inferInstance fun id => Tx.keeps_ofExcept_then fun c hc => ?_
  exact gone_store (get_direct hsender.symm hrecipient.symm (liftDomain_ok.mp hc))

instance gone_touching : Touching (Tx.Preserving (Gone env u profile)) where
  touch id now := by
    refine gone_conversations _ _ _ fun w id' c he => ?_
    rw [Map.get_modify] at he
    split at he
    · obtain ⟨c₀, h₀, rfl⟩ := Option.map_eq_some_iff.mp he
      exact ⟨c₀, h₀, fun h => h⟩
    · exact ⟨c, he, fun h => h⟩

theorem get_group {groupId : GroupId} {ownerId : UserId} {memberIds : List UserId}
    {name : String} {c : Conversation}
    (h : Conversation.group id groupId ownerId memberIds name now = .ok c) :
    c.members = Conversation.groupMembers ownerId memberIds now ∧ ¬ c.members.len < 2 := by
  unfold Conversation.group at h
  split at h
  · cases h
  split at h
  · cases h
  · cases h
    exact ⟨rfl, ‹_›⟩

/-- A group needs a second member: the owner alone gets none. -/
theorem group_alone {groupId : GroupId} {ownerId : UserId} {memberIds : List UserId}
    {name : String} {c : Conversation} (hids : ∀ v ∈ memberIds, v = ownerId) :
    Conversation.group id groupId ownerId memberIds name now ≠ .ok c := by
  intro h
  obtain ⟨hm, hlen⟩ := get_group h
  have hone : c.members = Map.empty.insert ownerId (.joining ownerId .owner now) := by
    refine Map.ext fun v => ?_
    rw [hm, Conversation.get_groupMembers, Map.get_insert, Map.get_empty]
    split
    · subst_vars; rfl
    · rename_i hv
      rw [if_neg fun hmem => hv (hids v hmem)]
  rw [hone, Map.len_singleton] at hlen
  omega

instance gone_createGroup {memberIds : List UserId} {name : String} :
    Tx.Keeps (Tx.Preserving (Gone env u profile)) (createGroup env actor memberIds name now) := by
  unfold createGroup
  refine Tx.keeps_get_then fun s hs => Tx.keeps_failIf_then fun hf =>
    Tx.keeps_then inferInstance fun id => Tx.keeps_then inferInstance fun groupId =>
    Tx.keeps_ofExcept_then fun c hc => ?_
  have hc := liftDomain_ok.mp hc
  have hfriends : ∀ v ∈ memberIds, v = actor ∨ areFriends s.toStore actor v = true := by
    intro v hv
    by_contra hno
    rw [not_or] at hno
    exact hf (List.any_eq_true.mpr ⟨v, hv, by simp [hno.1, hno.2]⟩)
  by_cases hactor : actor = u
  · -- no friend to make a group with
    refine absurd hc (group_alone fun v hv => ?_)
    exact (hfriends v hv).resolve_right fun h => (hs.not_friends h).1 hactor
  · have hnone : c.members.get u = none := by
      rw [(get_group hc).1, Conversation.get_groupMembers, if_neg (Ne.symm hactor), if_neg]
      intro hmem
      rcases hfriends u hmem with rfl | h
      · exact hactor rfl
      · exact (hs.not_friends h).2 rfl
    have : Tx.Keeps (Tx.Preserving (Gone env u profile)) (storeConversation c) :=
      gone_store hnone
    infer_instance

instance gone_updateGroup {request : UpdateGroupRequest} :
    Tx.Keeps (Tx.Preserving (Gone env u profile)) (updateGroup env actor id request now) := by
  unfold updateGroup
  refine Tx.keeps_then inferInstance fun _ => Tx.keeps_then inferInstance fun _ =>
    Tx.keeps_get_then fun s hs => Tx.keeps_then inferInstance fun _ =>
    Tx.keeps_okOr_then fun existing he => ?_
  have hnone : (existing.updateGroup request now).members.get u = none := by
    rw [Conversation.updateGroup_members]
    exact hs.conversations id existing he
  have := gone_conversation env u profile hnone id
  infer_instance

instance gone_addGroupMembers {request : AddGroupMembersRequest} :
    Tx.Keeps (Tx.Preserving (Gone env u profile))
      (addGroupMembers env actor id request now) := by
  unfold addGroupMembers
  refine Tx.keeps_then inferInstance fun _ => Tx.keeps_get_then fun s hs =>
    Tx.keeps_okOr_then fun existing he => Tx.keeps_then inferInstance fun _ =>
    Tx.keeps_then inferInstance fun _ =>
    Tx.keeps_forEach_then (P := fun v => areFriends s.toStore actor v = true) ?_ fun hall => ?_
  · intro v s₁ s₂ hr
    obtain ⟨hno, -⟩ := Tx.runs_failIf_bind.mp hr
    exact Bool.of_not_eq_false fun h => hno (.inr h)
  have hadded : ∀ v ∈ existing.newMembers request.memberIds, v ≠ u := fun v hv =>
    (hs.not_friends (hall v (Conversation.mem_newMembers.mp hv).1)).2
  have hnone : (existing.addMembers (existing.newMembers request.memberIds) now).members.get u =
      none := by
    rw [Conversation.get_addMembers, if_neg fun hmem => hadded u hmem rfl]
    exact hs.conversations id existing he
  have := gone_conversation env u profile hnone id
  have : Tx.Keeps (Tx.Preserving (Gone env u profile))
      (Tx.forEach (existing.newMembers request.memberIds) fun memberId =>
        update .conversationSettings fun w => w.conversationSettings.insert (memberId, id)
          (defaultConversationSettings id)) :=
    Tx.keeps_forEach_mem fun v hv => gone_conversationSettings _ _ _ (hadded v hv) _ _
  infer_instance

/-- Settings are removed. -/
instance gone_removeSettings {key : UserId × ConversationId} :
    Tx.Keeps (Tx.Preserving (Gone env u profile))
      (update .conversationSettings fun w => w.conversationSettings.remove key) := by
  refine gone_conversationSettings_less _ _ _ fun w key' he => ?_
  exact Map.get_remove_none he

instance gone_leaveGroup :
    Tx.Keeps (Tx.Preserving (Gone env u profile)) (leaveGroup env actor id now) := by
  unfold leaveGroup
  refine Tx.keeps_get_then fun s hs => Tx.keeps_okOr_then fun existing he => ?_
  have := gone_conversation env u profile
    (c := { existing with members := existing.members.remove actor, updatedAt := now })
    (Map.get_remove_none (hs.conversations id existing he)) id
  infer_instance

instance gone_disbandGroup :
    Tx.Keeps (Tx.Preserving (Gone env u profile)) (disbandGroup env actor id now) := by
  have : Tx.Keeps (Tx.Preserving (Gone env u profile))
      (update .conversations fun w => w.conversations.remove id) := by
    refine gone_conversations _ _ _ fun w id' c he => ?_
    exact ⟨c, Map.get_of_remove he, fun h => h⟩
  have := gone_conversationSettings_less env u profile
    (g := fun w => w.conversationSettings.retain fun key _ => key.2 != id)
    fun w key he => by rw [Map.get_retain, he]; rfl
  unfold disbandGroup; infer_instance

instance gone_updateGroupMember {request : UpdateGroupMemberRequest} :
    Tx.Keeps (Tx.Preserving (Gone env u profile))
      (updateGroupMember env actor id target request now) := by
  unfold updateGroupMember
  refine Tx.keeps_then inferInstance fun _ => Tx.keeps_get_then fun s hs =>
    Tx.keeps_okOr_then fun existing he => Tx.keeps_then inferInstance fun _ =>
    Tx.keeps_then inferInstance fun actorMember => Tx.keeps_ofExcept_then fun member hm => ?_
  have hnone := hs.conversations id existing he
  have hne : u ≠ target := by
    rintro rfl
    rw [requireMember_ok.mp hm] at hnone
    cases hnone
  have := gone_conversation env u profile
    (c := { existing with
      members := existing.members.insert target (member.apply request), updatedAt := now })
    ((Map.get_insert_ne hne).trans hnone) id
  infer_instance

instance gone_removeGroupMember :
    Tx.Keeps (Tx.Preserving (Gone env u profile))
      (removeGroupMember env actor id target now) := by
  unfold removeGroupMember
  refine Tx.keeps_get_then fun s hs => Tx.keeps_okOr_then fun existing he =>
    Tx.keeps_then inferInstance fun _ => Tx.keeps_ofExcept_then fun c hc => ?_
  have hnone : c.members.get u = none := by
    have hc := liftDomain_ok.mp hc
    unfold Conversation.removeMember at hc
    split at hc
    · cases hc
    split at hc
    · cases hc
    split at hc
    · cases hc
    · cases hc
      exact Map.get_remove_none (hs.conversations id existing he)
  have := gone_conversation env u profile hnone id
  infer_instance

instance gone_transferGroupOwnership {request : TransferGroupOwnershipRequest} :
    Tx.Keeps (Tx.Preserving (Gone env u profile))
      (transferGroupOwnership env actor id request now) := by
  unfold transferGroupOwnership
  refine Tx.keeps_get_then fun s hs => Tx.keeps_okOr_then fun existing he =>
    Tx.keeps_then inferInstance fun _ => Tx.keeps_ofExcept_then fun c hc => ?_
  have hnone : c.members.get u = none := by
    have hc := liftDomain_ok.mp hc
    unfold Conversation.transferOwnership at hc
    split at hc
    · cases hc
    split at hc
    · cases hc
    · cases hc
      simp [Map.get_modify, hs.conversations id existing he]
  have := gone_conversation env u profile hnone id
  infer_instance

/-! ### Settings and scheduled messages -/

/-- Who can read a conversation is somebody else. -/
theorem Gone.ne_reader {s : World} (h : Gone env u profile s) {c : Conversation}
    (hc : s.conversations.get id = some c) {v : UserId} (hv : c.canRead v = true) : v ≠ u := by
  rintro rfl
  obtain ⟨m, hm⟩ := Map.containsKey_iff.mp hv
  rw [h.conversations id c hc] at hm
  cases hm

instance gone_updateConversationSettings {request : UpdateConversationSettingsRequest} :
    Tx.Keeps (Tx.Preserving (Gone env u profile))
      (updateConversationSettings env actor id request now) := by
  unfold updateConversationSettings
  refine Tx.keeps_then inferInstance fun _ => Tx.keeps_then inferInstance fun _ =>
    Tx.keeps_get_then fun s hs => Tx.keeps_okOr_then fun c hc =>
    Tx.keeps_failIf_then fun hread => ?_
  have hne := hs.ne_reader hc (Bool.of_not_eq_false hread)
  have := gone_conversationSettings env u profile hne id
  infer_instance

instance gone_markAllRead :
    Tx.Keeps (Tx.Preserving (Gone env u profile)) (markAllRead env actor now) := by
  unfold markAllRead
  refine Tx.keeps_get_then fun s hs => ?_
  by_cases hactor : actor = u
  · -- the deleted user reads no conversation
    have hnil : (s.conversations.values.filter (·.canRead actor)).map (·.id) = [] := by
      rw [List.map_eq_nil_iff, List.filter_eq_nil_iff]
      intro c hc hread
      obtain ⟨id, hid⟩ := Map.mem_values.mp hc
      exact hs.ne_reader hid hread hactor
    simp only [hnil, Tx.forEach]
    infer_instance
  · have : ∀ id latest, Tx.Keeps (Tx.Preserving (Gone env u profile))
        (update .conversationSettings fun w => w.conversationSettings.upsert (actor, id)
          (defaultConversationSettings id) (·.readThrough latest)) := fun id latest =>
      gone_conversationSettings env u profile hactor id _
    infer_instance

instance gone_markRead {throughSequence : Nat} :
    Tx.Keeps (Tx.Preserving (Gone env u profile))
      (markRead env actor id throughSequence now) := by
  unfold markRead
  refine Tx.keeps_get_then fun s hs => Tx.keeps_okOr_then fun c hc =>
    Tx.keeps_failIf_then fun hread => ?_
  have hne := hs.ne_reader hc (Bool.of_not_eq_false hread)
  have : ∀ next, Tx.Keeps (Tx.Preserving (Gone env u profile))
      (update .conversationSettings fun w => w.conversationSettings.upsert (actor, id)
        (defaultConversationSettings id)
        fun settings => settings.readThrough (max settings.lastReadSequence next)) := fun next =>
    gone_conversationSettings _ _ _ hne _ _
  infer_instance

instance gone_scheduleMessage {request : ScheduleMessageRequest} :
    Tx.Keeps (Tx.Preserving (Gone env u profile)) (scheduleMessage env actor request now) := by
  unfold scheduleMessage
  refine Tx.keeps_then inferInstance fun _ => Tx.keeps_then inferInstance fun _ =>
    Tx.keeps_get_then fun s hs => Tx.keeps_then inferInstance fun _ =>
    Tx.keeps_okOr_then fun c hc => Tx.keeps_failIf_then fun hsend => ?_
  have hread : c.canRead actor = true := by
    obtain ⟨m, hm, -⟩ := (Option.any_eq_true ..).mp (Bool.of_not_eq_false hsend)
    exact Map.containsKey_iff.mpr ⟨m, hm⟩
  have hne := hs.ne_reader hc hread
  have : ∀ m : ScheduledMessage, m.actor = actor →
      Tx.Keeps (Tx.Preserving (Gone env u profile))
        (update .scheduledMessages fun w => w.scheduledMessages ++ [m]) := by
    intro m hm
    refine Tx.keeps_modify fun w hw => { hw with scheduledMessages := fun m' hmem => ?_ }
    rcases List.mem_append.mp hmem with hmem | hmem
    · exact hw.scheduledMessages m' hmem
    · rw [List.mem_singleton.mp hmem, hm]
      exact hne
  refine Tx.keeps_then inferInstance fun _ => Tx.keeps_then inferInstance fun id => ?_
  exact Tx.keeps_then (this _ rfl) fun _ => inferInstance

instance gone_cancelScheduledMessage {scheduleId : Uuid} :
    Tx.Keeps (Tx.Preserving (Gone env u profile)) (cancelScheduledMessage actor scheduleId) := by
  unfold cancelScheduledMessage
  refine Tx.keeps_get_then fun s hs => Tx.keeps_then inferInstance fun _ => ?_
  exact Tx.keeps_modify fun w hw => { hw with
    scheduledMessages := fun m hm => hs.scheduledMessages m (List.mem_of_mem_filter hm) }

instance gone_removeScheduledMessage {scheduleId : Uuid} :
    Tx.Keeps (Tx.Preserving (Gone env u profile)) (removeScheduledMessage scheduleId) :=
  gone_scheduled _ _ _ fun _ => List.filter_sublist.subset

end

/-! ## Steps that bring a deleted user back -/

def Store.Deleted (s : Store) (v : UserId) : Prop :=
  ∃ a, s.accounts.get v = some a ∧ a.deletedAt.isSome = true

/-- The step neither edits the profile of a deleted account, nor admits or befriends its user. -/
def Op.SparesDeleted (w : World) : Op → Prop
  | .updateProfile userId _ _ _ => ¬ w.Deleted userId
  | .decideGroupJoinRequest _ requestId request _ => request.accept = true →
    ∀ pending, w.groupJoinRequests.get requestId = some pending → ¬ w.Deleted pending.applicantId
  | .decideFriendRequest _ requestId decision _ => decision = .accept →
    ∀ request, w.friendRequests.get requestId = some request →
      ¬ w.Deleted request.senderId ∧ ¬ w.Deleted request.recipientId
  | _ => True

section
variable {env : Env} {u : UserId} {profile : UserProfile} {w w' : World}

theorem Gone.ne_of_not_deleted (h : Gone env u profile w) {v : UserId} (hv : ¬ w.Deleted v) :
    v ≠ u := by
  rintro rfl
  obtain ⟨a, ha, -, hdeleted⟩ := h.account
  exact hv ⟨a, ha, hdeleted⟩

set_option synthInstance.maxSize 1000000000000

theorem gone_updateProfile {userId : UserId} (hne : userId ≠ u) {input : UpdateProfileInput}
    {utcNow now : DateTime} : Tx.Keeps (Tx.Preserving (Gone env u profile))
      (updateProfile env userId input utcNow now) := by
  have := fun a => gone_account_insert env u profile (a := a)
    fun he => absurd he hne
  unfold updateProfile; infer_instance

theorem Gone.decidedFriend (h : Gone env u profile w) {actor : UserId}
    {requestId : FriendRequestId} {decision : FriendRequestDecision} {now : DateTime}
    (hok : (Op.decideFriendRequest actor requestId decision now).SparesDeleted w)
    {a : FriendRequest} (hr : (decideFriendRequest env actor requestId decision now).Runs w a w') :
    Gone env u profile w' := by
  simp only [decideFriendRequest, Tx.runs_get_bind, Tx.runs_okOr_bind, Tx.runs_ofExcept_bind] at hr
  obtain ⟨request, hreq, r, hdec, hr⟩ := hr
  obtain ⟨-, -, rfl⟩ := decide_ok (liftDomain_ok.mp hdec)
  have : Tx.Keeps (Tx.Preserving (Gone env u profile))
      (Tx.whenTrue (decision = .accept)
        (befriend env (request.become decision.status now) now)) := by
    unfold Tx.whenTrue
    split
    · obtain ⟨hs, ht⟩ := hok ‹_› request hreq
      exact gone_befriend (h.ne_of_not_deleted hs) (h.ne_of_not_deleted ht)
    · infer_instance
  exact Tx.Keeps.runs (R := Tx.Preserving (Gone env u profile)) hr h

theorem Gone.decidedJoin (h : Gone env u profile w) {actor : UserId} {requestId : Uuid}
    {request : DecideGroupJoinRequest} {now : DateTime}
    (hok : (Op.decideGroupJoinRequest actor requestId request now).SparesDeleted w)
    {a : GroupJoinRequest}
    (hr : (decideGroupJoinRequest env actor requestId request now).Runs w a w') :
    Gone env u profile w' := by
  simp only [decideGroupJoinRequest, Tx.runs_get_bind, Tx.runs_okOr_bind] at hr
  obtain ⟨pending, hp, hr⟩ := hr
  have : Tx.Keeps (Tx.Preserving (Gone env u profile)) (Tx.whenTrue (request.accept = true)
      (admitApplicant pending.conversationId pending.applicantId now)) := by
    unfold Tx.whenTrue
    split
    · have hne := h.ne_of_not_deleted (hok ‹_› pending hp)
      have := gone_conversationSettings env u profile hne pending.conversationId
        fun _ => defaultConversationSettings pending.conversationId
      have := gone_conversations env u profile
        (g := fun w => w.conversations.modify pending.conversationId fun conversation =>
          { conversation with
            members := conversation.members.insert pending.applicantId
              (.joining pending.applicantId .member now)
            updatedAt := now }) fun w id c he => by
          rw [Map.get_modify] at he
          split at he
          · obtain ⟨c₀, h₀, rfl⟩ := Option.map_eq_some_iff.mp he
            exact ⟨c₀, h₀, fun hc => (Map.get_insert_ne hne.symm).trans hc⟩
          · exact ⟨c, he, fun hc => hc⟩
      unfold admitApplicant; infer_instance
    · infer_instance
  exact Tx.Keeps.runs (R := Tx.Preserving (Gone env u profile)) hr h

/-- **Step.** -/
theorem Gone.step (hu : Function.Injective env.uuid) (h : Gone env u profile w) {op : Op}
    (hok : op.SparesDeleted w) (hs : (op.run env).Runs w () w') : Gone env u profile w' := by
  cases op
  case register input now =>
    have : Tx.Keeps (Tx.Preserving (Gone env u profile)) (register env input now) :=
      gone_register hu
    dsimp only [Op.run] at hs
    exact Tx.Keeps.runs (R := Tx.Preserving (Gone env u profile)) hs h
  case updateProfile userId input utcNow now =>
    have : Tx.Keeps (Tx.Preserving (Gone env u profile))
        (updateProfile env userId input utcNow now) := gone_updateProfile (h.ne_of_not_deleted hok)
    dsimp only [Op.run] at hs
    exact Tx.Keeps.runs (R := Tx.Preserving (Gone env u profile)) hs h
  case decideFriendRequest actor requestId decision now =>
    obtain ⟨a, hr⟩ := Tx.runs_void.mp hs
    exact h.decidedFriend hok hr
  case decideGroupJoinRequest actor requestId request now =>
    obtain ⟨a, hr⟩ := Tx.runs_void.mp hs
    exact h.decidedJoin hok hr
  all_goals
    dsimp only [Op.run] at hs
    exact Tx.Keeps.runs (R := Tx.Preserving (Gone env u profile)) hs h

/-! ## Main result -/

theorem get_detach_self (c : Conversation) (now : DateTime) :
    (c.detach u now).members.get u = none := by
  unfold Conversation.detach
  split
  · exact Map.containsKey_eq_false.mp ‹_›
  · dsimp only
    exact Map.get_remove_self ..

/-- Every token of the user is revoked. -/
theorem revoked_tokens {m : Map String TokenRecord} {key : String} {t : TokenRecord}
    (h : (m.mapValues fun record =>
      if record.userId = u then { record with revoked := true } else record).get key = some t)
    (hu : t.userId = u) : t.revoked = true := by
  rw [Map.get_mapValues, Option.map_eq_some_iff] at h
  obtain ⟨t₀, -, rfl⟩ := h
  split
  · rfl
  · rename_i hne
    rw [if_neg hne] at hu
    exact absurd hu hne

theorem deleteAccount_gone (hdrawn : AccountsDrawn env w) {currentPassword confirmation : String}
    {now : DateTime} {x : Unit}
    (h : (deleteAccount env u currentPassword confirmation now).Runs w x w') :
    ∃ a, w.accounts.get u = some a ∧ Gone env u (a.profile.anonymized u) w' := by
  simp only [deleteAccount, deleteAccountInStore, Tx.runs_failIf_bind, Tx.runs_get_bind,
    Tx.runs_okOr_bind] at h
  obtain ⟨-, account, hacc, -, h⟩ := h
  have hget := (activeAccount_some.mp hacc).1
  refine ⟨account, hget, ?_⟩
  simp [detachAccountFromConversations, anonymizeAccount, purgeAccountRelationships,
    revokeUserSessions, revokeTokens, appendEvent_runs, hget] at h
  subst h
  constructor
  · exact ⟨_, Map.get_insert_self .., rfl, rfl⟩
  · obtain ⟨k, hk, hid⟩ := hdrawn u account hget
    exact ⟨k, Nat.lt_succ_of_lt hk, hid⟩
  · intro key he
    simp [Option.filter_eq_some_iff] at he
  · intro key he
    simp [Option.filter_eq_some_iff] at he
  · exact fun key t he hu => revoked_tokens he hu
  · exact fun key t he hu => revoked_tokens he hu
  · intro f hf
    simpa using (List.mem_filter.mp hf).2
  · intro key s he
    rw [Map.get_retain, Option.filter_eq_some_iff] at he
    simpa using he.2
  · intro id c he
    rw [Map.get_mapValues, Option.map_eq_some_iff] at he
    obtain ⟨c₀, -, rfl⟩ := he
    exact get_detach_self c₀ now
  · intro id
    rw [Map.get_retain]
    simp
  · intro m hm
    simpa using (List.mem_filter.mp hm).2

end

/-- The runs without a step that brings a deleted user back. -/
def respectfulService (env : Env) : LTS World Op :=
  (service env).restrict fun w op => op.SparesDeleted w

/-- **Deletion is permanent.** After the deletion of an account, in any later run without such a
step, the user is in no conversation, has no friendship, friend settings, conversation settings,
scheduled message or valid token, no email or username leads to them, and their profile is the
anonymised one. -/
theorem deletion_permanent (env : Env) (hu : Function.Injective env.uuid) (w : World)
    (hr : (service env).Reachable w) (u : UserId) (currentPassword confirmation : String)
    (now : DateTime) (w₁ : World)
    (h : (deleteAccount env u currentPassword confirmation now).Runs w () w₁) (ops : List Op)
    (w₂ : World) (hops : (respectfulService env).Run w₁ ops w₂) :
    ∃ a, w.accounts.get u = some a ∧ Gone env u (a.profile.anonymized u) w₂ := by
  obtain ⟨a, ha, hgone⟩ := deleteAccount_gone (accounts_drawn hr) h
  exact ⟨a, ha, hops.preserves (fun s op s' hs hstep => hs.step hu hstep.1 hstep.2) hgone⟩

/-- Bob deletes his account; his pending join request is rejected afterwards. -/
theorem deletion_permanent_rejected : ∃ w w₁ w₂ profile, (service Env.numbered).Reachable w ∧
    (deleteAccount Env.numbered 4 "Passw0rd123" "DELETE" 0).Runs w () w₁ ∧
    (respectfulService Env.numbered).Run w₁ [.decideGroupJoinRequest 1 18 ⟨false⟩ 0] w₂ ∧
    Gone Env.numbered 4 profile w₂ := by
  obtain ⟨w, x, w₂, hw, hr, -⟩ := reaches_runs Env.numbered
    (aliceAndBob ++ [.leaveGroup 4 11 0, .requestToJoinGroup 4 11 ⟨""⟩ 0])
    (do
      deleteAccount Env.numbered 4 "Passw0rd123" "DELETE" 0
      (decideGroupJoinRequest Env.numbered 1 18 ⟨false⟩ 0).void)
    (fun _ _ _ => true) (by decide +kernel)
  obtain ⟨_, w₁, hdelete, hreject⟩ := Tx.runs_bind.mp hr
  have hrun : (respectfulService Env.numbered).Run w₁ [.decideGroupJoinRequest 1 18 ⟨false⟩ 0] w₂ :=
    .cons ⟨fun h => absurd h Bool.false_ne_true, hreject⟩ (.nil _)
  obtain ⟨a, -, hgone⟩ := deletion_permanent Env.numbered Env.numbered_injective w
    (reachable_of_run hw) 4 "Passw0rd123" "DELETE" 0 w₁ hdelete _ w₂ hrun
  exact ⟨w, w₁, w₂, _, reachable_of_run hw, hdelete, hrun, hgone⟩

/-- The account of user 4 is deleted, and `p` holds of the store. -/
def deletedWith (p : World → Bool) (w : World) : Bool :=
  ((w.accounts.get 4).any fun a => a.deletedAt.isSome) && p w

theorem deleted_of_deletedWith {p : World → Bool} {w : World} (h : deletedWith p w = true) :
    w.Deleted 4 ∧ p w = true := by
  obtain ⟨hdeleted, hp⟩ := (Bool.and_eq_true ..).mp h
  obtain ⟨a, ha, hd⟩ := (Option.any_eq_true ..).mp hdeleted
  exact ⟨⟨a, ha, hd⟩, hp⟩

/-- Three ways back after Bob deleted his account: his old join request is accepted, a request of
his edits the profile, and a friend request of his is accepted. -/
theorem deleted_user_comes_back :
    (∃ w c, (service Env.numbered).Reachable w ∧ w.Deleted 4 ∧
      w.conversations.get 11 = some c ∧ c.canRead 4 = true) ∧
    (∃ w a, (service Env.numbered).Reachable w ∧ w.Deleted 4 ∧
      w.accounts.get 4 = some a ∧ a.profile.nickname = "Bob") ∧
    ∃ w, (service Env.numbered).Reachable w ∧ w.Deleted 4 ∧
      ∃ f ∈ w.friendships, f.contains 4 = true := by
  refine ⟨?_, ?_, ?_⟩
  · obtain ⟨w, hw, hp⟩ := reaches Env.numbered (aliceAndBob ++ [.leaveGroup 4 11 0,
      .requestToJoinGroup 4 11 ⟨""⟩ 0, .deleteAccount 4 "Passw0rd123" "DELETE" 0,
      .decideGroupJoinRequest 1 18 ⟨true⟩ 0])
      (deletedWith fun w => (w.conversations.get 11).any (·.canRead 4)) (by decide +kernel)
    obtain ⟨hdeleted, hp⟩ := deleted_of_deletedWith hp
    obtain ⟨c, hc, hread⟩ := (Option.any_eq_true ..).mp hp
    exact ⟨w, c, reachable_of_run hw, hdeleted, hc, hread⟩
  · obtain ⟨w, hw, hp⟩ := reaches Env.numbered (aliceAndBob ++
      [.deleteAccount 4 "Passw0rd123" "DELETE" 0,
        .updateProfile 4 ⟨"Bob", "", none, none, none, none, none, none⟩ 0 0])
      (deletedWith fun w => (w.accounts.get 4).any (·.profile.nickname == "Bob"))
      (by decide +kernel)
    obtain ⟨hdeleted, hp⟩ := deleted_of_deletedWith hp
    obtain ⟨a, ha, hname⟩ := (Option.any_eq_true ..).mp hp
    exact ⟨w, a, reachable_of_run hw, hdeleted, ha, by simpa using hname⟩
  · obtain ⟨w, hw, hp⟩ := reaches Env.numbered [.register alice 0, .register bob 0,
      .deleteAccount 4 "Passw0rd123" "DELETE" 0, .sendFriendRequest 4 "alice" "" 0,
      .decideFriendRequest 1 8 .accept 0]
      (deletedWith fun w => w.friendships.any (·.contains 4)) (by decide +kernel)
    obtain ⟨hdeleted, hp⟩ := deleted_of_deletedWith hp
    obtain ⟨f, hf, hc⟩ := List.any_eq_true.mp hp
    exact ⟨w, reachable_of_run hw, hdeleted, f, hf, hc⟩

end IamRust
