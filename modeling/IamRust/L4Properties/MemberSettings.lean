import IamRust.L4Properties.AccountSteps
import IamRust.L4Properties.Receipts

/-!
# The settings of a member

`SettingsStep` lists what one transaction can leave of the settings a user has
for a conversation: a conversation that opens brings default ones, who leaves
loses them, a new member starts over, the user changes them, and reading moves
the position in them.
-/
namespace IamRust

open Core

/-- The settings of the user for the conversation, or the default ones. -/
def Store.settings (s : Store) (u : UserId) (id : ConversationId) : ConversationSettings :=
  (s.conversationSettings.get (u, id)).getD (defaultConversationSettings id)

/-- The operation gives the user the settings of a new member. -/
def Op.Resets (w : World) (u : UserId) (id : ConversationId) : Op → Prop
  | .addGroupMembers _ c request _ => id = c ∧ u ∈ request.memberIds ∧ w.readable u id = false
  | .decideGroupJoinRequest _ requestId request _ => request.accept = true ∧
    ∃ pending, w.groupJoinRequests.get requestId = some pending ∧
      id = pending.conversationId ∧ u = pending.applicantId
  | _ => False

/-- What a transaction leaves of the settings of a user for a conversation. -/
inductive SettingsStep (w : World) (op : Op) (u : UserId) (id : ConversationId) :
    ConversationSettings → Prop
  | kept : SettingsStep w op u id (w.settings u id)
  | reset (hop : op.Removes u id ∨ op.Resets w u id) :
    SettingsStep w op u id (defaultConversationSettings id)
  | changed {request now} (hop : op = .updateConversationSettings u id request now) :
    SettingsStep w op u id ((w.settings u id).apply request)
  | read {through now} (hop : op = .markRead u id through now)
    (hmember : w.readable u id = true) : SettingsStep w op u id ((w.settings u id).readThrough
      (max (w.settings u id).lastReadSequence (min through (lastSequence w.toStore id))))
  | caughtUp {now} (hop : op = .markAllRead u now) (hmember : w.readable u id = true) :
    SettingsStep w op u id ((w.settings u id).readThrough (lastSequence w.toStore id))

section
variable {env : Env} {w w' : World} {actor u target : UserId} {id i : ConversationId}
  {now : DateTime}

theorem settings_same (h : w'.conversationSettings = w.conversationSettings) :
    w'.settings u id = w.settings u id := by
  unfold Store.settings
  rw [h]

/-! ## Reading -/

/-- What `mark_read` writes. -/
structure ReadsUpTo (w : World) (actor : UserId) (id : ConversationId) (n : Nat) (w' : World) :
    Prop where
  settings : w'.conversationSettings = w.conversationSettings.upsert (actor, id)
    (defaultConversationSettings id) fun settings =>
      settings.readThrough (max settings.lastReadSequence n)
  positions : w'.readPositions = w.readPositions.upsert (actor, id) 0 (max · n)
  receipts : ∀ i, w'.messageReceipts.get i =
    if ∃ m ∈ w.timeline id, m.id = i ∧ m.senderId ≠ actor ∧ ∃ s ≤ n, m.sequence = some s then
      some (((w.messageReceipts.get i).getD .default).readFrom actor)
    else w.messageReceipts.get i

theorem markRead_upTo {through : Nat} {x : Unit}
    (h : (markRead env actor id through now).Runs w x w') :
    w.readable actor id = true ∧
      ReadsUpTo w actor id (min through (lastSequence w.toStore id)) w' := by
  unfold markRead at h
  simp only [Tx.runs_get_bind, Tx.runs_okOr_bind, Tx.runs_failIf_bind] at h
  obtain ⟨c, hget, hread, h⟩ := h
  obtain ⟨_, w₁, hloop, h⟩ := Tx.runs_bind.mp h
  simp only [update_bind_runs] at h
  have hrest := Tx.Keeps.runs (R := Evolves [.messageReceipts]) hloop
  have hsettings : w₁.conversationSettings = w.conversationSettings :=
    hrest.same .conversationSettings (by decide)
  have hpositions : w₁.readPositions = w.readPositions := hrest.same .readPositions (by decide)
  refine ⟨readable_of hget (by simpa using hread), ?_, ?_, fun i => ?_⟩
  · rw [← hsettings]
    exact appendEvent_only h .conversationSettings (by decide)
  · rw [← hpositions]
    exact appendEvent_only h .readPositions (by decide)
  · have hreceipts : w'.messageReceipts = w₁.messageReceipts :=
      appendEvent_only h .messageReceipts (by decide)
    rw [hreceipts, readFrom_loop hloop i]
    refine if_congr ?_ rfl rfl
    simp only [List.mem_map, List.mem_filter, Bool.and_eq_true, bne_iff_ne, ne_eq,
      Option.any_eq_true, decide_eq_true_eq]
    constructor
    · rintro ⟨m, ⟨hm, hsender, s, hs, hle⟩, hid⟩
      exact ⟨m, hm, hid, hsender, s, hle, hs⟩
    · rintro ⟨m, hm, hid, hsender, s, hle, hs⟩
      exact ⟨m, ⟨hm, hsender, s, hs, hle⟩, hid⟩

/-- What `mark_all_read` writes. -/
structure ReadsAll (w : World) (actor : UserId) (ids : List ConversationId) (w' : World) : Prop where
  settings : ∀ k, w'.conversationSettings.get k = if ∃ id ∈ ids, k = (actor, id) then
    some (((w.conversationSettings.get k).getD (defaultConversationSettings k.2)).readThrough
      (lastSequence w.toStore k.2)) else w.conversationSettings.get k
  positions : ∀ k, w'.readPositions.get k = if ∃ id ∈ ids, k = (actor, id) then
    some (lastSequence w.toStore k.2) else w.readPositions.get k

/-- The conversations `mark_all_read` goes through. -/
theorem mem_readable_ids (hnamed : Named w) :
    id ∈ (w.conversations.values.filter (·.canRead actor)).map (·.id) ↔
      w.readable actor id = true := by
  simp only [List.mem_map, List.mem_filter, Map.mem_values, Store.readable_iff]
  constructor
  · rintro ⟨c, ⟨⟨i, hget⟩, hread⟩, rfl⟩
    exact ⟨c, hnamed i c hget ▸ hget, hread⟩
  · rintro ⟨c, hget, hread⟩
    exact ⟨c, ⟨⟨id, hget⟩, hread⟩, hnamed id c hget⟩

theorem markAllRead_all {x : Unit} (h : (markAllRead env actor now).Runs w x w') :
    ReadsAll w actor ((w.conversations.values.filter (·.canRead actor)).map (·.id)) w' := by
  unfold markAllRead at h
  rw [Tx.runs_get_bind] at h
  obtain ⟨_, w₁, hloop, h⟩ := Tx.runs_bind.mp h
  have hlog := appendEvent_only h
  constructor
  · intro k
    rw [show w'.conversationSettings = w₁.conversationSettings from
      hlog .conversationSettings (by decide)]
    refine (Tx.forEach_upserts (I := fun _ => True) (P := fun id k => k = (actor, id))
      (o := fun w k => w.conversationSettings.get k) (d := fun k => defaultConversationSettings k.2)
      (g := fun k settings => settings.readThrough (lastSequence w.toStore k.2))
      (fun _ _ => rfl) (fun {id s s'} _ hr => ⟨trivial, fun k => ?_⟩) trivial hloop).2 k
    obtain ⟨-, rfl⟩ := hr
    show (Map.upsert ..).get k = _
    rw [Map.get_upsert]
    split
    · subst_vars
      rfl
    · rfl
  · intro k
    rw [show w'.readPositions = w₁.readPositions from hlog .readPositions (by decide)]
    refine (Tx.forEach_upserts (I := fun _ => True) (P := fun id k => k = (actor, id))
      (o := fun w k => w.readPositions.get k) (d := fun _ => 0)
      (g := fun k _ => lastSequence w.toStore k.2)
      (fun _ _ => rfl) (fun {id s s'} _ hr => ⟨trivial, fun k => ?_⟩) trivial hloop).2 k
    obtain ⟨-, rfl⟩ := hr
    show (Map.insert ..).get k = _
    rw [Map.get_insert]
    split
    · subst_vars
      rfl
    · rfl

/-! ## Opening and leaving -/

/-- Every user keeps the settings, also those by default. -/
def SameSettings (w w' : World) : Prop := ∀ u id, w'.settings u id = w.settings u id

instance : IsPreorder World SameSettings where
  refl _ _ _ := rfl
  trans _ _ _ h₁ h₂ u id := (h₂ u id).trans (h₁ u id)

instance : Ignores SameSettings .conversations := ⟨fun _ _ _ _ => rfl⟩

/-- Default settings for who has none. -/
instance keepsSettings_storeConversation {c : Conversation} :
    Tx.Keeps SameSettings (storeConversation c) := by
  have hpass : ∀ userId, Tx.Keeps SameSettings (update .conversationSettings fun w =>
      w.conversationSettings.orInsert (userId, c.id) (defaultConversationSettings c.id)) :=
    fun userId => ⟨fun {w u w'} hr u id => by
      obtain ⟨-, rfl⟩ := hr
      show ((Map.orInsert ..).get (u, id)).getD _ = _
      rw [Map.get_orInsert]
      split
      · rename_i hk
        obtain ⟨rfl, rfl⟩ := Prod.mk.inj hk
        unfold Store.settings
        cases w.conversationSettings.get (u, c.id) <;> rfl
      · rfl⟩
  unfold storeConversation
  infer_instance

theorem createDirect_opens {c : Conversation}
    (h : (createDirect env actor target now).Runs w c w') : SameSettings w w' := by
  unfold createDirect at h
  simp only [Tx.runs_get_bind, Tx.runs_failIf_bind] at h
  obtain ⟨-, h⟩ := h
  split at h
  · simp only [Tx.runs_okOr_bind, Tx.runs_pure] at h
    obtain ⟨_, -, -, rfl⟩ := h
    exact refl w'
  · simp only [Tx.runs_bind (t := newUuid env), newUuid_runs, Tx.runs_ofExcept_bind] at h
    obtain ⟨_, _, ⟨-, rfl⟩, c, -, h⟩ := h
    obtain ⟨_, w₁, hstore, h⟩ := Tx.runs_bind.mp h
    have hrest := (Tx.Keeps.runs (R := Evolves []) h).same .conversationSettings (by decide)
    exact fun u id => (settings_same hrest).trans (Tx.Keeps.runs (R := SameSettings) hstore u id)

theorem createGroup_opens {memberIds : List UserId} {name : String} {c : Conversation}
    (h : (createGroup env actor memberIds name now).Runs w c w') : SameSettings w w' := by
  unfold createGroup at h
  simp only [Tx.runs_get_bind, Tx.runs_failIf_bind, Tx.runs_bind (t := newUuid env), newUuid_runs,
    Tx.runs_ofExcept_bind] at h
  obtain ⟨-, _, _, ⟨-, rfl⟩, _, _, ⟨-, rfl⟩, c, -, h⟩ := h
  obtain ⟨_, w₁, hstore, h⟩ := Tx.runs_bind.mp h
  have hrest := (Tx.Keeps.runs (R := Evolves []) h).same .conversationSettings (by decide)
  exact fun u id => (settings_same hrest).trans (Tx.Keeps.runs (R := SameSettings) hstore u id)

theorem decideFriendRequest_opens {decision : FriendRequestDecision} {r : FriendRequest}
    (h : (decideFriendRequest env actor id decision now).Runs w r w') : SameSettings w w' := by
  unfold decideFriendRequest at h
  simp only [Tx.runs_get_bind, Tx.runs_okOr_bind, Tx.runs_ofExcept_bind, update_bind_runs] at h
  obtain ⟨_, -, request, -, h⟩ := h
  obtain ⟨_, w₁, hwhen, h⟩ := Tx.runs_bind.mp h
  have hrest := (Tx.Keeps.runs (R := Evolves []) h).same .conversationSettings (by decide)
  refine fun u i => (settings_same hrest).trans ?_
  rcases Tx.runs_whenTrue.mp hwhen with ⟨-, hwhen⟩ | ⟨-, rfl⟩
  · unfold befriend at hwhen
    simp only [Tx.runs_ofExcept_bind, update_bind_runs, Tx.forEach, Tx.runs_bind (t := _ >>= _),
      Tx.runs_pure, Tx.runs_bind (t := newUuid env), newUuid_runs] at hwhen
    obtain ⟨_, -, _, _, ⟨-, rfl⟩, _, _, ⟨-, rfl⟩, c, -, hstore⟩ := hwhen
    exact Tx.Keeps.runs (R := SameSettings) hstore u i
  · rfl

theorem updateConversationSettings_settings {request : UpdateConversationSettingsRequest}
    {settings : ConversationSettings}
    (h : (updateConversationSettings env actor i request now).Runs w settings w') :
    w'.conversationSettings =
      w.conversationSettings.insert (actor, i) ((w.settings actor i).apply request) := by
  unfold updateConversationSettings at h
  simp only [Tx.runs_failIf_bind, Tx.runs_get_bind, Tx.runs_okOr_bind, update_bind_runs] at h
  obtain ⟨-, -, _, -, -, h⟩ := h
  exact (Tx.Keeps.runs (R := Evolves []) h).same .conversationSettings (by decide)

theorem leaveGroup_settings {x : Unit} (h : (leaveGroup env actor id now).Runs w x w') :
    w'.conversationSettings = w.conversationSettings.remove (actor, id) := by
  unfold leaveGroup at h
  simp only [Tx.runs_get_bind, Tx.runs_okOr_bind, Tx.runs_ofExcept_bind, Tx.runs_failIf_bind,
    update_bind_runs] at h
  obtain ⟨_, -, _, -, _, -, -, h⟩ := h
  exact (Tx.Keeps.runs (R := Evolves [.conversations, .messages]) h).same .conversationSettings
    (by decide)

theorem removeGroupMember_settings {x : Unit}
    (h : (removeGroupMember env actor id target now).Runs w x w') :
    w'.conversationSettings = w.conversationSettings.remove (target, id) := by
  unfold removeGroupMember at h
  simp only [Tx.runs_get_bind, Tx.runs_okOr_bind, Tx.runs_ofExcept_bind, update_bind_runs] at h
  obtain ⟨_, -, _, -, _, -, h⟩ := h
  exact (Tx.Keeps.runs (R := Evolves [.conversations, .messages]) h).same .conversationSettings
    (by decide)

theorem disbandGroup_settings {x : Unit} (h : (disbandGroup env actor id now).Runs w x w') :
    w'.conversationSettings = w.conversationSettings.retain fun key _ => key.2 != id := by
  unfold disbandGroup at h
  simp only [Tx.runs_get_bind, Tx.runs_okOr_bind, Tx.runs_ofExcept_bind, update_bind_runs] at h
  obtain ⟨_, -, _, -, _, -, h⟩ := h
  exact appendEvent_only h .conversationSettings (by decide)

/-- The new members start over. -/
theorem addGroupMembers_settings {request : AddGroupMembersRequest} {c : Conversation}
    (h : (addGroupMembers env actor id request now).Runs w c w') (u : UserId)
    (i : ConversationId) : w'.conversationSettings.get (u, i) =
      if i = id ∧ u ∈ request.memberIds ∧ w.readable u id = false then
        some (defaultConversationSettings id)
      else w.conversationSettings.get (u, i) := by
  unfold addGroupMembers at h
  simp only [Tx.runs_failIf_bind, Tx.runs_get_bind, Tx.runs_okOr_bind, Tx.runs_ofExcept_bind] at h
  obtain ⟨-, c, hget, _, -, _, -, h⟩ := h
  obtain ⟨_, w₁, hloop, h⟩ := Tx.runs_bind.mp h
  obtain rfl : w = w₁ := Tx.Keeps.runs (R := Eq) hloop
  simp only [Tx.runs_failIf_bind, update_bind_runs] at h
  obtain ⟨-, h⟩ := h
  obtain ⟨_, w₂, hsettings, h⟩ := Tx.runs_bind.mp h
  have hrest := (Tx.Keeps.runs (R := Evolves [.conversations, .messages]) h).same
    .conversationSettings (by decide)
  rw [show w'.conversationSettings = w₂.conversationSettings from hrest,
    (Tx.forEach_upserts (I := fun _ => True) (P := fun memberId k => k = (memberId, id))
      (o := fun w k => w.conversationSettings.get k) (d := fun _ => defaultConversationSettings id)
      (g := fun _ _ => defaultConversationSettings id) (fun _ _ => rfl)
      (fun {memberId s s'} _ hr => ⟨trivial, fun k => ?_⟩) trivial hsettings).2 (u, i)]
  · have hread : w.readable u id = c.canRead u := by
      simp [Store.readable, readableIn, hget]
    refine if_congr ?_ rfl rfl
    rw [hread]
    constructor
    · rintro ⟨v, hv, hk⟩
      obtain ⟨rfl, rfl⟩ := Prod.mk.inj hk
      exact ⟨rfl, Conversation.mem_newMembers.mp hv⟩
    · rintro ⟨rfl, hu, hread⟩
      exact ⟨u, Conversation.mem_newMembers.mpr ⟨hu, hread⟩, rfl⟩
  · obtain ⟨-, rfl⟩ := hr
    exact Map.get_insert ..

theorem decideGroupJoinRequest_settings {requestId : Uuid} {request : DecideGroupJoinRequest}
    {r : GroupJoinRequest} (h : (decideGroupJoinRequest env actor requestId request now).Runs w r w') :
    ∃ pending, w.groupJoinRequests.get requestId = some pending ∧ w'.conversationSettings =
      if request.accept then w.conversationSettings.insert
        (pending.applicantId, pending.conversationId)
        (defaultConversationSettings pending.conversationId)
      else w.conversationSettings := by
  unfold decideGroupJoinRequest at h
  simp only [Tx.runs_get_bind, Tx.runs_okOr_bind, Tx.runs_failIf_bind, Tx.runs_ofExcept_bind] at h
  obtain ⟨pending, hpending, -, _, -, _, -, h⟩ := h
  obtain ⟨_, w₁, hwhen, h⟩ := Tx.runs_bind.mp h
  have hrest := (Tx.Keeps.runs (R := Evolves [.groupJoinRequests, .conversations, .messages])
    h).same .conversationSettings (by decide)
  refine ⟨pending, hpending, (show w'.conversationSettings = w₁.conversationSettings from
    hrest).trans ?_⟩
  rcases Tx.runs_whenTrue.mp hwhen with ⟨haccept, hwhen⟩ | ⟨haccept, rfl⟩
  · obtain ⟨-, rfl⟩ := hwhen
    rw [if_pos haccept]
    rfl
  · rw [if_neg haccept]

/-! ## One transaction -/

theorem settings_of {settings : ConversationSettings}
    (h : w.conversationSettings.get (u, id) = some settings) : w.settings u id = settings := by
  unfold Store.settings
  rw [h]
  rfl

theorem settings_none (h : w.conversationSettings.get (u, id) = none) :
    w.settings u id = defaultConversationSettings id := by
  unfold Store.settings
  rw [h]
  rfl

theorem settings_congr
    (h : w'.conversationSettings.get (u, id) = w.conversationSettings.get (u, id)) :
    w'.settings u id = w.settings u id := by
  unfold Store.settings
  rw [h]

/-- **Settings.** -/
theorem Op.settings {op : Op} (hr : (op.run env).Runs w () w') (hnamed : Named w) (u : UserId)
    (id : ConversationId) : SettingsStep w op u id (w'.settings u id) := by
  have hkept : ∀ {op : Op}, w'.settings u id = w.settings u id →
      SettingsStep w op u id (w'.settings u id) := fun h => h ▸ .kept
  have hdropped : ∀ {op : Op} {gone : Prop} [Decidable gone], (gone → op.Removes u id) →
      (w'.conversationSettings.get (u, id) =
        if gone then none else w.conversationSettings.get (u, id)) →
      SettingsStep w op u id (w'.settings u id) := by
    intro op gone _ hop h
    split at h
    · rw [settings_none h]
      exact .reset (.inl (hop ‹_›))
    · exact hkept (settings_congr h)
  cases op
  case decideFriendRequest actor requestId decision now =>
    obtain ⟨_, hr⟩ := Tx.runs_void.mp hr
    exact hkept (decideFriendRequest_opens hr u id)
  case createDirect actor peer now =>
    obtain ⟨_, hr⟩ := Tx.runs_void.mp hr
    exact hkept (createDirect_opens hr u id)
  case createGroup owner memberIds name now =>
    obtain ⟨_, hr⟩ := Tx.runs_void.mp hr
    exact hkept (createGroup_opens hr u id)
  case updateConversationSettings actor i request now =>
    obtain ⟨_, hr⟩ := Tx.runs_void.mp hr
    have hsettings := updateConversationSettings_settings hr
    by_cases hk : (u, id) = (actor, i)
    · obtain ⟨rfl, rfl⟩ := Prod.mk.inj hk
      rw [settings_of (hsettings ▸ Map.get_insert_self ..)]
      exact .changed rfl
    · exact hkept (settings_congr (by rw [hsettings, Map.get_insert, if_neg hk]))
  case addGroupMembers actor i request now =>
    obtain ⟨_, hr⟩ := Tx.runs_void.mp hr
    have hsettings := addGroupMembers_settings hr u id
    split at hsettings
    · rename_i hnew
      obtain ⟨rfl, hu, hread⟩ := hnew
      rw [settings_of hsettings]
      exact .reset (.inr ⟨rfl, hu, hread⟩)
    · exact hkept (settings_congr hsettings)
  case decideGroupJoinRequest actor requestId request now =>
    obtain ⟨_, hr⟩ := Tx.runs_void.mp hr
    obtain ⟨pending, hpending, hsettings⟩ := decideGroupJoinRequest_settings hr
    split at hsettings
    · rename_i haccept
      by_cases hk : (u, id) = (pending.applicantId, pending.conversationId)
      · obtain ⟨rfl, rfl⟩ := Prod.mk.inj hk
        rw [settings_of (hsettings ▸ Map.get_insert_self ..)]
        exact .reset (.inr ⟨haccept, pending, hpending, rfl, rfl⟩)
      · exact hkept (settings_congr (by rw [hsettings, Map.get_insert, if_neg hk]))
    · exact hkept (settings_congr (by rw [hsettings]))
  case leaveGroup actor i now =>
    obtain ⟨_, hr⟩ := Tx.runs_void.mp hr
    exact hdropped Prod.mk.inj (by rw [leaveGroup_settings hr, Map.get_remove])
  case removeGroupMember actor i target now =>
    obtain ⟨_, hr⟩ := Tx.runs_void.mp hr
    exact hdropped Prod.mk.inj (by rw [removeGroupMember_settings hr, Map.get_remove])
  case disbandGroup actor i now =>
    obtain ⟨_, hr⟩ := Tx.runs_void.mp hr
    refine hdropped (fun h : id = i => h) ?_
    rw [disbandGroup_settings hr, Map.get_retain_key w.conversationSettings (·.2 != i)]
    by_cases hid : id = i <;> simp [hid]
  case deleteAccount actor currentPassword confirmation now =>
    obtain ⟨_, hr⟩ := Tx.runs_void.mp hr
    refine hdropped (fun h : u = actor => h) ?_
    rw [(deleteAccount_deletes hr).conversationSettings,
      Map.get_retain_key w.conversationSettings (·.1 != actor)]
    by_cases hu : u = actor <;> simp [hu]
  case markRead actor i through now =>
    obtain ⟨_, hr⟩ := Tx.runs_void.mp hr
    obtain ⟨hmember, hreads⟩ := markRead_upTo hr
    by_cases hk : (u, id) = (actor, i)
    · obtain ⟨rfl, rfl⟩ := Prod.mk.inj hk
      rw [settings_of (hreads.settings ▸ (Map.get_upsert ..).trans (if_pos rfl))]
      exact .read rfl hmember
    · exact hkept (settings_congr (by rw [hreads.settings, Map.get_upsert, if_neg hk]))
  case markAllRead actor now =>
    obtain ⟨_, hr⟩ := Tx.runs_void.mp hr
    have hsettings := (markAllRead_all hr).settings (u, id)
    split at hsettings
    · rename_i hk
      obtain ⟨i, hi, hk⟩ := hk
      obtain ⟨rfl, rfl⟩ := Prod.mk.inj hk
      rw [settings_of hsettings]
      exact .caughtUp rfl ((mem_readable_ids hnamed).mp hi)
    · exact hkept (settings_congr hsettings)
  all_goals
    exact hkept (settings_same
      (Op.same (f := .conversationSettings) hr (by dsimp only [Op.touches]; decide)))

/-- A new member starts over. -/
theorem Op.reset_settings {op : Op} (hr : (op.run env).Runs w () w') (h : op.Resets w u id) :
    w'.settings u id = defaultConversationSettings id := by
  cases op
  case addGroupMembers actor i request now =>
    obtain ⟨_, hr⟩ := Tx.runs_void.mp hr
    have hsettings := addGroupMembers_settings hr u id
    obtain ⟨rfl, hu, hread⟩ := h
    rw [if_pos ⟨rfl, hu, hread⟩] at hsettings
    exact settings_of hsettings
  case decideGroupJoinRequest actor requestId request now =>
    obtain ⟨_, hr⟩ := Tx.runs_void.mp hr
    obtain ⟨haccept, pending, hpending, rfl, rfl⟩ := h
    obtain ⟨pending', hpending', hsettings⟩ := decideGroupJoinRequest_settings hr
    cases hpending.symm.trans hpending'
    rw [if_pos haccept] at hsettings
    exact settings_of (hsettings ▸ Map.get_insert_self ..)
  all_goals exact h.elim

end

end IamRust
