import IamRust.L4Properties.AccountKeys

/-!
# Friendships

What a transaction does to the requests, the friendships, their settings and the
blocks (`SocialStep`, one constructor for each change).

* `friendship_consent`: a friendship has a request its recipient accepted; a
  request that was decided or cancelled stays so; who is blocked is no friend
  and has no pending request.
* `friendship_single`: one friendship for two users and one settings record each
  way, in the runs in which no request of two friends is accepted.
* `friendship_twice`: two users who request each other and both accept are
  friends twice.
-/
namespace IamRust

open Core

/-- What there is between users. -/
structure Social where
  requests : Map FriendRequestId FriendRequest
  friendships : List Friendship
  settings : Map (UserId × UserId) FriendSettings
  blocks : Finset (UserId × UserId)

def World.social (w : World) : Social where
  requests := w.friendRequests
  friendships := w.friendships
  settings := w.friendSettings
  blocks := w.blocks

/-- The friendship of the two. -/
def Friendship.between (a b : UserId) (now : DateTime) : Friendship :=
  if a < b then ⟨a, b, now⟩ else ⟨b, a, now⟩

def FriendRequest.Between (r : FriendRequest) (a b : UserId) : Prop :=
  (r.senderId = a ∧ r.recipientId = b) ∨ (r.senderId = b ∧ r.recipientId = a)

/-- The settings of a new friendship. -/
def FriendSettings.initial (friend : UserId) : FriendSettings := ⟨friend, none, none, true, true⟩

abbrev friendFields : List Field := [.friendRequests, .friendships, .friendSettings, .blocks]

/-- What the transaction makes of it. -/
inductive SocialStep (env : Env) (w : World) : Op → Social → Prop where
  | same {op} (hop : ∀ f ∈ friendFields, f ∉ op.touches) : SocialStep env w op w.social
  | requested {senderId username message now r}
    (hblocks : (senderId, r.recipientId) ∉ w.blocks ∧ (r.recipientId, senderId) ∉ w.blocks)
    (hnew : FriendRequest.new (env.uuid w.nextUuid) senderId r.recipientId message now = .ok r) :
    SocialStep env w (.sendFriendRequest senderId username message now)
      { w.social with requests := w.friendRequests.insert (env.uuid w.nextUuid) r }
  | rejected {actor id now r} (hget : w.friendRequests.get id = some r)
    (hactor : actor = r.recipientId) (hpending : r.status = .pending) :
    SocialStep env w (.decideFriendRequest actor id .reject now)
      { w.social with requests := w.friendRequests.insert id (r.become .rejected now) }
  | accepted {actor id now r} (hget : w.friendRequests.get id = some r)
    (hactor : actor = r.recipientId) (hpending : r.status = .pending)
    (hne : r.senderId ≠ r.recipientId) :
    SocialStep env w (.decideFriendRequest actor id .accept now)
      { w.social with
        requests := w.friendRequests.insert id (r.become .accepted now)
        friendships := w.friendships ++ [.between r.senderId r.recipientId now]
        settings := (w.friendSettings.insert (r.senderId, r.recipientId)
          (.initial r.recipientId)).insert (r.recipientId, r.senderId) (.initial r.senderId) }
  | configured {actor friendId request now settings}
    (hfriends : areFriends w.toStore actor friendId = true) :
    SocialStep env w (.updateFriendSettings actor friendId request now)
      { w.social with settings := w.friendSettings.insert (actor, friendId) settings }
  | unfriended {actor friendId now} :
    SocialStep env w (.deleteFriend actor friendId now)
      { w.social with
        friendships := withoutFriendship actor friendId w.friendships
        settings := (w.friendSettings.remove (actor, friendId)).remove (friendId, actor) }
  | blocked {actor target now} (hne : actor ≠ target) :
    SocialStep env w (.blockUser actor target now)
      { requests := w.friendRequests.mapValues (·.cancelBetween actor target now)
        friendships := withoutFriendship actor target w.friendships
        settings := (w.friendSettings.remove (actor, target)).remove (target, actor)
        blocks := insert (actor, target) w.blocks }
  | unblocked {actor target now} :
    SocialStep env w (.unblockUser actor target now)
      { w.social with blocks := w.blocks.erase (actor, target) }
  | deleted {actor currentPassword confirmation now} :
    SocialStep env w (.deleteAccount actor currentPassword confirmation now)
      { requests := w.friendRequests.retain fun _ request =>
          request.senderId != actor && request.recipientId != actor
        friendships := w.friendships.filter fun friendship => !friendship.contains actor
        settings := w.friendSettings.retain fun key _ => key.1 != actor && key.2 != actor
        blocks := w.blocks.filter fun pair => pair.1 ≠ actor ∧ pair.2 ≠ actor }

section
variable {env : Env} {w w' : World}

/-- A transaction that writes other fields leaves it alone. -/
theorem social_eq {fs : List Field} (h : Only fs w w')
    (hfs : ∀ f ∈ friendFields, f ∉ fs) :
    w'.social = w.social := by
  have hsame := fun f hf => h f (hfs f hf)
  have h1 : w'.friendRequests = w.friendRequests := hsame .friendRequests (by simp)
  have h2 : w'.friendships = w.friendships := hsame .friendships (by simp)
  have h3 : w'.friendSettings = w.friendSettings := hsame .friendSettings (by simp)
  have h4 : w'.blocks = w.blocks := hsame .blocks (by simp)
  simp [World.social, h1, h2, h3, h4]

theorem social_event {recipients : List UserId} {kind : EventKind} {payload : EventPayload}
    {now : DateTime} {u : Unit} (h : (appendEvent env recipients kind payload now).Runs w u w') :
    w'.social = w.social :=
  social_eq (appendEvent_only h) (by decide)

theorem FriendRequest.new_ok {id : FriendRequestId} {senderId recipientId : UserId}
    {message : String} {now : DateTime} {r : FriendRequest}
    (h : FriendRequest.new id senderId recipientId message now = .ok r) :
    senderId ≠ recipientId ∧ r.id = id ∧ r.senderId = senderId ∧ r.recipientId = recipientId ∧
      r.status = .pending := by
  unfold FriendRequest.new at h
  split at h
  · cases h
  split at h <;> cases h
  exact ⟨‹_›, rfl, rfl, rfl, rfl⟩

theorem sendFriendRequest_social {senderId : UserId} {username message : String} {now : DateTime}
    {r : FriendRequest} (h : (sendFriendRequest env senderId username message now).Runs w r w') :
    SocialStep env w (.sendFriendRequest senderId username message now) w'.social := by
  unfold sendFriendRequest at h
  simp only [Tx.runs_get_bind, Tx.runs_okOr_bind, Tx.runs_failIf_bind,
    Tx.runs_bind (t := newUuid env), newUuid_runs, Tx.runs_ofExcept_bind, update_bind_runs,
    Tx.runs_bind (t := appendEvent _ _ _ _ _), Tx.runs_pure, liftDomain_ok] at h
  obtain ⟨recipientId, -, hblocks, -, _, _, ⟨rfl, rfl⟩, r', hnew, _, w₂, hevent, -, rfl⟩ := h
  obtain ⟨-, hid, -, rfl, -⟩ := FriendRequest.new_ok hnew
  rw [social_event hevent, hid]
  exact .requested (not_or.mp hblocks) hnew

/-- What befriending does, the conversation apart. -/
theorem befriend_social {r : FriendRequest} {now : DateTime} {u : Unit}
    (h : (befriend env r now).Runs w u w') : r.senderId ≠ r.recipientId ∧
      w'.social = { w.social with
        friendships := w.friendships ++ [.between r.senderId r.recipientId now]
        settings := (w.friendSettings.insert (r.senderId, r.recipientId)
          (.initial r.recipientId)).insert (r.recipientId, r.senderId) (.initial r.senderId) } := by
  unfold befriend at h
  simp only [Tx.runs_ofExcept_bind, update_bind_runs, Tx.forEach, Tx.runs_bind (t := _ >>= _),
    Tx.runs_pure, liftDomain_ok] at h
  obtain ⟨friendship, hnew, h⟩ := h
  obtain ⟨hne, rfl⟩ : r.senderId ≠ r.recipientId ∧
      friendship = .between r.senderId r.recipientId now := by
    unfold Friendship.new at hnew
    split at hnew <;> cases hnew
    exact ⟨‹_›, rfl⟩
  refine ⟨hne, ?_⟩
  obtain ⟨_, _, ⟨-, rfl⟩, h⟩ := h
  have hrest := Tx.Keeps.runs (R := Evolves [.conversations, .conversationSettings]) h
  rw [social_eq hrest.only (by decide)]
  rfl

theorem decideFriendRequest_social {actor : UserId} {id : FriendRequestId}
    {decision : FriendRequestDecision} {now : DateTime} {r : FriendRequest}
    (h : (decideFriendRequest env actor id decision now).Runs w r w') :
    SocialStep env w (.decideFriendRequest actor id decision now) w'.social := by
  unfold decideFriendRequest at h
  simp only [Tx.runs_get_bind, Tx.runs_okOr_bind, Tx.runs_ofExcept_bind, update_bind_runs,
    liftDomain_ok] at h
  obtain ⟨request, hget, decided, hdecide, h⟩ := h
  obtain ⟨hactor, hpending, rfl⟩ := decide_ok hdecide
  obtain ⟨_, w₁, hwhen, h⟩ := Tx.runs_bind.mp h
  obtain ⟨_, w₂, hevent, h⟩ := Tx.runs_bind.mp h
  obtain ⟨-, rfl⟩ := Tx.runs_pure.mp h
  rw [social_event hevent]
  cases decision with
  | accept =>
    obtain ⟨hne, hsocial⟩ := befriend_social hwhen
    rw [hsocial]
    exact .accepted hget hactor hpending hne
  | reject =>
    obtain ⟨-, rfl⟩ := Tx.runs_pure.mp hwhen
    exact .rejected hget hactor hpending

theorem updateFriendSettings_social {actor friendId : UserId}
    {request : UpdateFriendSettingsRequest} {now : DateTime} {settings : FriendSettings}
    (h : (updateFriendSettings env actor friendId request now).Runs w settings w') :
    SocialStep env w (.updateFriendSettings actor friendId request now) w'.social := by
  unfold updateFriendSettings at h
  simp only [check_bind_runs, Tx.runs_get_bind, Tx.runs_failIf_bind, update_bind_runs,
    Bool.not_eq_false] at h
  obtain ⟨-, -, hfriends, h⟩ := h
  obtain ⟨_, w₁, hevent, h⟩ := Tx.runs_bind.mp h
  obtain ⟨-, rfl⟩ := Tx.runs_pure.mp h
  rw [social_event hevent]
  exact .configured hfriends

theorem deleteFriend_social {actor friendId : UserId} {now : DateTime} {u : Unit}
    (h : (deleteFriend env actor friendId now).Runs w u w') :
    SocialStep env w (.deleteFriend actor friendId now) w'.social := by
  unfold deleteFriend at h
  simp only [Tx.runs_get_bind, Tx.runs_failIf_bind, update_bind_runs] at h
  rw [social_event h.2]
  exact .unfriended

theorem blockUser_social {actor target : UserId} {now : DateTime} {u : Unit}
    (h : (blockUser env actor target now).Runs w u w') :
    SocialStep env w (.blockUser actor target now) w'.social := by
  unfold blockUser at h
  simp only [Tx.runs_get_bind, Tx.runs_failIf_bind, update_bind_runs] at h
  obtain ⟨hne, -, h⟩ := h
  rw [social_event h]
  exact .blocked hne

theorem unblockUser_social {actor target : UserId} {now : DateTime} {u : Unit}
    (h : (unblockUser env actor target now).Runs w u w') :
    SocialStep env w (.unblockUser actor target now) w'.social := by
  unfold unblockUser at h
  simp only [Tx.runs_get_bind, Tx.runs_failIf_bind, update_bind_runs] at h
  rw [social_event h.2]
  exact .unblocked

theorem deleteAccount_social {actor : UserId} {currentPassword confirmation : String}
    {now : DateTime} {u : Unit}
    (h : (deleteAccount env actor currentPassword confirmation now).Runs w u w') :
    SocialStep env w (.deleteAccount actor currentPassword confirmation now) w'.social := by
  simp only [deleteAccount, deleteAccountInStore, Tx.runs_failIf_bind, Tx.runs_get_bind,
    Tx.runs_okOr_bind] at h
  obtain ⟨-, account, hacc, -, h⟩ := h
  have hget := (activeAccount_some.mp hacc).1
  simp [detachAccountFromConversations, anonymizeAccount, purgeAccountRelationships,
    revokeUserSessions, revokeTokens, appendEvent_runs, hget] at h
  subst h
  exact .deleted

/-- **Friends.** Every transaction takes one of the steps, or none. -/
theorem Op.social {op : Op} (h : (op.run env).Runs w () w') : SocialStep env w op w'.social := by
  cases op
  case sendFriendRequest =>
    obtain ⟨_, hr⟩ := Tx.runs_void.mp h
    exact sendFriendRequest_social hr
  case decideFriendRequest =>
    obtain ⟨_, hr⟩ := Tx.runs_void.mp h
    exact decideFriendRequest_social hr
  case updateFriendSettings =>
    obtain ⟨_, hr⟩ := Tx.runs_void.mp h
    exact updateFriendSettings_social hr
  case deleteFriend =>
    obtain ⟨_, hr⟩ := Tx.runs_void.mp h
    exact deleteFriend_social hr
  case blockUser =>
    obtain ⟨_, hr⟩ := Tx.runs_void.mp h
    exact blockUser_social hr
  case unblockUser =>
    obtain ⟨_, hr⟩ := Tx.runs_void.mp h
    exact unblockUser_social hr
  case deleteAccount =>
    obtain ⟨_, hr⟩ := Tx.runs_void.mp h
    exact deleteAccount_social hr
  all_goals
    rw [social_eq ((Op.evolves env _).runs h).only (by dsimp only [Op.touches]; decide)]
    exact .same (by dsimp only [Op.touches]; decide)

end

/-! ## Pairs of users -/

namespace Friendship

def joins (f : Friendship) (a b : UserId) : Bool := f.contains a && f.contains b

section
variable {f : Friendship} {a b c d : UserId} {now : DateTime}

theorem joins_comm : f.joins a b = f.joins b a := Bool.and_comm ..

theorem joins_iff (hab : a ≠ b) : f.joins a b = true ↔
    (f.lowerUserId = a ∧ f.upperUserId = b) ∨ (f.lowerUserId = b ∧ f.upperUserId = a) := by
  simp only [joins, contains, Bool.and_eq_true, Bool.or_eq_true, beq_iff_eq]
  grind

/-- A friendship joins one pair. -/
theorem joins_same (hab : a ≠ b) (hcd : c ≠ d) (h : f.joins a b = true) (h' : f.joins c d = true) :
    (c = a ∧ d = b) ∨ (c = b ∧ d = a) := by
  rw [joins_iff hab] at h
  rw [joins_iff hcd] at h'
  grind

theorem between_joins (hab : a ≠ b) :
    (between c d now).joins a b = true ↔ (a = c ∧ b = d) ∨ (a = d ∧ b = c) := by
  rw [joins_iff hab]
  unfold between
  split <;> grind

theorem between_distinct (hab : a ≠ b) :
    (between a b now).lowerUserId ≠ (between a b now).upperUserId := by
  unfold between
  split
  · exact hab
  · exact hab.symm

end

end Friendship

/-- The two are friends. -/
def Social.Friends (s : Social) (a b : UserId) : Prop := ∃ f ∈ s.friendships, f.joins a b = true

section
variable {s : Social} {w : World} {a b c d : UserId} {f : Friendship}

theorem areFriends_iff : areFriends w.toStore a b = true ↔ w.social.Friends a b := by
  simp [areFriends, Social.Friends, Friendship.joins, World.social]

theorem Social.Friends.symm (h : s.Friends a b) : s.Friends b a := by
  obtain ⟨f, hf, hj⟩ := h
  exact ⟨f, hf, Friendship.joins_comm.trans hj⟩

theorem mem_withoutFriendship {l : List Friendship} :
    f ∈ withoutFriendship a b l ↔ f ∈ l ∧ f.joins a b = false := by
  unfold withoutFriendship
  rw [List.mem_filter, Bool.not_eq_true']
  rfl

end

/-! ## One friendship, two settings -/

/-- A friendship is between two users, and they have the settings there are. -/
structure Social.Matched (s : Social) : Prop where
  distinct : ∀ f ∈ s.friendships, f.lowerUserId ≠ f.upperUserId
  settings : ∀ a b, (s.settings.get (a, b)).isSome = true ↔ a ≠ b ∧ s.Friends a b

/-- Two users have one friendship at most. -/
def Social.Single (s : Social) : Prop :=
  ∀ a b, a ≠ b → s.friendships.countP (·.joins a b) ≤ 1

/-- No two friends become friends again, and nobody is taken for a friend of their own. -/
def Op.KeepsFriends (w : World) : Op → Prop
  | .decideFriendRequest _ id .accept _ => ∀ r, w.friendRequests.get id = some r →
    areFriends w.toStore r.senderId r.recipientId = false
  | .updateFriendSettings actor friendId _ _ => actor ≠ friendId
  | .deleteFriend actor friendId _ => actor ≠ friendId
  | _ => True

section
variable {env : Env} {w : World} {op : Op} {s : Social} {x y : UserId}

/-- A friendship is ended between the two. -/
theorem Social.Matched.less (h : s.Matched) (hxy : x ≠ y) : Social.Matched { s with
    friendships := withoutFriendship x y s.friendships
    settings := (s.settings.remove (x, y)).remove (y, x) } where
  distinct f hf := h.distinct f (mem_withoutFriendship.mp hf).1
  settings a b := by
    simp only [Map.get_remove, Prod.mk.injEq]
    constructor
    · intro hsome
      split at hsome
      · cases hsome
      split at hsome
      · cases hsome
      · obtain ⟨hab, f, hf, hj⟩ := (h.settings a b).mp hsome
        refine ⟨hab, f, mem_withoutFriendship.mpr ⟨hf, ?_⟩, hj⟩
        by_contra hxyj
        have hsame := Friendship.joins_same hxy hab (Bool.of_not_eq_false hxyj) hj
        grind
    · rintro ⟨hab, f, hf, hj⟩
      obtain ⟨hf, hnot⟩ := mem_withoutFriendship.mp hf
      have hkeys : ¬ (a = y ∧ b = x) ∧ ¬ (a = x ∧ b = y) := by
        constructor
        · rintro ⟨rfl, rfl⟩
          rw [Friendship.joins_comm, hj] at hnot
          cases hnot
        · rintro ⟨rfl, rfl⟩
          rw [hj] at hnot
          cases hnot
      rw [if_neg hkeys.1, if_neg hkeys.2]
      exact (h.settings a b).mpr ⟨hab, f, hf, hj⟩

/-- The settings of two who are still friends. -/
theorem settings_less {a b : UserId}
    (h : Social.Friends { s with friendships := withoutFriendship x y s.friendships } a b) :
    ((s.settings.remove (x, y)).remove (y, x)).get (a, b) = s.settings.get (a, b) := by
  obtain ⟨f, hf, hj⟩ := h
  obtain ⟨hf, hnot⟩ := mem_withoutFriendship.mp hf
  simp only [Map.get_remove, Prod.mk.injEq]
  split
  · rename_i hkey
    obtain ⟨rfl, rfl⟩ := hkey
    rw [Friendship.joins_comm, hj] at hnot
    cases hnot
  split
  · rename_i hkey
    obtain ⟨rfl, rfl⟩ := hkey
    rw [hj] at hnot
    cases hnot
  · rfl

theorem SocialStep.matched (hs : SocialStep env w op s) (h : w.social.Matched)
    (hok : op.KeepsFriends w) : s.Matched := by
  cases hs with
  | same => exact h
  | requested => exact ⟨h.distinct, h.settings⟩
  | rejected => exact ⟨h.distinct, h.settings⟩
  | accepted hget hactor hpending hne =>
    refine ⟨fun f hf => ?_, fun a b => ?_⟩
    · rcases List.mem_append.mp hf with hf | hf
      · exact h.distinct f hf
      · cases List.mem_singleton.mp hf
        exact Friendship.between_distinct hne
    · simp only [Map.get_insert, Prod.mk.injEq]
      constructor
      · intro hsome
        split at hsome
        · rename_i hkey
          obtain ⟨rfl, rfl⟩ := hkey
          exact ⟨hne.symm, _, List.mem_append_right _ (List.mem_singleton.mpr rfl),
            (Friendship.between_joins hne.symm).mpr (.inr ⟨rfl, rfl⟩)⟩
        split at hsome
        · rename_i hkey
          obtain ⟨rfl, rfl⟩ := hkey
          exact ⟨hne, _, List.mem_append_right _ (List.mem_singleton.mpr rfl),
            (Friendship.between_joins hne).mpr (.inl ⟨rfl, rfl⟩)⟩
        · obtain ⟨hab, f, hf, hj⟩ := (h.settings a b).mp hsome
          exact ⟨hab, f, List.mem_append_left _ hf, hj⟩
      · rintro ⟨hab, f, hf, hj⟩
        rcases List.mem_append.mp hf with hf | hf
        · have hold := (h.settings a b).mpr ⟨hab, f, hf, hj⟩
          split
          · rfl
          split
          · rfl
          · exact hold
        · cases List.mem_singleton.mp hf
          rcases (Friendship.between_joins hab).mp hj with hkey | hkey
          · split
            · rfl
            · rfl
          · rw [if_pos hkey]
            rfl
  | configured hfriends =>
    refine ⟨h.distinct, fun a b => ?_⟩
    have hold := h.settings a b
    simp only [Map.get_insert, Prod.mk.injEq]
    split
    · rename_i hkey
      obtain ⟨rfl, rfl⟩ := hkey
      simpa using ⟨hok, areFriends_iff.mp hfriends⟩
    · exact hold
  | unfriended => exact h.less hok
  | blocked hne =>
    have hless := h.less hne
    exact ⟨hless.distinct, hless.settings⟩
  | unblocked => exact ⟨h.distinct, h.settings⟩
  | @deleted actor _ _ _ =>
    refine ⟨fun f hf => h.distinct f (List.mem_of_mem_filter hf), fun a b => ?_⟩
    have hold := h.settings a b
    constructor
    · intro hsome
      rw [Map.get_retain] at hsome
      obtain ⟨v, hv⟩ := Option.isSome_iff_exists.mp hsome
      obtain ⟨hget, hkeep⟩ := Option.filter_eq_some_iff.mp hv
      obtain ⟨hab, f, hf, hj⟩ := hold.mp (Option.isSome_iff_exists.mpr ⟨v, hget⟩)
      refine ⟨hab, f, List.mem_filter.mpr ⟨hf, ?_⟩, hj⟩
      rw [Friendship.joins_iff hab] at hj
      simp only [Bool.and_eq_true, bne_iff_ne] at hkeep
      simp only [Friendship.contains, Bool.not_eq_true', Bool.or_eq_false_iff, beq_eq_false_iff_ne]
      grind
    · rintro ⟨hab, f, hf, hj⟩
      obtain ⟨hf, hnot⟩ := List.mem_filter.mp hf
      have hsome := hold.mpr ⟨hab, f, hf, hj⟩
      obtain ⟨v, hv⟩ := Option.isSome_iff_exists.mp hsome
      rw [Friendship.joins_iff hab] at hj
      simp only [Friendship.contains, Bool.not_eq_true', Bool.or_eq_false_iff,
        beq_eq_false_iff_ne] at hnot
      refine Option.isSome_iff_exists.mpr ⟨v, ?_⟩
      rw [Map.get_retain, Option.filter_eq_some_iff]
      refine ⟨hv, ?_⟩
      simp only [Bool.and_eq_true, bne_iff_ne]
      grind

theorem SocialStep.single (hs : SocialStep env w op s) (h : w.social.Single)
    (hok : op.KeepsFriends w) : s.Single := by
  cases hs with
  | same => exact h
  | requested => exact h
  | rejected => exact h
  | @accepted actor id now r hget hactor hpending hne =>
    intro a b hab
    have hnot := hok r hget
    rw [List.countP_append, List.countP_singleton]
    split
    · rename_i hj
      -- the two had no friendship before
      have hzero : w.friendships.countP (·.joins a b) = 0 := by
        refine List.countP_eq_zero.mpr fun f hf hfj => ?_
        have hfriends : areFriends w.toStore r.senderId r.recipientId = true := by
          rw [areFriends_iff]
          rcases (Friendship.between_joins hab).mp hj with ⟨rfl, rfl⟩ | ⟨rfl, rfl⟩
          · exact ⟨f, hf, hfj⟩
          · exact Social.Friends.symm ⟨f, hf, hfj⟩
        rw [hnot] at hfriends
        cases hfriends
      exact Nat.le_of_eq (by rw [hzero])
    · exact h a b hab
  | configured => exact h
  | unfriended => exact fun a b hab => (List.filter_sublist.countP_le).trans (h a b hab)
  | blocked => exact fun a b hab => (List.filter_sublist.countP_le).trans (h a b hab)
  | unblocked => exact h
  | deleted => exact fun a b hab => (List.filter_sublist.countP_le).trans (h a b hab)

/-- The settings for a friend change by an update of their owner. -/
theorem SocialStep.settings (hs : SocialStep env w op s) (hok : op.KeepsFriends w) {a b : UserId}
    (hab : a ≠ b) (hfriends : w.social.Friends a b) (hstill : s.Friends a b) :
    s.settings.get (a, b) = w.friendSettings.get (a, b) ∨
      ∃ request now, op = .updateFriendSettings a b request now := by
  cases hs with
  | same => exact .inl rfl
  | requested => exact .inl rfl
  | rejected => exact .inl rfl
  | @accepted actor id now r hget hactor hpending hne =>
    refine .inl ?_
    have hnot := hok r hget
    simp only [Map.get_insert, Prod.mk.injEq]
    split
    · rename_i hkey
      obtain ⟨rfl, rfl⟩ := hkey
      rw [areFriends_iff.mpr hfriends.symm] at hnot
      cases hnot
    split
    · rename_i hkey
      obtain ⟨rfl, rfl⟩ := hkey
      rw [areFriends_iff.mpr hfriends] at hnot
      cases hnot
    · rfl
  | configured =>
    simp only [Map.get_insert, Prod.mk.injEq]
    split
    · rename_i hkey
      obtain ⟨rfl, rfl⟩ := hkey
      exact .inr ⟨_, _, rfl⟩
    · exact .inl rfl
  | unfriended => exact .inl (settings_less (s := w.social) hstill)
  | blocked => exact .inl (settings_less (s := w.social) hstill)
  | unblocked => exact .inl rfl
  | @deleted actor _ _ _ =>
    refine .inl ?_
    obtain ⟨f, hf, hj⟩ := hstill
    obtain ⟨-, hnot⟩ := List.mem_filter.mp hf
    rw [Friendship.joins_iff hab] at hj
    simp only [Friendship.contains, Bool.not_eq_true', Bool.or_eq_false_iff,
      beq_eq_false_iff_ne] at hnot
    have hkeep : (a != actor && b != actor) = true := by
      simp only [Bool.and_eq_true, bne_iff_ne]
      grind
    rw [Map.get_retain]
    cases w.friendSettings.get (a, b) with
    | none => rfl
    | some v => exact Option.filter_some_pos hkeep

end

/-! ## Consent -/

/-- A friendship has an accepted request, and a block leaves nothing between the two. -/
structure Social.Consented (s : Social) : Prop where
  accepted : ∀ f ∈ s.friendships, ∃ id r, s.requests.get id = some r ∧ r.status = .accepted ∧
    r.Between f.lowerUserId f.upperUserId
  distinct : ∀ f ∈ s.friendships, f.lowerUserId ≠ f.upperUserId
  blocks : ∀ a b, (a, b) ∈ s.blocks → a ≠ b ∧ ¬ s.Friends a b ∧
    ∀ id r, s.requests.get id = some r → r.Between a b → r.status ≠ .pending

/-- Requests are stored under ids that were drawn. -/
def RequestsDrawn (env : Env) (w : World) : Prop :=
  ∀ id r, w.friendRequests.get id = some r → ∃ k < w.nextUuid, id = env.uuid k

section
variable {env : Env} {w w' : World} {op : Op} {s : Social}

theorem RequestsDrawn.fresh (hu : Function.Injective env.uuid) (h : RequestsDrawn env w) :
    w.friendRequests.get (env.uuid w.nextUuid) = none := by
  cases hget : w.friendRequests.get (env.uuid w.nextUuid) with
  | none => rfl
  | some r =>
    obtain ⟨k, hk, hid⟩ := h _ _ hget
    exact absurd (hu hid) (Nat.ne_of_gt hk)

/-- A request after the step: it is new, it was there as it is, or it was pending. -/
theorem SocialStep.request (hs : SocialStep env w op s) {id : FriendRequestId} {r : FriendRequest}
    (h : s.requests.get id = some r) :
    (id = env.uuid w.nextUuid ∧ r.status = .pending ∧
      ∃ senderId username message now, op = .sendFriendRequest senderId username message now) ∨
    w.friendRequests.get id = some r ∨
    ∃ r₀ status now, w.friendRequests.get id = some r₀ ∧ r₀.status = .pending ∧
      status ≠ .pending ∧ r = r₀.become status now ∧
      (status = .accepted → op = .decideFriendRequest r.recipientId id .accept now) := by
  cases hs with
  | same => exact .inr (.inl h)
  | @requested senderId username message now r' hblocks hnew =>
    rw [Map.get_insert] at h
    split at h
    · cases h
      exact .inl ⟨‹_›, (FriendRequest.new_ok hnew).2.2.2.2, _, _, _, _, rfl⟩
    · exact .inr (.inl h)
  | @rejected actor id' now r' hget hactor hpending =>
    rw [Map.get_insert] at h
    split at h
    · cases h
      subst_vars
      exact .inr (.inr ⟨_, _, _, hget, hpending, by simp, rfl, by simp⟩)
    · exact .inr (.inl h)
  | @accepted actor id' now r' hget hactor hpending hne =>
    rw [Map.get_insert] at h
    split at h
    · cases h
      subst_vars
      exact .inr (.inr ⟨_, _, _, hget, hpending, by simp, rfl, fun _ => rfl⟩)
    · exact .inr (.inl h)
  | configured => exact .inr (.inl h)
  | unfriended => exact .inr (.inl h)
  | @blocked actor target now hne =>
    obtain ⟨r₀, hget, rfl⟩ := Option.map_eq_some_iff.mp ((Map.get_mapValues ..).symm.trans h)
    unfold FriendRequest.cancelBetween
    split
    · exact .inr (.inr ⟨_, _, _, hget, ‹_ ∧ _›.1, by simp, rfl, by simp⟩)
    · exact .inr (.inl hget)
  | unblocked => exact .inr (.inl h)
  | deleted => exact .inr (.inl (Map.get_of_retain h))

theorem Social.Friends.mono {s t : Social} {a b : UserId} (h : s.Friends a b)
    (hsub : s.friendships ⊆ t.friendships) : t.Friends a b := by
  obtain ⟨f, hf, hj⟩ := h
  exact ⟨f, hsub hf, hj⟩

/-- Fewer friendships and no other requests. -/
theorem Social.Consented.less {t : Social} (h : s.Consented)
    (hfriendships : t.friendships ⊆ s.friendships) (hblocks : t.blocks ⊆ s.blocks)
    (hold : ∀ id r, t.requests.get id = some r → s.requests.get id = some r)
    (hkept : ∀ f ∈ t.friendships, ∀ id r, s.requests.get id = some r → r.status = .accepted →
      r.Between f.lowerUserId f.upperUserId → t.requests.get id = some r) : t.Consented where
  accepted f hf := by
    obtain ⟨id, r, hget, hstatus, hbetween⟩ := h.accepted f (hfriendships hf)
    exact ⟨id, r, hkept f hf id r hget hstatus hbetween, hstatus, hbetween⟩
  distinct f hf := h.distinct f (hfriendships hf)
  blocks a b hb := by
    obtain ⟨hab, hnot, hpending⟩ := h.blocks a b (hblocks hb)
    exact ⟨hab, fun hf => hnot (hf.mono hfriendships),
      fun id r hget => hpending id r (hold id r hget)⟩

/-- A request is written over none, or over a pending one. -/
theorem Social.Consented.write {id : FriendRequestId} {r : FriendRequest} (h : s.Consented)
    (hold : ∀ r₀, s.requests.get id = some r₀ → r₀.status ≠ .accepted)
    (hblocks : ∀ a b, (a, b) ∈ s.blocks → r.Between a b → r.status ≠ .pending) :
    Social.Consented { s with requests := s.requests.insert id r } where
  accepted f hf := by
    obtain ⟨id', r', hget, hstatus, hbetween⟩ := h.accepted f hf
    refine ⟨id', r', (Map.get_insert_ne ?_).trans hget, hstatus, hbetween⟩
    rintro rfl
    exact hold r' hget hstatus
  distinct := h.distinct
  blocks a b hb := by
    obtain ⟨hab, hnot, hpending⟩ := h.blocks a b hb
    refine ⟨hab, hnot, fun id' r' hget hbetween => ?_⟩
    rw [Map.get_insert] at hget
    split at hget
    · cases hget
      exact hblocks a b hb hbetween
    · exact hpending id' r' hget hbetween

theorem cancelBetween_status {r : FriendRequest} {a b : UserId} {now : DateTime}
    (h : r.Between a b) : (r.cancelBetween a b now).status ≠ .pending := by
  unfold FriendRequest.cancelBetween
  split
  · simp
  · rename_i hnot
    exact fun hp => hnot ⟨hp, h⟩

theorem cancelBetween_between {r : FriendRequest} {a b c d : UserId} {now : DateTime} :
    (r.cancelBetween a b now).Between c d ↔ r.Between c d := by
  unfold FriendRequest.cancelBetween
  split <;> exact Iff.rfl

theorem cancelBetween_of_decided {r : FriendRequest} {a b : UserId} {now : DateTime}
    (h : r.status ≠ .pending) : r.cancelBetween a b now = r :=
  if_neg fun hc => h hc.1

theorem SocialStep.consented (hs : SocialStep env w op s) (hu : Function.Injective env.uuid)
    (hdrawn : RequestsDrawn env w) (h : w.social.Consented) : s.Consented := by
  cases hs with
  | same => exact h
  | @requested senderId username message now r hblocks hnew =>
    obtain ⟨-, -, hsender, -⟩ := FriendRequest.new_ok hnew
    refine h.write (fun r₀ hget => ?_) fun a b hb hbetween => ?_
    · cases hdrawn.fresh hu ▸ hget
    · rcases hbetween with ⟨ha, hb'⟩ | ⟨hb', ha⟩
      · subst ha hb'
        exact absurd (hsender ▸ hb) hblocks.1
      · subst ha hb'
        exact absurd (hsender ▸ hb) hblocks.2
  | rejected hget hactor hpending =>
    refine h.write (fun r₀ hget' => ?_) fun _ _ _ _ => by simp [FriendRequest.become]
    cases hget.symm.trans hget'
    simp [hpending]
  | @accepted actor id now r hget hactor hpending hne =>
    have hwrite := h.write (r := r.become .accepted now)
      (fun r₀ hget' => by
        cases hget.symm.trans hget'
        simp [hpending])
      fun _ _ _ _ => by simp [FriendRequest.become]
    refine ⟨fun f hf => ?_, fun f hf => ?_, fun a b hb => ?_⟩
    · rcases List.mem_append.mp hf with hf | hf
      · exact hwrite.accepted f hf
      · cases List.mem_singleton.mp hf
        refine ⟨id, _, Map.get_insert_self .., rfl, ?_⟩
        unfold Friendship.between FriendRequest.Between
        split
        · exact .inl ⟨rfl, rfl⟩
        · exact .inr ⟨rfl, rfl⟩
    · rcases List.mem_append.mp hf with hf | hf
      · exact h.distinct f hf
      · cases List.mem_singleton.mp hf
        exact Friendship.between_distinct hne
    · obtain ⟨hab, hnot, hrequests⟩ := hwrite.blocks a b hb
      refine ⟨hab, ?_, hrequests⟩
      rintro ⟨f, hf, hj⟩
      rcases List.mem_append.mp hf with hf | hf
      · exact hnot ⟨f, hf, hj⟩
      · cases List.mem_singleton.mp hf
        -- the request was pending between two of whom one blocks the other
        refine (h.blocks a b hb).2.2 id r hget ?_ hpending
        rcases (Friendship.between_joins hab).mp hj with ⟨rfl, rfl⟩ | ⟨rfl, rfl⟩
        · exact .inl ⟨rfl, rfl⟩
        · exact .inr ⟨rfl, rfl⟩
  | configured => exact ⟨h.accepted, h.distinct, h.blocks⟩
  | unfriended =>
    exact h.less (fun f hf => (mem_withoutFriendship.mp hf).1) (Finset.Subset.refl _)
      (fun _ _ hget => hget) fun _ _ _ _ hget _ _ => hget
  | @blocked actor target now hne =>
    refine ⟨fun f hf => ?_, fun f hf => h.distinct f (mem_withoutFriendship.mp hf).1,
      fun a b hb => ?_⟩
    · obtain ⟨id, r, hget, hstatus, hbetween⟩ := h.accepted f (mem_withoutFriendship.mp hf).1
      have hget : w.friendRequests.get id = some r := hget
      refine ⟨id, r, ?_, hstatus, hbetween⟩
      rw [Map.get_mapValues, hget, Option.map_some, cancelBetween_of_decided (by simp [hstatus])]
    · rcases Finset.mem_insert.mp hb with hb | hb
      · cases hb
        refine ⟨hne, ?_, fun id r hget hbetween => ?_⟩
        · rintro ⟨f, hf, hj⟩
          rw [(mem_withoutFriendship.mp hf).2] at hj
          cases hj
        · obtain ⟨r₀, -, rfl⟩ := Option.map_eq_some_iff.mp ((Map.get_mapValues ..).symm.trans hget)
          exact cancelBetween_status (cancelBetween_between.mp hbetween)
      · obtain ⟨hab, hnot, hpending⟩ := h.blocks a b hb
        refine ⟨hab, fun hf => hnot (hf.mono fun f hf => (mem_withoutFriendship.mp hf).1),
          fun id r hget hbetween => ?_⟩
        obtain ⟨r₀, hget₀, rfl⟩ := Option.map_eq_some_iff.mp ((Map.get_mapValues ..).symm.trans hget)
        have hlive := hpending id r₀ hget₀ (cancelBetween_between.mp hbetween)
        rw [cancelBetween_of_decided hlive]
        exact hlive
  | unblocked =>
    exact h.less (fun _ hf => hf) (Finset.erase_subset _ _) (fun _ _ hget => hget)
      fun _ _ _ _ hget _ _ => hget
  | deleted =>
    refine h.less (fun f hf => List.mem_of_mem_filter hf) (Finset.filter_subset _ _)
      (fun _ _ hget => Map.get_of_retain hget) fun f hf id r hget _ hbetween => ?_
    have hnot := (List.mem_filter.mp hf).2
    simp only [Friendship.contains, Bool.not_eq_true', Bool.or_eq_false_iff,
      beq_eq_false_iff_ne] at hnot
    have hget : w.friendRequests.get id = some r := hget
    rw [Map.get_retain, hget]
    refine Option.filter_some_pos ?_
    simp only [Bool.and_eq_true, bne_iff_ne]
    unfold FriendRequest.Between at hbetween
    grind

/-- Draws are not given back, and a new request takes the next one. -/
theorem SocialStep.drawn (hs : SocialStep env w op w'.social) (hlt : w.nextUuid ≤ w'.nextUuid)
    (hsent : ∀ senderId username message now, op = .sendFriendRequest senderId username message now →
      w.nextUuid < w'.nextUuid) (h : RequestsDrawn env w) : RequestsDrawn env w' := by
  intro id r hget
  rcases hs.request hget with ⟨rfl, -, _, _, _, _, rfl⟩ | hget | ⟨r₀, _, _, hget, -⟩
  · exact ⟨_, hsent _ _ _ _ rfl, rfl⟩
  · obtain ⟨k, hk, hid⟩ := h id r hget
    exact ⟨k, Nat.lt_of_lt_of_le hk hlt, hid⟩
  · obtain ⟨k, hk, hid⟩ := h id r₀ hget
    exact ⟨k, Nat.lt_of_lt_of_le hk hlt, hid⟩

theorem sendFriendRequest_draws {senderId : UserId} {username message : String} {now : DateTime}
    (h : ((Op.sendFriendRequest senderId username message now).run env).Runs w () w') :
    w.nextUuid < w'.nextUuid := by
  obtain ⟨r, h⟩ := Tx.runs_void.mp h
  unfold sendFriendRequest at h
  simp only [Tx.runs_get_bind, Tx.runs_okOr_bind, Tx.runs_failIf_bind,
    Tx.runs_bind (t := newUuid env), newUuid_runs, Tx.runs_ofExcept_bind, update_bind_runs,
    Tx.runs_bind (t := appendEvent _ _ _ _ _), Tx.runs_pure, appendEvent_runs] at h
  obtain ⟨-, -, -, -, _, _, ⟨-, rfl⟩, _, -, _, _, rfl, -, rfl⟩ := h
  exact Nat.lt_succ_of_lt (Nat.lt_succ_self _)

/-- What holds of the requests after the operations `ops`. -/
structure Accepting (env : Env) (ops : List Op) (w : World) : Prop where
  drawn : RequestsDrawn env w
  consented : w.social.Consented
  accepted : ∀ id r, w.friendRequests.get id = some r → r.status = .accepted →
    ∃ now, Op.decideFriendRequest r.recipientId id .accept now ∈ ops
  decided : ∀ actor id now, Op.decideFriendRequest actor id .accept now ∈ ops →
    (∃ k < w.nextUuid, id = env.uuid k) ∧
    ∀ r, w.friendRequests.get id = some r → r.recipientId = actor

theorem Accepting.step {ops : List Op} (h : Accepting env ops w) (hu : Function.Injective env.uuid)
    (hr : (op.run env).Runs w () w') : Accepting env (ops ++ [op]) w' := by
  have hs := Op.social hr
  have hle := ((op.evolves env).runs hr).uuids
  refine ⟨hs.drawn hle ?_ h.drawn, hs.consented hu h.drawn h.consented, ?_, ?_⟩
  · rintro senderId username message now rfl
    exact sendFriendRequest_draws hr
  · intro id r hget hstatus
    rcases hs.request hget with ⟨-, hpending, -⟩ | hget | ⟨r₀, status, now, -, -, -, rfl, hop⟩
    · cases hstatus.symm.trans hpending
    · obtain ⟨now, hm⟩ := h.accepted id r hget hstatus
      exact ⟨now, List.mem_append_left _ hm⟩
    · exact ⟨now, List.mem_append_right _ (List.mem_singleton.mpr (hop hstatus).symm)⟩
  · intro actor id now hm
    -- the request was there before, with the actor as its recipient
    obtain ⟨⟨k, hk, hid⟩, hold⟩ : (∃ k < w.nextUuid, id = env.uuid k) ∧
        ∀ r, w.friendRequests.get id = some r → r.recipientId = actor := by
      rcases List.mem_append.mp hm with hm | hm
      · exact h.decided actor id now hm
      · cases List.mem_singleton.mp hm
        generalize w'.social = s at hs
        cases hs with
        | same hop => exact absurd (hop .friendRequests (by simp)) (by simp [Op.touches])
        | accepted hget hactor =>
          refine ⟨h.drawn _ _ hget, fun r hr => ?_⟩
          cases hget.symm.trans hr
          exact hactor.symm
    refine ⟨⟨k, Nat.lt_of_lt_of_le hk hle, hid⟩, fun r hget => ?_⟩
    rcases hs.request hget with ⟨hnew, -⟩ | hget | ⟨r₀, _, _, hget₀, -, -, rfl, -⟩
    · exact absurd (hu (hid.symm.trans hnew)) (Nat.ne_of_lt hk)
    · exact hold r hget
    · exact hold r₀ hget₀

theorem Accepting.run {ops ops' : List Op} (h : Accepting env ops w)
    (hu : Function.Injective env.uuid) (hr : (service env).Run w ops' w') :
    Accepting env (ops ++ ops') w' := by
  induction hr generalizing ops with
  | nil => simpa using h
  | cons hs _ ih => simpa using ih (h.step hu hs)

theorem accepting_init : Accepting env [] World.init where
  drawn id r hget := by cases (Map.get_empty id).symm.trans hget
  consented :=
    ⟨fun f hf => (nomatch hf), fun f hf => (nomatch hf), fun a b hb => by cases Finset.notMem_empty _ hb⟩
  accepted id r hget := by cases (Map.get_empty id).symm.trans hget
  decided _ _ _ hm := by cases hm

/-- A request under a drawn id that is not pending stays as it is, or goes. -/
theorem SocialStep.final (hs : SocialStep env w op s) (hu : Function.Injective env.uuid)
    {id : FriendRequestId} {k : Nat} (hk : k < w.nextUuid) (hid : id = env.uuid k)
    {status : FriendRequestStatus} (hstatus : status ≠ .pending)
    (h : ∀ r, w.friendRequests.get id = some r → r.status = status) {r : FriendRequest}
    (hget : s.requests.get id = some r) : r.status = status := by
  rcases hs.request hget with ⟨hnew, -⟩ | hget | ⟨r₀, _, _, hget, hpending, -⟩
  · exact absurd (hu (hid.symm.trans hnew)) (Nat.ne_of_lt hk)
  · exact h r hget
  · exact absurd ((h r₀ hget).symm.trans hpending) hstatus

theorem final_run (hu : Function.Injective env.uuid) {ops : List Op}
    (hr : (service env).Run w ops w') {id : FriendRequestId} {k : Nat} (hk : k < w.nextUuid)
    (hid : id = env.uuid k) {status : FriendRequestStatus} (hstatus : status ≠ .pending)
    (h : ∀ r, w.friendRequests.get id = some r → r.status = status) {r : FriendRequest}
    (hget : w'.friendRequests.get id = some r) : r.status = status := by
  induction hr with
  | nil => exact h r hget
  | cons hs _ ih =>
    have hle := ((Op.evolves env _).runs hs).uuids
    exact ih (Nat.lt_of_lt_of_le hk hle)
      (fun r hget => (Op.social hs).final hu hk hid hstatus h hget) hget

/-- **Consent.** Friends have a request that its recipient accepted, and nobody else; a request
that is no longer pending keeps its status; who is blocked is no friend and has nothing pending. -/
theorem friendship_consent (hu : Function.Injective env.uuid) {ops : List Op}
    (hr : (service env).Run World.init ops w) :
    (∀ a b, a ≠ b → areFriends w.toStore a b = true → ∃ id r,
      w.friendRequests.get id = some r ∧ r.status = .accepted ∧ r.Between a b) ∧
    (∀ id r, w.friendRequests.get id = some r → r.status = .accepted → ∀ actor,
      (∃ now, Op.decideFriendRequest actor id .accept now ∈ ops) ↔ actor = r.recipientId) ∧
    (∀ id r, w.friendRequests.get id = some r → r.status ≠ .pending → ∀ ops' w',
      (service env).Run w ops' w' → ∀ r', w'.friendRequests.get id = some r' →
        r'.status = r.status) ∧
    (∀ a b, (a, b) ∈ w.blocks ∨ (b, a) ∈ w.blocks → areFriends w.toStore a b = false ∧
      ∀ id r, w.friendRequests.get id = some r → r.Between a b → r.status ≠ .pending) := by
  have h : Accepting env ops w := accepting_init.run hu hr
  refine ⟨fun a b hab hfriends => ?_, fun id r hget hstatus actor => ⟨?_, ?_⟩,
    fun id r hget hstatus ops' w' hr' r' hget' => ?_, fun a b hb => ?_⟩
  · obtain ⟨f, hf, hj⟩ := areFriends_iff.mp hfriends
    obtain ⟨id, r, hget, hstatus, hbetween⟩ := h.consented.accepted f hf
    refine ⟨id, r, hget, hstatus, ?_⟩
    unfold FriendRequest.Between at hbetween ⊢
    rw [Friendship.joins_iff hab] at hj
    grind
  · rintro ⟨now, hm⟩
    exact ((h.decided actor id now hm).2 r hget).symm
  · rintro rfl
    exact h.accepted id r hget hstatus
  · obtain ⟨k, hk, hid⟩ := h.drawn id r hget
    refine final_run hu hr' hk hid hstatus (fun r₀ hget₀ => ?_) hget'
    cases hget.symm.trans hget₀
    rfl
  · have hboth : ∀ x y, (x, y) ∈ w.blocks → ¬ w.social.Friends x y ∧
        ∀ id r, w.friendRequests.get id = some r → r.Between x y → r.status ≠ .pending :=
      fun x y hxy => (h.consented.blocks x y hxy).2
    rcases hb with hb | hb
    · exact ⟨Bool.eq_false_iff.mpr fun hf => (hboth a b hb).1 (areFriends_iff.mp hf),
        (hboth a b hb).2⟩
    · exact ⟨Bool.eq_false_iff.mpr fun hf => (hboth b a hb).1 (areFriends_iff.mp hf).symm,
        fun id r hget hbetween => (hboth b a hb).2 id r hget hbetween.symm⟩

end

/-- Alice and Bob, who accepted her request. -/
theorem friendship_consent_alice : ∃ w, (service Env.numbered).Run World.init aliceAndBob w ∧
    areFriends w.toStore 1 4 = true ∧ ∃ id r, w.friendRequests.get id = some r ∧
      r.status = .accepted ∧ r.Between 1 4 := by
  obtain ⟨w, hw, hfriends⟩ := reaches Env.numbered aliceAndBob
    (fun w => areFriends w.toStore 1 4) (by decide +kernel)
  exact ⟨w, hw, hfriends,
    (friendship_consent Env.numbered_injective hw).1 1 4 (by decide) hfriends⟩

/-! ## The runs that make friends once -/

theorem friendship_inductive (env : Env) :
    ((service env).restrict fun w op => op.KeepsFriends w).Inductive
      fun w => w.social.Matched ∧ w.social.Single where
  init w hw := by
    have hw : w = World.init := hw
    subst hw
    refine ⟨⟨fun f hf => (nomatch hf), fun a b => ?_⟩, fun a b _ => Nat.zero_le _⟩
    constructor
    · intro hsome
      have hnone : World.init.social.settings.get (a, b) = none := Map.get_empty _
      rw [hnone] at hsome
      cases hsome
    · rintro ⟨-, f, hf, -⟩
      cases hf
  step w op w' h hstep := by
    have hs := Op.social hstep.2
    exact ⟨hs.matched h.1 hstep.1, hs.single h.2 hstep.1⟩

/-- **One friendship, two settings.** If no two friends become friends again, and nobody updates
or deletes themselves as a friend. -/
theorem friendship_single {env : Env} {w : World}
    (h : ((service env).restrict fun w op => op.KeepsFriends w).Reachable w) :
    (∀ a b, a ≠ b → w.friendships.countP (·.joins a b) ≤ 1) ∧
    (∀ a b, (w.friendSettings.get (a, b)).isSome = true ↔
      a ≠ b ∧ areFriends w.toStore a b = true) ∧
    (∀ (op : Op) w', op.KeepsFriends w → (op.run env).Runs w () w' → ∀ a b, a ≠ b →
      areFriends w.toStore a b = true → areFriends w'.toStore a b = true →
      w'.friendSettings.get (a, b) = w.friendSettings.get (a, b) ∨
        ∃ request now, op = .updateFriendSettings a b request now) := by
  obtain ⟨hmatched, hsingle⟩ := (friendship_inductive env).reachable h
  refine ⟨hsingle, fun a b => ?_, fun op w' hok hr a b hab hfriends hstill => ?_⟩
  · rw [areFriends_iff]
    exact hmatched.settings a b
  · exact (Op.social hr).settings hok hab (areFriends_iff.mp hfriends) (areFriends_iff.mp hstill)

/-- Alice and Bob become friends once. -/
theorem friendship_single_alice : ∃ w,
    ((service Env.numbered).restrict fun w op => op.KeepsFriends w).Reachable w ∧
    w.friendships.countP (·.joins 1 4) = 1 ∧ w.friendships.countP (·.joins 1 4) ≤ 1 := by
  obtain ⟨w, hw, hp⟩ := @reaches_checked Env.numbered (fun w op => op.KeepsFriends w)
    (fun w op => match op with
      | .decideFriendRequest _ id .accept _ => (w.friendRequests.get id).all fun r =>
        !areFriends w.toStore r.senderId r.recipientId
      | .updateFriendSettings actor friendId _ _ => actor != friendId
      | .deleteFriend actor friendId _ => actor != friendId
      | _ => true)
    (fun w op h => by
      unfold Op.KeepsFriends
      split at h
      · intro r hget
        simpa [hget] using h
      · simpa using h
      · simpa using h
      · trivial)
    aliceAndBob (fun w => w.friendships.countP (·.joins 1 4) == 1) (by decide +kernel)
  exact ⟨w, hw, eq_of_beq hp, (friendship_single hw).1 1 4 (by decide)⟩

/-- Alice and Bob request each other, and each accepts. -/
theorem friendship_twice : ∃ w a b, (service Env.numbered).Reachable w ∧ a ≠ b ∧
    1 < w.friendships.countP (·.joins a b) := by
  obtain ⟨w, hw, hp⟩ := reaches Env.numbered [.register alice 0, .register bob 0,
      .sendFriendRequest 1 "bob" "" 0, .sendFriendRequest 4 "alice" "" 0,
      .decideFriendRequest 4 7 .accept 0, .decideFriendRequest 1 9 .accept 0]
    (fun w => decide (1 < w.friendships.countP (·.joins 1 4))) (by decide +kernel)
  exact ⟨w, 1, 4, reachable_of_run hw, by decide, of_decide_eq_true hp⟩

end IamRust
