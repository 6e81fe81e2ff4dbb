import IamRust.L4Properties.Announcements
import IamRust.L4Properties.Profiles

/-!
# What a block hides

The search looks at the blocks; the friend list, the request list and the
profile events do not, they rely on what a block takes away. It takes away the
friendship and cancels the pending requests, but it keeps the requests, and the
request list shows the profiles of both sides whatever the status.

* `blocked_hidden`: in the runs in which nobody blocks a user they have a
  request with, neither is shown the profile of the other.
* `blocked_shown`: Bob blocks Alice, his friend until then, and each is still
  shown the profile of the other.
-/
namespace IamRust

open Core

/-- Between two users of whom one blocks the other there is no friendship and no request. -/
def Social.Shielded (s : Social) : Prop :=
  ∀ a b, (a, b) ∈ s.blocks → a ≠ b ∧ ¬ s.Friends a b ∧
    ∀ id r, s.requests.get id = some r → ¬ r.Between a b

/-- A user is blocked only by those they have no request with. -/
def Op.BlocksStrangers (w : World) : Op → Prop
  | .blockUser actor target _ => ∀ id r, w.friendRequests.get id = some r → ¬ r.Between actor target
  | _ => True

section
variable {env : Env} {w w' : World} {op : Op} {s : Social} {a b : UserId}

theorem Social.Shielded.less {t : Social} (h : s.Shielded)
    (hfriendships : t.friendships ⊆ s.friendships) (hblocks : t.blocks ⊆ s.blocks)
    (hrequests : ∀ id r, t.requests.get id = some r → s.requests.get id = some r) :
    t.Shielded := by
  intro a b hb
  obtain ⟨hab, hnot, hnone⟩ := h a b (hblocks hb)
  exact ⟨hab, fun hf => hnot (hf.mono hfriendships), fun id r hget => hnone id r (hrequests id r hget)⟩

/-- A request is written whose sides do not block each other. -/
theorem Social.Shielded.write {id : FriendRequestId} {r : FriendRequest} (h : s.Shielded)
    (hr : ∀ a b, (a, b) ∈ s.blocks → ¬ r.Between a b) :
    Social.Shielded { s with requests := s.requests.insert id r } := by
  intro a b hb
  obtain ⟨hab, hnot, hnone⟩ := h a b hb
  refine ⟨hab, hnot, fun id' r' hget => ?_⟩
  rw [Map.get_insert] at hget
  split at hget
  · cases hget
    exact hr a b hb
  · exact hnone id' r' hget

theorem SocialStep.shielded (hs : SocialStep env w op s) (hok : op.BlocksStrangers w)
    (h : w.social.Shielded) : s.Shielded := by
  cases hs with
  | same => exact h
  | requested hblocks hnew =>
    obtain ⟨-, -, hsender, -⟩ := FriendRequest.new_ok hnew
    refine h.write fun a b hb hbetween => ?_
    rcases hbetween with ⟨rfl, rfl⟩ | ⟨rfl, rfl⟩
    · exact hblocks.1 (hsender ▸ hb)
    · exact hblocks.2 (hsender ▸ hb)
  | @rejected _ _ now r hget =>
    refine h.write (r := r.become .rejected now) fun a b hb => ?_
    have hnone := (h a b hb).2.2 _ _ hget
    exact hnone
  | @accepted _ _ now r hget =>
    have hnone : ∀ a b, (a, b) ∈ w.blocks → ¬ (r.become .accepted now).Between a b :=
      fun a b hb => (h a b hb).2.2 _ r hget
    intro a b hb
    obtain ⟨hab, hnot, hrequests⟩ := h.write hnone a b hb
    refine ⟨hab, ?_, hrequests⟩
    rintro ⟨f, hf, hj⟩
    rcases List.mem_append.mp hf with hf | hf
    · exact hnot ⟨f, hf, hj⟩
    · cases List.mem_singleton.mp hf
      refine (h a b hb).2.2 _ _ hget ?_
      rcases (Friendship.between_joins hab).mp hj with ⟨rfl, rfl⟩ | ⟨rfl, rfl⟩
      · exact .inl ⟨rfl, rfl⟩
      · exact .inr ⟨rfl, rfl⟩
  | configured => exact h
  | unfriended =>
    exact h.less (fun f hf => (mem_withoutFriendship.mp hf).1) (Finset.Subset.refl _)
      fun _ _ hget => hget
  | @blocked actor target now hne =>
    have hrequest : ∀ id r, (w.friendRequests.mapValues (·.cancelBetween actor target now)).get id =
        some r → ∃ r₀, w.friendRequests.get id = some r₀ ∧ ∀ c d, r.Between c d ↔ r₀.Between c d := by
      intro id r hget
      obtain ⟨r₀, hget₀, rfl⟩ := Option.map_eq_some_iff.mp ((Map.get_mapValues ..).symm.trans hget)
      exact ⟨r₀, hget₀, fun c d => cancelBetween_between⟩
    intro a b hb
    rcases Finset.mem_insert.mp hb with hb | hb
    · cases hb
      refine ⟨hne, ?_, fun id r hget => ?_⟩
      · rintro ⟨f, hf, hj⟩
        rw [(mem_withoutFriendship.mp hf).2] at hj
        cases hj
      · obtain ⟨r₀, hget₀, hiff⟩ := hrequest id r hget
        rw [hiff]
        exact hok id r₀ hget₀
    · obtain ⟨hab, hnot, hnone⟩ := h a b hb
      refine ⟨hab, fun hf => hnot (hf.mono fun f hf => (mem_withoutFriendship.mp hf).1),
        fun id r hget => ?_⟩
      obtain ⟨r₀, hget₀, hiff⟩ := hrequest id r hget
      rw [hiff]
      exact hnone id r₀ hget₀
  | unblocked => exact h.less (fun _ hf => hf) (Finset.erase_subset _ _) fun _ _ hget => hget
  | deleted =>
    exact h.less (fun f hf => List.mem_of_mem_filter hf) (Finset.filter_subset _ _)
      fun _ _ hget => Map.get_of_retain hget

end

/-- The runs in which nobody blocks a user they have a friend request with. -/
def wardedService (env : Env) : LTS World Op :=
  (service env).restrict fun w op => op.BlocksStrangers w

theorem shielded_inductive (env : Env) : (wardedService env).Inductive fun w => w.social.Shielded where
  init w hw a b hb := by
    have hw : w = World.init := hw
    subst hw
    cases hb
  step _ _ _ h hstep := (Op.social hstep.2).shielded hstep.1 h

section
variable {env : Env} {lowercase : String → String} {w w' : World} {op : Op} {a b : UserId}

/-! ## The readers -/

theorem visibleProfile_ne {u : UserId} {p : UserProfile} (hw : Identified w)
    (h : visibleProfile w.toStore a u = some p) (hne : u ≠ b) : p.id ≠ b := by
  obtain ⟨account, hget, hid⟩ := visibleProfile_id h
  rw [hid, hw _ _ hget]
  exact hne

theorem searchUserExact_hides {username : String} {p : UserProfile} (hw : Identified w)
    (hblocked : (a, b) ∈ w.blocks ∨ (b, a) ∈ w.blocks)
    (h : searchUserExact w.toStore a username = some p) : p.id ≠ b := by
  obtain ⟨u, hu, hp⟩ := Option.bind_eq_some_iff.mp h
  obtain ⟨-, hfilter⟩ := Option.filter_eq_some_iff.mp hu
  simp only [decide_eq_true_eq] at hfilter
  refine visibleProfile_ne hw hp ?_
  rintro rfl
  rcases hblocked with hb | hb
  · exact hfilter.2.1 hb
  · exact hfilter.2.2 hb

theorem friends_hides {p : UserProfile} (hw : Identified w) (hnot : ¬ w.social.Friends a b)
    (h : p ∈ friends lowercase w.toStore a) : p.id ≠ b := by
  simp only [friends, mem_sortByKey, List.mem_filterMap, Finset.mem_sort, List.mem_toFinset] at h
  obtain ⟨u, ⟨f, hf, hpeer⟩, hp⟩ := h
  refine visibleProfile_ne hw hp ?_
  rintro rfl
  refine hnot ⟨f, hf, ?_⟩
  unfold Friendship.peer at hpeer
  simp only [Friendship.joins, Friendship.contains]
  grind

theorem friendRequestProfiles_hides {p : UserProfile} (hw : Identified w)
    (hnone : ∀ id r, w.friendRequests.get id = some r → ¬ r.Between a b)
    (h : p ∈ friendRequestProfiles lowercase w.toStore a) : p.id ≠ b := by
  simp only [friendRequestProfiles, mem_sortByKey, List.mem_filterMap, Finset.mem_sort,
    List.mem_toFinset] at h
  obtain ⟨u, ⟨r, hr, hpeer⟩, hp⟩ := h
  obtain ⟨id, hget⟩ := Map.mem_values.mp hr
  refine visibleProfile_ne hw hp ?_
  rintro rfl
  refine hnone id r hget ?_
  unfold FriendRequest.peer at hpeer
  unfold FriendRequest.Between
  grind

/-- Whatever its status, a request shows its sides to each other. -/
theorem friendRequestProfiles_shows {id : FriendRequestId} {r : FriendRequest} {p : UserProfile}
    (hget : w.friendRequests.get id = some r) (hpeer : r.peer a = some b)
    (hp : visibleProfile w.toStore a b = some p) :
    p ∈ friendRequestProfiles lowercase w.toStore a := by
  simp only [friendRequestProfiles, mem_sortByKey, List.mem_filterMap, Finset.mem_sort,
    List.mem_toFinset]
  exact ⟨b, ⟨r, Map.mem_values.mpr ⟨id, hget⟩, hpeer⟩, hp⟩

theorem profile_hides {p : UserProfile} (hw : Identified w) (hab : a ≠ b)
    (h : profile w.toStore a = .ok p) : p.id ≠ b := by
  unfold profile at h
  split at h
  · cases h
  · rename_i account haccount
    cases h
    rw [hw _ _ (activeAccount_some.mp haccount).1]
    exact hab

/-! ## The events -/

/-- A profile is told to its user and to friends. -/
theorem Announced.profile_hides {recipients : Finset UserId} {p : UserProfile} (hw : Identified w')
    (h : Announced w w' op recipients (.profile p)) (hp : p.id = b) (hab : a ≠ b)
    (hnot : ¬ w.social.Friends a b) : a ∉ recipients := by
  cases h with
  | profile hop hget hid hr =>
    have hactor : _ = b := (hw _ _ hget).symm.trans (hid.symm.trans hp)
    subst hactor
    rw [Finset.mem_singleton]
    rintro rfl
    rcases hr with rfl | ⟨f, hf, hcontains, rfl⟩
    · exact hab rfl
    · refine hnot ⟨f, hf, ?_⟩
      unfold Friendship.other at hab ⊢
      unfold Friendship.joins
      unfold Friendship.contains at hcontains ⊢
      grind
  | members _ hconcerns => exact hconcerns.elim

/-- A block stays while profiles are told. -/
theorem blocks_of_profile {recipients : Finset UserId} {p : UserProfile}
    (hr : (op.run env).Runs w () w') (h : Announced w w' op recipients (.profile p)) :
    w'.blocks = w.blocks := by
  cases h with
  | profile hop =>
    refine Op.same hr (f := .blocks) ?_
    cases op <;> simp_all [Op.shows] <;> simp [Op.touches]
  | members _ hconcerns => exact hconcerns.elim

end

/-- **Blocked users are hidden.** In such a run, while one of two users blocks the other, none of
the four readers called by `a` returns the profile of `b`, and no step that starts or ends in the
store tells it to `a`. -/
theorem blocked_hidden (env : Env) (lowercase : String → String) (w : World)
    (hw : (wardedService env).Reachable w) (a b : UserId)
    (hblocked : (a, b) ∈ w.blocks ∨ (b, a) ∈ w.blocks) :
    (∀ username p, searchUserExact w.toStore a username = some p → p.id ≠ b) ∧
    (∀ p ∈ friends lowercase w.toStore a, p.id ≠ b) ∧
    (∀ p ∈ friendRequestProfiles lowercase w.toStore a, p.id ≠ b) ∧
    (∀ r, bootstrap lowercase w.toStore a = .ok r → r.profile.id ≠ b ∧
      (∀ p ∈ r.friends, p.id ≠ b) ∧ ∀ p ∈ r.friendRequestProfiles, p.id ≠ b) ∧
    (∀ (op : Op) w', (op.run env).Runs w () w' → ∀ e ∈ w'.events.drop w.events.length, ∀ p,
      e.event.payload = .profile p → p.id = b → a ∉ e.recipients) ∧
    ∀ w₀ (op : Op), (wardedService env).Reachable w₀ → (op.run env).Runs w₀ () w →
      ∀ e ∈ w.events.drop w₀.events.length, ∀ p,
        e.event.payload = .profile p → p.id = b → a ∉ e.recipients := by
  have hshielded : ∀ {w : World}, (wardedService env).Reachable w →
      (a, b) ∈ w.blocks ∨ (b, a) ∈ w.blocks → a ≠ b ∧ ¬ w.social.Friends a b ∧
        ∀ id r, w.friendRequests.get id = some r → ¬ r.Between a b := by
    intro w hw hblocked
    have h := (shielded_inductive env).reachable hw
    rcases hblocked with hb | hb
    · exact h a b hb
    · obtain ⟨hne, hnot, hnone⟩ := h b a hb
      exact ⟨hne.symm, fun hf => hnot hf.symm, fun id r hget hr => hnone id r hget hr.symm⟩
  have hidentified : ∀ {w : World}, (service env).Reachable w → Identified w :=
    fun h => (identified_inductive env).reachable h
  have hevents : ∀ {w w' : World} {op : Op}, (service env).Reachable w → a ≠ b →
      ¬ w.social.Friends a b → (op.run env).Runs w () w' →
      ∀ e ∈ w'.events.drop w.events.length, ∀ p, e.event.payload = .profile p → p.id = b →
        a ∉ e.recipients := by
    intro w w' op hw hne hnot hr e he p hp hid
    have hannounced := (op.announced ((named_inductive env).reachable hw) hr).appended e he
    rw [hp] at hannounced
    exact hannounced.profile_hides (hidentified (hw.step hr)) hid hne hnot
  have hself := hidentified hw.of_restrict
  obtain ⟨hne, hnot, hnone⟩ := hshielded hw hblocked
  refine ⟨fun _ _ h => searchUserExact_hides hself hblocked h, fun _ h => friends_hides hself hnot h,
    fun _ h => friendRequestProfiles_hides hself hnone h, fun r h => ?_,
    fun op w' hr => hevents hw.of_restrict hne hnot hr, fun w₀ op hw₀ hr e he p hp hid => ?_⟩
  · unfold bootstrap at h
    cases hp : profile w.toStore a with
    | error e =>
      rw [hp] at h
      cases h
    | ok p =>
      rw [hp] at h
      cases h
      exact ⟨profile_hides hself hne hp, fun _ h => friends_hides hself hnot h,
        fun _ h => friendRequestProfiles_hides hself hnone h⟩
  · have hannounced :=
      (op.announced ((named_inductive env).reachable hw₀.of_restrict) hr).appended e he
    rw [hp] at hannounced
    rw [blocks_of_profile hr hannounced] at hblocked
    obtain ⟨-, hnot₀, -⟩ := hshielded hw₀ hblocked
    exact hevents hw₀.of_restrict hne hnot₀ hr e he p hp hid

/-- Alice blocks Bob, to whom she never sent a request. -/
theorem blocked_hidden_alice : ∃ w, (wardedService Env.numbered).Reachable w ∧ (1, 4) ∈ w.blocks ∧
    (∀ username p, searchUserExact w.toStore 4 username = some p → p.id ≠ 1) ∧
    (∀ p ∈ friends id w.toStore 4, p.id ≠ 1) ∧
    ∀ p ∈ friendRequestProfiles id w.toStore 4, p.id ≠ 1 := by
  obtain ⟨w, hw, hp⟩ := reaches_checked Env.numbered
    (fun w op => match op with
      | .blockUser _ _ _ => w.friendRequests.values.isEmpty
      | _ => true)
    (fun w op h => show op.BlocksStrangers w by
      cases op
      case blockUser actor target now =>
        intro id r hget hbetween
        have hmem := Map.mem_values.mpr ⟨id, hget⟩
        rw [List.isEmpty_iff.mp h] at hmem
        cases hmem
      all_goals trivial)
    [.register alice 0, .register bob 0, .blockUser 1 4 0]
    (fun w => decide ((1, 4) ∈ w.blocks)) (by decide +kernel)
  have hblocked := of_decide_eq_true hp
  obtain ⟨hsearch, hfriends, hrequests, -⟩ :=
    blocked_hidden Env.numbered id w hw 4 1 (.inr hblocked)
  exact ⟨w, hw, hblocked, hsearch, hfriends, hrequests⟩

/-- Bob and Alice were friends, and he blocks her: each is shown the other's profile with the
request that once made them friends. -/
theorem blocked_shown : ∃ w, (service Env.numbered).Reachable w ∧ (4, 1) ∈ w.blocks ∧
    (∃ p ∈ friendRequestProfiles id w.toStore 1, p.id = 4) ∧
    ∃ p ∈ friendRequestProfiles id w.toStore 4, p.id = 1 := by
  obtain ⟨w, hw, hp⟩ := reaches Env.numbered (aliceAndBob ++ [.blockUser 4 1 0])
    (fun w => decide ((4, 1) ∈ w.blocks) && (w.friendRequests.get 7).any (fun r =>
      r.peer 1 == some 4 && r.peer 4 == some 1) &&
      (visibleProfile w.toStore 1 4).any (·.id == 4) &&
      (visibleProfile w.toStore 4 1).any (·.id == 1)) (by decide +kernel)
  simp only [Bool.and_eq_true, decide_eq_true_eq, Option.any_eq_true, beq_iff_eq] at hp
  obtain ⟨⟨⟨hblocked, r, hget, hbob, halice⟩, p, hp, hid⟩, q, hq, hqid⟩ := hp
  exact ⟨w, reachable_of_run hw, hblocked, ⟨p, friendRequestProfiles_shows hget hbob hp, hid⟩,
    q, friendRequestProfiles_shows hget halice hq, hqid⟩

end IamRust
