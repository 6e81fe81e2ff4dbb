import IamRust.L3Service.Reads
import IamRust.L4Properties.AccountKeys
import IamRust.L4Properties.Log

/-!
# What a profile shows

A profile is shown through `visibleProfile`, in every reader and in every event
to somebody else. Two runs are compared: on stores that differ in what a user
hides from a viewer at most, the viewer reads the same and is told the same.

* `Alike`: the viewer cannot tell the two worlds apart by the user's profile.
* `hidden_fields`: the readers and the profile events agree. For a change of the
  privacy settings the fields are those the new settings hide.
* `hidden_until_shown`: Alice opens her gender to her friends, and Bob is told.
-/
namespace IamRust

open Core

def Store.privacyOf (s : Store) (t : UserId) : ProfilePrivacySettings :=
  (s.profilePrivacy.get t).getD .default

/-- The presence is hidden by the settings of the profile or by those of the friendship. -/
def hidesPresence (s : Store) (v t : UserId) : Bool :=
  !canView s v t (s.privacyOf t).presenceVisibility ||
    (s.friendSettings.get (t, v)).any fun settings => !settings.sharePresence

/-- The profiles of `t` agree, but for what is hidden from `v`. -/
structure SameShown (s : Store) (v t : UserId) (p p' : UserProfile) : Prop where
  rest : p' = { p with
    gender := p'.gender
    birthday := p'.birthday
    region := p'.region
    presence := p'.presence
    lastSeenAt := p'.lastSeenAt }
  gender : canView s v t (s.privacyOf t).genderVisibility = true → p'.gender = p.gender
  birthday : canView s v t (s.privacyOf t).birthdayVisibility = true → p'.birthday = p.birthday
  region : canView s v t (s.privacyOf t).regionVisibility = true → p'.region = p.region
  presence : hidesPresence s v t = false → p'.presence = p.presence ∧ p'.lastSeenAt = p.lastSeenAt

/-- The stores agree, but for what the profile of `t` hides from `v`. -/
def SameBut (v t : UserId) (s s' : Store) : Prop :=
  ∃ a p', s.accounts.get t = some a ∧ SameShown s v t a.profile p' ∧
    s' = { s with accounts := s.accounts.insert t { a with profile := p' } }

/-- The payloads of the events addressed to the user. -/
def toldTo (v : UserId) (w : World) : List EventPayload :=
  (addressed w.toStore v).map (·.payload)

def Store.withPrivacy (s : Store) (t : UserId) (settings : ProfilePrivacySettings) : Store :=
  { s with profilePrivacy := s.profilePrivacy.insert t settings }

/-! ## The readers -/

section
variable {s s' : Store} {v t : UserId}

/-- What is shown of a user is read off three maps beside the accounts. -/
structure SameRules (s s' : Store) : Prop where
  friendships : s'.friendships = s.friendships
  profilePrivacy : s'.profilePrivacy = s.profilePrivacy
  friendSettings : s'.friendSettings = s.friendSettings

theorem SameRules.canView (h : SameRules s s') (viewer target : UserId) :
    canView s' viewer target = canView s viewer target := by
  funext visibility
  unfold IamRust.canView areFriends
  rw [h.friendships]

theorem SameRules.privacyOf (h : SameRules s s') : s'.privacyOf = s.privacyOf := by
  funext target
  unfold Store.privacyOf
  rw [h.profilePrivacy]

theorem SameRules.hidesPresence (h : SameRules s s') (viewer target : UserId) :
    hidesPresence s' viewer target = hidesPresence s viewer target := by
  unfold IamRust.hidesPresence
  rw [h.canView, h.privacyOf, h.friendSettings]

theorem SameBut.rules (h : SameBut v t s s') : SameRules s s' := by
  obtain ⟨a, p', -, -, rfl⟩ := h
  exact ⟨rfl, rfl, rfl⟩

theorem visibleProfile_congr (h : SameRules s s') {viewer target : UserId}
    (haccount : s'.accounts.get target = s.accounts.get target) :
    visibleProfile s' viewer target = visibleProfile s viewer target := by
  unfold visibleProfile Store.activeAccount
  rw [haccount, h.canView, h.profilePrivacy, h.friendSettings]

/-- A profile with what is hidden taken out of it. -/
def UserProfile.masked (p : UserProfile) (seesGender seesBirthday seesRegion hides : Bool) :
    UserProfile :=
  let hidden := p.presence == .invisible || hides
  { p with
    gender := if seesGender then p.gender else none
    birthday := if seesBirthday then p.birthday else none
    region := if seesRegion then p.region else none
    presence := if hidden then .offline else p.presence
    lastSeenAt := if hidden then none else p.lastSeenAt }

/-- What is shown to somebody else. -/
theorem visibleProfile_other (hvt : v ≠ t) :
    visibleProfile s v t = (s.activeAccount t).map fun account =>
      account.profile.masked (canView s v t (s.privacyOf t).genderVisibility)
        (canView s v t (s.privacyOf t).birthdayVisibility)
        (canView s v t (s.privacyOf t).regionVisibility) (hidesPresence s v t) := by
  unfold visibleProfile UserProfile.masked hidesPresence Store.privacyOf
  simp only [if_neg hvt, Bool.or_assoc]

theorem SameShown.masked {p p' : UserProfile} (h : SameShown s v t p p') :
    p'.masked (canView s v t (s.privacyOf t).genderVisibility)
        (canView s v t (s.privacyOf t).birthdayVisibility)
        (canView s v t (s.privacyOf t).regionVisibility) (hidesPresence s v t) =
      p.masked (canView s v t (s.privacyOf t).genderVisibility)
        (canView s v t (s.privacyOf t).birthdayVisibility)
        (canView s v t (s.privacyOf t).regionVisibility) (hidesPresence s v t) := by
  obtain ⟨hrest, hgender, hbirthday, hregion, hpresence⟩ := h
  have hif : ∀ {α : Type} {sees : Bool} {x x' : Option α}, (sees = true → x' = x) →
      (if sees then x' else none) = if sees then x else none := by
    intro α sees x x' hx
    cases sees
    · rfl
    · exact hx rfl
  unfold UserProfile.masked
  rw [hrest, hif hgender, hif hbirthday, hif hregion]
  cases hides : hidesPresence s v t with
  | true => simp
  | false => rw [(hpresence hides).1, (hpresence hides).2]

/-- What is hidden makes no difference to what is shown. -/
theorem SameBut.visible (h : SameBut v t s s') (hvt : v ≠ t) (u : UserId) :
    visibleProfile s' v u = visibleProfile s v u := by
  have hrules := h.rules
  obtain ⟨a, p', ha, hshown, hs'⟩ := h
  have haccounts : s'.accounts = s.accounts.insert t { a with profile := p' } := by rw [hs']
  by_cases hu : u = t
  · subst hu
    rw [visibleProfile_other hvt, visibleProfile_other hvt, hrules.canView, hrules.privacyOf,
      hrules.hidesPresence]
    unfold Store.activeAccount
    rw [haccounts, Map.get_insert_self, ha, Option.filter_some, Option.filter_some]
    dsimp only
    cases a.deletedAt.isNone with
    | false => rfl
    | true => exact congrArg some hshown.masked
  · exact visibleProfile_congr hrules (by rw [haccounts, Map.get_insert_ne hu])

theorem SameBut.friends (h : SameBut v t s s') (hvt : v ≠ t) (lowercase : String → String) :
    friends lowercase s' v = friends lowercase s v := by
  have hvisible : visibleProfile s' v = visibleProfile s v := funext (h.visible hvt)
  obtain ⟨a, p', -, -, rfl⟩ := h
  unfold IamRust.friends
  rw [← hvisible]

theorem SameBut.friendRequestProfiles (h : SameBut v t s s') (hvt : v ≠ t)
    (lowercase : String → String) :
    friendRequestProfiles lowercase s' v = friendRequestProfiles lowercase s v := by
  have hvisible : visibleProfile s' v = visibleProfile s v := funext (h.visible hvt)
  obtain ⟨a, p', -, -, rfl⟩ := h
  unfold IamRust.friendRequestProfiles
  rw [← hvisible]

theorem SameBut.searchUserExact (h : SameBut v t s s') (hvt : v ≠ t) (username : String) :
    searchUserExact s' v username = searchUserExact s v username := by
  have hvisible : visibleProfile s' v = visibleProfile s v := funext (h.visible hvt)
  obtain ⟨a, p', -, -, rfl⟩ := h
  unfold IamRust.searchUserExact
  rw [← hvisible]

theorem visibleProfile_isSome {viewer : UserId} :
    (visibleProfile s viewer t).isSome = (s.activeAccount t).isSome := by
  unfold visibleProfile
  rw [Option.isSome_map]

theorem SameBut.active (h : SameBut v t s s') :
    (s'.activeAccount t).isSome = (s.activeAccount t).isSome := by
  obtain ⟨a, p', ha, -, rfl⟩ := h
  unfold Store.activeAccount
  rw [Map.get_insert_self, ha, Option.filter_some, Option.filter_some]
  dsimp only
  cases a.deletedAt.isNone <;> rfl

end

/-! ## The events -/

/-- The viewer cannot tell the two worlds apart by the profile of `t`. -/
structure Alike (v t : UserId) (w w' : World) : Prop where
  active : (w'.activeAccount t).isSome = (w.activeAccount t).isSome
  shown : visibleProfile w'.toStore v t = visibleProfile w.toStore v t
  friendships : w'.friendships = w.friendships
  told : toldTo v w' = toldTo v w

section
variable {env : Env} {w w' w₁ : World} {v t : UserId} {now : DateTime}

theorem SameBut.alike (h : SameBut v t w.toStore w'.toStore) (hvt : v ≠ t) : Alike v t w w' where
  active := h.active
  shown := h.visible hvt t
  friendships := h.rules.friendships
  told := by
    obtain ⟨a, p', -, -, hs'⟩ := h
    unfold toldTo addressed
    rw [hs']

theorem visibleProfile_event {recipients : List UserId} {kind : EventKind}
    {payload : EventPayload} {u : Unit}
    (h : (appendEvent env recipients kind payload now).Runs w u w₁) (viewer : UserId) :
    visibleProfile w₁.toStore viewer t = visibleProfile w.toStore viewer t := by
  have honly := appendEvent_only h
  exact visibleProfile_congr ⟨honly .friendships (by decide), honly .profilePrivacy (by decide),
    honly .friendSettings (by decide)⟩
    (congrArg (Map.get · t) (honly .accounts (by decide)))

/-- An event to the viewer carries the same in both. -/
theorem Alike.event (h : Alike v t w w') {recipients : List UserId} {kind : EventKind}
    {payload payload' : EventPayload} (hp : v ∈ recipients → payload' = payload) {u : Unit}
    (hr : (appendEvent env recipients kind payload now).Runs w u w₁) : ∃ w₁',
    (appendEvent env recipients kind payload' now).Runs w' u w₁' ∧ Alike v t w₁ w₁' := by
  obtain ⟨w₁', hr'⟩ : ∃ w₁', (appendEvent env recipients kind payload' now).Runs w' u w₁' :=
    ⟨_, appendEvent_runs.mpr rfl⟩
  have haccounts : w₁.accounts = w.accounts := appendEvent_only hr .accounts (by decide)
  have haccounts' : w₁'.accounts = w'.accounts := appendEvent_only hr' .accounts (by decide)
  have hfriendships : w₁.friendships = w.friendships :=
    appendEvent_only hr .friendships (by decide)
  have hfriendships' : w₁'.friendships = w'.friendships :=
    appendEvent_only hr' .friendships (by decide)
  refine ⟨w₁', hr', ?_, ?_, ?_, ?_⟩
  · unfold Store.activeAccount
    rw [haccounts, haccounts']
    exact h.active
  · rw [visibleProfile_event hr, visibleProfile_event hr']
    exact h.shown
  · rw [hfriendships, hfriendships']
    exact h.friendships
  · have htold := h.told
    unfold toldTo addressed at htold ⊢
    rw [appendEvent_runs.mp hr, appendEvent_runs.mp hr']
    dsimp only
    rw [List.filter_append, List.filter_append, List.map_append, List.map_append, List.map_append,
      List.map_append, htold]
    congr 1
    by_cases hv : v ∈ recipients
    · rw [hp hv]
      simp [UserEvent.addressedTo, hv]
    · simp [UserEvent.addressedTo, hv]

/-- The loop that shows a profile to friends. -/
theorem Alike.profiles (h : Alike v t w w') {recipients : List UserId} {u : Unit}
    (hr : (Tx.forEach recipients fun recipient => do
      let w ← get
      let visible ← Tx.okOr (visibleProfile w.toStore recipient t) .notFound
      appendEvent env [recipient] .presenceUpdated (.profile visible) now).Runs w u w₁) : ∃ w₁',
    (Tx.forEach recipients fun recipient => do
      let w ← get
      let visible ← Tx.okOr (visibleProfile w.toStore recipient t) .notFound
      appendEvent env [recipient] .presenceUpdated (.profile visible) now).Runs w' u w₁' ∧
    Alike v t w₁ w₁' := by
  induction recipients generalizing w w' with
  | nil =>
    obtain ⟨rfl, rfl⟩ := Tx.runs_pure.mp hr
    exact ⟨w', Tx.runs_pure.mpr ⟨rfl, rfl⟩, h⟩
  | cons recipient recipients ih =>
    obtain ⟨_, w₂, hfirst, hrest⟩ := Tx.runs_bind.mp hr
    simp only [Tx.runs_get_bind, Tx.runs_okOr_bind] at hfirst
    obtain ⟨p, hp, hevent⟩ := hfirst
    obtain ⟨p', hp'⟩ : ∃ p', visibleProfile w'.toStore recipient t = some p' := by
      rw [← Option.isSome_iff_exists, visibleProfile_isSome, h.active, ← visibleProfile_isSome, hp]
      rfl
    have hpayload : v ∈ [recipient] → EventPayload.profile p' = .profile p := by
      intro hv
      rw [← List.mem_singleton.mp hv, h.shown, List.mem_singleton.mp hv, hp] at hp'
      cases hp'
      rfl
    obtain ⟨w₂', hevent', halike⟩ := h.event hpayload hevent
    obtain ⟨w₁', hrest', halike⟩ := ih halike hrest
    refine ⟨w₁', Tx.runs_bind.mpr ⟨(), w₂', ?_, hrest'⟩, halike⟩
    simp only [Tx.runs_get_bind, Tx.runs_okOr_bind]
    exact ⟨p', hp', hevent'⟩

/-- The profile goes to the user as it is, to others as it is shown. -/
theorem Alike.appendProfileEvents (h : Alike v t w w') (hvt : v ≠ t) {profile : UserProfile}
    (profile' : UserProfile) {u : Unit}
    (hr : (appendProfileEvents env t profile now).Runs w u w₁) : ∃ w₁',
    (appendProfileEvents env t profile' now).Runs w' u w₁' ∧ Alike v t w₁ w₁' := by
  unfold IamRust.appendProfileEvents at hr ⊢
  rw [Tx.runs_get_bind] at hr
  obtain ⟨_, w₂, hevent, hrest⟩ := Tx.runs_bind.mp hr
  have hpayload : v ∈ [t] → EventPayload.profile profile' = .profile profile :=
    fun hv => absurd (List.mem_singleton.mp hv) hvt
  obtain ⟨w₂', hevent', halike⟩ := h.event hpayload hevent
  obtain ⟨w₁', hrest', halike⟩ := halike.profiles hrest
  rw [← h.friendships] at hrest'
  exact ⟨w₁', Tx.runs_get_bind.mpr (Tx.runs_bind.mpr ⟨_, w₂', hevent', hrest'⟩), halike⟩

/-- The settings are stored before the profile is shown. -/
theorem Alike.updateProfilePrivacy {settings : ProfilePrivacySettings}
    (h : Alike v t (w.set .profilePrivacy (w.profilePrivacy.insert t settings))
      (w'.set .profilePrivacy (w'.profilePrivacy.insert t settings)))
    (hr : (updateProfilePrivacy env t settings now).Runs w settings w₁) : ∃ w₁',
    (updateProfilePrivacy env t settings now).Runs w' settings w₁' ∧ Alike v t w₁ w₁' := by
  have hfriendships : w'.friendships = w.friendships := h.friendships
  have hactive : (w'.activeAccount t).isNone = (w.activeAccount t).isNone := by
    have hactive : (w'.activeAccount t).isSome = (w.activeAccount t).isSome := h.active
    rw [← Option.not_isSome, hactive, Option.not_isSome]
  unfold IamRust.updateProfilePrivacy at hr ⊢
  simp only [Tx.runs_get_bind, Tx.runs_failIf_bind, update_bind_runs,
    Tx.runs_bind (t := Tx.forEach _ _),
    Tx.runs_bind (t := appendEvent _ _ _ _ _), Tx.runs_pure] at hr ⊢
  obtain ⟨hguard, _, w₂, hloop, _, w₃, hevent, -, rfl⟩ := hr
  obtain ⟨w₂', hloop', halike⟩ := h.profiles hloop
  obtain ⟨w₁', hevent', halike⟩ := halike.event (fun _ => rfl) hevent
  rw [hfriendships, hactive]
  exact ⟨w₁', ⟨hguard, _, w₂', hloop', _, w₁', hevent', trivial, rfl⟩, halike⟩

end

/-- **Hidden fields.** On stores that differ in what `t` hides from `v` at most, `v` reads the same
profiles, and the profile events of `t` tell `v` the same. So do those of a change of the privacy
settings, for what the new settings hide. -/
theorem hidden_fields (lowercase : String → String) (env : Env) (v t : UserId) (hvt : v ≠ t)
    (w w' : World) (now : DateTime) :
    (SameBut v t w.toStore w'.toStore →
      (∀ username, searchUserExact w'.toStore v username = searchUserExact w.toStore v username) ∧
      friends lowercase w'.toStore v = friends lowercase w.toStore v ∧
      friendRequestProfiles lowercase w'.toStore v = friendRequestProfiles lowercase w.toStore v ∧
      ∀ profile profile' w₁, (appendProfileEvents env t profile now).Runs w () w₁ → ∃ w₁',
        (appendProfileEvents env t profile' now).Runs w' () w₁' ∧ toldTo v w₁' = toldTo v w₁) ∧
    ∀ settings, SameBut v t (w.withPrivacy t settings) (w'.withPrivacy t settings) →
      ∀ w₁, (updateProfilePrivacy env t settings now).Runs w settings w₁ → ∃ w₁',
        (updateProfilePrivacy env t settings now).Runs w' settings w₁' ∧
          toldTo v w₁' = toldTo v w₁ := by
  refine ⟨fun h => ⟨h.searchUserExact hvt, h.friends hvt lowercase,
    h.friendRequestProfiles hvt lowercase, fun profile profile' w₁ hr => ?_⟩,
    fun settings h w₁ hr => ?_⟩
  · obtain ⟨w₁', hr', halike⟩ := (h.alike hvt).appendProfileEvents hvt profile' hr
    exact ⟨w₁', hr', halike.told⟩
  · have halike : Alike v t (w.set .profilePrivacy (w.profilePrivacy.insert t settings))
        (w'.set .profilePrivacy (w'.profilePrivacy.insert t settings)) := SameBut.alike h hvt
    obtain ⟨w₁', hr', halike⟩ := halike.updateProfilePrivacy hr
    exact ⟨w₁', hr', halike.told⟩

/-- Nobody is shown the gender. -/
def secretive : ProfilePrivacySettings :=
  { ProfilePrivacySettings.default with genderVisibility := .nobody }

/-- The same world, but for the gender in the profile. -/
def World.withGender (w : World) (t : UserId) (a : Account) (gender : Option String) : World :=
  w.set .accounts (w.accounts.insert t { a with profile := { a.profile with gender := gender } })

theorem sameBut_withGender {w : World} {v t : UserId} {a : Account} {gender : Option String}
    (ha : w.accounts.get t = some a) (hprivacy : (w.privacyOf t).genderVisibility = .nobody) :
    SameBut v t w.toStore (w.withGender t a gender).toStore := by
  refine ⟨a, { a.profile with gender := gender }, ha, ⟨rfl, fun hview => ?_, fun _ => rfl,
    fun _ => rfl, fun _ => ⟨rfl, rfl⟩⟩, rfl⟩
  rw [hprivacy] at hview
  cases hview

/-- Alice, whose gender nobody is shown, also stops showing her region. Bob is told the same,
whatever her gender is. -/
theorem hidden_fields_gender : ∃ (w : World) (a : Account) (w₁ w₁' : World),
    (service Env.numbered).Reachable w ∧ w.accounts.get 1 = some a ∧
    (updateProfilePrivacy Env.numbered 1 { secretive with regionVisibility := .nobody } 0).Runs w
      { secretive with regionVisibility := .nobody } w₁ ∧
    (updateProfilePrivacy Env.numbered 1 { secretive with regionVisibility := .nobody } 0).Runs
      (w.withGender 1 a (some "f")) { secretive with regionVisibility := .nobody } w₁' ∧
    toldTo 4 w₁' = toldTo 4 w₁ := by
  obtain ⟨w, settings, w₁, hw, hr, hp⟩ := reaches_runs Env.numbered
    (aliceAndBob ++ [.updateProfilePrivacy 1 secretive 0])
    (updateProfilePrivacy Env.numbered 1 { secretive with regionVisibility := .nobody } 0)
    (fun w settings _ => (w.accounts.get 1).isSome &&
      settings == { secretive with regionVisibility := .nobody }) (by decide +kernel)
  obtain ⟨haccount, hsettings⟩ := Bool.and_eq_true_iff.mp hp
  obtain rfl := beq_iff_eq.mp hsettings
  obtain ⟨a, ha⟩ := Option.isSome_iff_exists.mp haccount
  have hsame : SameBut 4 1 (w.withPrivacy 1 { secretive with regionVisibility := .nobody })
      ((w.withGender 1 a (some "f")).withPrivacy 1
        { secretive with regionVisibility := .nobody }) := by
    refine sameBut_withGender (w := w.set .profilePrivacy (w.profilePrivacy.insert 1
      { secretive with regionVisibility := .nobody })) ha ?_
    simp [Store.privacyOf, secretive]
  obtain ⟨w₁', hr', htold⟩ := (hidden_fields id Env.numbered 4 1 (by decide) w
    (w.withGender 1 a (some "f")) 0).2 _ hsame w₁ hr
  exact ⟨w, a, w₁, w₁', reachable_of_run hw, ha, hr, hr', htold⟩

def EventPayload.showsGender (gender : String) : EventPayload → Bool
  | .profile p => p.gender == some gender
  | _ => false

/-- Alice gives up her settings: is Bob told that her gender is `f`? -/
def opensGender (w : World) : Option Bool :=
  (updateProfilePrivacy Env.numbered 1 .default 0 w).toOption.map fun r =>
    (toldTo 4 r.2).any (·.showsGender "f")

theorem opensGender_some {w : World} {told : Bool} (h : opensGender w = some told) : ∃ settings w₁,
    (updateProfilePrivacy Env.numbered 1 .default 0).Runs w settings w₁ ∧
    (toldTo 4 w₁).any (·.showsGender "f") = told := by
  obtain ⟨r, hr, htold⟩ := Option.map_eq_some_iff.mp h
  refine ⟨r.1, r.2, ?_, htold⟩
  unfold Tx.Runs
  cases he : updateProfilePrivacy Env.numbered 1 .default 0 w with
  | error e => simp [he, Except.toOption] at hr
  | ok r₀ =>
    simp only [he, Except.toOption, Option.some.injEq] at hr
    rw [hr]

/-- Alice's gender is hidden, then she opens it to her friends: Bob is told which it is. -/
theorem hidden_until_shown : ∃ (w : World) (a : Account) (settings settings' : ProfilePrivacySettings)
    (w₁ w₁' : World),
    (service Env.numbered).Reachable w ∧
    SameBut 4 1 w.toStore (w.withGender 1 a (some "f")).toStore ∧
    (updateProfilePrivacy Env.numbered 1 .default 0).Runs w settings w₁ ∧
    (updateProfilePrivacy Env.numbered 1 .default 0).Runs (w.withGender 1 a (some "f"))
      settings' w₁' ∧
    toldTo 4 w₁' ≠ toldTo 4 w₁ := by
  obtain ⟨w, hw, hp⟩ := reaches Env.numbered
    (aliceAndBob ++ [.updateProfilePrivacy 1 secretive 0])
    (fun w => (w.accounts.get 1).any fun a =>
      decide ((w.privacyOf 1).genderVisibility = .nobody) && opensGender w == some false &&
        opensGender (w.withGender 1 a (some "f")) == some true) (by decide +kernel)
  obtain ⟨a, ha, hp⟩ := (Option.any_eq_true ..).mp hp
  simp only [Bool.and_eq_true, decide_eq_true_eq, beq_iff_eq] at hp
  obtain ⟨⟨hprivacy, hhides⟩, hshows⟩ := hp
  obtain ⟨settings, w₁, hr, hnot⟩ := opensGender_some hhides
  obtain ⟨settings', w₁', hr', htold⟩ := opensGender_some hshows
  refine ⟨w, a, settings, settings', w₁, w₁', reachable_of_run hw, sameBut_withGender ha hprivacy,
    hr, hr', fun heq => ?_⟩
  rw [heq, hnot] at htold
  cases htold

end IamRust
