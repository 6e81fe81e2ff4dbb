import IamRust.L4Properties.AccountSteps

/-!
# What becomes of a profile

A profile is changed by a password login, by the first connection of a user
opening and the last one closing, by `update_profile` and by the deletion of the
account (`ProfileStep`); every other transaction leaves it as it is
(`Op.profile`). The preferred presence is a map of its own
(`Op.preferredPresence`).

`Shown P`: every stored profile's id and avatar meet `P`. No operation but
`update_profile` gives a profile an avatar, and none changes its id
(`Shown.step`). The id of a profile is the key of its account
(`identified_inductive`).
-/
namespace IamRust

open Core

/-! ## The changes -/

/-- The preferred presence of a user after the transaction. -/
def Op.preferred (env : Env) (w : World) (op : Op) (u : UserId) : Option Presence :=
  match op with
  | .register _ _ => if u = env.uuid w.nextUuid then some .online else w.preferredPresence.get u
  | .updateProfile actor input _ _ =>
    if u = actor then input.presence.or (w.preferredPresence.get u) else w.preferredPresence.get u
  | .deleteAccount actor _ _ _ => if u = actor then none else w.preferredPresence.get u
  | _ => w.preferredPresence.get u

/-- What a transaction makes of a profile. -/
inductive ProfileStep (env : Env) (w : World) : Op → UserId → UserProfile → UserProfile → Prop where
  | same {op u p} (hkept : op.preferred env w u = w.preferredPresence.get u) :
    ProfileStep env w op u p p
  | loggedIn {input code now u p} (hlogin : w.loginUser input = some u) :
    ProfileStep env w (.loginWithSecondFactor input code now) u p
      { p with presence := .online, lastSeenAt := some now }
  | connected {u connected now p} :
    ProfileStep env w (.setConnectionPresence u connected now) u p
      { p with
        presence := if connected then (w.preferredPresence.get u).getD .online else .offline
        lastSeenAt := some now }
  | updated {u input utcNow now p p' changes}
    (hchanges : p.updatePublicFields changes utcNow.dateNaive = .ok p')
    (havatar : changes.avatarAttachmentId = input.avatarAttachmentId)
    (hpresence : changes.presence =
      input.presence.getD ((w.preferredPresence.get u).getD p.presence)) :
    ProfileStep env w (.updateProfile u input utcNow now) u p p'
  | deleted {u currentPassword confirmation now p} :
    ProfileStep env w (.deleteAccount u currentPassword confirmation now) u p (p.anonymized u)

section
variable {env : Env} {w w' : World} {actor u : UserId} {now : DateTime} {op : Op}

/-- The user keeps the preferred presence if the transaction writes another account. -/
theorem Op.preferred_other (hop : ∀ input now, op ≠ .register input now)
    (hother : op.subject env w ≠ some u) : op.preferred env w u = w.preferredPresence.get u := by
  cases op
  case register input now => exact absurd rfl (hop input now)
  case updateProfile => exact if_neg fun h => hother (congrArg some h.symm)
  case deleteAccount => exact if_neg fun h => hother (congrArg some h.symm)
  all_goals rfl

theorem AccountStep.profile {a a' : Account} (h : AccountStep env w op u a a')
    (hop : ∀ input now, op ≠ .register input now) : ProfileStep env w op u a.profile a'.profile := by
  cases h with
  | same hother => exact .same (Op.preferred_other hop hother)
  | loggedIn hlogin hverified =>
    obtain ⟨state, rfl⟩ := verifySecondFactor_ok hverified
    exact .loggedIn hlogin
  | disabled hverified | regenerated hverified =>
    obtain ⟨state, rfl⟩ := verifySecondFactor_ok hverified
    exact .same rfl
  | prepared | enabled | passwordChanged | passwordReset | suspension => exact .same rfl
  | connected => exact .connected
  | updated hchanges havatar hpresence => exact .updated hchanges havatar hpresence
  | deleted => exact .deleted

/-- **Profiles.** An account after the transaction: a new one, or an old one whose profile made a
step. -/
theorem Op.profile (hr : (op.run env).Runs w () w') {a' : Account}
    (hget : w'.accounts.get u = some a') :
    (∃ a, w.accounts.get u = some a ∧ ProfileStep env w op u a.profile a'.profile) ∨
    ∃ input now, op = .register input now ∧ u = env.uuid w.nextUuid ∧
      a'.profile = .registered u input now := by
  by_cases hop : ∀ input now, op ≠ .register input now
  · obtain ⟨hold, hnew⟩ := Op.accounts hr hop
    cases hu : w.accounts.get u with
    | none => cases (hnew u hu).2.symm.trans hget
    | some a =>
      obtain ⟨b, hb, hstep⟩ := hold u a hu
      cases hb.symm.trans hget
      exact .inl ⟨a, rfl, hstep.profile hop⟩
  · simp only [not_forall, not_not] at hop
    obtain ⟨input, now, rfl⟩ := hop
    obtain ⟨session, hr⟩ := Tx.runs_void.mp hr
    obtain ⟨hash, hwrite⟩ := (register_registers hr).accounts
    rw [hwrite, Map.get_insert] at hget
    split at hget
    · cases hget
      subst_vars
      exact .inr ⟨input, now, rfl, rfl, rfl⟩
    · exact .inl ⟨a', hget, .same (if_neg ‹_›)⟩

/-! ## The preferred presence -/

theorem updateProfile_preferred {input : UpdateProfileInput} {utcNow : DateTime} {p : UserProfile}
    (h : (updateProfile env actor input utcNow now).Runs w p w') :
    w'.preferredPresence.get u = Op.preferred env w (.updateProfile actor input utcNow now) u := by
  unfold updateProfile at h
  rw [Tx.runs_get_bind] at h
  obtain ⟨_, w₁, hcheck, h⟩ := Tx.runs_bind.mp h
  obtain rfl : w = w₁ := Tx.Keeps.runs (R := Eq) hcheck
  simp only [Tx.runs_okOr_bind, Tx.runs_ofExcept_bind, update_bind_runs] at h
  obtain ⟨account, -, profile, -, h⟩ := h
  obtain ⟨_, w₂, hpreferred, h⟩ := Tx.runs_bind.mp h
  have hrest := (Tx.Keeps.runs (R := Evolves []) h).same .preferredPresence (by decide)
  have hrest : w'.preferredPresence = w₂.preferredPresence := hrest
  rw [hrest]
  show _ = if u = actor then input.presence.or (w.preferredPresence.get u)
    else w.preferredPresence.get u
  rcases Tx.runs_whenSome.mp hpreferred with ⟨presence, hinput, hwrite⟩ | ⟨hinput, rfl⟩
  · rw [update_runs.mp hwrite, hinput]
    exact Map.get_insert ..
  · rw [hinput, Option.none_or, ite_self]
    rfl

theorem Op.preferredPresence (hr : (op.run env).Runs w () w') (u : UserId) :
    w'.preferredPresence.get u = op.preferred env w u := by
  have hsame : Field.preferredPresence ∉ op.touches ++ logFields →
      w'.preferredPresence = w.preferredPresence := fun hop => Op.same hr hop
  cases op
  case register =>
    obtain ⟨session, hr⟩ := Tx.runs_void.mp hr
    rw [(register_registers hr).preferredPresence]
    exact Map.get_insert ..
  case updateProfile =>
    obtain ⟨p, hr⟩ := Tx.runs_void.mp hr
    exact updateProfile_preferred hr
  case deleteAccount =>
    obtain ⟨x, hr⟩ := Tx.runs_void.mp hr
    rw [(deleteAccount_deletes hr).preferredPresence]
    exact Map.get_remove ..
  all_goals
    rw [hsame (by dsimp only [Op.touches]; decide)]
    rfl

end

/-! ## The id and the avatar -/

/-- The id and the avatar of each account's profile meet `P`. -/
def Shown (P : UserId → UserId → Option AttachmentId → Prop) (w : World) : Prop :=
  ∀ u a, w.accounts.get u = some a → P u a.profile.id a.profile.avatarAttachmentId

/-- `P` allows a new profile, and one without its avatar. -/
class Showing (P : UserId → UserId → Option AttachmentId → Prop) : Prop where
  fresh : ∀ u, P u u none
  cleared : ∀ {u i avatar}, P u i avatar → P u i none

section
variable {P : UserId → UserId → Option AttachmentId → Prop} {env : Env}

/-- The id and the username are none of the public fields. -/
theorem updatePublicFields_ok {profile profile' : UserProfile} {changes : UserProfileUpdate}
    {today : NaiveDate} (h : profile.updatePublicFields changes today = .ok profile') :
    profile'.id = profile.id ∧ profile'.username = profile.username ∧
      profile'.avatarAttachmentId = changes.avatarAttachmentId ∧
      profile'.presence = changes.presence := by
  unfold UserProfile.updatePublicFields at h
  dsimp only at h
  split at h
  · cases h
  split at h
  · cases h
  cases hg : UserProfile.normalizeOptional changes.gender 32 "gender" with
  | error e => simp [hg, bind, Except.bind] at h
  | ok gender =>
    cases hr : UserProfile.normalizeOptional changes.region 96 "region" with
    | error e => simp [hg, hr, bind, Except.bind] at h
    | ok region =>
      simp only [hg, hr, bind, Except.bind] at h
      split at h <;> cases h
      exact ⟨rfl, rfl, rfl, rfl⟩

/-- Every operation keeps what profiles show, if `update_profile` does. -/
theorem Shown.step [hP : Showing P] {op : Op} {w w' : World} (hr : (op.run env).Runs w () w')
    (h : Shown P w)
    (hop : ∀ actor input utcNow now, op = .updateProfile actor input utcNow now →
      ∀ {i avatar}, P actor i avatar → P actor i input.avatarAttachmentId) : Shown P w' := by
  intro u a' hget
  rcases Op.profile hr hget with ⟨a, ha, hstep⟩ | ⟨input, now, -, -, hnew⟩
  · have hold := h u a ha
    generalize a.profile = p at hstep hold
    generalize a'.profile = p' at hstep ⊢
    cases hstep with
    | same | loggedIn | connected => exact hold
    | updated hchanges havatar =>
      obtain ⟨hid, -, havatar', -⟩ := updatePublicFields_ok hchanges
      rw [hid, havatar', havatar]
      exact hop _ _ _ _ rfl hold
    | deleted => exact hP.cleared hold
  · rw [hnew]
    exact hP.fresh u

end

/-! ## The id of a profile -/

/-- A profile has the id of its account. -/
def Identified : World → Prop := Shown fun u i _ => i = u

instance identified_showing : Showing fun u i _ => i = u where
  fresh _ := rfl
  cleared h := h

theorem identified_inductive (env : Env) : (service env).Inductive Identified where
  init w h u a ha := by
    have h : w = World.init := h
    subst h
    cases (Map.get_empty _).symm.trans ha
  step w op w' h hr := Shown.step hr h fun _ _ _ _ _ => id

end IamRust
