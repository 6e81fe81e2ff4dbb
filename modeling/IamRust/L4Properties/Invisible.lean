import IamRust.L4Properties.Profiles
import IamRust.L4Properties.Masking

/-!
# Invisible users

A user whose preferred presence is `Invisible` is shown as offline by the test
of `visible_profile` on the present presence. A password login writes `Online`
and the last connection closing writes `Offline` with the time, whatever is
preferred.

* `invisible_looks_offline`: in the runs in which neither happens to a user who
  prefers to be invisible, everybody else is shown such a user offline, with no
  time.
* `invisible_logs_in`: Alice sets herself invisible and logs in once more; Bob
  is shown her online.
-/
namespace IamRust

open Core

/-- Whoever prefers to be invisible is. -/
def Cloaked (w : World) : Prop :=
  ∀ u a, w.accounts.get u = some a → w.preferredPresence.get u = some .invisible →
    a.profile.presence = .invisible

/-- No password login and no last connection closing of a user who prefers to be invisible. -/
def Op.KeepsCloak (w : World) : Op → Prop
  | .loginWithSecondFactor input _ _ => ∀ u, w.loginUser input = some u →
    w.preferredPresence.get u ≠ some .invisible
  | .setConnectionPresence u connected _ => connected = false →
    w.preferredPresence.get u ≠ some .invisible
  | _ => True

section
variable {env : Env} {w w' : World} {op : Op}

/-- A profile becomes what its user prefers. -/
theorem ProfileStep.cloaked {u : UserId} {p p' : UserProfile} (h : ProfileStep env w op u p p')
    (hok : op.KeepsCloak w)
    (hp : w.preferredPresence.get u = some .invisible → p.presence = .invisible)
    (hnow : op.preferred env w u = some .invisible) : p'.presence = .invisible := by
  cases h with
  | same hkept => exact hp (hkept ▸ hnow)
  | loggedIn hlogin => exact absurd hnow (hok u hlogin)
  | @connected _ connected =>
    cases connected with
    | true =>
      have hnow : w.preferredPresence.get u = some .invisible := hnow
      simp [hnow]
    | false => exact absurd hnow (hok rfl)
  | @updated _ input _ _ _ _ _ hchanges _ hpresence =>
    have hnow : (if u = u then input.presence.or (w.preferredPresence.get u)
      else w.preferredPresence.get u) = some .invisible := hnow
    rw [if_pos rfl] at hnow
    rw [(updatePublicFields_ok hchanges).2.2.2, hpresence]
    cases hinput : input.presence with
    | some presence =>
      rw [hinput, Option.some_or] at hnow
      cases hnow
      rfl
    | none =>
      rw [hinput, Option.none_or] at hnow
      rw [hnow]
      rfl
  | deleted =>
    have hnow : (if u = u then none else w.preferredPresence.get u) = some .invisible := hnow
    rw [if_pos rfl] at hnow
    cases hnow

theorem cloaked_inductive (env : Env) :
    ((service env).restrict fun w op => op.KeepsCloak w).Inductive Cloaked where
  init w hw u a ha := by
    have hw : w = World.init := hw
    subst hw
    cases (Map.get_empty _).symm.trans ha
  step w op w' h hstep := by
    obtain ⟨hok, hr⟩ := hstep
    have hr : (op.run env).Runs w () w' := hr
    intro u a' hget hnow
    rw [Op.preferredPresence hr] at hnow
    rcases Op.profile hr hget with ⟨a, ha, hstep⟩ | ⟨input, now, rfl, rfl, -⟩
    · exact hstep.cloaked hok (h u a ha) hnow
    · have hnow : (if env.uuid w.nextUuid = env.uuid w.nextUuid then some Presence.online
        else w.preferredPresence.get (env.uuid w.nextUuid)) = some .invisible := hnow
      rw [if_pos rfl] at hnow
      cases hnow

end

/-- **Invisible users look offline.** If no user who prefers to be invisible logs in with the
password or closes the last connection meanwhile, everybody else is shown such a user offline,
with no time. -/
theorem invisible_looks_offline (env : Env) (w : World)
    (hw : ((service env).restrict fun w op => op.KeepsCloak w).Reachable w) (u viewer : UserId)
    (hne : viewer ≠ u) (hprefers : w.preferredPresence.get u = some .invisible)
    (p : UserProfile) (hp : visibleProfile w.toStore viewer u = some p) :
    p.presence = .offline ∧ p.lastSeenAt = none := by
  rw [visibleProfile_other hne] at hp
  obtain ⟨a, ha, rfl⟩ := Option.map_eq_some_iff.mp hp
  have hcloaked := (cloaked_inductive env).reachable hw u a (activeAccount_some.mp ha).1 hprefers
  simp [UserProfile.masked, hcloaked]

/-- The profile as it is, with another presence. -/
def UpdateProfileInput.presenceOnly (nickname : String) (presence : Presence) :
    UpdateProfileInput where
  nickname := nickname
  signature := ""
  avatarUrl := none
  avatarAttachmentId := none
  gender := none
  birthday := none
  region := none
  presence := some presence

/-- Alice sets herself invisible and connects; Bob is shown her offline. -/
theorem invisible_looks_offline_alice : ∃ w p, (service Env.numbered).Reachable w ∧
    visibleProfile w.toStore 4 1 = some p ∧ p.presence = .offline ∧ p.lastSeenAt = none := by
  obtain ⟨w, hw, hp⟩ := reaches_checked Env.numbered
    (fun _ op => match op with
      | .loginWithSecondFactor _ _ _ | .setConnectionPresence _ false _ => false
      | _ => true)
    (fun w op h => show op.KeepsCloak w by
      cases op
      case loginWithSecondFactor => cases h
      case setConnectionPresence u connected now =>
        rintro rfl
        cases h
      all_goals trivial)
    (aliceAndBob ++ [.updateProfile 1 (.presenceOnly "Alice" .invisible) 0 0,
      .setConnectionPresence 1 true 5])
    (fun w => w.preferredPresence.get 1 == some .invisible && (visibleProfile w.toStore 4 1).isSome)
    (by decide +kernel)
  obtain ⟨hprefers, hsome⟩ := Bool.and_eq_true_iff.mp hp
  obtain ⟨p, hp⟩ := Option.isSome_iff_exists.mp hsome
  exact ⟨w, p, hw.of_restrict, hp,
    invisible_looks_offline Env.numbered w hw 1 4 (by decide) (beq_iff_eq.mp hprefers) p hp⟩

/-- Alice sets herself invisible and logs in once more: Bob is shown her online. -/
theorem invisible_logs_in : ∃ w p, (service Env.numbered).Reachable w ∧
    w.preferredPresence.get 1 = some .invisible ∧ visibleProfile w.toStore 4 1 = some p ∧
    p.presence = .online ∧ p.lastSeenAt = some 5 := by
  obtain ⟨w, hw, hp⟩ := reaches Env.numbered
    (aliceAndBob ++ [.updateProfile 1 (.presenceOnly "Alice" .invisible) 0 0,
      .loginWithSecondFactor ⟨"alice", alice.password, "pc", "linux", "1.0"⟩ none 5])
    (fun w => w.preferredPresence.get 1 == some .invisible &&
      (visibleProfile w.toStore 4 1).any fun p =>
        p.presence == .online && p.lastSeenAt == some 5) (by decide +kernel)
  simp only [Bool.and_eq_true, beq_iff_eq, Option.any_eq_true] at hp
  obtain ⟨hprefers, p, hshown, hpresence, hseen⟩ := hp
  exact ⟨w, p, reachable_of_run hw, hprefers, hshown, hpresence, hseen⟩

end IamRust
