import IamRust.L3Service.Sessions

/-!
# QR login

The challenges live in a map of their own, under a lock of their own, outside
the store. A call that takes the lock drops what has expired, also when it then
fails, so `approveQrLogin` and `claimQrLogin` return the map beside the result.
A poll of an approved challenge takes it out of the map (`claimQrLogin`) and
then mints the session in a transaction of the store (`pollQrLogin`).
-/
namespace IamRust

open Core
open Core.Tx (failIf okOr ofExcept whenTrue whenSome forEach mapEach)

/-- mirrors crates/application/src/service.rs:207-215 -/
structure QrLoginChallenge where
  secretHash : String
  approvedUserId : Option UserId
  deviceName : String
  platform : String
  appVersion : String
  expiresAt : DateTime

/-- mirrors crates/application/src/service.rs:217-223 -/
structure QrLoginChallengeInfo where
  challengeId : Uuid
  secret : String
  qrPayload : String
  expiresAt : DateTime

abbrev QrLogins := Map Uuid QrLoginChallenge

section
variable (env : Env)

/-- What the caller is told, and the challenge it inserts under the id.
mirrors crates/application/src/service.rs:1005-1036 -/
def beginQrLogin (deviceName platform appVersion : String) (now : DateTime) :
    Service (QrLoginChallengeInfo × QrLoginChallenge) := do
  check (validateDeviceName deviceName)
  check (validateDeviceMetadata platform appVersion)
  let challengeId ← newUuid env
  let secret ← randomToken env
  let expiresAt := now + Duration.minutes 5
  pure (⟨challengeId, secret,
      "iamrust://auth/qr-login?challenge_id=" ++ Uuid.toString challengeId ++ "&secret=" ++ secret,
      expiresAt⟩,
    ⟨hashToken env secret, none, deviceName, platform, appVersion, expiresAt⟩)

/-- `challenges.retain(|_, challenge| challenge.expires_at > now)`. -/
def pruneQrLogins (now : DateTime) (challenges : QrLogins) : QrLogins :=
  challenges.retain fun _ challenge => decide (challenge.expiresAt > now)

/-- mirrors crates/application/src/service.rs:1038-1058 -/
def approveQrLogin (actor : UserId) (challengeId : Uuid) (secret : String) (now : DateTime)
    (challenges : QrLogins) : Except ApplicationError Unit × QrLogins :=
  let challenges := pruneQrLogins now challenges
  match challenges.get challengeId with
  | none => (.error .notFound, challenges)
  | some challenge =>
    if secureEq challenge.secretHash (hashToken env secret) = false then
      (.error .notFound, challenges)
    else if challenge.approvedUserId.isSome then (.error .conflict, challenges)
    else (.ok (), challenges.insert challengeId { challenge with approvedUserId := some actor })

/-- The first half of a poll: an approved challenge is taken out of the map.
mirrors crates/application/src/service.rs:1066-1084 -/
def claimQrLogin (challengeId : Uuid) (secret : String) (now : DateTime)
    (challenges : QrLogins) :
    Except ApplicationError (Option (UserId × QrLoginChallenge)) × QrLogins :=
  let challenges := pruneQrLogins now challenges
  match challenges.get challengeId with
  | none => (.error .notFound, challenges)
  | some challenge =>
    if secureEq challenge.secretHash (hashToken env secret) = false then
      (.error .notFound, challenges)
    else match challenge.approvedUserId with
      | none => (.ok none, challenges)
      | some userId => (.ok (some (userId, challenge)), challenges.remove challengeId)

end

/-! ## What they do -/

section
variable {env : Env} {challenges challenges' : QrLogins} {challengeId : Uuid} {secret : String}
  {now : DateTime}

theorem get_pruneQrLogins {c : Uuid} {challenge : QrLoginChallenge} :
    (pruneQrLogins now challenges).get c = some challenge ↔
      challenges.get c = some challenge ∧ now < challenge.expiresAt := by
  simp [pruneQrLogins, Option.filter_eq_some_iff]

/-- Nothing new: what is in the map was there before. -/
def QrLogins.Shrinks (challenges challenges' : QrLogins) : Prop :=
  ∀ c challenge, challenges'.get c = some challenge → challenges.get c = some challenge

theorem shrinks_prune : challenges.Shrinks (pruneQrLogins now challenges) :=
  fun _ _ h => (get_pruneQrLogins.mp h).1

theorem approveQrLogin_cases {actor : UserId} {result : Except ApplicationError Unit}
    (h : approveQrLogin env actor challengeId secret now challenges = (result, challenges')) :
    (∃ e, result = .error e ∧ challenges.Shrinks challenges') ∨
    ∃ challenge, result = .ok () ∧ challenges.get challengeId = some challenge ∧
      now < challenge.expiresAt ∧ challenge.secretHash = hashToken env secret ∧
      challenge.approvedUserId = none ∧ challenges' = (pruneQrLogins now challenges).insert
        challengeId { challenge with approvedUserId := some actor } := by
  unfold approveQrLogin at h
  dsimp only at h
  split at h
  · cases h
    exact .inl ⟨_, rfl, shrinks_prune⟩
  · rename_i challenge hget
    obtain ⟨hget, hnow⟩ := get_pruneQrLogins.mp hget
    split at h
    · cases h
      exact .inl ⟨_, rfl, shrinks_prune⟩
    · rename_i hsecret
      split at h
      · cases h
        exact .inl ⟨_, rfl, shrinks_prune⟩
      · rename_i happroved
        cases h
        exact .inr ⟨challenge, rfl, hget, hnow, by simpa [secureEq] using hsecret,
          by simpa using happroved, rfl⟩

theorem approveQrLogin_succeeds {actor : UserId} {challenge : QrLoginChallenge}
    (hget : challenges.get challengeId = some challenge) (hnow : now < challenge.expiresAt)
    (hsecret : challenge.secretHash = hashToken env secret)
    (hopen : challenge.approvedUserId = none) :
    approveQrLogin env actor challengeId secret now challenges =
      (.ok (), (pruneQrLogins now challenges).insert challengeId
        { challenge with approvedUserId := some actor }) := by
  unfold approveQrLogin
  dsimp only
  rw [get_pruneQrLogins.mpr ⟨hget, hnow⟩]
  simp [secureEq, hsecret, hopen]

theorem claimQrLogin_cases {result : Except ApplicationError (Option (UserId × QrLoginChallenge))}
    (h : claimQrLogin env challengeId secret now challenges = (result, challenges')) :
    (challenges.Shrinks challenges' ∧ ∀ claim, result ≠ .ok (some claim)) ∨
    ∃ userId challenge, result = .ok (some (userId, challenge)) ∧
      challenges.get challengeId = some challenge ∧ now < challenge.expiresAt ∧
      challenge.secretHash = hashToken env secret ∧ challenge.approvedUserId = some userId ∧
      challenges' = (pruneQrLogins now challenges).remove challengeId := by
  unfold claimQrLogin at h
  dsimp only at h
  split at h
  · cases h
    exact .inl ⟨shrinks_prune, fun _ hclaim => by cases hclaim⟩
  · rename_i challenge hget
    obtain ⟨hget, hnow⟩ := get_pruneQrLogins.mp hget
    split at h
    · cases h
      exact .inl ⟨shrinks_prune, fun _ hclaim => by cases hclaim⟩
    · rename_i hsecret
      split at h
      · cases h
        exact .inl ⟨shrinks_prune, fun _ hclaim => by cases hclaim⟩
      · rename_i userId happroved
        cases h
        exact .inr ⟨userId, challenge, rfl, hget, hnow, by simpa [secureEq] using hsecret,
          happroved, rfl⟩

theorem claimQrLogin_succeeds {userId : UserId} {challenge : QrLoginChallenge}
    (hget : challenges.get challengeId = some challenge) (hnow : now < challenge.expiresAt)
    (hsecret : challenge.secretHash = hashToken env secret)
    (happroved : challenge.approvedUserId = some userId) :
    claimQrLogin env challengeId secret now challenges =
      (.ok (some (userId, challenge)), (pruneQrLogins now challenges).remove challengeId) := by
  unfold claimQrLogin
  dsimp only
  rw [get_pruneQrLogins.mpr ⟨hget, hnow⟩]
  simp [secureEq, hsecret, happroved]

theorem shrinks_remove {c : Uuid} :
    challenges.Shrinks ((pruneQrLogins now challenges).remove c) := by
  intro c' challenge h
  exact (get_pruneQrLogins.mp (Map.get_of_remove h)).1

end

end IamRust
