import IamRust.L3Service.Events

/-!
# Registration, sessions and second factors

The operations of service.rs from `register` to `reset_password`, and the
helpers they share. A draw of random bytes stands where the code fills a
buffer; Argon2 draws its own salt. The QR challenges live outside the store:
`pollQrLogin` is the transaction a poll runs once its challenge is approved,
for any user and device the challenge may name.
-/
namespace IamRust

open Core
open Core.Tx (failIf okOr ofExcept whenTrue whenSome forEach mapEach)

structure RegisterInput where
  email : String
  username : String
  password : String
  nickname : String
  deviceName : String
  platform : String
  appVersion : String

structure LoginInput where
  login : String
  password : String
  deviceName : String
  platform : String
  appVersion : String

structure AuthenticatedSession where
  accessToken : String
  refreshToken : String
  accessExpiresAt : DateTime
  refreshExpiresAt : DateTime
  profile : UserProfile
  deviceId : DeviceId

structure PasswordResetDelivery where
  email : String
  resetToken : String
  expiresAt : DateTime

structure SecondFactorSetupResponse where
  secret : String
  otpauthUri : String
  expiresAt : DateTime

def accessTokenMinutes : Int := 15
def refreshTokenDays : Int := 30

/-! ## Field checks -/

/-- A trimmed length between 1 and `maximum`; the checks of a device name, a
nickname and a group name differ in the field and the bound. -/
def validateTrimmedLength (field : String) (maximum : Nat) (value : String) :
    Except DomainError Unit :=
  if ¬ (1 ≤ (Text.trim value).length ∧ (Text.trim value).length ≤ maximum) then
    .error (.validation field "invalid_length")
  else .ok ()

/-- mirrors crates/application/src/service.rs:4299-4307 -/
def validateDeviceName : String → Except DomainError Unit := validateTrimmedLength "device_name" 80

/-- mirrors crates/application/src/service.rs:4323-4331 -/
def validateNickname : String → Except DomainError Unit := validateTrimmedLength "nickname" 48

/-- mirrors crates/application/src/service.rs:4354-4362 -/
def validateGroupName : String → Except DomainError Unit := validateTrimmedLength "group_name" 80

/-- mirrors crates/application/src/service.rs:4309-4321 -/
def validateDeviceMetadata (platform appVersion : String) : Except DomainError Unit :=
  if Text.isBlank platform ∨ (Text.trim platform).length > 32 ∨
      Text.isBlank appVersion ∨ (Text.trim appVersion).length > 32 then
    .error (.validation "device_metadata" "invalid_length")
  else .ok ()

/-- mirrors crates/application/src/service.rs:4333-4345 -/
def validateOptionalLabel (value : Option String) (field : String) (maximum : Nat) :
    Except DomainError Unit :=
  if value.any fun v => decide ((Text.trim v).length > maximum) then
    .error (.validation field "invalid_length")
  else .ok ()

/-- mirrors crates/application/src/service.rs:4347-4352 -/
def normalizeOptional (value : Option String) : Option String :=
  (value.map Text.trim).filter fun v => !v.isEmpty

section
variable (env : Env)

/-! ## Tokens and second factors -/

/-- mirrors crates/application/src/service.rs:4692-4697 -/
def hashPassword (password : String) : Service String := do
  let salt ← fillBytes env 16
  okOr (env.hashPassword salt password) .invalidCredentials

/-- mirrors crates/application/src/service.rs:4927-4929 -/
def hashToken (token : String) : String := Text.toHex (env.sha256 (Text.bytes token))

/-- mirrors crates/application/src/service.rs:4921-4925 -/
def randomToken : Service String := do
  let bytes ← fillBytes env 32
  pure (Text.toHex bytes)

/-- Equality, in time independent of the contents.
mirrors crates/application/src/service.rs:4825-4836 -/
def secureEq (left right : String) : Bool := left == right

/-- mirrors crates/application/src/service.rs:4741-4753 -/
def encryptSecret (plaintext : List UInt8) : Service (List UInt8) := do
  let nonce ← fillBytes env 12
  let ciphertext ← okOr (env.encrypt nonce plaintext) .storage
  pure (nonce ++ ciphertext)

/-- mirrors crates/application/src/service.rs:4755-4767 -/
def decryptSecret (encrypted : List UInt8) : Except ApplicationError (List UInt8) :=
  if encrypted.length ≤ 12 then .error .storage
  else
    match env.decrypt (encrypted.take 12) (encrypted.drop 12) with
    | some plaintext => .ok plaintext
    | none => .error .storage

/-- Eight big-endian bytes. -/
def toBeBytes (n : Nat) : List UInt8 :=
  (List.range 8).map fun i => UInt8.ofNat (n / 256 ^ (7 - i))

/-- mirrors crates/application/src/service.rs:4783-4794 -/
def totpCode (secret : List UInt8) (counter : Nat) : String :=
  let digest := env.hmacSha1 secret (toBeBytes counter)
  let byte := fun i => (digest.getD i 0).toNat
  let offset := byte (digest.length - 1) % 16
  let binary := (byte offset % 128) * 2 ^ 24 + byte (offset + 1) * 2 ^ 16 +
    byte (offset + 2) * 2 ^ 8 + byte (offset + 3)
  let digits := toString (binary % 1000000)
  String.ofList (List.replicate (6 - digits.length) '0') ++ digits

/-- mirrors crates/application/src/service.rs:4769-4781 -/
def verifyTotp (secret : List UInt8) (code : String) (now : DateTime) : Bool :=
  if Text.byteLen code ≠ 6 ∨ code.toList.all Text.isAsciiDigit = false then false
  else
    let counter := (max (now.fdiv 1000000000) 0).toNat / 30
    [counter - 1, counter, saturatingSucc counter].any fun candidate =>
      secureEq (totpCode env secret candidate) code

/-- mirrors crates/application/src/service.rs:4818-4823 -/
def normalizeRecoveryCode (code : String) : String :=
  String.ofList ((code.toList.filter Text.isAsciiHexdigit).map Text.lowerChar)

/-- One recovery code: four groups of four hexadecimal digits. -/
def recoveryCode : Service String := do
  let bytes ← fillBytes env 8
  let raw := (Text.toHex bytes).toList
  pure (String.ofList (raw.take 4 ++ ['-'] ++ (raw.drop 4).take 4 ++ ['-'] ++
    (raw.drop 8).take 4 ++ ['-'] ++ (raw.drop 12).take 4))

/-- The codes and their hashes.
mirrors crates/application/src/service.rs:4796-4816 -/
def generateRecoveryCodes : Service (List String × List String) := do
  let codes ← mapEach (List.range 10) fun _ => recoveryCode env
  pure (codes, codes.map fun code => hashToken env (normalizeRecoveryCode code))

/-- `Vec::swap_remove`: the last element takes the removed one's place. -/
def swapRemove {α : Type} (l : List α) (i : Nat) : List α :=
  match l.getLast? with
  | none => l
  | some last => (l.set i last).dropLast

/-- The account after the check: a recovery code is used up.
mirrors crates/application/src/service.rs:4707-4735 -/
def verifySecondFactorForAccount (account : Account) (code : Option String) (now : DateTime) :
    Except ApplicationError Account :=
  match account.secondFactor with
  | none => .ok account
  | some state =>
    match (code.map Text.trim).filter (fun code => !code.isEmpty) with
    | none => .error .secondFactorRequired
    | some code =>
      match decryptSecret env state.encryptedSecret with
      | .error e => .error e
      | .ok secret =>
        if verifyTotp env secret code now then .ok account
        else
          let hashed := hashToken env (normalizeRecoveryCode code)
          match state.recoveryCodeHashes.findIdx? (secureEq · hashed) with
          | some index => .ok { account with
              secondFactor := some { state with
                recoveryCodeHashes := swapRemove state.recoveryCodeHashes index } }
          | none => .error .invalidSecondFactor

variable {env} in
/-- Only the second factor of the account may change. -/
theorem verifySecondFactor_ok {a a' : Account} {code : Option String} {now : DateTime}
    (h : verifySecondFactorForAccount env a code now = .ok a') :
    ∃ state, a' = { a with secondFactor := state } := by
  unfold verifySecondFactorForAccount at h
  split at h
  · cases h
    exact ⟨_, rfl⟩
  split at h
  · cases h
  split at h
  · cases h
  split at h
  · cases h
    exact ⟨_, rfl⟩
  dsimp only at h
  split at h
  · cases h
    exact ⟨_, rfl⟩
  · cases h

/-- mirrors crates/application/src/service.rs:4848-4888 -/
def issueSessionInFamily (userId : UserId) (deviceId : DeviceId) (profile : UserProfile)
    (now : DateTime) (familyId : Uuid) : Service AuthenticatedSession := do
  let accessToken ← randomToken env
  let refreshToken ← randomToken env
  let accessExpiresAt := now + Duration.minutes accessTokenMinutes
  let refreshExpiresAt := now + Duration.days refreshTokenDays
  update .accessTokens fun w =>
    w.accessTokens.insert (hashToken env accessToken)
      ⟨userId, deviceId, familyId, accessExpiresAt, false⟩
  update .refreshTokens fun w =>
    w.refreshTokens.insert (hashToken env refreshToken)
      ⟨userId, deviceId, familyId, refreshExpiresAt, false⟩
  pure ⟨accessToken, refreshToken, accessExpiresAt, refreshExpiresAt, profile, deviceId⟩

/-- mirrors crates/application/src/service.rs:4838-4846 -/
def issueSession (userId : UserId) (deviceId : DeviceId) (profile : UserProfile)
    (now : DateTime) : Service AuthenticatedSession := do
  let familyId ← newUuid env
  issueSessionInFamily env userId deviceId profile now familyId

/-- The tokens that satisfy `p` are marked revoked, access and refresh tokens alike. -/
def revokeTokens (p : TokenRecord → Bool) : Service Unit := do
  let revoke := fun (record : TokenRecord) =>
    if p record then { record with revoked := true } else record
  update .accessTokens fun w => w.accessTokens.mapValues revoke
  update .refreshTokens fun w => w.refreshTokens.mapValues revoke

/-- mirrors crates/application/src/service.rs:4890-4900 -/
def revokeFamily (familyId : Uuid) : Service Unit :=
  revokeTokens fun record => familyId == record.familyId

/-- mirrors crates/application/src/service.rs:4902-4919 -/
def revokeUserSessions (userId : UserId) (revokedAt : Option DateTime) : Service Unit := do
  revokeTokens fun record => record.userId == userId
  whenSome revokedAt fun revokedAt =>
    update .devices fun w =>
      w.devices.mapValues fun device =>
        if device.userId = userId then { device with revokedAt := some revokedAt } else device

/-! ## Operations -/

/-- mirrors crates/application/src/service.rs:716-787 -/
def register (input : RegisterInput) (now : DateTime) : Service AuthenticatedSession := do
  check (validateEmail input.email)
  check (validateUsername input.username)
  check (validatePassword env.isUppercase env.isLowercase input.password)
  check (validateDeviceName input.deviceName)
  check (validateDeviceMetadata input.platform input.appVersion)
  check (validateNickname input.nickname)
  let email := Text.toAsciiLowercase (Text.trim input.email)
  let usernameKey := Text.toAsciiLowercase input.username
  let passwordHash ← hashPassword env input.password
  let userId ← newUuid env
  let deviceId ← newUuid env
  let profile : UserProfile := {
    id := userId
    username := input.username
    nickname := Text.trim input.nickname
    avatarUrl := none
    avatarAttachmentId := none
    signature := ""
    gender := none
    birthday := none
    region := none
    presence := .online
    lastSeenAt := some now }
  let w ← get
  failIf (w.byEmail.containsKey email ∨ w.byUsername.containsKey usernameKey) .accountConflict
  update .byEmail fun w => w.byEmail.insert email userId
  update .byUsername fun w => w.byUsername.insert usernameKey userId
  update .accounts fun w =>
    w.accounts.insert userId ⟨passwordHash, profile, none, false, none, none⟩
  update .profilePrivacy fun w => w.profilePrivacy.insert userId .default
  update .preferredPresence fun w => w.preferredPresence.insert userId .online
  update .devices fun w =>
    w.devices.insert deviceId
      ⟨deviceId, userId, input.deviceName, input.platform, input.appVersion, now, none⟩
  issueSession env userId deviceId profile now

/-- mirrors crates/application/src/service.rs:797-854 -/
def loginWithSecondFactor (input : LoginInput) (secondFactorCode : Option String)
    (now : DateTime) : Service AuthenticatedSession := do
  check (validateDeviceName input.deviceName)
  check (validateDeviceMetadata input.platform input.appVersion)
  let lookup := Text.toAsciiLowercase (Text.trim input.login)
  let w ← get
  let userId ← okOr ((w.byEmail.get lookup).or (w.byUsername.get lookup)) .invalidCredentials
  let account ← okOr ((w.accounts.get userId).filter fun account =>
    account.deletedAt.isNone && !account.suspended) .invalidCredentials
  failIf (env.verifyPassword input.password account.passwordHash = false) .invalidCredentials
  let account ← ofExcept (verifySecondFactorForAccount env account secondFactorCode now)
  let profile := { account.profile with presence := .online, lastSeenAt := some now }
  update .accounts fun w =>
    w.accounts.insert userId { account with profile := profile }
  let deviceId ← newUuid env
  update .devices fun w =>
    w.devices.insert deviceId
      ⟨deviceId, userId, input.deviceName, input.platform, input.appVersion, now, none⟩
  issueSession env userId deviceId profile now

/-- mirrors crates/application/src/service.rs:875-909 -/
def beginSecondFactorSetup (actor : UserId) (now : DateTime) :
    Service SecondFactorSetupResponse := do
  let secret ← fillBytes env 20
  let encoded := env.base32 secret
  let encryptedSecret ← encryptSecret env secret
  let expiresAt := now + Duration.minutes 10
  let w ← get
  let account ← okOr (w.activeAccount actor) .notFound
  failIf account.secondFactor.isSome .conflict
  update .accounts fun w =>
    w.accounts.insert actor { account with
      pendingSecondFactor := some ⟨encryptedSecret, expiresAt⟩ }
  pure {
    secret := encoded
    otpauthUri := "otpauth://totp/I%20Am%20Rust:" ++ account.profile.username ++ "?secret=" ++
      encoded ++ "&issuer=I%20Am%20Rust&algorithm=SHA1&digits=6&period=30"
    expiresAt := expiresAt }

/-- mirrors crates/application/src/service.rs:911-945 -/
def enableSecondFactor (actor : UserId) (code : String) (now : DateTime) :
    Service (List String) := do
  let w ← get
  let account ← okOr (w.activeAccount actor) .notFound
  let pending ← okOr (account.pendingSecondFactor.filter fun p => decide (p.expiresAt > now))
    .conflict
  let secret ← ofExcept (decryptSecret env pending.encryptedSecret)
  failIf (verifyTotp env secret (Text.trim code) now = false) .invalidSecondFactor
  let generated ← generateRecoveryCodes env
  update .accounts fun w =>
    w.accounts.insert actor { account with
      secondFactor := some ⟨pending.encryptedSecret, generated.2, now⟩
      pendingSecondFactor := none }
  pure generated.1

/-- mirrors crates/application/src/service.rs:947-972 -/
def disableSecondFactor (actor : UserId) (currentPassword code : String) (now : DateTime) :
    Service Unit := do
  let w ← get
  let account ← okOr (w.activeAccount actor) .notFound
  failIf (env.verifyPassword currentPassword account.passwordHash = false) .invalidCredentials
  let account ← ofExcept (verifySecondFactorForAccount env account (some (Text.trim code)) now)
  update .accounts fun w =>
    w.accounts.insert actor { account with
      secondFactor := none
      pendingSecondFactor := none }

/-- mirrors crates/application/src/service.rs:974-1003 -/
def regenerateRecoveryCodes (actor : UserId) (currentPassword code : String) (now : DateTime) :
    Service (List String) := do
  let w ← get
  let account ← okOr (w.activeAccount actor) .notFound
  failIf (env.verifyPassword currentPassword account.passwordHash = false) .invalidCredentials
  let account ← ofExcept (verifySecondFactorForAccount env account (some (Text.trim code)) now)
  let generated ← generateRecoveryCodes env
  let state ← okOr account.secondFactor .conflict
  update .accounts fun w =>
    w.accounts.insert actor { account with
      secondFactor := some { state with recoveryCodeHashes := generated.2 } }
  pure generated.1

/-- The transaction of an approved challenge.
mirrors crates/application/src/service.rs:1085-1108 -/
def pollQrLogin (userId : UserId) (deviceName platform appVersion : String) (now : DateTime) :
    Service AuthenticatedSession := do
  let w ← get
  let account ← okOr ((w.accounts.get userId).filter fun account =>
    account.deletedAt.isNone && !account.suspended) .unauthorized
  let deviceId ← newUuid env
  update .devices fun w =>
    w.devices.insert deviceId
      ⟨deviceId, userId, deviceName, platform, appVersion, now, none⟩
  issueSession env userId deviceId account.profile now

/-- The user and the device of an access token.
mirrors crates/application/src/service.rs:1121-1150 -/
def authenticateIdentity (s : Store) (accessToken : String) (now : DateTime) :
    Except ApplicationError (UserId × DeviceId) :=
  match s.accessTokens.get (hashToken env accessToken) with
  | none => .error .unauthorized
  | some record =>
    if record.revoked ∨ record.expiresAt ≤ now then .error .sessionExpired
    else if (s.devices.get record.deviceId).all fun device => device.revokedAt.isSome then
      .error .sessionExpired
    else if (s.accounts.get record.userId).all fun account =>
        account.deletedAt.isSome || account.suspended then .error .sessionExpired
    else .ok (record.userId, record.deviceId)

/-- A consumed token revokes its family and reports the reuse; the transaction
itself succeeds, so the revocation is kept.
mirrors crates/application/src/service.rs:1152-1189 -/
def refresh (refreshToken : String) (now : DateTime) :
    Service (Except ApplicationError AuthenticatedSession) := do
  let tokenHash := hashToken env refreshToken
  let w ← get
  if (w.consumedRefreshTokens.get tokenHash).isSome then
    whenSome (w.consumedRefreshTokens.get tokenHash) revokeFamily
    pure (.error .refreshTokenReuse)
  else
    let record ← okOr (w.refreshTokens.get tokenHash) .unauthorized
    update .refreshTokens fun w => w.refreshTokens.remove tokenHash
    failIf (record.revoked ∨ record.expiresAt ≤ now) .sessionExpired
    update .consumedRefreshTokens fun w =>
      w.consumedRefreshTokens.insert tokenHash record.familyId
    let account ← okOr (w.activeAccount record.userId) .unauthorized
    let session ← issueSessionInFamily env record.userId record.deviceId account.profile now
      record.familyId
    pure (.ok session)

/-- mirrors crates/application/src/service.rs:1191-1203 -/
def logout (refreshToken : String) : Service Unit := do
  let tokenHash := hashToken env refreshToken
  let w ← get
  whenSome (w.refreshTokens.get tokenHash) fun record => do
    update .refreshTokens fun w => w.refreshTokens.remove tokenHash
    revokeFamily record.familyId
    update .consumedRefreshTokens fun w =>
      w.consumedRefreshTokens.insert tokenHash record.familyId

/-- mirrors crates/application/src/service.rs:1226-1251 -/
def revokeDevice (actor : UserId) (deviceId : DeviceId) (now : DateTime) : Service Unit := do
  let w ← get
  let device ← okOr ((w.devices.get deviceId).filter fun device => device.userId == actor)
    .notFound
  update .devices fun w =>
    w.devices.insert deviceId { device with revokedAt := some now }
  revokeTokens fun token => token.deviceId == deviceId

/-- mirrors crates/application/src/service.rs:1253-1274 -/
def changePassword (actor : UserId) (currentPassword newPassword : String) : Service Unit := do
  check (validatePassword env.isUppercase env.isLowercase newPassword)
  let newHash ← hashPassword env newPassword
  let w ← get
  let account ← okOr (w.accounts.get actor) .notFound
  failIf (env.verifyPassword currentPassword account.passwordHash = false) .invalidCredentials
  update .accounts fun w =>
    w.accounts.insert actor { account with passwordHash := newHash }
  revokeUserSessions actor none

/-- mirrors crates/application/src/service.rs:1276-1309 -/
def requestPasswordReset (email : String) (now : DateTime) :
    Service (Option PasswordResetDelivery) := do
  check (validateEmail email)
  let email := Text.toAsciiLowercase (Text.trim email)
  let resetToken ← randomToken env
  let expiresAt := now + Duration.minutes 15
  let w ← get
  whenSome (w.byEmail.get email) fun userId => do
    update .passwordResets fun w =>
      w.passwordResets.retain fun _ reset =>
        reset.userId != userId || reset.consumed || decide (reset.expiresAt ≤ now)
    update .passwordResets fun w =>
      w.passwordResets.insert (hashToken env resetToken)
        ⟨userId, expiresAt, 0, false⟩
  pure ((w.byEmail.get email).map fun _ => ⟨email, resetToken, expiresAt⟩)

/-- `attempts.saturating_add(1)` on `u8`. -/
def nextAttempt (attempts : Nat) : Nat := min (attempts + 1) 255

/-- mirrors crates/application/src/service.rs:1311-1342 -/
def resetPassword (resetToken newPassword : String) (now : DateTime) : Service Unit := do
  check (validatePassword env.isUppercase env.isLowercase newPassword)
  let tokenHash := hashToken env resetToken
  let newHash ← hashPassword env newPassword
  let w ← get
  let reset ← okOr (w.passwordResets.get tokenHash) .invalidCredentials
  let attempts := nextAttempt reset.attempts
  failIf (reset.consumed ∨ reset.expiresAt ≤ now ∨ attempts > 5) .invalidCredentials
  update .passwordResets fun w =>
    w.passwordResets.insert tokenHash
      { reset with attempts := attempts, consumed := true }
  let account ← okOr (w.accounts.get reset.userId) .notFound
  update .accounts fun w =>
    w.accounts.insert reset.userId { account with passwordHash := newHash }
  revokeUserSessions reset.userId (some now)

end

/-! ## Footprints -/

set_option synthInstance.maxSize 1000000000000

section
variable {env : Env} {R : World → World → Prop} [IsPreorder World R]

instance keeps_revokeTokens [Ignores R .accessTokens] [Ignores R .refreshTokens]
    {p : TokenRecord → Bool} : Tx.Keeps R (revokeTokens p) := by
  unfold revokeTokens; infer_instance

instance keeps_revokeFamily [Ignores R .accessTokens] [Ignores R .refreshTokens]
    {familyId : Uuid} : Tx.Keeps R (revokeFamily familyId) := by
  unfold revokeFamily; infer_instance

instance keeps_revokeUserSessions [Ignores R .accessTokens] [Ignores R .refreshTokens]
    [Ignores R .devices] {userId : UserId} {revokedAt : Option DateTime} :
    Tx.Keeps R (revokeUserSessions userId revokedAt) := by
  unfold revokeUserSessions; infer_instance

instance keeps_revokeDevice [Ignores R .accessTokens] [Ignores R .refreshTokens]
    [Ignores R .devices] {actor : UserId} {deviceId : DeviceId} {now : DateTime} :
    Tx.Keeps R (revokeDevice actor deviceId now) := by
  unfold revokeDevice; infer_instance

instance keeps_logout [Ignores R .accessTokens] [Ignores R .refreshTokens]
    [Ignores R .consumedRefreshTokens] {refreshToken : String} :
    Tx.Keeps R (logout env refreshToken) := by
  unfold logout; infer_instance

instance keeps_disableSecondFactor [Ignores R .accounts] {actor : UserId}
    {currentPassword code : String} {now : DateTime} :
    Tx.Keeps R (disableSecondFactor env actor currentPassword code now) := by
  unfold disableSecondFactor; infer_instance

variable [Drawing env R]

instance keeps_hashPassword {password : String} : Tx.Keeps R (hashPassword env password) := by
  unfold hashPassword; infer_instance

instance keeps_randomToken : Tx.Keeps R (randomToken env) := by
  unfold randomToken; infer_instance

instance keeps_encryptSecret {plaintext : List UInt8} :
    Tx.Keeps R (encryptSecret env plaintext) := by
  unfold encryptSecret; infer_instance

instance keeps_recoveryCode : Tx.Keeps R (recoveryCode env) := by
  unfold recoveryCode; infer_instance

instance keeps_generateRecoveryCodes : Tx.Keeps R (generateRecoveryCodes env) := by
  unfold generateRecoveryCodes; infer_instance

instance keeps_issueSessionInFamily [Ignores R .accessTokens] [Ignores R .refreshTokens]
    {userId : UserId} {deviceId : DeviceId} {profile : UserProfile} {now : DateTime}
    {familyId : Uuid} :
    Tx.Keeps R (issueSessionInFamily env userId deviceId profile now familyId) := by
  unfold issueSessionInFamily; infer_instance

instance keeps_issueSession [Ignores R .accessTokens] [Ignores R .refreshTokens]
    {userId : UserId} {deviceId : DeviceId} {profile : UserProfile} {now : DateTime} :
    Tx.Keeps R (issueSession env userId deviceId profile now) := by
  unfold issueSession; infer_instance

instance keeps_register [Ignores R .accounts] [Ignores R .profilePrivacy]
    [Ignores R .preferredPresence] [Ignores R .byEmail] [Ignores R .byUsername]
    [Ignores R .devices] [Ignores R .accessTokens] [Ignores R .refreshTokens]
    {input : RegisterInput} {now : DateTime} : Tx.Keeps R (register env input now) := by
  unfold register; infer_instance

instance keeps_loginWithSecondFactor [Ignores R .accounts] [Ignores R .devices]
    [Ignores R .accessTokens] [Ignores R .refreshTokens] {input : LoginInput}
    {code : Option String} {now : DateTime} :
    Tx.Keeps R (loginWithSecondFactor env input code now) := by
  unfold loginWithSecondFactor; infer_instance

instance keeps_beginSecondFactorSetup [Ignores R .accounts] {actor : UserId} {now : DateTime} :
    Tx.Keeps R (beginSecondFactorSetup env actor now) := by
  unfold beginSecondFactorSetup; infer_instance

instance keeps_enableSecondFactor [Ignores R .accounts] {actor : UserId} {code : String}
    {now : DateTime} : Tx.Keeps R (enableSecondFactor env actor code now) := by
  unfold enableSecondFactor; infer_instance

instance keeps_regenerateRecoveryCodes [Ignores R .accounts] {actor : UserId}
    {currentPassword code : String} {now : DateTime} :
    Tx.Keeps R (regenerateRecoveryCodes env actor currentPassword code now) := by
  unfold regenerateRecoveryCodes; infer_instance

instance keeps_pollQrLogin [Ignores R .devices] [Ignores R .accessTokens]
    [Ignores R .refreshTokens] {userId : UserId} {deviceName platform appVersion : String}
    {now : DateTime} :
    Tx.Keeps R (pollQrLogin env userId deviceName platform appVersion now) := by
  unfold pollQrLogin; infer_instance

instance keeps_refresh [Ignores R .accessTokens] [Ignores R .refreshTokens]
    [Ignores R .consumedRefreshTokens] {refreshToken : String} {now : DateTime} :
    Tx.Keeps R (refresh env refreshToken now) := by
  unfold refresh; infer_instance

instance keeps_changePassword [Ignores R .accounts] [Ignores R .accessTokens]
    [Ignores R .refreshTokens] [Ignores R .devices] {actor : UserId}
    {currentPassword newPassword : String} :
    Tx.Keeps R (changePassword env actor currentPassword newPassword) := by
  unfold changePassword; infer_instance

instance keeps_requestPasswordReset [Ignores R .passwordResets] {email : String}
    {now : DateTime} : Tx.Keeps R (requestPasswordReset env email now) := by
  unfold requestPasswordReset; infer_instance

instance keeps_resetPassword [Ignores R .passwordResets] [Ignores R .accounts]
    [Ignores R .accessTokens] [Ignores R .refreshTokens] [Ignores R .devices]
    {resetToken newPassword : String} {now : DateTime} :
    Tx.Keeps R (resetPassword env resetToken newPassword now) := by
  unfold resetPassword; infer_instance

end

end IamRust
