import IamRust.L4Properties.AccountKeys

/-!
# What becomes of an account

Twelve operations write an account, each one account only. `AccountStep` says
what each makes of it; every other transaction leaves the accounts as they are
(`Op.accounts`). A registration makes a new one, and none is ever taken away.
The recovery codes an operation hands out are those of its draws
(`recoveryCodes`).
-/
namespace IamRust

open Core
open Core.Tx (failIf okOr ofExcept whenTrue whenSome forEach mapEach)

/-! ## Recovery codes -/

/-- The recovery code of the `n`-th draw. -/
def recoveryCodeText (env : Env) (n : Nat) : String :=
  let raw := (Text.toHex (env.randomBytes n 8)).toList
  String.ofList (raw.take 4 ++ ['-'] ++ (raw.drop 4).take 4 ++ ['-'] ++
    (raw.drop 8).take 4 ++ ['-'] ++ (raw.drop 12).take 4)

/-- The ten codes generated behind `n` draws. -/
def recoveryCodes (env : Env) (n : Nat) : List String :=
  (List.range 10).map fun i => recoveryCodeText env (n + i)

/-- What the account keeps of a code. -/
def recoveryHash (env : Env) (code : String) : String := hashToken env (normalizeRecoveryCode code)

section
variable {env : Env} {w w' : World}

theorem recoveryCode_runs {code : String} : (recoveryCode env).Runs w code w' ↔
    code = recoveryCodeText env w.nextRandom ∧ w' = w.set .nextRandom (w.nextRandom + 1) := by
  unfold recoveryCode
  simp only [Tx.runs_bind, fillBytes_runs, Tx.runs_pure]
  constructor
  · rintro ⟨_, _, ⟨rfl, rfl⟩, rfl, rfl⟩
    exact ⟨rfl, rfl⟩
  · rintro ⟨rfl, rfl⟩
    exact ⟨_, _, ⟨rfl, rfl⟩, rfl, rfl⟩

/-- A draw a pass. -/
theorem mapEach_recoveryCode_runs {α : Type} {l : List α} {codes : List String} :
    (mapEach l fun _ => recoveryCode env).Runs w codes w' ↔
      codes = (List.range l.length).map (fun i => recoveryCodeText env (w.nextRandom + i)) ∧
      w' = w.set .nextRandom (w.nextRandom + l.length) := by
  induction l generalizing w w' codes with
  | nil => exact Tx.runs_pure
  | cons a l ih =>
    have hrest : (List.range (l.length + 1)).map (fun i => recoveryCodeText env (w.nextRandom + i)) =
        recoveryCodeText env w.nextRandom ::
          (List.range l.length).map fun i => recoveryCodeText env (w.nextRandom + 1 + i) := by
      rw [List.range_succ_eq_map, List.map_cons, List.map_map]
      refine congrArg _ (List.map_congr_left fun i _ => ?_)
      show recoveryCodeText env (w.nextRandom + (i + 1)) = _
      rw [Nat.add_right_comm]
      rfl
    simp only [mapEach, Tx.runs_bind, recoveryCode_runs, ih, Tx.runs_pure, List.length_cons, hrest]
    constructor
    · rintro ⟨_, _, ⟨rfl, rfl⟩, _, _, ⟨rfl, rfl⟩, rfl, rfl⟩
      refine ⟨rfl, ?_⟩
      show World.set _ _ (w.nextRandom + 1 + l.length) = _
      rw [Nat.add_right_comm]
      rfl
    · rintro ⟨rfl, rfl⟩
      refine ⟨_, _, ⟨rfl, rfl⟩, _, _, ⟨rfl, rfl⟩, rfl, ?_⟩
      show _ = World.set _ _ (w.nextRandom + 1 + l.length)
      rw [Nat.add_right_comm]
      rfl

theorem generateRecoveryCodes_runs {generated : List String × List String} :
    (generateRecoveryCodes env).Runs w generated w' ↔
      generated = (recoveryCodes env w.nextRandom,
        (recoveryCodes env w.nextRandom).map (recoveryHash env)) ∧
      w' = w.set .nextRandom (w.nextRandom + 10) := by
  unfold generateRecoveryCodes
  simp only [Tx.runs_bind, mapEach_recoveryCode_runs, Tx.runs_pure, List.length_range]
  constructor
  · rintro ⟨_, _, ⟨rfl, rfl⟩, rfl, rfl⟩
    exact ⟨rfl, rfl⟩
  · rintro ⟨rfl, rfl⟩
    exact ⟨_, _, ⟨rfl, rfl⟩, rfl, rfl⟩

end

/-! ## The steps -/

/-- The account a login is for. -/
def Store.loginUser (s : Store) (input : LoginInput) : Option UserId :=
  let lookup := Text.toAsciiLowercase (Text.trim input.login)
  (s.byEmail.get lookup).or (s.byUsername.get lookup)

def UserProfile.registered (userId : UserId) (input : RegisterInput) (now : DateTime) :
    UserProfile where
  id := userId
  username := input.username
  nickname := Text.trim input.nickname
  avatarUrl := none
  avatarAttachmentId := none
  signature := ""
  gender := none
  birthday := none
  region := none
  presence := .online
  lastSeenAt := some now

/-- The user whose account the transaction writes. -/
def Op.subject (env : Env) (w : World) : Op → Option UserId
  | .loginWithSecondFactor input _ _ => w.loginUser input
  | .beginSecondFactorSetup u _ => some u
  | .enableSecondFactor u _ _ => some u
  | .disableSecondFactor u _ _ _ => some u
  | .regenerateRecoveryCodes u _ _ _ => some u
  | .changePassword u _ _ => some u
  | .resetPassword token _ _ => (w.passwordResets.get (hashToken env token)).map (·.userId)
  | .setConnectionPresence u _ _ => some u
  | .updateProfile u _ _ _ => some u
  | .deleteAccount u _ _ _ => some u
  | .adminSetUserSuspended u _ _ => some u
  | _ => none

/-- What a transaction makes of an account. -/
inductive AccountStep (env : Env) (w : World) : Op → UserId → Account → Account → Prop where
  | same {op u a} (hother : op.subject env w ≠ some u) : AccountStep env w op u a a
  | loggedIn {input code now u a verified} (hlogin : w.loginUser input = some u)
    (hverified : verifySecondFactorForAccount env a code now = .ok verified) :
    AccountStep env w (.loginWithSecondFactor input code now) u a { verified with
      profile := { verified.profile with presence := .online, lastSeenAt := some now } }
  | prepared {u now a pending} (hnone : a.secondFactor = none) :
    AccountStep env w (.beginSecondFactorSetup u now) u a
      { a with pendingSecondFactor := some pending }
  | enabled {u code now a pending secret} (hpending : a.pendingSecondFactor = some pending)
    (hsecret : decryptSecret env pending.encryptedSecret = .ok secret)
    (hcode : verifyTotp env secret (Text.trim code) now = true) :
    AccountStep env w (.enableSecondFactor u code now) u a { a with
      secondFactor := some ⟨pending.encryptedSecret,
        (recoveryCodes env w.nextRandom).map (recoveryHash env), now⟩
      pendingSecondFactor := none }
  | disabled {u currentPassword code now a verified}
    (hverified : verifySecondFactorForAccount env a (some (Text.trim code)) now = .ok verified) :
    AccountStep env w (.disableSecondFactor u currentPassword code now) u a
      { verified with secondFactor := none, pendingSecondFactor := none }
  | regenerated {u currentPassword code now a verified state}
    (hverified : verifySecondFactorForAccount env a (some (Text.trim code)) now = .ok verified)
    (hstate : verified.secondFactor = some state) :
    AccountStep env w (.regenerateRecoveryCodes u currentPassword code now) u a { verified with
      secondFactor := some { state with
        recoveryCodeHashes := (recoveryCodes env w.nextRandom).map (recoveryHash env) } }
  | passwordChanged {u currentPassword newPassword a hash} :
    AccountStep env w (.changePassword u currentPassword newPassword) u a
      { a with passwordHash := hash }
  | passwordReset {token newPassword now u a hash} :
    AccountStep env w (.resetPassword token newPassword now) u a { a with passwordHash := hash }
  | connected {u connected now a} :
    AccountStep env w (.setConnectionPresence u connected now) u a { a with
      profile := { a.profile with
        presence := if connected then (w.preferredPresence.get u).getD .online else .offline
        lastSeenAt := some now } }
  | updated {u input utcNow now a profile changes}
    (hchanges : a.profile.updatePublicFields changes utcNow.dateNaive = .ok profile)
    (havatar : changes.avatarAttachmentId = input.avatarAttachmentId)
    (hpresence : changes.presence =
      input.presence.getD ((w.preferredPresence.get u).getD a.profile.presence)) :
    AccountStep env w (.updateProfile u input utcNow now) u a { a with profile := profile }
  | deleted {u currentPassword confirmation now a} :
    AccountStep env w (.deleteAccount u currentPassword confirmation now) u a
      { a with deletedAt := some now, profile := a.profile.anonymized u }
  | suspension {u suspended now a} :
    AccountStep env w (.adminSetUserSuspended u suspended now) u a
      { a with suspended := suspended }

/-- Each account makes its step, the subject has one, and there is no new one. -/
def AccountsStep (env : Env) (w : World) (op : Op) (w' : World) : Prop :=
  (∀ u a, w.accounts.get u = some a →
    ∃ a', w'.accounts.get u = some a' ∧ AccountStep env w op u a a') ∧
  ∀ u, w.accounts.get u = none → op.subject env w ≠ some u ∧ w'.accounts.get u = none

section
variable {env : Env} {w w' : World} {op : Op} {actor : UserId} {now : DateTime}

theorem accountsStep_same (h : w'.accounts = w.accounts) (hop : op.subject env w = none) :
    AccountsStep env w op w' := by
  unfold AccountsStep
  rw [h]
  exact ⟨fun u a ha => ⟨a, ha, .same (by simp [hop])⟩, fun _ hu => ⟨by simp [hop], hu⟩⟩

/-- One account is written back. -/
theorem accountsStep_insert {i : UserId} {a b : Account} (hw : w'.accounts = w.accounts.insert i b)
    (hi : op.subject env w = some i) (ha : w.accounts.get i = some a)
    (hstep : AccountStep env w op i a b) : AccountsStep env w op w' := by
  refine ⟨fun u a' ha' => ?_, fun u hu => ?_⟩
  · rw [hw, Map.get_insert]
    split
    · subst_vars
      cases ha.symm.trans ha'
      exact ⟨b, rfl, hstep⟩
    · rename_i hne
      exact ⟨a', ha', .same fun h => hne (Option.some.inj (h.symm.trans hi))⟩
  · have hne : u ≠ i := by
      rintro rfl
      cases ha.symm.trans hu
    exact ⟨fun h => hne (Option.some.inj (h.symm.trans hi)), by rw [hw, Map.get_insert_ne hne, hu]⟩

/-! ## The operations -/

set_option synthInstance.maxSize 1000000000000

theorem login_account {input : LoginInput} {code : Option String} {session : AuthenticatedSession}
    (h : (loginWithSecondFactor env input code now).Runs w session w') :
    AccountsStep env w (.loginWithSecondFactor input code now) w' := by
  unfold loginWithSecondFactor at h
  simp only [check_bind_runs, Tx.runs_get_bind, Tx.runs_okOr_bind, Tx.runs_failIf_bind,
    Tx.runs_ofExcept_bind, update_bind_runs, Tx.runs_bind (t := newUuid env), newUuid_runs] at h
  obtain ⟨-, -, userId, hlogin, account, hacc, -, verified, hverified, _, _, ⟨rfl, rfl⟩, h⟩ := h
  have hsame := (Tx.Keeps.runs (R := Evolves [.accessTokens, .refreshTokens]) h).same .accounts
    (by decide)
  exact accountsStep_insert (hsame : w'.accounts = _) hlogin
    (activeAccount_some.mp (activeAccount_of_login hacc)).1 (.loggedIn hlogin hverified)

theorem beginSecondFactorSetup_account {r : SecondFactorSetupResponse}
    (h : (beginSecondFactorSetup env actor now).Runs w r w') :
    AccountsStep env w (.beginSecondFactorSetup actor now) w' := by
  unfold beginSecondFactorSetup encryptSecret at h
  simp only [Tx.runs_bind, fillBytes_runs, Tx.runs_okOr, Tx.runs_pure, Tx.runs_get,
    Tx.runs_failIf, update_runs] at h
  obtain ⟨_, _, ⟨rfl, rfl⟩, _, _, ⟨_, _, ⟨rfl, rfl⟩, _, _, ⟨-, rfl⟩, rfl, rfl⟩, _, _, ⟨rfl, rfl⟩,
    account, _, ⟨hacc, rfl⟩, _, _, ⟨hnone, rfl⟩, _, _, rfl, -, rfl⟩ := h
  exact accountsStep_insert rfl rfl (activeAccount_some.mp hacc).1 (.prepared (by simpa using hnone))

theorem enableSecondFactor_account {code : String} {codes : List String}
    (h : (enableSecondFactor env actor code now).Runs w codes w') :
    AccountsStep env w (.enableSecondFactor actor code now) w' := by
  unfold enableSecondFactor at h
  simp only [Tx.runs_get_bind, Tx.runs_okOr_bind, Tx.runs_ofExcept_bind, Tx.runs_failIf_bind,
    Tx.runs_bind (t := generateRecoveryCodes env), generateRecoveryCodes_runs, update_bind_runs,
    Tx.runs_pure] at h
  obtain ⟨account, hacc, pending, hpending, secret, hsecret, hcode, _, _, ⟨rfl, rfl⟩, -, rfl⟩ := h
  exact accountsStep_insert rfl rfl (activeAccount_some.mp hacc).1
    (.enabled (Option.filter_eq_some_iff.mp hpending).1 hsecret (by simpa using hcode))

theorem disableSecondFactor_account {currentPassword code : String} {x : Unit}
    (h : (disableSecondFactor env actor currentPassword code now).Runs w x w') :
    AccountsStep env w (.disableSecondFactor actor currentPassword code now) w' := by
  unfold disableSecondFactor at h
  simp only [Tx.runs_get_bind, Tx.runs_okOr_bind, Tx.runs_failIf_bind, Tx.runs_ofExcept_bind,
    update_runs] at h
  obtain ⟨account, hacc, -, verified, hverified, rfl⟩ := h
  exact accountsStep_insert rfl rfl (activeAccount_some.mp hacc).1 (.disabled hverified)

theorem regenerateRecoveryCodes_account {currentPassword code : String} {codes : List String}
    (h : (regenerateRecoveryCodes env actor currentPassword code now).Runs w codes w') :
    AccountsStep env w (.regenerateRecoveryCodes actor currentPassword code now) w' := by
  unfold regenerateRecoveryCodes at h
  simp only [Tx.runs_get_bind, Tx.runs_okOr_bind, Tx.runs_failIf_bind, Tx.runs_ofExcept_bind,
    Tx.runs_bind (t := generateRecoveryCodes env), generateRecoveryCodes_runs, update_bind_runs,
    Tx.runs_pure] at h
  obtain ⟨account, hacc, -, verified, hverified, _, _, ⟨rfl, rfl⟩, state, hstate, -, rfl⟩ := h
  exact accountsStep_insert rfl rfl (activeAccount_some.mp hacc).1 (.regenerated hverified hstate)

theorem changePassword_account {currentPassword newPassword : String} {x : Unit}
    (h : (changePassword env actor currentPassword newPassword).Runs w x w') :
    AccountsStep env w (.changePassword actor currentPassword newPassword) w' := by
  unfold changePassword at h
  simp only [check_bind_runs, Tx.runs_bind (t := hashPassword env _), hashPassword_runs,
    Tx.runs_get_bind, Tx.runs_okOr_bind, Tx.runs_failIf_bind, update_bind_runs] at h
  obtain ⟨-, hash, _, ⟨-, rfl⟩, account, hacc, -, h⟩ := h
  have hsame := (Tx.Keeps.runs (R := Evolves [.accessTokens, .refreshTokens, .devices]) h).same
    .accounts (by decide)
  exact accountsStep_insert (hsame : w'.accounts = _) rfl hacc .passwordChanged

theorem resetPassword_account {token newPassword : String} {x : Unit}
    (h : (resetPassword env token newPassword now).Runs w x w') :
    AccountsStep env w (.resetPassword token newPassword now) w' := by
  unfold resetPassword at h
  simp only [check_bind_runs, Tx.runs_bind (t := hashPassword env _), hashPassword_runs,
    Tx.runs_get_bind, Tx.runs_okOr_bind, Tx.runs_failIf_bind, update_bind_runs] at h
  obtain ⟨-, hash, _, ⟨-, rfl⟩, reset, hreset, -, account, hacc, h⟩ := h
  have hsame := (Tx.Keeps.runs (R := Evolves [.accessTokens, .refreshTokens, .devices]) h).same
    .accounts (by decide)
  exact accountsStep_insert (hsame : w'.accounts = _) (congrArg (Option.map _) hreset) hacc
    .passwordReset

theorem setConnectionPresence_account {connected : Bool} {x : Unit}
    (h : (setConnectionPresence env actor connected now).Runs w x w') :
    AccountsStep env w (.setConnectionPresence actor connected now) w' := by
  unfold setConnectionPresence at h
  simp only [Tx.runs_get_bind, Tx.runs_okOr_bind, update_bind_runs] at h
  obtain ⟨account, hacc, h⟩ := h
  have hsame := (Tx.Keeps.runs (R := Evolves []) h).same .accounts (by decide)
  exact accountsStep_insert (hsame : w'.accounts = _) rfl (activeAccount_some.mp hacc).1 .connected

theorem updateProfile_account {input : UpdateProfileInput} {utcNow : DateTime} {p : UserProfile}
    (h : (updateProfile env actor input utcNow now).Runs w p w') :
    AccountsStep env w (.updateProfile actor input utcNow now) w' := by
  unfold updateProfile at h
  rw [Tx.runs_get_bind] at h
  obtain ⟨_, w₁, hcheck, h⟩ := Tx.runs_bind.mp h
  obtain rfl : w = w₁ := Tx.Keeps.runs (R := Eq) hcheck
  simp only [Tx.runs_okOr_bind, Tx.runs_ofExcept_bind, update_bind_runs, liftDomain_ok] at h
  obtain ⟨account, hacc, profile, hchanges, h⟩ := h
  have hsame := (Tx.Keeps.runs (R := Evolves [.preferredPresence]) h).same .accounts (by decide)
  exact accountsStep_insert (hsame : w'.accounts = _) rfl hacc (.updated hchanges rfl rfl)

/-- What the deletion of an account wrote, beside the tokens and the devices. -/
structure Deletes (w : World) (actor : UserId) (now : DateTime) (w' : World) : Prop where
  accounts : ∃ a, w.accounts.get actor = some a ∧ w'.accounts = w.accounts.insert actor
    { a with deletedAt := some now, profile := a.profile.anonymized actor }
  byEmail : w'.byEmail = w.byEmail.retain fun _ userId => userId != actor
  byUsername : w'.byUsername = w.byUsername.retain fun _ userId => userId != actor
  passwordResets : w'.passwordResets = w.passwordResets.retain fun _ reset => reset.userId != actor
  conversations : w'.conversations = w.conversations.mapValues (·.detach actor now)
  conversationSettings : w'.conversationSettings =
    w.conversationSettings.retain fun key _ => key.1 != actor
  readPositions : w'.readPositions = w.readPositions.retain fun key _ => key.1 != actor
  preferredPresence : w'.preferredPresence = w.preferredPresence.remove actor

theorem deleteAccount_deletes {currentPassword confirmation : String} {x : Unit}
    (h : (deleteAccount env actor currentPassword confirmation now).Runs w x w') :
    Deletes w actor now w' := by
  unfold deleteAccount deleteAccountInStore at h
  simp only [Tx.runs_failIf_bind, Tx.runs_get_bind, Tx.runs_okOr_bind] at h
  obtain ⟨-, account, -, -, h⟩ := h
  obtain ⟨_, w₁, hdetach, h⟩ := Tx.runs_bind.mp h
  obtain ⟨profile, w₂, hanonymize, h⟩ := Tx.runs_bind.mp h
  obtain ⟨_, w₃, hpurge, hevent⟩ := Tx.runs_bind.mp h
  unfold detachAccountFromConversations at hdetach
  rw [update_runs] at hdetach
  subst hdetach
  unfold anonymizeAccount at hanonymize
  simp only [Tx.runs_get_bind, Tx.runs_okOr_bind, update_bind_runs, Tx.runs_pure] at hanonymize
  obtain ⟨account, hacc, -, rfl⟩ := hanonymize
  unfold purgeAccountRelationships at hpurge
  simp only [update_bind_runs] at hpurge
  obtain ⟨_, w₄, hrevoke, hpurge⟩ := Tx.runs_bind.mp hpurge
  have hrevoke := Tx.Keeps.runs (R := Evolves [.accessTokens, .refreshTokens, .devices]) hrevoke
  have hrest := Tx.Keeps.runs (R := Evolves [.passwordResets, .friendRequests, .friendships,
    .friendSettings, .conversationSettings, .readPositions, .blocks, .reports, .favoriteMessages,
    .scheduledMessages, .stickers, .profilePrivacy, .preferredPresence]) hpurge
  have hevent := appendEvent_only hevent
  simp only [update_bind_runs, update_runs] at hpurge
  refine ⟨⟨account, hacc, ?_⟩, ?_, ?_, ?_, ?_, ?_, ?_, ?_⟩
  · exact (hevent .accounts (by decide)).trans
      ((hrest.same .accounts (by decide)).trans (hrevoke.same .accounts (by decide)))
  · exact (hevent .byEmail (by decide)).trans
      ((hrest.same .byEmail (by decide)).trans (hrevoke.same .byEmail (by decide)))
  · exact (hevent .byUsername (by decide)).trans
      ((hrest.same .byUsername (by decide)).trans (hrevoke.same .byUsername (by decide)))
  · rw [show w'.passwordResets = w₃.passwordResets from
      hevent .passwordResets (by decide), hpurge]
    show w₄.passwordResets.retain (fun _ reset => reset.userId != actor) = _
    rw [show w₄.passwordResets = w.passwordResets from
      hrevoke.same .passwordResets (by decide)]
  · exact (hevent .conversations (by decide)).trans
      ((hrest.same .conversations (by decide)).trans (hrevoke.same .conversations (by decide)))
  · rw [show w'.conversationSettings = w₃.conversationSettings from
      hevent .conversationSettings (by decide), hpurge]
    show w₄.conversationSettings.retain (fun key _ => key.1 != actor) = _
    rw [show w₄.conversationSettings = w.conversationSettings from
      hrevoke.same .conversationSettings (by decide)]
  · rw [show w'.readPositions = w₃.readPositions from
      hevent .readPositions (by decide), hpurge]
    show w₄.readPositions.retain (fun key _ => key.1 != actor) = _
    rw [show w₄.readPositions = w.readPositions from
      hrevoke.same .readPositions (by decide)]
  · rw [show w'.preferredPresence = w₃.preferredPresence from
      hevent .preferredPresence (by decide), hpurge]
    show w₄.preferredPresence.remove actor = _
    rw [show w₄.preferredPresence = w.preferredPresence from
      hrevoke.same .preferredPresence (by decide)]

theorem deleteAccount_account {currentPassword confirmation : String} {x : Unit}
    (h : (deleteAccount env actor currentPassword confirmation now).Runs w x w') :
    AccountsStep env w (.deleteAccount actor currentPassword confirmation now) w' := by
  obtain ⟨account, hacc, hwrite⟩ := (deleteAccount_deletes h).accounts
  exact accountsStep_insert hwrite rfl hacc .deleted

theorem adminSetUserSuspended_account {suspended : Bool} {x : Unit}
    (h : (adminSetUserSuspended env actor suspended now).Runs w x w') :
    AccountsStep env w (.adminSetUserSuspended actor suspended now) w' := by
  unfold adminSetUserSuspended at h
  simp only [Tx.runs_get_bind, Tx.runs_okOr_bind, update_bind_runs] at h
  obtain ⟨account, hacc, h⟩ := h
  have hsame := (Tx.Keeps.runs (R := Evolves [.accessTokens, .refreshTokens, .devices,
    .auditEvents]) h).same .accounts (by decide)
  exact accountsStep_insert (hsame : w'.accounts = _) rfl (activeAccount_some.mp hacc).1 .suspension

/-- What a registration wrote. -/
structure Registers (env : Env) (w : World) (input : RegisterInput) (now : DateTime) (w' : World) :
    Prop where
  email : validateEmail input.email = .ok ()
  username : validateUsername input.username = .ok ()
  freeEmail : w.byEmail.get (Text.toAsciiLowercase (Text.trim input.email)) = none
  freeUsername : w.byUsername.get (Text.toAsciiLowercase input.username) = none
  byEmail : w'.byEmail = w.byEmail.insert (Text.toAsciiLowercase (Text.trim input.email))
    (env.uuid w.nextUuid)
  byUsername : w'.byUsername = w.byUsername.insert (Text.toAsciiLowercase input.username)
    (env.uuid w.nextUuid)
  accounts : ∃ hash, w'.accounts = w.accounts.insert (env.uuid w.nextUuid)
    ⟨hash, .registered (env.uuid w.nextUuid) input now, none, false, none, none⟩
  preferredPresence : w'.preferredPresence = w.preferredPresence.insert (env.uuid w.nextUuid) .online

theorem register_registers {input : RegisterInput} {session : AuthenticatedSession}
    (h : (register env input now).Runs w session w') : Registers env w input now w' := by
  unfold register at h
  simp only [check_bind_runs, Tx.runs_bind (t := hashPassword env _),
    Tx.runs_bind (t := newUuid env), hashPassword_runs, newUuid_runs, Tx.runs_get_bind,
    Tx.runs_failIf_bind, update_bind_runs] at h
  obtain ⟨hemail, husername, -, -, -, -, hash, _, ⟨-, rfl⟩, _, _, ⟨rfl, rfl⟩, _, _, ⟨rfl, rfl⟩,
    hfree, h⟩ := h
  have hrest := Tx.Keeps.runs (R := Evolves [.accessTokens, .refreshTokens]) h
  rw [not_or, Bool.not_eq_true, Bool.not_eq_true] at hfree
  exact {
    email := hemail
    username := husername
    freeEmail := Map.containsKey_eq_false.mp hfree.1
    freeUsername := Map.containsKey_eq_false.mp hfree.2
    byEmail := hrest.same .byEmail (by decide)
    byUsername := hrest.same .byUsername (by decide)
    accounts := ⟨hash, hrest.same .accounts (by decide)⟩
    preferredPresence := hrest.same .preferredPresence (by decide) }

/-- **Accounts.** A transaction other than a registration takes each account a step on. -/
theorem Op.accounts (hr : (op.run env).Runs w () w') (hop : ∀ input now, op ≠ .register input now) :
    AccountsStep env w op w' := by
  have hother : Field.accounts ∉ op.touches ++ logFields → op.subject env w = none →
      AccountsStep env w op w' := fun h hnone => accountsStep_same (Op.same hr h) hnone
  cases op
  case register input now => exact absurd rfl (hop input now)
  case loginWithSecondFactor =>
    obtain ⟨_, hr⟩ := Tx.runs_void.mp hr
    exact login_account hr
  case beginSecondFactorSetup =>
    obtain ⟨_, hr⟩ := Tx.runs_void.mp hr
    exact beginSecondFactorSetup_account hr
  case enableSecondFactor =>
    obtain ⟨_, hr⟩ := Tx.runs_void.mp hr
    exact enableSecondFactor_account hr
  case disableSecondFactor =>
    obtain ⟨_, hr⟩ := Tx.runs_void.mp hr
    exact disableSecondFactor_account hr
  case regenerateRecoveryCodes =>
    obtain ⟨_, hr⟩ := Tx.runs_void.mp hr
    exact regenerateRecoveryCodes_account hr
  case changePassword =>
    obtain ⟨_, hr⟩ := Tx.runs_void.mp hr
    exact changePassword_account hr
  case resetPassword =>
    obtain ⟨_, hr⟩ := Tx.runs_void.mp hr
    exact resetPassword_account hr
  case setConnectionPresence =>
    obtain ⟨_, hr⟩ := Tx.runs_void.mp hr
    exact setConnectionPresence_account hr
  case updateProfile =>
    obtain ⟨_, hr⟩ := Tx.runs_void.mp hr
    exact updateProfile_account hr
  case deleteAccount =>
    obtain ⟨_, hr⟩ := Tx.runs_void.mp hr
    exact deleteAccount_account hr
  case adminSetUserSuspended =>
    obtain ⟨_, hr⟩ := Tx.runs_void.mp hr
    exact adminSetUserSuspended_account hr
  all_goals exact hother (by dsimp only [Op.touches]; decide) rfl

end

end IamRust
