import IamRust.L3Service.System

/-!
# Accounts

`Accounting` collects what an invariant has to allow for the operations on
accounts and sessions: an account that was read is written back, active or with
its profile untouched, and tokens are issued to an active account. The
operations keep every such invariant. `accounts_drawn` is the first use: an
account's id was drawn, so no registration meets it again.
-/
namespace IamRust

open Core

theorem activeAccount_some {s : Store} {v : UserId} {a : Account} :
    s.activeAccount v = some a ↔ s.accounts.get v = some a ∧ a.deletedAt = none := by
  simp [Store.activeAccount, Option.filter_eq_some_iff]

theorem hashPassword_runs {env : Env} {w w' : World} {password : String} {h : String} :
    (hashPassword env password).Runs w h w' ↔
      env.hashPassword (env.randomBytes w.nextRandom 16) password = some h ∧
      w' = w.set .nextRandom (w.nextRandom + 1) := by
  unfold hashPassword
  simp only [Tx.runs_bind, fillBytes_runs, Tx.runs_okOr]
  constructor
  · rintro ⟨_, _, ⟨rfl, rfl⟩, hh, rfl⟩
    exact ⟨hh, rfl⟩
  · rintro ⟨hh, rfl⟩
    exact ⟨_, _, ⟨rfl, rfl⟩, hh, rfl⟩

/-! ## The operations on accounts and sessions -/

class Accounting (I : World → Prop) : Prop where
  /-- An active account is written back, changed. -/
  write_active : ∀ {s : World} {v a}, I s → s.activeAccount v = some a → ∀ a',
    Tx.Keeps (Tx.Preserving I) (update .accounts fun w => w.accounts.insert v a')
  /-- An account is written back with the same profile. -/
  write_same : ∀ {s : World} {v a}, I s → s.accounts.get v = some a → ∀ a',
    a'.profile = a.profile → a'.deletedAt = a.deletedAt →
    Tx.Keeps (Tx.Preserving I) (update .accounts fun w => w.accounts.insert v a')
  access : ∀ {s : World} {a} {t : TokenRecord}, I s → s.activeAccount t.userId = some a →
    ∀ hash, Tx.Keeps (Tx.Preserving I) (update .accessTokens fun w => w.accessTokens.insert hash t)
  refresh : ∀ {s : World} {a} {t : TokenRecord}, I s → s.activeAccount t.userId = some a →
    ∀ hash, Tx.Keeps (Tx.Preserving I)
      (update .refreshTokens fun w => w.refreshTokens.insert hash t)
  revoke : ∀ p, Tx.Keeps (Tx.Preserving I) (revokeTokens p)
  consume : ∀ hash, Tx.Keeps (Tx.Preserving I)
    (update .refreshTokens fun w => w.refreshTokens.remove hash)

set_option synthInstance.maxSize 1000000000000

section
variable {I : World → Prop} [ha : Accounting I]

instance accounting_revokeTokens {p : TokenRecord → Bool} :
    Tx.Keeps (Tx.Preserving I) (revokeTokens p) := ha.revoke p

instance accounting_consume {hash : String} : Tx.Keeps (Tx.Preserving I)
    (update .refreshTokens fun w => w.refreshTokens.remove hash) := ha.consume hash

instance accounting_revokeUserSessions [Ignores (Tx.Preserving I) .devices] {userId : UserId}
    {revokedAt : Option DateTime} :
    Tx.Keeps (Tx.Preserving I) (revokeUserSessions userId revokedAt) := by
  unfold revokeUserSessions; infer_instance

instance accounting_revokeFamily {familyId : Uuid} :
    Tx.Keeps (Tx.Preserving I) (revokeFamily familyId) := by
  unfold revokeFamily; infer_instance

variable {env : Env} {actor : UserId} {now : DateTime}

instance accounting_revokeDevice [Ignores (Tx.Preserving I) .devices] {deviceId : DeviceId} :
    Tx.Keeps (Tx.Preserving I) (revokeDevice actor deviceId now) := by
  unfold revokeDevice; infer_instance

instance accounting_logout [Ignores (Tx.Preserving I) .consumedRefreshTokens]
    {refreshToken : String} : Tx.Keeps (Tx.Preserving I) (logout env refreshToken) := by
  unfold logout; infer_instance

instance accounting_disableSecondFactor {currentPassword code : String} :
    Tx.Keeps (Tx.Preserving I) (disableSecondFactor env actor currentPassword code now) := by
  unfold disableSecondFactor
  refine Tx.keeps_get_then fun s hs => Tx.keeps_okOr_then fun account hacc => ?_
  have := fun a' => ha.write_active hs hacc a'
  infer_instance

variable [Logged env (Tx.Preserving I)]

variable (env) in
theorem accounting_session {s : World} (hs : I s) {v : UserId} {a : Account}
    (hacc : s.activeAccount v = some a) (deviceId : DeviceId) (profile : UserProfile)
    (now : DateTime) (familyId : Uuid) : Tx.Keeps (Tx.Preserving I)
      (issueSessionInFamily env v deviceId profile now familyId) := by
  have := fun hash expiresAt =>
    ha.access (t := ⟨v, deviceId, familyId, expiresAt, false⟩) hs hacc hash
  have := fun hash expiresAt =>
    ha.refresh (t := ⟨v, deviceId, familyId, expiresAt, false⟩) hs hacc hash
  unfold issueSessionInFamily; infer_instance

instance accounting_beginSecondFactorSetup :
    Tx.Keeps (Tx.Preserving I) (beginSecondFactorSetup env actor now) := by
  unfold beginSecondFactorSetup
  refine Tx.keeps_then inferInstance fun secret => Tx.keeps_then inferInstance fun encrypted =>
    Tx.keeps_get_then fun s hs => Tx.keeps_okOr_then fun account hacc => ?_
  have := fun a' => ha.write_active hs hacc a'
  infer_instance

instance accounting_enableSecondFactor {code : String} :
    Tx.Keeps (Tx.Preserving I) (enableSecondFactor env actor code now) := by
  unfold enableSecondFactor
  refine Tx.keeps_get_then fun s hs => Tx.keeps_okOr_then fun account hacc => ?_
  have := fun a' => ha.write_active hs hacc a'
  infer_instance

instance accounting_regenerateRecoveryCodes {currentPassword code : String} :
    Tx.Keeps (Tx.Preserving I) (regenerateRecoveryCodes env actor currentPassword code now) := by
  unfold regenerateRecoveryCodes
  refine Tx.keeps_get_then fun s hs => Tx.keeps_okOr_then fun account hacc => ?_
  have := fun a' => ha.write_active hs hacc a'
  infer_instance

/-- The filter of a login: active and not suspended. -/
theorem activeAccount_of_login {s : Store} {v : UserId} {a : Account}
    (h : (s.accounts.get v).filter (fun account => account.deletedAt.isNone && !account.suspended) =
      some a) : s.activeAccount v = some a := by
  rw [Option.filter_eq_some_iff] at h
  simp only [Bool.and_eq_true, Option.isNone_iff_eq_none] at h
  exact activeAccount_some.mpr ⟨h.1, h.2.1⟩

instance accounting_loginWithSecondFactor [Ignores (Tx.Preserving I) .devices]
    {input : LoginInput} {code : Option String} :
    Tx.Keeps (Tx.Preserving I) (loginWithSecondFactor env input code now) := by
  unfold loginWithSecondFactor
  refine Tx.keeps_then inferInstance fun _ => Tx.keeps_then inferInstance fun _ =>
    Tx.keeps_get_then fun s hs => Tx.keeps_okOr_then fun userId _ =>
    Tx.keeps_okOr_then fun account hacc => ?_
  have hacc := activeAccount_of_login hacc
  have := fun a' => ha.write_active hs hacc a'
  have := accounting_session env hs hacc
  unfold issueSession; infer_instance

instance accounting_pollQrLogin [Ignores (Tx.Preserving I) .devices] {userId : UserId}
    {deviceName platform appVersion : String} :
    Tx.Keeps (Tx.Preserving I) (pollQrLogin env userId deviceName platform appVersion now) := by
  unfold pollQrLogin
  refine Tx.keeps_get_then fun s hs => Tx.keeps_okOr_then fun account hacc => ?_
  have := accounting_session env hs (activeAccount_of_login hacc)
  unfold issueSession; infer_instance

instance accounting_refresh [Ignores (Tx.Preserving I) .consumedRefreshTokens]
    {refreshToken : String} : Tx.Keeps (Tx.Preserving I) (refresh env refreshToken now) := by
  unfold refresh
  refine Tx.keeps_get_then fun s hs => ?_
  split
  · infer_instance
  · refine Tx.keeps_then inferInstance fun record => Tx.keeps_then inferInstance fun _ =>
      Tx.keeps_then inferInstance fun _ => Tx.keeps_then inferInstance fun _ =>
      Tx.keeps_okOr_then fun account hacc => ?_
    have := accounting_session env hs hacc
    infer_instance

instance accounting_changePassword [Ignores (Tx.Preserving I) .devices]
    {currentPassword newPassword : String} :
    Tx.Keeps (Tx.Preserving I) (changePassword env actor currentPassword newPassword) := by
  unfold changePassword
  refine Tx.keeps_then inferInstance fun _ => Tx.keeps_then inferInstance fun newHash =>
    Tx.keeps_get_then fun s hs => Tx.keeps_okOr_then fun account hacc => ?_
  have := ha.write_same hs hacc { account with passwordHash := newHash } rfl rfl
  infer_instance

instance accounting_resetPassword [Ignores (Tx.Preserving I) .devices]
    [Ignores (Tx.Preserving I) .passwordResets] {resetToken newPassword : String} :
    Tx.Keeps (Tx.Preserving I) (resetPassword env resetToken newPassword now) := by
  unfold resetPassword
  refine Tx.keeps_then inferInstance fun _ => Tx.keeps_then inferInstance fun newHash =>
    Tx.keeps_get_then fun s hs => Tx.keeps_then inferInstance fun reset =>
    Tx.keeps_then inferInstance fun _ => Tx.keeps_then inferInstance fun _ =>
    Tx.keeps_okOr_then fun account hacc => ?_
  have := ha.write_same hs hacc { account with passwordHash := newHash } rfl rfl
  infer_instance

instance accounting_setConnectionPresence {connected : Bool} :
    Tx.Keeps (Tx.Preserving I) (setConnectionPresence env actor connected now) := by
  unfold setConnectionPresence
  refine Tx.keeps_get_then fun s hs => Tx.keeps_okOr_then fun account hacc => ?_
  have := fun a' => ha.write_active hs hacc a'
  infer_instance

instance accounting_adminSetUserSuspended [Ignores (Tx.Preserving I) .devices]
    [Ignores (Tx.Preserving I) .auditEvents] {suspended : Bool} :
    Tx.Keeps (Tx.Preserving I) (adminSetUserSuspended env actor suspended now) := by
  unfold adminSetUserSuspended
  refine Tx.keeps_get_then fun s hs => Tx.keeps_okOr_then fun account hacc => ?_
  have := fun a' => ha.write_active hs hacc a'
  infer_instance

instance accounting_adminRevokeUserSessions [Ignores (Tx.Preserving I) .devices]
    [Ignores (Tx.Preserving I) .auditEvents] :
    Tx.Keeps (Tx.Preserving I) (adminRevokeUserSessions env actor now) := by
  unfold adminRevokeUserSessions; infer_instance

end

/-! ## Invariants of the accounts alone -/

/-- `I` only looks at the accounts. -/
class OnAccounts (I : World → Prop) : Prop where
  same : ∀ {w w' : World}, w'.accounts = w.accounts → I w → I w'

section
variable {I : World → Prop} [hI : OnAccounts I]

instance onAccounts_ignores (f : Field) [hf : Has f ([.profilePrivacy, .preferredPresence, .byEmail,
    .byUsername] ++ sessionFields ++ socialFields ++ groupFields ++ contentFields ++
      [.messages, .messageDedup])] : Ignores (Tx.Preserving I) f where
  set w x h := by
    have hne : Field.accounts ≠ f := by rintro rfl; exact absurd hf.mem (by decide)
    exact hI.same (same_set hne w x) h

instance onAccounts_logged {env : Env} : Logged env (Tx.Preserving I) :=
  logged_of fun ho _ h => hI.same (ho .accounts (by decide)) h

end

/-! ## Account ids are drawn -/

/-- The user has no account. -/
def NoAccount (v : UserId) (w : World) : Prop := w.accounts.get v = none

section
variable {v : UserId}

instance noAccount_onAccounts : OnAccounts (NoAccount v) where
  same hsame h := by
    unfold NoAccount
    rw [hsame]
    exact h

theorem noAccount_insert {u : UserId} (hne : v ≠ u) (a : Account) :
    Tx.Keeps (Tx.Preserving (NoAccount v))
      (update .accounts fun w => w.accounts.insert u a) :=
  Tx.keeps_modify fun _ hw => (Map.get_insert_ne hne).trans hw

/-- Writing an account that was read does not give `v` one. -/
theorem noAccount_write {s : World} {u : UserId} {a : Account} (hs : NoAccount v s)
    (hu : s.accounts.get u = some a) (a' : Account) : Tx.Keeps (Tx.Preserving (NoAccount v))
      (update .accounts fun w => w.accounts.insert u a') := by
  refine noAccount_insert ?_ a'
  rintro rfl
  rw [hs] at hu
  cases hu

instance noAccount_accounting : Accounting (NoAccount v) where
  write_active hs hacc a' := noAccount_write hs (activeAccount_some.mp hacc).1 a'
  write_same hs hacc a' _ _ := noAccount_write hs hacc a'
  access _ _ _ := inferInstance
  refresh _ _ _ := inferInstance
  revoke _ := by unfold revokeTokens; infer_instance
  consume _ := inferInstance

instance noAccount_updateProfile {env : Env} {userId : UserId} {input : UpdateProfileInput}
    {utcNow now : DateTime} :
    Tx.Keeps (Tx.Preserving (NoAccount v)) (updateProfile env userId input utcNow now) := by
  unfold updateProfile
  refine Tx.keeps_get_then fun s hs => Tx.keeps_then inferInstance fun _ =>
    Tx.keeps_okOr_then fun account hacc => ?_
  have := fun a' => noAccount_write hs hacc a'
  infer_instance

instance noAccount_deleteAccount {env : Env} {actor : UserId}
    {currentPassword confirmation : String} {now : DateTime} :
    Tx.Keeps (Tx.Preserving (NoAccount v))
      (deleteAccount env actor currentPassword confirmation now) := by
  have : Tx.Keeps (Tx.Preserving (NoAccount v)) (anonymizeAccount actor now) := by
    unfold anonymizeAccount
    refine Tx.keeps_get_then fun s hs => Tx.keeps_okOr_then fun account hacc => ?_
    have := fun a' => noAccount_write hs hacc a'
    infer_instance
  unfold deleteAccount deleteAccountInStore; infer_instance

/-- Only a registration makes an account. -/
theorem NoAccount.step {env : Env} {op : Op} {w w' : World} (hs : (op.run env).Runs w () w')
    (hop : ∀ input now, op ≠ .register input now) (h : NoAccount v w) : NoAccount v w' := by
  cases op
  case register input now => exact absurd rfl (hop input now)
  all_goals
    dsimp only [Op.run] at hs
    exact Tx.Keeps.runs (R := Tx.Preserving (NoAccount v)) hs h

/-- A registration makes an account for an id it draws. -/
theorem NoAccount.register {env : Env} {input : RegisterInput} {now : DateTime} {w w' : World}
    {a : AuthenticatedSession} (h : NoAccount v w)
    (hr : (register env input now).Runs w a w') :
    NoAccount v w' ∨ ∃ k < w'.nextUuid, v = env.uuid k := by
  simp only [IamRust.register, check_bind_runs, Tx.runs_bind (t := hashPassword env _),
    Tx.runs_bind (t := newUuid env), newUuid_runs] at hr
  obtain ⟨-, -, -, -, -, -, _, w₁, hhash, _, _, ⟨rfl, rfl⟩, _, _, ⟨rfl, rfl⟩, hr⟩ := hr
  by_cases hv : v = env.uuid w₁.nextUuid
  · refine .inr ⟨w₁.nextUuid, ?_, hv⟩
    have hdraws := (Tx.Keeps.runs (R := Evolves recordFields) hr).uuids
    have : w₁.nextUuid + 1 + 1 ≤ w'.nextUuid := hdraws
    omega
  · have := noAccount_insert hv
    have h₁ : NoAccount v w₁ := Tx.Keeps.runs (R := Tx.Preserving (NoAccount v)) hhash h
    exact .inl (Tx.Keeps.runs (R := Tx.Preserving (NoAccount v)) hr h₁)

end

/-- The ids of the accounts were drawn. -/
def AccountsDrawn (env : Env) (w : World) : Prop :=
  ∀ v a, w.accounts.get v = some a → ∃ k < w.nextUuid, v = env.uuid k

theorem accountsDrawn_inductive (env : Env) : (service env).Inductive (AccountsDrawn env) where
  init w h := by
    subst h
    intro v a ha
    rw [show World.init.accounts.get v = none from Map.get_empty v] at ha
    cases ha
  step w op w' h hs := by
    intro v a ha
    have hgrow : w.nextUuid ≤ w'.nextUuid := ((op.evolves env).runs hs).uuids
    cases hv : w.accounts.get v with
    | some a₀ =>
      obtain ⟨k, hk, hid⟩ := h v a₀ hv
      exact ⟨k, by omega, hid⟩
    | none =>
      -- a new account: the step is a registration
      have hnew : NoAccount v w' ∨ ∃ k < w'.nextUuid, v = env.uuid k := by
        by_cases hop : ∃ input now, op = .register input now
        · obtain ⟨input, now, rfl⟩ := hop
          obtain ⟨session, hr⟩ := Tx.runs_void.mp hs
          exact NoAccount.register hv hr
        · exact .inl (NoAccount.step hs (fun input now he => hop ⟨input, now, he⟩) hv)
      rcases hnew with hnone | hdrawn
      · rw [hnone] at ha
        cases ha
      · exact hdrawn

theorem accounts_drawn {env : Env} {w : World} (h : (service env).Reachable w) :
    AccountsDrawn env w := (accountsDrawn_inductive env).reachable h

end IamRust
