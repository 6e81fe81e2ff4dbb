import IamRust.L4Properties.AccountKeys

/-!
# Tokens and sessions

What a transaction can do to the tables of tokens is one `Effect`: it uses up a
refresh token, revokes the tokens a test picks, and issues the two tokens of a
session, in that order. `Op.effect` finds the effect of every transaction; the
rest follows from it.

* `Backed`: what an unrevoked token stands for, an account that is neither
  deleted nor suspended and a device of that account that is not revoked.
* `revocation_holds`: it does so in every reachable store.
-/
namespace IamRust

open Core
open Core.Tx (failIf okOr ofExcept whenTrue whenSome forEach mapEach)

/-! ## Standing -/

/-- The user has an account, not deleted and not suspended. -/
def InGoodStanding (u : UserId) (w : World) : Prop :=
  ∃ a, w.accounts.get u = some a ∧ a.deletedAt = none ∧ a.suspended = false

/-- The device is one of the user's and not revoked. -/
def DeviceInUse (d : DeviceId) (u : UserId) (w : World) : Prop :=
  ∃ device, w.devices.get d = some device ∧ device.userId = u ∧ device.revokedAt = none

/-- The identifier was drawn. -/
def Drawn (env : Env) (id : Uuid) (w : World) : Prop := ∃ k < w.nextUuid, id = env.uuid k

/-- What an unrevoked token stands for. -/
structure Backed (env : Env) (r : TokenRecord) (w : World) : Prop where
  account : InGoodStanding r.userId w
  device : DeviceInUse r.deviceId r.userId w
  drawn : Drawn env r.deviceId w

theorem Drawn.mono {env : Env} {id : Uuid} {w w' : World} (h : Drawn env id w)
    (hle : w.nextUuid ≤ w'.nextUuid) : Drawn env id w' := by
  obtain ⟨k, hk, hid⟩ := h
  exact ⟨k, by omega, hid⟩

/-- What is drawn from now on is something else. -/
theorem Drawn.ne {env : Env} (hu : Function.Injective env.uuid) {id : Uuid} {w : World}
    (h : Drawn env id w) {k : Nat} (hk : w.nextUuid ≤ k) : id ≠ env.uuid k := by
  obtain ⟨j, hj, rfl⟩ := h
  intro he
  have := hu he
  omega

/-! ### Operations that keep it -/

instance standing_onAccounts {u : UserId} : OnAccounts (InGoodStanding u) where
  same hsame h := by
    unfold InGoodStanding
    rw [hsame]
    exact h

/-- `I` allows an account that was read to be written back, as deleted and as suspended as it
was. -/
class Standing (I : World → Prop) : Prop where
  write : ∀ {s : World} {v a}, I s → s.accounts.get v = some a → ∀ a' : Account,
    a'.deletedAt = a.deletedAt → a'.suspended = a.suspended →
    Tx.Keeps (Tx.Preserving I) (update .accounts fun w => w.accounts.insert v a')

instance standing_inGoodStanding {u : UserId} : Standing (InGoodStanding u) where
  write {s v a} hs hv a' hd hb := by
    refine Tx.keeps_modify fun w hw => ?_
    show ∃ b, (w.accounts.insert v a').get u = some b ∧ _
    by_cases hvu : u = v
    · subst hvu
      obtain ⟨b, hb', hdel, hsus⟩ := hs
      cases hv.symm.trans hb'
      exact ⟨a', Map.get_insert_self .., hd.trans hdel, hb.trans hsus⟩
    · rw [Map.get_insert_ne hvu]
      exact hw

section

set_option synthInstance.maxSize 1000000000000

variable {env : Env} {actor : UserId} {now : DateTime} {I : World → Prop} [OnAccounts I]
  [hI : Standing I]

instance standing_beginSecondFactorSetup :
    Tx.Keeps (Tx.Preserving I) (beginSecondFactorSetup env actor now) := by
  unfold beginSecondFactorSetup
  refine Tx.keeps_then inferInstance fun secret => Tx.keeps_then inferInstance fun encrypted =>
    Tx.keeps_get_then fun s hs => Tx.keeps_okOr_then fun account hacc => ?_
  have := fun p => hI.write hs (activeAccount_some.mp hacc).1
    { account with pendingSecondFactor := p } rfl rfl
  infer_instance

instance standing_enableSecondFactor {code : String} :
    Tx.Keeps (Tx.Preserving I) (enableSecondFactor env actor code now) := by
  unfold enableSecondFactor
  refine Tx.keeps_get_then fun s hs => Tx.keeps_okOr_then fun account hacc => ?_
  have := fun f => hI.write hs (activeAccount_some.mp hacc).1
    { account with secondFactor := f, pendingSecondFactor := none } rfl rfl
  infer_instance

instance standing_disableSecondFactor {currentPassword code : String} :
    Tx.Keeps (Tx.Preserving I)
      (disableSecondFactor env actor currentPassword code now) := by
  unfold disableSecondFactor
  refine Tx.keeps_get_then fun s hs => Tx.keeps_okOr_then fun account hacc =>
    Tx.keeps_then inferInstance fun _ => Tx.keeps_ofExcept_then fun checked hchecked => ?_
  obtain ⟨_, rfl⟩ := verifySecondFactor_ok hchecked
  exact hI.write hs (activeAccount_some.mp hacc).1 _ rfl rfl

instance standing_regenerateRecoveryCodes {currentPassword code : String} :
    Tx.Keeps (Tx.Preserving I)
      (regenerateRecoveryCodes env actor currentPassword code now) := by
  unfold regenerateRecoveryCodes
  refine Tx.keeps_get_then fun s hs => Tx.keeps_okOr_then fun account hacc =>
    Tx.keeps_then inferInstance fun _ => Tx.keeps_ofExcept_then fun checked hchecked => ?_
  obtain ⟨_, rfl⟩ := verifySecondFactor_ok hchecked
  have := fun f => hI.write hs (activeAccount_some.mp hacc).1
    { account with secondFactor := f } rfl rfl
  infer_instance

instance standing_setConnectionPresence {connected : Bool} :
    Tx.Keeps (Tx.Preserving I)
      (setConnectionPresence env actor connected now) := by
  unfold setConnectionPresence
  refine Tx.keeps_get_then fun s hs => Tx.keeps_okOr_then fun account hacc => ?_
  have := fun p => hI.write hs (activeAccount_some.mp hacc).1
    { account with profile := p } rfl rfl
  infer_instance

instance standing_updateProfile {input : UpdateProfileInput} {utcNow : DateTime} :
    Tx.Keeps (Tx.Preserving I) (updateProfile env actor input utcNow now) := by
  unfold updateProfile
  refine Tx.keeps_get_then fun s hs => Tx.keeps_then inferInstance fun _ =>
    Tx.keeps_okOr_then fun account hacc => ?_
  have := fun p => hI.write hs hacc
    { account with profile := p } rfl rfl
  infer_instance

end

/-! ## The effect of a transaction -/

/-- A session handed out. -/
structure Issue where
  accessToken : String
  refreshToken : String
  userId : UserId
  deviceId : DeviceId
  familyId : Uuid
  accessExpiresAt : DateTime
  refreshExpiresAt : DateTime

def Issue.access (i : Issue) : TokenRecord :=
  ⟨i.userId, i.deviceId, i.familyId, i.accessExpiresAt, false⟩

def Issue.refresh (i : Issue) : TokenRecord :=
  ⟨i.userId, i.deviceId, i.familyId, i.refreshExpiresAt, false⟩

def revokeIf (p : TokenRecord → Bool) (r : TokenRecord) : TokenRecord :=
  if p r then { r with revoked := true } else r

/-- `used`: the key and the family of the refresh token that is used up. -/
structure Effect where
  used : Option (String × Uuid)
  revoked : Option (TokenRecord → Bool)
  issued : Option Issue

namespace Effect

def nothing : Effect := ⟨none, none, none⟩

def revoking (p : TokenRecord → Bool) : Effect := ⟨none, some p, none⟩

def issuing (i : Issue) : Effect := ⟨none, none, some i⟩

/-- What a record becomes. -/
def onRecord (e : Effect) (r : TokenRecord) : TokenRecord :=
  match e.revoked with
  | none => r
  | some p => revokeIf p r

def onTable (e : Effect) (m : Map String TokenRecord) : Map String TokenRecord :=
  match e.revoked with
  | none => m
  | some p => m.mapValues (revokeIf p)

def onAccess (env : Env) (e : Effect) (m : Map String TokenRecord) : Map String TokenRecord :=
  match e.issued with
  | none => e.onTable m
  | some i => (e.onTable m).insert (hashToken env i.accessToken) i.access

def onRefresh (env : Env) (e : Effect) (m : Map String TokenRecord) : Map String TokenRecord :=
  let left := e.onTable (match e.used with
    | none => m
    | some (key, _) => m.remove key)
  match e.issued with
  | none => left
  | some i => left.insert (hashToken env i.refreshToken) i.refresh

def onConsumed (e : Effect) (m : Map String Uuid) : Map String Uuid :=
  match e.used with
  | none => m
  | some (key, family) => m.insert key family

/-- The records it leaves as they are. -/
def Spares (e : Effect) (r : TokenRecord) : Prop := ∀ p ∈ e.revoked, p r = false

end Effect

/-- The token of the `n`-th draw. -/
def tokenText (env : Env) (n : Nat) : String := Text.toHex (env.randomBytes n 32)

/-- A new family, for an account in good standing and a device it has just got. -/
def NewFamily (env : Env) (w w' : World) (e : Effect) (i : Issue) : Prop :=
  e.used = none ∧ e.revoked = none ∧
  (∃ k, w.nextUuid ≤ k ∧ k < w'.nextUuid ∧ i.familyId = env.uuid k) ∧ Backed env i.access w'

/-- The next tokens of a family, for an unrevoked refresh token that was not used before. -/
def NextOfFamily (w : World) (e : Effect) (i : Issue) : Prop :=
  ∃ key r, e.used = some (key, r.familyId) ∧ e.revoked = none ∧
    w.refreshTokens.get key = some r ∧ r.revoked = false ∧
    w.consumedRefreshTokens.get key = none ∧
    i.userId = r.userId ∧ i.deviceId = r.deviceId ∧ i.familyId = r.familyId

/-- The transaction that leads from `w` to `w'` has the effect `e`. -/
structure TokenStep (env : Env) (w w' : World) (e : Effect) : Prop where
  access : w'.accessTokens = e.onAccess env w.accessTokens
  refresh : w'.refreshTokens = e.onRefresh env w.refreshTokens
  consumed : w'.consumedRefreshTokens = e.onConsumed w.consumedRefreshTokens
  used : ∀ key family, e.used = some (key, family) →
    ∃ r, w.refreshTokens.get key = some r ∧ r.familyId = family
  tokens : ∀ i, e.issued = some i → ∃ n, w.nextRandom ≤ n ∧ n + 2 ≤ w'.nextRandom ∧
    i.accessToken = tokenText env n ∧ i.refreshToken = tokenText env (n + 1)
  source : ∀ i, e.issued = some i → NewFamily env w w' e i ∨ NextOfFamily w e i
  backed : ∀ r, e.Spares r → Backed env r w → Backed env r w'
  uuids : w.nextUuid ≤ w'.nextUuid
  randoms : w.nextRandom ≤ w'.nextRandom

/-! ### The transactions that touch the tables -/

section
variable {env : Env} {w w' : World}

theorem randomToken_runs {token : String} : (randomToken env).Runs w token w' ↔
    token = tokenText env w.nextRandom ∧ w' = w.set .nextRandom (w.nextRandom + 1) := by
  unfold randomToken
  simp only [Tx.runs_bind, fillBytes_runs, Tx.runs_pure]
  constructor
  · rintro ⟨_, _, ⟨rfl, rfl⟩, rfl, rfl⟩
    exact ⟨rfl, rfl⟩
  · rintro ⟨rfl, rfl⟩
    exact ⟨_, _, ⟨rfl, rfl⟩, rfl, rfl⟩

/-- The session a run of `issueSessionInFamily` hands out. -/
def sessionIssue (env : Env) (w : World) (userId : UserId) (deviceId : DeviceId) (now : DateTime)
    (familyId : Uuid) : Issue where
  accessToken := tokenText env w.nextRandom
  refreshToken := tokenText env (w.nextRandom + 1)
  userId := userId
  deviceId := deviceId
  familyId := familyId
  accessExpiresAt := now + Duration.minutes accessTokenMinutes
  refreshExpiresAt := now + Duration.days refreshTokenDays

def Issue.session (i : Issue) (profile : UserProfile) : AuthenticatedSession :=
  ⟨i.accessToken, i.refreshToken, i.accessExpiresAt, i.refreshExpiresAt, profile, i.deviceId⟩

theorem issueSessionInFamily_runs {userId : UserId} {deviceId : DeviceId} {profile : UserProfile}
    {now : DateTime} {familyId : Uuid} {session : AuthenticatedSession} :
    (issueSessionInFamily env userId deviceId profile now familyId).Runs w session w' ↔
      session = (sessionIssue env w userId deviceId now familyId).session profile ∧
      w' = { w with
        nextRandom := w.nextRandom + 2
        accessTokens := w.accessTokens.insert (hashToken env (tokenText env w.nextRandom))
          (sessionIssue env w userId deviceId now familyId).access
        refreshTokens := w.refreshTokens.insert (hashToken env (tokenText env (w.nextRandom + 1)))
          (sessionIssue env w userId deviceId now familyId).refresh } := by
  unfold issueSessionInFamily
  simp only [Tx.runs_bind (t := randomToken env), randomToken_runs, update_bind_runs, Tx.runs_pure]
  constructor
  · rintro ⟨_, _, ⟨rfl, rfl⟩, _, _, ⟨rfl, rfl⟩, rfl, rfl⟩
    exact ⟨rfl, rfl⟩
  · rintro ⟨rfl, rfl⟩
    exact ⟨_, _, ⟨rfl, rfl⟩, _, _, ⟨rfl, rfl⟩, rfl, rfl⟩

theorem revokeTokens_runs {p : TokenRecord → Bool} {u : Unit} :
    (revokeTokens p).Runs w u w' ↔ w' = { w with
      accessTokens := w.accessTokens.mapValues (revokeIf p)
      refreshTokens := w.refreshTokens.mapValues (revokeIf p) } := by
  unfold revokeTokens
  simp only [update_bind_runs, update_runs]
  rfl

/-- The user's devices are marked revoked. -/
def revokeDevices (userId : UserId) (revokedAt : DateTime) (device : DeviceRecord) : DeviceRecord :=
  if device.userId = userId then { device with revokedAt := some revokedAt } else device

theorem revokeUserSessions_runs {userId : UserId} {revokedAt : Option DateTime} {u : Unit} :
    (revokeUserSessions userId revokedAt).Runs w u w' ↔ w' = { w with
      accessTokens := w.accessTokens.mapValues (revokeIf fun r => r.userId == userId)
      refreshTokens := w.refreshTokens.mapValues (revokeIf fun r => r.userId == userId)
      devices := match revokedAt with
        | none => w.devices
        | some t => w.devices.mapValues (revokeDevices userId t) } := by
  unfold revokeUserSessions
  simp only [Tx.runs_bind, revokeTokens_runs, Tx.runs_whenSome, update_runs]
  cases revokedAt with
  | none =>
    constructor
    · rintro ⟨_, _, rfl, ⟨_, hnone, -⟩ | ⟨-, rfl⟩⟩
      · cases hnone
      · rfl
    · rintro rfl
      exact ⟨(), _, rfl, .inr ⟨rfl, rfl⟩⟩
  | some t =>
    constructor
    · rintro ⟨_, _, rfl, ⟨_, hsome, rfl⟩ | ⟨hnone, -⟩⟩
      · cases hsome
        rfl
      · cases hnone
    · rintro rfl
      exact ⟨(), _, rfl, .inl ⟨t, rfl, rfl⟩⟩

/-! Accounts and devices behind a token. -/

variable {r : TokenRecord}

theorem Backed.mono (h : Backed env r w)
    (ha : InGoodStanding r.userId w → InGoodStanding r.userId w')
    (hd : DeviceInUse r.deviceId r.userId w → DeviceInUse r.deviceId r.userId w')
    (hn : w.nextUuid ≤ w'.nextUuid) : Backed env r w' :=
  ⟨ha h.account, hd h.device, h.drawn.mono hn⟩

theorem Backed.of_same (h : Backed env r w) (ha : w'.accounts = w.accounts)
    (hd : w'.devices = w.devices) (hn : w.nextUuid ≤ w'.nextUuid) : Backed env r w' :=
  h.mono (fun hs => by unfold InGoodStanding; rw [ha]; exact hs)
    (fun hu => by unfold DeviceInUse; rw [hd]; exact hu) hn

theorem standing_insert {u v : UserId} {a : Account} (hw : w'.accounts = w.accounts.insert v a)
    (hd : a.deletedAt = none) (hs : a.suspended = false) (h : InGoodStanding u w) :
    InGoodStanding u w' := by
  unfold InGoodStanding
  rw [hw]
  by_cases hu : u = v
  · exact ⟨a, by rw [hu, Map.get_insert_self], hd, hs⟩
  · rw [Map.get_insert_ne hu]
    exact h

/-- Another account is written. -/
theorem standing_insert_ne {u v : UserId} {a : Account}
    (hw : w'.accounts = w.accounts.insert v a) (hne : u ≠ v) (h : InGoodStanding u w) :
    InGoodStanding u w' := by
  unfold InGoodStanding
  rw [hw, Map.get_insert_ne hne]
  exact h

theorem deviceInUse_insert_ne {d d' : DeviceId} {u : UserId} {device : DeviceRecord}
    (hw : w'.devices = w.devices.insert d' device) (hne : d ≠ d') (h : DeviceInUse d u w) :
    DeviceInUse d u w' := by
  unfold DeviceInUse
  rw [hw, Map.get_insert_ne hne]
  exact h

/-- The devices of another user are revoked. -/
theorem deviceInUse_revoked {d : DeviceId} {u v : UserId} {t : DateTime}
    (hw : w'.devices = w.devices.mapValues (revokeDevices v t)) (hne : u ≠ v)
    (h : DeviceInUse d u w) : DeviceInUse d u w' := by
  obtain ⟨device, hd, hu, hr⟩ := h
  refine ⟨device, ?_, hu, hr⟩
  rw [hw, Map.get_mapValues, hd, Option.map_some, revokeDevices, if_neg (by rw [hu]; exact hne)]

/-! One lemma for each transaction that touches the tables. -/

variable {session : AuthenticatedSession}

variable (w) in
/-- A session of a new family, from a world that has the account and the new device. -/
theorem issueSession_effect {w₁ : World} {userId : UserId} {deviceId : DeviceId}
    {profile : UserProfile} {now : DateTime}
    (h : (issueSession env userId deviceId profile now).Runs w₁ session w')
    (haccess : w₁.accessTokens = w.accessTokens) (hrefresh : w₁.refreshTokens = w.refreshTokens)
    (hconsumed : w₁.consumedRefreshTokens = w.consumedRefreshTokens)
    (huuid : w.nextUuid ≤ w₁.nextUuid) (hrandom : w.nextRandom ≤ w₁.nextRandom)
    (haccount : InGoodStanding userId w₁) (hdevice : DeviceInUse deviceId userId w₁)
    (hdrawn : Drawn env deviceId w₁) (hbacked : ∀ r, Backed env r w → Backed env r w₁) :
    ∃ i, session = i.session profile ∧ i.userId = userId ∧ TokenStep env w w' (.issuing i) := by
  unfold issueSession at h
  simp only [Tx.runs_bind, newUuid_runs, issueSessionInFamily_runs] at h
  obtain ⟨_, _, ⟨rfl, rfl⟩, rfl, rfl⟩ := h
  refine ⟨_, rfl, rfl, ?_⟩
  constructor
  case access =>
    rw [← haccess]
    rfl
  case refresh =>
    rw [← hrefresh]
    rfl
  case consumed => exact hconsumed
  case used =>
    intro key family he
    cases he
  case tokens =>
    rintro i ⟨⟩
    exact ⟨w₁.nextRandom, hrandom, Nat.le_refl _, rfl, rfl⟩
  case source =>
    rintro i ⟨⟩
    refine .inl ⟨rfl, rfl, ⟨w₁.nextUuid, huuid, Nat.lt_succ_self _, rfl⟩, haccount, hdevice, ?_⟩
    exact hdrawn.mono (Nat.le_succ _)
  case backed =>
    intro r _ hr
    exact (hbacked r hr).mono (fun h => h) (fun h => h) (Nat.le_succ _)
  case uuids => exact Nat.le_succ_of_le huuid
  case randoms => exact hrandom.trans (Nat.le_add_right _ 2)

/-- A device that was drawn last is new. -/
theorem backed_newDevice (hu : Function.Injective env.uuid) {w₁ : World} {k : Nat}
    {device : DeviceRecord} (hk : w.nextUuid ≤ k) (huuid : w.nextUuid ≤ w₁.nextUuid)
    (hdevices : w₁.devices = w.devices.insert (env.uuid k) device)
    (haccounts : ∀ u, InGoodStanding u w → InGoodStanding u w₁) (r : TokenRecord)
    (h : Backed env r w) : Backed env r w₁ :=
  h.mono (haccounts _) (deviceInUse_insert_ne hdevices (h.drawn.ne hu hk)) huuid

theorem register_effect (hu : Function.Injective env.uuid) {input : RegisterInput} {now : DateTime}
    (h : (register env input now).Runs w session w') :
    ∃ i profile, session = i.session profile ∧ i.userId = env.uuid w.nextUuid ∧
      TokenStep env w w' (.issuing i) := by
  unfold register at h
  simp only [check_bind_runs, Tx.runs_bind (t := hashPassword env _),
    Tx.runs_bind (t := newUuid env), hashPassword_runs, newUuid_runs, Tx.runs_get_bind,
    Tx.runs_failIf_bind, update_bind_runs, World.set] at h
  obtain ⟨-, -, -, -, -, -, _, _, ⟨-, rfl⟩, _, _, ⟨rfl, rfl⟩, _, _, ⟨rfl, rfl⟩, -, h⟩ := h
  dsimp only at h
  obtain ⟨i, hsession, huser, hstep⟩ := issueSession_effect w h rfl rfl rfl
    (Nat.le_succ_of_le (Nat.le_succ _)) (Nat.le_succ _)
    ⟨_, Map.get_insert_self .., rfl, rfl⟩ ⟨_, Map.get_insert_self .., rfl, rfl⟩
    ⟨w.nextUuid + 1, Nat.lt_succ_self _, rfl⟩
    (fun r hr => backed_newDevice hu (Nat.le_succ _) (Nat.le_succ_of_le (Nat.le_succ _)) rfl
      (fun u => standing_insert rfl rfl rfl) r hr)
  exact ⟨i, _, hsession, huser, hstep⟩

theorem login_effect (hu : Function.Injective env.uuid) {input : LoginInput} {code : Option String}
    {now : DateTime} (h : (loginWithSecondFactor env input code now).Runs w session w') :
    ∃ i profile, session = i.session profile ∧
      (w.byEmail.get (Text.toAsciiLowercase (Text.trim input.login))).or
        (w.byUsername.get (Text.toAsciiLowercase (Text.trim input.login))) = some i.userId ∧
      TokenStep env w w' (.issuing i) := by
  unfold loginWithSecondFactor at h
  simp only [check_bind_runs, Tx.runs_get_bind, Tx.runs_okOr_bind, Tx.runs_failIf_bind,
    Tx.runs_ofExcept_bind, Tx.runs_bind (t := newUuid env), newUuid_runs, update_bind_runs,
    World.set] at h
  obtain ⟨-, -, userId, huser, account, haccount, -, checked, hchecked, _, _, ⟨rfl, rfl⟩, h⟩ := h
  dsimp only at h
  rw [Option.filter_eq_some_iff] at haccount
  simp only [Bool.and_eq_true, Option.isNone_iff_eq_none, Bool.not_eq_true'] at haccount
  obtain ⟨hget, hdeleted, hsuspended⟩ := haccount
  obtain ⟨state, rfl⟩ := verifySecondFactor_ok hchecked
  obtain ⟨i, hsession, hiu, hstep⟩ := issueSession_effect w h rfl rfl rfl
    (Nat.le_succ w.nextUuid) (Nat.le_refl w.nextRandom)
    ⟨_, Map.get_insert_self .., hdeleted, hsuspended⟩
    ⟨_, Map.get_insert_self .., rfl, rfl⟩ ⟨w.nextUuid, Nat.lt_succ_self _, rfl⟩
    (fun r hr => by
      refine backed_newDevice hu (Nat.le_refl w.nextUuid) (Nat.le_succ w.nextUuid) rfl
        (fun u => standing_insert rfl ?_ ?_) r hr
      · exact hdeleted
      · exact hsuspended)
  exact ⟨i, _, hsession, hiu ▸ huser, hstep⟩

theorem pollQrLogin_effect (hu : Function.Injective env.uuid) {userId : UserId}
    {deviceName platform appVersion : String} {now : DateTime}
    (h : (pollQrLogin env userId deviceName platform appVersion now).Runs w session w') :
    InGoodStanding userId w ∧ ∃ i profile, session = i.session profile ∧ i.userId = userId ∧
      TokenStep env w w' (.issuing i) := by
  unfold pollQrLogin at h
  simp only [Tx.runs_get_bind, Tx.runs_okOr_bind, Tx.runs_bind (t := newUuid env), newUuid_runs,
    update_bind_runs, World.set] at h
  obtain ⟨account, haccount, _, _, ⟨rfl, rfl⟩, h⟩ := h
  dsimp only at h
  rw [Option.filter_eq_some_iff] at haccount
  simp only [Bool.and_eq_true, Option.isNone_iff_eq_none, Bool.not_eq_true'] at haccount
  obtain ⟨hget, hdeleted, hsuspended⟩ := haccount
  obtain ⟨i, hsession, hi, hstep⟩ := issueSession_effect w h rfl rfl rfl
    (Nat.le_succ w.nextUuid) (Nat.le_refl w.nextRandom) ⟨_, hget, hdeleted, hsuspended⟩
    ⟨_, Map.get_insert_self .., rfl, rfl⟩ ⟨w.nextUuid, Nat.lt_succ_self _, rfl⟩ (fun r hr => by
      refine backed_newDevice hu (Nat.le_refl w.nextUuid) (Nat.le_succ w.nextUuid) rfl
        (fun u => ?_) r hr
      exact fun h => h)
  exact ⟨⟨_, hget, hdeleted, hsuspended⟩, i, _, hsession, hi, hstep⟩

/-- What `refresh` does: it reports the reuse of a used token and revokes its family, or it
exchanges an unrevoked one. -/
theorem refresh_effect {token : String} {now : DateTime}
    {result : Except ApplicationError AuthenticatedSession}
    (h : (refresh env token now).Runs w result w') :
    (∃ family, w.consumedRefreshTokens.get (hashToken env token) = some family ∧
      result = .error .refreshTokenReuse ∧
      w' = { w with
        accessTokens := w.accessTokens.mapValues (revokeIf fun r => family == r.familyId)
        refreshTokens := w.refreshTokens.mapValues (revokeIf fun r => family == r.familyId) }) ∨
    ∃ r i profile, w.refreshTokens.get (hashToken env token) = some r ∧ now < r.expiresAt ∧
      result = .ok (i.session profile) ∧ NextOfFamily w ⟨some (hashToken env token, r.familyId),
        none, some i⟩ i ∧
      TokenStep env w w' ⟨some (hashToken env token, r.familyId), none, some i⟩ ∧
      w'.nextRandom = w.nextRandom + 2 := by
  unfold refresh at h
  rw [Tx.runs_get_bind] at h
  split at h
  · rename_i hused
    obtain ⟨family, hfamily⟩ := Option.isSome_iff_exists.mp hused
    simp only [hfamily, whenSome, Tx.runs_bind, Tx.runs_pure] at h
    obtain ⟨_, _, hrevoke, rfl, rfl⟩ := h
    exact .inl ⟨family, hfamily, rfl, revokeTokens_runs.mp hrevoke⟩
  · rename_i hused
    replace hused := Option.not_isSome_iff_eq_none.mp hused
    simp only [Tx.runs_okOr_bind, Tx.runs_failIf_bind, update_bind_runs, World.set,
      Tx.runs_bind (t := issueSessionInFamily env _ _ _ _ _), issueSessionInFamily_runs,
      Tx.runs_pure] at h
    obtain ⟨r, hr, hvalid, account, -, _, _, ⟨rfl, rfl⟩, rfl, rfl⟩ := h
    simp only [not_or, Bool.not_eq_true, Int.not_le] at hvalid
    refine .inr ⟨r, _, _, hr, hvalid.2, rfl, ?_, ?_, rfl⟩
    · exact ⟨_, r, rfl, rfl, hr, hvalid.1, hused, rfl, rfl, rfl⟩
    · constructor
      case access => rfl
      case refresh => rfl
      case consumed => rfl
      case used =>
        rintro key family ⟨⟩
        exact ⟨r, hr, rfl⟩
      case tokens =>
        rintro i ⟨⟩
        exact ⟨w.nextRandom, Nat.le_refl _, Nat.le_refl _, rfl, rfl⟩
      case source =>
        rintro i ⟨⟩
        exact .inr ⟨_, r, rfl, rfl, hr, hvalid.1, hused, rfl, rfl, rfl⟩
      case backed =>
        intro r' _ hr'
        exact hr'.mono (fun h => h) (fun h => h) (Nat.le_refl _)
      case uuids => exact Nat.le_refl _
      case randoms => exact Nat.le_add_right _ 2

/-- What `refresh` answers. -/
theorem refresh_answer {w : World} {token : String} {now : DateTime} :
    (refresh env token now w).map Prod.fst =
      match w.consumedRefreshTokens.get (hashToken env token) with
      | some _ => .ok (.error .refreshTokenReuse)
      | none =>
        match w.refreshTokens.get (hashToken env token) with
        | none => .error .unauthorized
        | some r =>
          if r.revoked ∨ r.expiresAt ≤ now then .error .sessionExpired
          else match w.activeAccount r.userId with
            | none => .error .unauthorized
            | some a => .ok (.ok ((sessionIssue env w r.userId r.deviceId now r.familyId).session
              a.profile)) := by
  unfold refresh
  change ((if (w.consumedRefreshTokens.get (hashToken env token)).isSome then _ else _ :
    Service (Except ApplicationError AuthenticatedSession)) w).map Prod.fst = _
  cases hc : w.consumedRefreshTokens.get (hashToken env token) with
  | some f => rfl
  | none =>
    simp only [Option.isSome_none, Bool.false_eq_true, if_false]
    cases hr : w.refreshTokens.get (hashToken env token) with
    | none => rfl
    | some r =>
      dsimp only
      by_cases hv : r.revoked ∨ r.expiresAt ≤ now
      · rw [if_pos hv]
        change ((failIf (r.revoked ∨ r.expiresAt ≤ now) .sessionExpired >>= fun _ => _ :
          Service (Except ApplicationError AuthenticatedSession)) _).map Prod.fst = _
        rw [failIf, if_pos hv]
        rfl
      · rw [if_neg hv]
        change ((failIf (r.revoked ∨ r.expiresAt ≤ now) .sessionExpired >>= fun _ => _ :
          Service (Except ApplicationError AuthenticatedSession)) _).map Prod.fst = _
        rw [failIf, if_neg hv]
        change ((okOr (w.activeAccount r.userId) .unauthorized >>= fun _ => _ :
          Service (Except ApplicationError AuthenticatedSession)) _).map Prod.fst = _
        cases ha : w.activeAccount r.userId <;> rfl

/-- What `logout` does: nothing, if the token is not a current one. -/
theorem logout_effect {token : String} {u : Unit} (h : (logout env token).Runs w u w') :
    (w.refreshTokens.get (hashToken env token) = none ∧ w' = w) ∨
    ∃ r, w.refreshTokens.get (hashToken env token) = some r ∧ w' = { w with
      accessTokens := w.accessTokens.mapValues (revokeIf fun t => r.familyId == t.familyId)
      refreshTokens := (w.refreshTokens.remove (hashToken env token)).mapValues
        (revokeIf fun t => r.familyId == t.familyId)
      consumedRefreshTokens := w.consumedRefreshTokens.insert (hashToken env token) r.familyId } := by
  unfold logout at h
  rw [Tx.runs_get_bind, Tx.runs_whenSome] at h
  rcases h with ⟨r, hr, h⟩ | ⟨hnone, rfl⟩
  · simp only [update_bind_runs, World.set, revokeFamily, Tx.runs_bind (t := revokeTokens _),
      revokeTokens_runs, update_runs] at h
    obtain ⟨_, _, rfl, rfl⟩ := h
    exact .inr ⟨r, hr, rfl⟩
  · exact .inl ⟨hnone, rfl⟩

theorem logout_step {key : String} {r : TokenRecord} (hr : w.refreshTokens.get key = some r) :
    TokenStep env w { w with
      accessTokens := w.accessTokens.mapValues (revokeIf fun t => r.familyId == t.familyId)
      refreshTokens := (w.refreshTokens.remove key).mapValues
        (revokeIf fun t => r.familyId == t.familyId)
      consumedRefreshTokens := w.consumedRefreshTokens.insert key r.familyId }
      ⟨some (key, r.familyId), some fun t => r.familyId == t.familyId, none⟩ where
  access := rfl
  refresh := rfl
  consumed := rfl
  used := by
    rintro _ _ ⟨⟩
    exact ⟨r, hr, rfl⟩
  tokens _ he := by cases he
  source _ he := by cases he
  backed _ _ hb := hb.of_same rfl rfl (Nat.le_refl _)
  uuids := Nat.le_refl _
  randoms := Nat.le_refl _

/-! The transactions that only revoke. -/

/-- Tokens are revoked, and what is spared stays backed. -/
theorem revoking_step {p : TokenRecord → Bool}
    (haccess : w'.accessTokens = w.accessTokens.mapValues (revokeIf p))
    (hrefresh : w'.refreshTokens = w.refreshTokens.mapValues (revokeIf p))
    (hconsumed : w'.consumedRefreshTokens = w.consumedRefreshTokens)
    (hbacked : ∀ r, p r = false → Backed env r w → Backed env r w')
    (huuid : w.nextUuid ≤ w'.nextUuid) (hrandom : w.nextRandom ≤ w'.nextRandom) :
    TokenStep env w w' (.revoking p) where
  access := haccess
  refresh := hrefresh
  consumed := hconsumed
  used _ _ he := by cases he
  tokens _ he := by cases he
  source _ he := by cases he
  backed r hr := hbacked r (hr p rfl)
  uuids := huuid
  randoms := hrandom

theorem revokeDevice_effect {actor : UserId} {deviceId : DeviceId} {now : DateTime} {u : Unit}
    (h : (revokeDevice actor deviceId now).Runs w u w') :
    TokenStep env w w' (.revoking fun r => r.deviceId == deviceId) := by
  unfold revokeDevice at h
  simp only [Tx.runs_get_bind, Tx.runs_okOr_bind, update_bind_runs, World.set,
    revokeTokens_runs] at h
  obtain ⟨device, -, rfl⟩ := h
  refine revoking_step rfl rfl rfl (fun r hr hb => ?_) (Nat.le_refl _) (Nat.le_refl _)
  refine hb.mono (fun h => h) (deviceInUse_insert_ne rfl ?_) (Nat.le_refl _)
  exact beq_eq_false_iff_ne.mp hr

variable (w) in
/-- Revoking the sessions of a user; the accounts of the others were left as they are. -/
theorem revokeUserSessions_step {w₁ : World} {userId : UserId} {revokedAt : Option DateTime}
    {u : Unit} (h : (revokeUserSessions userId revokedAt).Runs w₁ u w')
    (haccess : w₁.accessTokens = w.accessTokens) (hrefresh : w₁.refreshTokens = w.refreshTokens)
    (hconsumed : w₁.consumedRefreshTokens = w.consumedRefreshTokens)
    (hdevices : w₁.devices = w.devices)
    (hstanding : ∀ u, u ≠ userId → InGoodStanding u w → InGoodStanding u w₁)
    (huuid : w.nextUuid ≤ w₁.nextUuid) (hrandom : w.nextRandom ≤ w₁.nextRandom) :
    TokenStep env w w' (.revoking fun r => r.userId == userId) := by
  rw [revokeUserSessions_runs.mp h]
  refine revoking_step (by rw [← haccess]) (by rw [← hrefresh]) hconsumed (fun r hr hb => ?_)
    huuid hrandom
  have hne : r.userId ≠ userId := beq_eq_false_iff_ne.mp hr
  refine hb.mono (fun h => hstanding _ hne h) (fun hd => ?_) huuid
  cases revokedAt with
  | none => exact hdevices ▸ hd
  | some t => exact deviceInUse_revoked (by rw [← hdevices]) hne hd

theorem changePassword_effect {actor : UserId} {currentPassword newPassword : String} {u : Unit}
    (h : (changePassword env actor currentPassword newPassword).Runs w u w') :
    (∃ a, w.accounts.get actor = some a) ∧
      TokenStep env w w' (.revoking fun r => r.userId == actor) := by
  unfold changePassword at h
  simp only [check_bind_runs, Tx.runs_bind (t := hashPassword env _), hashPassword_runs,
    Tx.runs_get_bind, Tx.runs_okOr_bind, Tx.runs_failIf_bind, update_bind_runs, World.set] at h
  obtain ⟨-, _, _, ⟨-, rfl⟩, account, haccount, -, h⟩ := h
  dsimp only at h
  exact ⟨⟨account, haccount⟩, revokeUserSessions_step w h rfl rfl rfl rfl
    (fun v hv => standing_insert_ne rfl hv) (Nat.le_refl _) (Nat.le_succ _)⟩

theorem resetPassword_effect {token newPassword : String} {now : DateTime} {u : Unit}
    (h : (resetPassword env token newPassword now).Runs w u w') :
    ∃ reset, w.passwordResets.get (hashToken env token) = some reset ∧
      (∃ a, w.accounts.get reset.userId = some a) ∧
      TokenStep env w w' (.revoking fun r => r.userId == reset.userId) := by
  unfold resetPassword at h
  simp only [check_bind_runs, Tx.runs_bind (t := hashPassword env _), hashPassword_runs,
    Tx.runs_get_bind, Tx.runs_okOr_bind, Tx.runs_failIf_bind, update_bind_runs, World.set] at h
  obtain ⟨-, _, _, ⟨-, rfl⟩, reset, hreset, -, account, haccount, h⟩ := h
  dsimp only at h
  exact ⟨reset, hreset, ⟨account, haccount⟩, revokeUserSessions_step w h rfl rfl rfl rfl
    (fun v hv => standing_insert_ne rfl hv) (Nat.le_refl _) (Nat.le_succ _)⟩

/-- Footprint and draws of what comes behind a revocation. -/
theorem TokenStep.andThen {w₁ : World} {e : Effect} {fs : List Field}
    (h : TokenStep env w w₁ e) (hstep : Evolves fs w₁ w')
    (hfs : ∀ f ∈ [Field.accounts, .accessTokens, .refreshTokens, .consumedRefreshTokens, .devices],
      f ∉ fs ++ logFields) (hissued : e.issued = none) : TokenStep env w w' e := by
  have haccounts : w'.accounts = w₁.accounts := hstep.same .accounts (hfs _ (by simp))
  have haccess : w'.accessTokens = w₁.accessTokens := hstep.same .accessTokens (hfs _ (by simp))
  have hrefresh : w'.refreshTokens = w₁.refreshTokens :=
    hstep.same .refreshTokens (hfs _ (by simp))
  have hconsumed : w'.consumedRefreshTokens = w₁.consumedRefreshTokens :=
    hstep.same .consumedRefreshTokens (hfs _ (by simp))
  have hdevices : w'.devices = w₁.devices := hstep.same .devices (hfs _ (by simp))
  exact {
    access := haccess.trans h.access
    refresh := hrefresh.trans h.refresh
    consumed := hconsumed.trans h.consumed
    used := h.used
    tokens := fun i hi => by simp [hissued] at hi
    source := fun i hi => by simp [hissued] at hi
    backed := fun r hr hb => (h.backed r hr hb).of_same haccounts hdevices hstep.uuids
    uuids := h.uuids.trans hstep.uuids
    randoms := h.randoms.trans hstep.randoms }

theorem adminRevokeUserSessions_effect {target : UserId} {now : DateTime} {u : Unit}
    (h : (adminRevokeUserSessions env target now).Runs w u w') :
    (∃ a, w.accounts.get target = some a) ∧
      TokenStep env w w' (.revoking fun r => r.userId == target) := by
  unfold adminRevokeUserSessions at h
  rw [Tx.runs_get_bind, Tx.runs_failIf_bind, Tx.runs_bind] at h
  obtain ⟨hactive, _, w₁, hrevoke, haudit⟩ := h
  obtain ⟨a, ha⟩ := Option.ne_none_iff_exists'.mp fun hn =>
    hactive (Option.isNone_iff_eq_none.mpr hn)
  have hstep : TokenStep env w w₁ (.revoking fun r => r.userId == target) :=
    revokeUserSessions_step w hrevoke rfl rfl rfl rfl (fun _ _ h => h) (Nat.le_refl _)
      (Nat.le_refl _)
  have haudit : Evolves [.auditEvents] w₁ w' := Tx.Keeps.runs haudit
  exact ⟨⟨a, (activeAccount_some.mp ha).1⟩, hstep.andThen haudit (by decide) rfl⟩

theorem adminSetUserSuspended_effect {target : UserId} {suspended : Bool} {now : DateTime}
    {u : Unit} (h : (adminSetUserSuspended env target suspended now).Runs w u w') :
    TokenStep env w w'
      (if suspended then .revoking fun r => r.userId == target else .nothing) := by
  unfold adminSetUserSuspended at h
  simp only [Tx.runs_get_bind, Tx.runs_okOr_bind, update_bind_runs, World.set,
    Tx.runs_bind (t := whenTrue _ _), Tx.runs_whenTrue] at h
  obtain ⟨account, haccount, _, w₁, hrevoke, haudit⟩ := h
  obtain ⟨hget, hdeleted⟩ := activeAccount_some.mp haccount
  have haudit : Evolves [.auditEvents] w₁ w' := Tx.Keeps.runs haudit
  rcases hrevoke with ⟨hs, hrevoke⟩ | ⟨hs, rfl⟩
  · rw [if_pos hs]
    have hstep : TokenStep env w w₁ (.revoking fun r => r.userId == target) :=
      revokeUserSessions_step w hrevoke rfl rfl rfl rfl
        (fun v hv => standing_insert_ne rfl hv) (Nat.le_refl _) (Nat.le_refl _)
    exact hstep.andThen haudit (by decide) rfl
  · rw [if_neg hs]
    refine TokenStep.andThen ?_ haudit (by decide) rfl
    exact {
      access := rfl
      refresh := rfl
      consumed := rfl
      used := fun _ _ he => by cases he
      tokens := fun _ he => by cases he
      source := fun _ he => by cases he
      backed := fun r _ hb => hb.mono
        (standing_insert rfl hdeleted (Bool.eq_false_iff.mpr hs)) (fun h => h) (Nat.le_refl _)
      uuids := Nat.le_refl _
      randoms := Nat.le_refl _ }

set_option synthInstance.maxSize 1000000000000 in
theorem deleteAccount_effect {actor : UserId} {currentPassword confirmation : String}
    {now : DateTime} {u : Unit}
    (h : (deleteAccount env actor currentPassword confirmation now).Runs w u w') :
    TokenStep env w w' (.revoking fun r => r.userId == actor) := by
  unfold deleteAccount deleteAccountInStore at h
  simp only [Tx.runs_get_bind, Tx.runs_okOr_bind, Tx.runs_failIf_bind,
    Tx.runs_bind (t := detachAccountFromConversations _ _),
    Tx.runs_bind (t := anonymizeAccount _ _), Tx.runs_bind (t := purgeAccountRelationships _ _)]
    at h
  obtain ⟨-, _, -, -, _, w₁, hdetach, profile, w₂, hanonymize, _, w₃, hpurge, happend⟩ := h
  unfold detachAccountFromConversations at hdetach
  unfold anonymizeAccount at hanonymize
  unfold purgeAccountRelationships at hpurge
  simp only [update_runs, World.set] at hdetach
  simp only [Tx.runs_get_bind, Tx.runs_okOr_bind, update_bind_runs, World.set, Tx.runs_pure]
    at hanonymize
  obtain ⟨account, -, -, rfl⟩ := hanonymize
  subst hdetach
  rw [update_bind_runs, update_bind_runs, Tx.runs_bind] at hpurge
  obtain ⟨_, w₄, hrevoke, hpurge⟩ := hpurge
  dsimp only [World.set] at hrevoke
  have hstep : TokenStep env w w₄ (.revoking fun r => r.userId == actor) :=
    revokeUserSessions_step w hrevoke rfl rfl rfl rfl (fun v hv => standing_insert_ne rfl hv)
      (Nat.le_refl _) (Nat.le_refl _)
  have hpurge : Evolves [.passwordResets, .friendRequests, .friendships, .friendSettings,
      .conversationSettings, .readPositions, .blocks, .reports, .favoriteMessages,
      .scheduledMessages, .stickers, .profilePrivacy, .preferredPresence] w₄ w₃ :=
    Tx.Keeps.runs hpurge
  have happend : Evolves [] w₃ w' := Tx.Keeps.runs happend
  exact (hstep.andThen hpurge (by decide) rfl).andThen happend (by decide) rfl

theorem TokenStep.refl (w : World) : TokenStep env w w .nothing where
  access := rfl
  refresh := rfl
  consumed := rfl
  used _ _ he := by cases he
  tokens _ he := by cases he
  source _ he := by cases he
  backed _ _ hb := hb
  uuids := Nat.le_refl _
  randoms := Nat.le_refl _

/-- The tables and the devices are left alone, and every account in the standing it was in. -/
theorem quiet_step {op : Op} (h : (op.run env).Runs w () w')
    (hop : ∀ f ∈ [Field.accessTokens, .refreshTokens, .consumedRefreshTokens, .devices],
      f ∉ op.touches ++ logFields)
    (hstanding : ∀ u, InGoodStanding u w → InGoodStanding u w') :
    TokenStep env w w' .nothing := by
  have haccess : w'.accessTokens = w.accessTokens := Op.same h (hop .accessTokens (by simp))
  have hrefresh : w'.refreshTokens = w.refreshTokens := Op.same h (hop .refreshTokens (by simp))
  have hconsumed : w'.consumedRefreshTokens = w.consumedRefreshTokens :=
    Op.same h (hop .consumedRefreshTokens (by simp))
  have hdevices : w'.devices = w.devices := Op.same h (hop .devices (by simp))
  have hevolves := (op.evolves env).runs h
  exact {
    access := haccess
    refresh := hrefresh
    consumed := hconsumed
    used := fun _ _ he => by cases he
    tokens := fun _ he => by cases he
    source := fun _ he => by cases he
    backed := fun r _ hb => hb.mono (hstanding _)
      (fun hd => by unfold DeviceInUse; rw [hdevices]; exact hd) hevolves.uuids
    uuids := hevolves.uuids
    randoms := hevolves.randoms }

end

/-! ### What the tables hold after a transaction -/

namespace Effect

variable {e : Effect} {r : TokenRecord}

@[simp] theorem onRecord_userId : (e.onRecord r).userId = r.userId := by
  unfold onRecord revokeIf
  split <;> (try split) <;> rfl

@[simp] theorem onRecord_deviceId : (e.onRecord r).deviceId = r.deviceId := by
  unfold onRecord revokeIf
  split <;> (try split) <;> rfl

@[simp] theorem onRecord_familyId : (e.onRecord r).familyId = r.familyId := by
  unfold onRecord revokeIf
  split <;> (try split) <;> rfl

/-- A revocation is not taken back. -/
theorem onRecord_revoked (h : r.revoked = true) : (e.onRecord r).revoked = true := by
  unfold onRecord revokeIf
  split <;> (try split) <;> first | exact h | rfl

/-- A record that is not revoked afterwards was spared, and is as it was. -/
theorem spares_of_onRecord (h : (e.onRecord r).revoked = false) : e.Spares r ∧ e.onRecord r = r := by
  unfold onRecord at h ⊢
  unfold Spares
  cases he : e.revoked with
  | none => simp
  | some p =>
    rw [he] at h
    by_cases hp : p r = true
    · simp [revokeIf, hp] at h
    · simp [revokeIf, hp]

theorem onTable_get {m : Map String TokenRecord} {k : String} :
    (e.onTable m).get k = (m.get k).map e.onRecord := by
  unfold onTable onRecord
  cases e.revoked with
  | none => simp
  | some p => simp

end Effect

section
variable {env : Env} {w w' : World} {e : Effect} {k : String} {r : TokenRecord}

theorem TokenStep.access_get (h : TokenStep env w w' e) (hr : w'.accessTokens.get k = some r) :
    (∃ r₀, w.accessTokens.get k = some r₀ ∧ r = e.onRecord r₀) ∨
    ∃ i, e.issued = some i ∧ k = hashToken env i.accessToken ∧ r = i.access := by
  rw [h.access] at hr
  unfold Effect.onAccess at hr
  cases hi : e.issued with
  | none =>
    simp only [hi, Effect.onTable_get, Option.map_eq_some_iff] at hr
    obtain ⟨r₀, hr₀, rfl⟩ := hr
    exact .inl ⟨r₀, hr₀, rfl⟩
  | some i =>
    simp only [hi, Map.get_insert, Effect.onTable_get] at hr
    split at hr
    · cases hr
      exact .inr ⟨i, rfl, ‹_›, rfl⟩
    · obtain ⟨r₀, hr₀, rfl⟩ := Option.map_eq_some_iff.mp hr
      exact .inl ⟨r₀, hr₀, rfl⟩

/-- A refresh token that is still there was not used up. -/
theorem TokenStep.refresh_get (h : TokenStep env w w' e) (hr : w'.refreshTokens.get k = some r) :
    (∃ r₀, w.refreshTokens.get k = some r₀ ∧ r = e.onRecord r₀ ∧ ∀ f, e.used ≠ some (k, f)) ∨
    ∃ i, e.issued = some i ∧ k = hashToken env i.refreshToken ∧ r = i.refresh := by
  have hleft : ∀ m : Map String TokenRecord, ((e.onTable (match e.used with
      | none => m
      | some (key, _) => m.remove key)).get k = some r →
      ∃ r₀, m.get k = some r₀ ∧ r = e.onRecord r₀ ∧ ∀ f, e.used ≠ some (k, f)) := by
    intro m hm
    rw [Effect.onTable_get] at hm
    obtain ⟨r₀, hr₀, rfl⟩ := Option.map_eq_some_iff.mp hm
    cases hu : e.used with
    | none => exact ⟨r₀, by simpa [hu] using hr₀, rfl, by simp⟩
    | some u =>
      simp only [hu, Map.get_remove] at hr₀
      split at hr₀
      · cases hr₀
      · rename_i hne
        exact ⟨r₀, hr₀, rfl, by rintro f ⟨⟩; exact hne rfl⟩
  rw [h.refresh] at hr
  unfold Effect.onRefresh at hr
  cases hi : e.issued with
  | none =>
    simp only [hi] at hr
    exact .inl (hleft _ hr)
  | some i =>
    simp only [hi, Map.get_insert] at hr
    split at hr
    · cases hr
      exact .inr ⟨i, rfl, ‹_›, rfl⟩
    · exact .inl (hleft _ hr)

theorem TokenStep.consumed_get (h : TokenStep env w w' e) {f : Uuid}
    (hf : w'.consumedRefreshTokens.get k = some f) :
    (w.consumedRefreshTokens.get k = some f ∧ ∀ g, e.used ≠ some (k, g)) ∨ e.used = some (k, f) := by
  rw [h.consumed] at hf
  unfold Effect.onConsumed at hf
  cases hu : e.used with
  | none => exact .inl ⟨by simpa [hu] using hf, by simp⟩
  | some u =>
    simp only [hu, Map.get_insert] at hf
    split at hf
    · cases hf
      subst_vars
      exact .inr rfl
    · rename_i hne
      exact .inl ⟨hf, by rintro g ⟨⟩; exact hne rfl⟩

end

/-- The transaction with the session it hands out. -/
def Op.session (env : Env) : Op → Service (Option AuthenticatedSession)
  | .register input now => do
    let session ← IamRust.register env input now
    pure (some session)
  | .loginWithSecondFactor input code now => do
    let session ← IamRust.loginWithSecondFactor env input code now
    pure (some session)
  | .pollQrLogin userId deviceName platform appVersion now => do
    let session ← IamRust.pollQrLogin env userId deviceName platform appVersion now
    pure (some session)
  | .refresh refreshToken now => do
    let result ← IamRust.refresh env refreshToken now
    pure result.toOption
  | op => do
    op.run env
    pure none

theorem Op.session_run {env : Env} {op : Op} {session : Option AuthenticatedSession} {w w' : World}
    (h : (op.session env).Runs w session w') : (op.run env).Runs w () w' := by
  cases op <;>
    simp only [Op.session, Op.run, Tx.runs_bind, Tx.runs_pure, Tx.runs_void] at h ⊢ <;>
    obtain ⟨a, w₁, hr, -, rfl⟩ := h <;>
    first
      | exact hr
      | exact ⟨a, hr⟩

theorem Op.session_of_run {env : Env} {op : Op} {w w' : World} (h : (op.run env).Runs w () w') :
    ∃ session, (op.session env).Runs w session w' := by
  cases op <;>
    simp only [Op.session, Op.run, Tx.runs_bind, Tx.runs_pure, Tx.runs_void] at h ⊢ <;>
    obtain ⟨a, hr⟩ := h <;>
    first
      | exact ⟨none, (), w', ⟨a, hr⟩, rfl, rfl⟩
      | exact ⟨_, a, w', hr, rfl, rfl⟩

/-- The session carries the two tokens. -/
def Carries (session : AuthenticatedSession) (i : Issue) : Prop :=
  ∃ profile, session = i.session profile

/-- **Effects.** Every transaction has one, and hands out the session that it issues. -/
theorem Op.effect {env : Env} (hu : Function.Injective env.uuid) {op : Op}
    {session : Option AuthenticatedSession} {w w' : World}
    (h : (op.session env).Runs w session w') :
    ∃ e, TokenStep env w w' e ∧ Option.Rel Carries session e.issued := by
  have hrun := Op.session_run h
  cases op
  case register input now =>
    simp only [Op.session, Tx.runs_bind, Tx.runs_pure] at h
    obtain ⟨_, _, hr, rfl, rfl⟩ := h
    obtain ⟨i, profile, hsession, -, hstep⟩ := register_effect hu hr
    exact ⟨_, hstep, .some ⟨profile, hsession⟩⟩
  case loginWithSecondFactor input code now =>
    simp only [Op.session, Tx.runs_bind, Tx.runs_pure] at h
    obtain ⟨_, _, hr, rfl, rfl⟩ := h
    obtain ⟨i, profile, hsession, -, hstep⟩ := login_effect hu hr
    exact ⟨_, hstep, .some ⟨profile, hsession⟩⟩
  case pollQrLogin userId deviceName platform appVersion now =>
    simp only [Op.session, Tx.runs_bind, Tx.runs_pure] at h
    obtain ⟨_, _, hr, rfl, rfl⟩ := h
    obtain ⟨-, i, profile, hsession, -, hstep⟩ := pollQrLogin_effect hu hr
    exact ⟨_, hstep, .some ⟨profile, hsession⟩⟩
  case refresh token now =>
    simp only [Op.session, Tx.runs_bind, Tx.runs_pure] at h
    obtain ⟨_, _, hr, rfl, rfl⟩ := h
    rcases refresh_effect hr with ⟨family, -, rfl, rfl⟩ | ⟨r, i, profile, -, -, rfl, -, hstep, -⟩
    · refine ⟨.revoking fun r => family == r.familyId, ?_, .none⟩
      exact revoking_step rfl rfl rfl (fun _ _ hb => hb.of_same rfl rfl (Nat.le_refl _))
        (Nat.le_refl _) (Nat.le_refl _)
    · exact ⟨_, hstep, .some ⟨profile, rfl⟩⟩
  all_goals
    have hnone : session = none := by
      simp only [Op.session, Tx.runs_bind, Tx.runs_pure] at h
      obtain ⟨_, _, -, rfl, -⟩ := h
      rfl
    subst hnone
  case logout token =>
    obtain ⟨_, hr⟩ := Tx.runs_void.mp hrun
    rcases logout_effect hr with ⟨-, rfl⟩ | ⟨r, hget, rfl⟩
    · exact ⟨.nothing, .refl w', .none⟩
    · exact ⟨_, logout_step hget, .none⟩
  case revokeDevice actor deviceId now =>
    obtain ⟨_, hr⟩ := Tx.runs_void.mp hrun
    exact ⟨_, revokeDevice_effect hr, .none⟩
  case changePassword actor currentPassword newPassword =>
    obtain ⟨_, hr⟩ := Tx.runs_void.mp hrun
    exact ⟨_, (changePassword_effect hr).2, .none⟩
  case resetPassword token newPassword now =>
    obtain ⟨_, hr⟩ := Tx.runs_void.mp hrun
    obtain ⟨reset, -, -, hstep⟩ := resetPassword_effect hr
    exact ⟨_, hstep, .none⟩
  case deleteAccount actor currentPassword confirmation now =>
    obtain ⟨_, hr⟩ := Tx.runs_void.mp hrun
    exact ⟨_, deleteAccount_effect hr, .none⟩
  case adminSetUserSuspended target suspended now =>
    obtain ⟨_, hr⟩ := Tx.runs_void.mp hrun
    refine ⟨_, adminSetUserSuspended_effect hr, ?_⟩
    cases suspended <;> exact .none
  case adminRevokeUserSessions target now =>
    obtain ⟨_, hr⟩ := Tx.runs_void.mp hrun
    exact ⟨_, (adminRevokeUserSessions_effect hr).2, .none⟩
  all_goals
    refine ⟨.nothing, quiet_step hrun (by dsimp only [Op.touches]; decide) fun u hs => ?_, .none⟩
    obtain ⟨_, hr⟩ := Tx.runs_void.mp hrun
    exact Tx.Keeps.runs (R := Tx.Preserving (InGoodStanding u)) hr hs

/-! ## Standing of what is not revoked -/

/-- Every token that is not revoked is backed. -/
structure AllBacked (env : Env) (w : World) : Prop where
  access : ∀ k r, w.accessTokens.get k = some r → r.revoked = false → Backed env r w
  refresh : ∀ k r, w.refreshTokens.get k = some r → r.revoked = false → Backed env r w

section
variable {env : Env}

theorem TokenStep.spared {w w' : World} {e : Effect} {r : TokenRecord} (h : TokenStep env w w' e)
    (hr : (e.onRecord r).revoked = false) (hb : r.revoked = false → Backed env r w) :
    Backed env (e.onRecord r) w' := by
  obtain ⟨hspares, hsame⟩ := Effect.spares_of_onRecord hr
  rw [hsame] at hr ⊢
  exact h.backed r hspares (hb hr)

/-- A token of a session that was just issued is backed: by the account and the device of the
login, or by those of the token that it replaces. -/
theorem TokenStep.issued_backed {w w' : World} {e : Effect} {i : Issue}
    (h : TokenStep env w w' e) (hw : AllBacked env w) (hi : e.issued = some i) :
    Backed env i.access w' := by
  rcases h.source i hi with ⟨-, -, -, hb⟩ | ⟨key, r, -, hnone, hr, hlive, -, huser, hdevice, -⟩
  · exact hb
  · have hb : Backed env r w' := h.backed r (by simp [Effect.Spares, hnone])
      (hw.refresh key r hr hlive)
    exact ⟨by simpa [Issue.access, huser] using hb.account,
      by simpa [Issue.access, huser, hdevice] using hb.device,
      by simpa [Issue.access, hdevice] using hb.drawn⟩

theorem AllBacked.step {w w' : World} {e : Effect} (hw : AllBacked env w)
    (h : TokenStep env w w' e) : AllBacked env w' where
  access k r hr hlive := by
    rcases h.access_get hr with ⟨r₀, hr₀, rfl⟩ | ⟨i, hi, -, rfl⟩
    · exact h.spared hlive (hw.access k r₀ hr₀)
    · exact h.issued_backed hw hi
  refresh k r hr hlive := by
    rcases h.refresh_get hr with ⟨r₀, hr₀, rfl, -⟩ | ⟨i, hi, -, rfl⟩
    · exact h.spared hlive (hw.refresh k r₀ hr₀)
    · obtain ⟨ha, hd, hn⟩ := h.issued_backed hw hi
      exact ⟨ha, hd, hn⟩

theorem allBacked_inductive (hu : Function.Injective env.uuid) :
    (service env).Inductive (AllBacked env) where
  init w hw := by
    subst hw
    constructor <;> intro k r hr <;> simp [World.init, Store.default] at hr
  step w op w' hw h := by
    obtain ⟨session, hs⟩ := Op.session_of_run h
    obtain ⟨e, he, -⟩ := Op.effect hu hs
    exact hw.step he

/-- What `authenticate_identity` checks by itself. -/
theorem authenticateIdentity_ok {s : Store} {token : String} {now : DateTime}
    {x : UserId × DeviceId} : authenticateIdentity env s token now = .ok x ↔
    ∃ r, s.accessTokens.get (hashToken env token) = some r ∧ x = (r.userId, r.deviceId) ∧
      r.revoked = false ∧ now < r.expiresAt ∧
      (∃ device, s.devices.get r.deviceId = some device ∧ device.revokedAt = none) ∧
      ∃ a, s.accounts.get r.userId = some a ∧ a.deletedAt = none ∧ a.suspended = false := by
  unfold authenticateIdentity
  cases hr : s.accessTokens.get (hashToken env token) with
  | none => simp
  | some r =>
    dsimp only
    split
    · rename_i h
      simp only [reduceCtorEq, false_iff]
      rintro ⟨_, ⟨⟩, -, hrev, hexp, -⟩
      rcases h with h | h
      · simp [h] at hrev
      · exact absurd hexp (Int.not_lt.mpr h)
    · rename_i hvalid
      simp only [not_or, Bool.not_eq_true, Int.not_le] at hvalid
      split
      · rename_i h
        simp only [reduceCtorEq, false_iff]
        rintro ⟨_, ⟨⟩, -, -, -, ⟨device, hd, hn⟩, -⟩
        simp [hd, hn] at h
      · rename_i hdev
        split
        · rename_i h
          simp only [reduceCtorEq, false_iff]
          rintro ⟨_, ⟨⟩, -, -, -, -, a, ha, hdel, hsus⟩
          simp [ha, hdel, hsus] at h
        · rename_i hacc
          constructor
          · rintro ⟨⟩
            refine ⟨r, rfl, rfl, hvalid.1, hvalid.2, ?_, ?_⟩
            · cases hd : s.devices.get r.deviceId with
              | none => simp [hd] at hdev
              | some device => exact ⟨device, rfl, by simpa [hd] using hdev⟩
            · cases ha : s.accounts.get r.userId with
              | none => simp [ha] at hacc
              | some a => exact ⟨a, rfl, by simpa [ha] using hacc⟩
          · rintro ⟨_, ⟨⟩, rfl, -⟩
            rfl

/-- **Revocation holds.** In every reachable store the tokens of an account that is deleted or
suspended, and of a device that is revoked, are revoked, so neither `authenticate_identity` nor
`refresh` succeeds for one of them; `refresh` does not look at the suspension and the device. -/
theorem revocation_holds (hu : Function.Injective env.uuid) {w : World}
    (hw : (service env).Reachable w) :
    (∀ u account, w.accounts.get u = some account →
      account.deletedAt.isSome = true ∨ account.suspended = true → ∀ k r,
      w.accessTokens.get k = some r ∨ w.refreshTokens.get k = some r → r.userId = u →
      r.revoked = true) ∧
    (∀ d device, w.devices.get d = some device → device.revokedAt.isSome = true → ∀ k r,
      w.accessTokens.get k = some r ∨ w.refreshTokens.get k = some r → r.deviceId = d →
      r.revoked = true) ∧
    (∀ token now u d, authenticateIdentity env w.toStore token now = .ok (u, d) →
      InGoodStanding u w ∧ DeviceInUse d u w) ∧
    ∀ token now session w', (refresh env token now).Runs w (.ok session) w' →
      ∃ r, w.refreshTokens.get (hashToken env token) = some r ∧ session.deviceId = r.deviceId ∧
        InGoodStanding r.userId w ∧ DeviceInUse r.deviceId r.userId w := by
  have hb := (allBacked_inductive hu).reachable hw
  have hlive : ∀ k r, w.accessTokens.get k = some r ∨ w.refreshTokens.get k = some r →
      r.revoked = false → Backed env r w := by
    intro k r hr
    rcases hr with hr | hr
    · exact hb.access k r hr
    · exact hb.refresh k r hr
  refine ⟨?_, ?_, ?_, ?_⟩
  · rintro u account haccount hgone k r hr rfl
    by_contra hrev
    obtain ⟨a, ha, hdel, hsus⟩ := (hlive k r hr (by simpa using hrev)).account
    cases haccount.symm.trans ha
    simp [hdel, hsus] at hgone
  · rintro d device hdevice hgone k r hr rfl
    by_contra hrev
    obtain ⟨d', hd', -, hn⟩ := (hlive k r hr (by simpa using hrev)).device
    cases hdevice.symm.trans hd'
    simp [hn] at hgone
  · intro token now u d h
    obtain ⟨r, hr, hx, hrev, -⟩ := authenticateIdentity_ok.mp h
    cases hx
    exact ⟨(hb.access _ r hr hrev).account, (hb.access _ r hr hrev).device⟩
  · intro token now session w' h
    rcases refresh_effect h with ⟨_, -, he, -⟩ | ⟨r, i, profile, hr, -, he, hnext, -⟩
    · cases he
    · cases he
      obtain ⟨key, r', hused, -, hr', hrev, -, huser, hdevice, -⟩ := hnext
      obtain ⟨rfl, -⟩ := Prod.mk.inj (Option.some.inj hused)
      cases hr.symm.trans hr'
      exact ⟨r, hr, hdevice, (hb.refresh _ r hr hrev).account, (hb.refresh _ r hr hrev).device⟩

/-- Alice registers, and her account is suspended. -/
theorem revocation_holds_alice : ∃ w account k r, (service Env.numbered).Reachable w ∧
    w.accounts.get 1 = some account ∧ account.suspended = true ∧
    w.accessTokens.get k = some r ∧ r.userId = 1 ∧ r.revoked = true := by
  obtain ⟨w, hw, hp⟩ := reaches Env.numbered [.register alice 0, .adminSetUserSuspended 1 true 0]
    (fun w => ((w.accounts.get 1).any fun a => a.suspended) &&
      w.accessTokens.values.any fun r => r.userId == 1) (by decide +kernel)
  rw [Bool.and_eq_true, Option.any_eq_true, List.any_eq_true] at hp
  obtain ⟨⟨account, haccount, hsuspended⟩, r, hr, hu⟩ := hp
  obtain ⟨k, hk⟩ := Map.mem_values.mp hr
  have hreach := reachable_of_run hw
  have hrev := (revocation_holds Env.numbered_injective hreach).1 1 account haccount
    (.inr hsuspended) k r (.inl hk) (beq_iff_eq.mp hu)
  exact ⟨w, account, k, r, hreach, haccount, hsuspended, hk, beq_iff_eq.mp hu, hrev⟩

end

end IamRust
