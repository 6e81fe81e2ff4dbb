import IamRust.L0Core.Interleave
import IamRust.L3Service.QrLogin
import IamRust.L4Properties.Families

/-!
# Sessions by QR login

The QR endpoints beside the transactions of the service, in any interleaving.
An approval is authenticated first and made later; a poll takes the challenge
out of the map first and mints the session later; anything may happen in
between, and a future may be dropped there.

`history` records what happened to challenges and sessions, in order; no step
looks at it.

* `qr_login_once`: a challenge leads to at most one session, for the one user
  who approved it.
-/
namespace IamRust

open Core

/-! ## The steps of a call -/

/-- How a session came about. -/
inductive Source where
  | registration
  | password
  | rotation
  | qr (challengeId : Uuid) (secret : String) (now : DateTime)
  deriving DecidableEq

inductive Entry where
  | begun (challengeId : Uuid) (secret : String) (expiresAt : DateTime)
  | approved (challengeId : Uuid) (secret : String) (session : TokenRecord) (now : DateTime)
  | issued (grant : Grant) (source : Source)
  | cutOff (userId : UserId)

/-- What the calls share. -/
structure Logins where
  world : World
  qrLogins : QrLogins
  history : List Entry

/-- Where a call is. `approving`: authenticated with a token of the session; `claimed`: the poll
has taken the challenge. -/
inductive Visit where
  | idle
  | approving (session : TokenRecord) (challengeId : Uuid) (secret : String)
  | claimed (challengeId : Uuid) (secret : String) (userId : UserId)
    (challenge : QrLoginChallenge) (now : DateTime)

inductive VisitStep where
  | transaction (op : Op)
  | begin (deviceName platform appVersion : String) (now : DateTime)
  | authenticate (accessToken : String) (challengeId : Uuid) (secret : String) (now : DateTime)
  | approve (now : DateTime)
  | poll (challengeId : Uuid) (secret : String) (now : DateTime)
  | mint
  | drop

/-- The source of a session that the transaction hands out. -/
def Op.source : Op → Source
  | .register _ _ => .registration
  | .loginWithSecondFactor _ _ _ => .password
  | _ => .rotation

/-- The user all of whose sessions the transaction revokes: a new password, a reset one, or the
administrator's revocation. -/
def Op.cutsOff (env : Env) (w : World) : Op → Option UserId
  | .changePassword actor _ _ => some actor
  | .resetPassword token _ _ => (w.passwordResets.get (hashToken env token)).map (·.userId)
  | .adminRevokeUserSessions target _ => some target
  | _ => none

/-- The transaction of an approved challenge. -/
def QrLoginChallenge.mint (challenge : QrLoginChallenge) (userId : UserId) (now : DateTime) : Op :=
  .pollQrLogin userId challenge.deviceName challenge.platform challenge.appVersion now

/-- A session by QR login is minted by a poll only. -/
def Op.isPollQrLogin : Op → Bool
  | .pollQrLogin _ _ _ _ _ => true
  | _ => false

/-- What the history records of a transaction. -/
def Op.entries (env : Env) (op : Op) (source : Source) (w w' : World)
    (session : Option AuthenticatedSession) : List Entry :=
  (granted env w' session).map (.issued · source) ++ ((op.cutsOff env w).map .cutOff).toList

def Visit.step (env : Env) (s : Logins) : Visit → VisitStep → Option (Logins × Visit)
  | .idle, .transaction op =>
    if op.isPollQrLogin then none
    else match op.session env s.world with
      | .error _ => none
      | .ok (session, w) =>
        some ({ s with
          world := w
          history := s.history ++ op.entries env op.source s.world w session }, .idle)
  | .idle, .begin deviceName platform appVersion now =>
    match beginQrLogin env deviceName platform appVersion now s.world with
    | .error _ => none
    | .ok ((info, challenge), w) =>
      some (⟨w, s.qrLogins.insert info.challengeId challenge,
        s.history ++ [.begun info.challengeId info.secret info.expiresAt]⟩, .idle)
  | .idle, .authenticate accessToken challengeId secret now =>
    match authenticateIdentity env s.world.toStore accessToken now,
      s.world.accessTokens.get (hashToken env accessToken) with
    | .ok _, some session => some (s, .approving session challengeId secret)
    | _, _ => none
  | .approving session challengeId secret, .approve now =>
    match approveQrLogin env session.userId challengeId secret now s.qrLogins with
    | (.error _, challenges) => some ({ s with qrLogins := challenges }, .idle)
    | (.ok _, challenges) =>
      some ({ s with
        qrLogins := challenges
        history := s.history ++ [.approved challengeId secret session now] }, .idle)
  | .idle, .poll challengeId secret now =>
    match claimQrLogin env challengeId secret now s.qrLogins with
    | (.ok (some (userId, challenge)), challenges) =>
      some ({ s with qrLogins := challenges }, .claimed challengeId secret userId challenge now)
    | (_, challenges) => some ({ s with qrLogins := challenges }, .idle)
  | .claimed challengeId secret userId challenge now, .mint =>
    match (challenge.mint userId now).session env s.world with
    | .error _ => some (s, .idle)
    | .ok (session, w) =>
      some ({ s with
        world := w
        history := s.history ++ (challenge.mint userId now).entries env (.qr challengeId secret now)
          s.world w session }, .idle)
  | _, .drop => some (s, .idle)
  | _, _ => none

/-- Any number of calls on a server that was just started. -/
def logins (ι : Type) (env : Env) : Threads ι Logins Visit VisitStep where
  init s visits := (service env).Reachable s.world ∧ s.qrLogins = .empty ∧ s.history = [] ∧
    ∀ i, visits i = .idle
  step _ := Visit.step env

/-! ## What a step can do -/

section
variable {env : Env} {s s' : Logins} {v v' : Visit} {l : VisitStep}

theorem beginQrLogin_runs {deviceName platform appVersion : String} {now : DateTime}
    {info : QrLoginChallengeInfo} {challenge : QrLoginChallenge} {w w' : World}
    (h : (beginQrLogin env deviceName platform appVersion now).Runs w (info, challenge) w') :
    info.challengeId = env.uuid w.nextUuid ∧ challenge.secretHash = hashToken env info.secret ∧
      challenge.approvedUserId = none ∧ challenge.expiresAt = info.expiresAt ∧
      w' = { w with nextUuid := w.nextUuid + 1, nextRandom := w.nextRandom + 1 } := by
  unfold beginQrLogin at h
  simp only [check_bind_runs, Tx.runs_bind (t := newUuid env), newUuid_runs,
    Tx.runs_bind (t := randomToken env), randomToken_runs, Tx.runs_pure, World.set] at h
  obtain ⟨-, -, _, _, ⟨rfl, rfl⟩, _, _, ⟨rfl, rfl⟩, he, rfl⟩ := h
  cases he
  exact ⟨rfl, rfl, rfl, rfl, rfl⟩

/-- What a step can do: one constructor for each way the state changes. -/
inductive Moves (env : Env) (s : Logins) : Visit → VisitStep → Logins → Visit → Prop where
  | transaction {op : Op} {session : Option AuthenticatedSession} {w : World}
    (hop : op.isPollQrLogin = false) (hrun : (op.session env).Runs s.world session w) :
    Moves env s .idle (.transaction op) { s with
      world := w, history := s.history ++ op.entries env op.source s.world w session } .idle
  | begun {deviceName platform appVersion : String} {now : DateTime}
    {info : QrLoginChallengeInfo} {challenge : QrLoginChallenge} {w : World}
    (hrun : (beginQrLogin env deviceName platform appVersion now).Runs s.world
      (info, challenge) w) :
    Moves env s .idle (.begin deviceName platform appVersion now)
      ⟨w, s.qrLogins.insert info.challengeId challenge,
        s.history ++ [.begun info.challengeId info.secret info.expiresAt]⟩ .idle
  | authenticated {accessToken : String} {challengeId : Uuid} {secret : String} {now : DateTime}
    {session : TokenRecord} {x : UserId × DeviceId}
    (hx : authenticateIdentity env s.world.toStore accessToken now = .ok x)
    (hsession : s.world.accessTokens.get (hashToken env accessToken) = some session) :
    Moves env s .idle (.authenticate accessToken challengeId secret now) s
      (.approving session challengeId secret)
  | approved {session : TokenRecord} {challengeId : Uuid} {secret : String} {now : DateTime}
    {challenge : QrLoginChallenge} (hget : s.qrLogins.get challengeId = some challenge)
    (hnow : now < challenge.expiresAt) (hsecret : challenge.secretHash = hashToken env secret)
    (hopen : challenge.approvedUserId = none) :
    Moves env s (.approving session challengeId secret) (.approve now) { s with
      qrLogins := (pruneQrLogins now s.qrLogins).insert challengeId
        { challenge with approvedUserId := some session.userId }
      history := s.history ++ [.approved challengeId secret session now] } .idle
  | claimed {challengeId : Uuid} {secret : String} {userId : UserId}
    {challenge : QrLoginChallenge} {now : DateTime}
    (hget : s.qrLogins.get challengeId = some challenge) (hnow : now < challenge.expiresAt)
    (hsecret : challenge.secretHash = hashToken env secret)
    (happroved : challenge.approvedUserId = some userId) :
    Moves env s .idle (.poll challengeId secret now)
      { s with qrLogins := (pruneQrLogins now s.qrLogins).remove challengeId }
      (.claimed challengeId secret userId challenge now)
  | minted {challengeId : Uuid} {secret : String} {userId : UserId}
    {challenge : QrLoginChallenge} {now : DateTime} {session : Option AuthenticatedSession}
    {w : World} (hrun : ((challenge.mint userId now).session env).Runs s.world session w) :
    Moves env s (.claimed challengeId secret userId challenge now) .mint { s with
      world := w
      history := s.history ++ (challenge.mint userId now).entries env (.qr challengeId secret now)
        s.world w session } .idle
  | ended {v : Visit} {l : VisitStep} {challenges : QrLogins}
    (hshrinks : s.qrLogins.Shrinks challenges) :
    Moves env s v l { s with qrLogins := challenges } .idle

theorem moves_of_step (h : Visit.step env s v l = some (s', v')) : Moves env s v l s' v' := by
  unfold Visit.step at h
  split at h
  · split at h
    · cases h
    · rename_i hop
      split at h
      · cases h
      · rename_i hrun
        cases h
        exact .transaction (Bool.eq_false_iff.mpr hop) hrun
  · split at h
    · cases h
    · rename_i hrun
      cases h
      exact .begun hrun
  · split at h
    · rename_i hx hsession
      cases h
      exact .authenticated hx hsession
    · cases h
  · split at h
    · rename_i hresult
      cases h
      rcases approveQrLogin_cases hresult with ⟨_, -, hshrinks⟩ | ⟨_, he, -⟩
      · exact .ended hshrinks
      · cases he
    · rename_i hresult
      cases h
      rcases approveQrLogin_cases hresult with ⟨_, he, -⟩ |
        ⟨challenge, -, hget, hnow, hsecret, hopen, rfl⟩
      · cases he
      · exact .approved hget hnow hsecret hopen
  · split at h
    · rename_i hresult
      cases h
      rcases claimQrLogin_cases hresult with ⟨-, hnot⟩ |
        ⟨userId, challenge, he, hget, hnow, hsecret, happroved, rfl⟩
      · exact absurd rfl (hnot _)
      · cases he
        exact .claimed hget hnow hsecret happroved
    · rename_i hnot hresult
      cases h
      rcases claimQrLogin_cases hresult with ⟨hshrinks, -⟩ | ⟨_, _, rfl, -⟩
      · exact .ended hshrinks
      · exact (hnot _ _ rfl).elim
  · split at h
    · cases h
      exact .ended fun _ _ h => h
    · rename_i hrun
      cases h
      exact .minted hrun
  · cases h
    exact .ended fun _ _ h => h
  · cases h

/-- The session a poll mints. -/
theorem mint_runs (hu : Function.Injective env.uuid) {userId : UserId}
    {challenge : QrLoginChallenge} {now : DateTime} {session : Option AuthenticatedSession}
    {w w' : World} (source : Source)
    (h : ((challenge.mint userId now).session env).Runs w session w') :
    ∃ g i, g.record = i.access ∧ i.userId = userId ∧ InGoodStanding userId w ∧
      TokenStep env w w' (.issuing i) ∧
      (challenge.mint userId now).entries env source w w' session = [.issued g source] := by
  simp only [QrLoginChallenge.mint, Op.session, Tx.runs_bind, Tx.runs_pure] at h
  obtain ⟨_, _, hr, rfl, rfl⟩ := h
  obtain ⟨hstanding, i, profile, rfl, rfl, hstep⟩ := pollQrLogin_effect hu hr
  refine ⟨⟨i.session profile, i.access⟩, i, rfl, rfl, hstanding, hstep, ?_⟩
  simp [Op.entries, QrLoginChallenge.mint, Op.cutsOff, granted_issue hstep rfl]

end

/-! ## One challenge, one session -/

/-- The challenge an entry is about. -/
def Entry.challenge : Entry → Option Uuid
  | .begun challengeId _ _ => some challengeId
  | .approved challengeId _ _ _ => some challengeId
  | .issued _ (.qr challengeId _ _) => some challengeId
  | _ => none

/-- What happened to the challenge. -/
def trail (c : Uuid) (history : List Entry) : List Entry :=
  history.filter fun e => e.challenge == some c

@[simp] theorem trail_append (c : Uuid) (h h' : List Entry) :
    trail c (h ++ h') = trail c h ++ trail c h' :=
  List.filter_append ..

theorem trail_snoc_self {c : Uuid} {h : List Entry} {e : Entry} (he : e.challenge = some c) :
    trail c (h ++ [e]) = trail c h ++ [e] := by
  simp [trail, he]

theorem trail_snoc_ne {c c₀ : Uuid} {h : List Entry} {e : Entry} (he : e.challenge = some c₀)
    (hne : c ≠ c₀) : trail c (h ++ [e]) = trail c h := by
  simp [trail, he, Ne.symm hne]

theorem trail_of_forall {c : Uuid} {h : List Entry} (hne : ∀ e ∈ h, e.challenge ≠ some c) :
    trail c h = [] := by
  simpa [trail, List.filter_eq_nil_iff] using hne

/-- What can have happened to a challenge: it was begun, then approved by one user, then one
session was issued to that user. -/
inductive Orderly (c : Uuid) : List Entry → Prop where
  | unknown : Orderly c []
  | begun {secret : String} {expiresAt : DateTime} : Orderly c [.begun c secret expiresAt]
  | approved {secret : String} {expiresAt now : DateTime} {session : TokenRecord}
    (hnow : now < expiresAt) :
    Orderly c [.begun c secret expiresAt, .approved c secret session now]
  | issued {secret : String} {expiresAt now later : DateTime} {session : TokenRecord}
    {grant : Grant} (hnow : now < expiresAt) (hlater : later < expiresAt)
    (huser : grant.record.userId = session.userId) :
    Orderly c [.begun c secret expiresAt, .approved c secret session now,
      .issued grant (.qr c secret later)]

section
variable (env : Env)

/-- A challenge in the map, and what happened to it. -/
def Pending (c : Uuid) (challenge : QrLoginChallenge) (l : List Entry) : Prop :=
  ∃ secret, challenge.secretHash = hashToken env secret ∧
    match challenge.approvedUserId with
    | none => l = [.begun c secret challenge.expiresAt]
    | some userId => ∃ session now, now < challenge.expiresAt ∧ session.userId = userId ∧
      l = [.begun c secret challenge.expiresAt, .approved c secret session now]

structure Traced (s : Logins) : Prop where
  orderly : ∀ c, Orderly c (trail c s.history)
  undrawn : ∀ c, ¬ Drawn env c s.world → trail c s.history = []
  pending : ∀ c challenge, s.qrLogins.get c = some challenge →
    Pending env c challenge (trail c s.history)

end

/-- A challenge that a poll has taken is in the map no more, and was approved. -/
def Visit.Traced (s : Logins) : Visit → Prop
  | .claimed c secret userId challenge now =>
    s.qrLogins.get c = none ∧ now < challenge.expiresAt ∧
      ∃ session at', at' < challenge.expiresAt ∧ session.userId = userId ∧
        trail c s.history =
          [.begun c secret challenge.expiresAt, .approved c secret session at']
  | _ => True

/-- Two polls do not take the same challenge. -/
def Visit.Apart : Visit → Visit → Prop
  | .claimed c _ _ _ _, .claimed c' _ _ _ _ => c ≠ c'
  | _, _ => True

theorem Visit.Apart.symm {v u : Visit} (h : v.Apart u) : u.Apart v := by
  cases v <;> cases u <;> first | trivial | exact Ne.symm h

section
variable {env : Env} {s s' : Logins} {v v' : Visit} {l : VisitStep}

theorem trail_entries {c : Uuid} {op : Op} {w w' : World}
    {session : Option AuthenticatedSession} :
    trail c (op.entries env op.source w w' session) = [] := by
  refine trail_of_forall fun e he => ?_
  rcases List.mem_append.mp he with he | he
  · obtain ⟨g, -, rfl⟩ := List.mem_map.mp he
    have hnone : (Entry.issued g op.source).challenge = none := by cases op <;> rfl
    simp [hnone]
  · obtain ⟨u, -, rfl⟩ := by simpa using he
    simp [Entry.challenge]

theorem Traced.step (hu : Function.Injective env.uuid)
    (hh : Function.Injective (hashToken env)) (hs : Traced env s) (hv : v.Traced s)
    (h : Moves env s v l s' v') : Traced env s' ∧ v'.Traced s' := by
  cases h with
  | @transaction op session w hop hrun =>
    have hle := ((op.evolves env).runs (Op.session_run hrun)).uuids
    refine ⟨⟨fun c => ?_, fun c hc => ?_, fun c challenge hget => ?_⟩, trivial⟩ <;>
      rw [trail_append, trail_entries, List.append_nil]
    · exact hs.orderly c
    · exact hs.undrawn c fun hd => hc (hd.mono hle)
    · exact hs.pending c challenge hget
  | @begun deviceName platform appVersion now info challenge w hrun =>
    obtain ⟨hid, hsecret, hopen, hexpires, rfl⟩ := beginQrLogin_runs hrun
    have hnew : ¬ Drawn env info.challengeId s.world := fun hd =>
      hd.ne hu (Nat.le_refl _) hid
    have hdrawn : ∀ c, Drawn env c s.world → c ≠ info.challengeId := fun c hd he =>
      hnew (he ▸ hd)
    have hblank := hs.undrawn _ hnew
    refine ⟨⟨fun c => ?_, fun c hc => ?_, fun c challenge' hget => ?_⟩, trivial⟩ <;>
      by_cases hc' : c = info.challengeId
    · subst hc'
      rw [trail_snoc_self rfl, hblank]
      exact .begun
    · rw [trail_snoc_ne rfl hc']
      exact hs.orderly c
    · exact absurd ⟨s.world.nextUuid, Nat.lt_succ_self _, hc'.trans hid⟩ hc
    · rw [trail_snoc_ne rfl hc']
      exact hs.undrawn c fun hd => hc (hd.mono (Nat.le_succ _))
    · subst hc'
      rw [Map.get_insert_self] at hget
      cases hget
      rw [trail_snoc_self rfl, hblank]
      refine ⟨info.secret, hsecret, ?_⟩
      rw [hopen, hexpires]
      rfl
    · rw [Map.get_insert_ne hc'] at hget
      rw [trail_snoc_ne rfl hc']
      exact hs.pending c challenge' hget
  | authenticated hx hsession => exact ⟨hs, trivial⟩
  | @approved session c₀ secret now challenge hget hnow hsecret hopen =>
    obtain ⟨secret', hsecret', htrail⟩ := hs.pending c₀ challenge hget
    rw [hopen] at htrail
    obtain rfl : secret' = secret := hh (hsecret'.symm.trans hsecret)
    refine ⟨⟨fun c => ?_, fun c hc => ?_, fun c challenge' hget' => ?_⟩, trivial⟩ <;>
      by_cases hc' : c = c₀
    · subst hc'
      rw [trail_snoc_self rfl, htrail]
      exact .approved hnow
    · rw [trail_snoc_ne rfl hc']
      exact hs.orderly c
    · subst hc'
      simp [hs.undrawn c hc] at htrail
    · rw [trail_snoc_ne rfl hc']
      exact hs.undrawn c hc
    · subst hc'
      rw [Map.get_insert_self] at hget'
      cases hget'
      rw [trail_snoc_self rfl, htrail]
      exact ⟨secret', hsecret, session, now, hnow, rfl, rfl⟩
    · rw [Map.get_insert_ne hc'] at hget'
      rw [trail_snoc_ne rfl hc']
      exact hs.pending c challenge' (shrinks_prune c challenge' hget')
  | @claimed c₀ secret userId challenge now hget hnow hsecret happroved =>
    obtain ⟨secret', hsecret', htrail⟩ := hs.pending c₀ challenge hget
    rw [happroved] at htrail
    obtain ⟨session, at', hat, huser, htrail⟩ := htrail
    obtain rfl : secret' = secret := hh (hsecret'.symm.trans hsecret)
    refine ⟨⟨hs.orderly, hs.undrawn, fun c challenge' hget' =>
      hs.pending c challenge' (shrinks_remove c challenge' hget')⟩, ?_, hnow, session, at', hat,
      huser, htrail⟩
    simp [Map.get_remove]
  | @minted c₀ secret userId challenge now session w hrun =>
    obtain ⟨hnone, hnow, session', at', hat, huser, htrail⟩ := hv
    obtain ⟨g, i, hg, hi, -, -, hentries⟩ := mint_runs hu (.qr c₀ secret now) hrun
    have hle := ((Op.evolves env _).runs (Op.session_run hrun)).uuids
    refine ⟨⟨fun c => ?_, fun c hc => ?_, fun c challenge' hget' => ?_⟩, trivial⟩ <;>
      rw [hentries] <;> by_cases hc' : c = c₀
    · subst hc'
      rw [trail_snoc_self rfl, htrail]
      exact .issued hat hnow (by rw [hg, huser]; exact hi)
    · rw [trail_snoc_ne rfl hc']
      exact hs.orderly c
    · subst hc'
      simp [hs.undrawn c fun hd => hc (hd.mono hle)] at htrail
    · rw [trail_snoc_ne rfl hc']
      exact hs.undrawn c fun hd => hc (hd.mono hle)
    · subst hc'
      exact absurd hget' (by simp [hnone])
    · rw [trail_snoc_ne rfl hc']
      exact hs.pending c challenge' hget'
  | ended hshrinks =>
    exact ⟨⟨hs.orderly, hs.undrawn, fun c challenge hget => hs.pending c challenge
      (hshrinks c challenge hget)⟩, trivial⟩

/-- A step does not disturb another poll. -/
theorem Traced.others {u : Visit} (hu : Function.Injective env.uuid) (hs : Traced env s)
    (ho : u.Traced s) (hvu : v.Apart u) (h : Moves env s v l s' v') :
    u.Traced s' ∧ v'.Apart u := by
  cases u with
  | idle => exact ⟨trivial, by cases v' <;> trivial⟩
  | approving => exact ⟨trivial, by cases v' <;> trivial⟩
  | claimed c secret userId challenge now =>
    obtain ⟨hnone, hnow, session, at', hat, huser, htrail⟩ := ho
    cases h with
    | @transaction op session' w hop hrun =>
      refine ⟨⟨hnone, hnow, session, at', hat, huser, ?_⟩, trivial⟩
      rw [trail_append, trail_entries, List.append_nil, htrail]
    | @begun deviceName platform appVersion time info challenge' w hrun =>
      obtain ⟨hid, -⟩ := beginQrLogin_runs hrun
      have hne : c ≠ info.challengeId := by
        rintro rfl
        rw [hs.undrawn _ fun hd => hd.ne hu (Nat.le_refl _) hid] at htrail
        cases htrail
      refine ⟨⟨?_, hnow, session, at', hat, huser, ?_⟩, trivial⟩
      · rw [Map.get_insert_ne hne]
        exact hnone
      · rw [trail_snoc_ne rfl hne, htrail]
    | authenticated => exact ⟨⟨hnone, hnow, session, at', hat, huser, htrail⟩, trivial⟩
    | @approved session' c₀ secret' time challenge' hget =>
      have hne : c ≠ c₀ := by
        rintro rfl
        simp [hnone] at hget
      refine ⟨⟨?_, hnow, session, at', hat, huser, ?_⟩, trivial⟩
      · rw [Map.get_insert_ne hne, Option.eq_none_iff_forall_ne_some]
        intro challenge'' h
        simp [shrinks_prune _ _ h] at hnone
      · rw [trail_snoc_ne rfl hne, htrail]
    | @claimed c₀ secret' userId' challenge' time hget =>
      refine ⟨⟨?_, hnow, session, at', hat, huser, htrail⟩, ?_⟩
      · rw [Option.eq_none_iff_forall_ne_some]
        intro challenge'' h
        simp [shrinks_remove _ _ h] at hnone
      · rintro rfl
        simp [hnone] at hget
    | @minted c₀ secret' userId' challenge' time session' w hrun =>
      obtain ⟨g, -, -, -, -, -, hentries⟩ := mint_runs hu (.qr c₀ secret' time) hrun
      refine ⟨⟨hnone, hnow, session, at', hat, huser, ?_⟩, trivial⟩
      rw [hentries, trail_snoc_ne rfl (Ne.symm hvu), htrail]
    | ended hshrinks =>
      refine ⟨⟨?_, hnow, session, at', hat, huser, htrail⟩, trivial⟩
      rw [Option.eq_none_iff_forall_ne_some]
      intro challenge' h
      simp [hshrinks _ _ h] at hnone

theorem traced_inductive {ι : Type} [DecidableEq ι]
    (ok : Logins × (ι → Visit) → ι × VisitStep → Prop) (hu : Function.Injective env.uuid)
    (hh : Function.Injective (hashToken env)) :
    ((logins ι env).lts.restrict ok).Inductive
      (Threads.Holds (Traced env) Visit.Traced Visit.Apart) := by
  refine Threads.holds_inductive ?_ (fun _ _ => Visit.Apart.symm) ?_ ?_
  · rintro ⟨s, visits⟩ ⟨-, hempty, hhistory, hidle⟩
    dsimp only at hempty hhistory hidle
    refine ⟨⟨fun c => ?_, fun c _ => ?_, fun c challenge h => ?_⟩, fun i => ?_, fun i j _ => ?_⟩
    · rw [hhistory]
      exact .unknown
    · rw [hhistory]
      rfl
    · simp [hempty] at h
    · dsimp only
      rw [hidle]
      trivial
    · dsimp only
      rw [hidle, hidle]
      trivial
  · exact fun x i l s' v' _ hs hv h => hs.step hu hh hv (moves_of_step h)
  · exact fun x i l s' v' j _ _ hs _ ho hvu h => hs.others hu ho hvu (moves_of_step h)

/-- The entry is the issue of a session for the challenge. -/
def Entry.issues (c : Uuid) : Entry → Bool
  | .issued _ (.qr c' _ _) => c' == c
  | _ => false

def Entry.approves (c : Uuid) : Entry → Bool
  | .approved c' _ _ _ => c' == c
  | _ => false

theorem issues_challenge {c : Uuid} (e : Entry) (h : e.issues c = true) :
    e.challenge = some c := by
  unfold Entry.issues at h
  split at h
  · exact congrArg some (beq_iff_eq.mp h)
  · cases h

theorem approves_challenge {c : Uuid} (e : Entry) (h : e.approves c = true) :
    e.challenge = some c := by
  unfold Entry.approves at h
  split at h
  · exact congrArg some (beq_iff_eq.mp h)
  · cases h

theorem filter_trail {c : Uuid} {p : Entry → Bool} (hp : ∀ e, p e = true → e.challenge = some c)
    (h : List Entry) : (trail c h).filter p = h.filter p := by
  rw [trail, List.filter_filter]
  refine List.filter_congr fun e _ => ?_
  by_cases he : p e = true
  · simp [he, hp e he]
  · simp [he]

/-- **One challenge, one session.** In every run, a challenge is approved at most once and leads to
at most one session. The session belongs to the user who approved the challenge; the approval and
the poll presented the secret of the challenge before it expired. When a session is minted, the
account is neither deleted nor suspended. -/
theorem qr_login_once {ι : Type} [DecidableEq ι] (hu : Function.Injective env.uuid)
    (hh : Function.Injective (hashToken env)) {x : Logins × (ι → Visit)}
    (hx : (logins ι env).lts.Reachable x) (c : Uuid) :
    (x.1.history.filter (Entry.issues c)).length ≤ 1 ∧
    (x.1.history.filter (Entry.approves c)).length ≤ 1 ∧
    (∀ grant secret later, .issued grant (.qr c secret later) ∈ x.1.history →
      ∃ expiresAt session now, .begun c secret expiresAt ∈ x.1.history ∧
        .approved c secret session now ∈ x.1.history ∧ now < expiresAt ∧ later < expiresAt ∧
        grant.record.userId = session.userId) ∧
    ∀ i x', (logins ι env).lts.step x (i, .mint) x' → ∀ grant source,
      x'.1.history = x.1.history ++ [.issued grant source] →
      InGoodStanding grant.record.userId x.1.world := by
  have hinv := (traced_inductive (fun _ _ => True) hu hh).reachable
    (hx.restrict fun _ _ => trivial)
  obtain ⟨l, hl⟩ : ∃ l, trail c x.1.history = l := ⟨_, rfl⟩
  have horderly := hinv.shared.orderly c
  have hmem : ∀ e ∈ trail c x.1.history, e ∈ x.1.history := fun e he => List.mem_of_mem_filter he
  rw [hl] at horderly hmem
  refine ⟨?_, ?_, ?_, ?_⟩
  · rw [← filter_trail issues_challenge, hl]
    cases horderly <;> simp [Entry.issues]
  · rw [← filter_trail approves_challenge, hl]
    cases horderly <;> simp [Entry.approves]
  · intro grant secret later hissued
    have hissued : Entry.issued grant (.qr c secret later) ∈ l := by
      rw [← hl]
      exact List.mem_filter.mpr ⟨hissued, beq_self_eq_true _⟩
    cases horderly with
    | unknown => simp at hissued
    | begun => simp at hissued
    | approved => simp at hissued
    | @issued secret' expiresAt now later' session grant' hnow hlater huser =>
      simp only [List.mem_cons, reduceCtorEq, Entry.issued.injEq, Source.qr.injEq, true_and,
        List.not_mem_nil, or_false, false_or] at hissued
      obtain ⟨rfl, rfl, rfl⟩ := hissued
      exact ⟨expiresAt, session, now, hmem _ (by simp), hmem _ (by simp), hnow, hlater, huser⟩
  · rintro i ⟨s', visits'⟩ ⟨v', hstep, -⟩ grant source hhistory
    have hmoves : Moves env x.1 (x.2 i) .mint s' v' := moves_of_step hstep
    generalize x.2 i = v at hmoves
    dsimp only at hhistory
    cases hmoves with
    | @minted c₀ secret userId challenge now session w hrun =>
      obtain ⟨g, i, hg, hi, hstanding, -, hentries⟩ := mint_runs hu (.qr c₀ secret now) hrun
      have huser : g.record.userId = userId := by
        rw [hg]
        exact hi
      rw [hentries] at hhistory
      cases List.append_cancel_left hhistory
      rw [huser]
      exact hstanding
    | ended => simp at hhistory

end

/-! A run to try it on: Alice approves a challenge for a second device. -/

theorem pollQrLogin_succeeds {env : Env} {w : World} {userId : UserId}
    (h : InGoodStanding userId w) (challenge : QrLoginChallenge) (now : DateTime) :
    ∃ session w', ((challenge.mint userId now).session env).Runs w session w' := by
  obtain ⟨a, ha, hdel, hsus⟩ := h
  have hactive : (w.accounts.get userId).filter
      (fun account => account.deletedAt.isNone && !account.suspended) = some a := by
    simp [ha, hdel, hsus]
  have hruns : ∃ session w', (pollQrLogin env userId challenge.deviceName challenge.platform
      challenge.appVersion now).Runs w session w' := by
    unfold pollQrLogin issueSession
    simp only [Tx.runs_get_bind, Tx.runs_okOr_bind, Tx.runs_bind (t := newUuid env), newUuid_runs,
      update_bind_runs, World.set, issueSessionInFamily_runs]
    exact ⟨_, _, a, hactive, _, _, ⟨rfl, rfl⟩, _, _, ⟨rfl, rfl⟩, rfl, rfl⟩
  obtain ⟨session, w', hr⟩ := hruns
  refine ⟨some session, w', ?_⟩
  simp only [QrLoginChallenge.mint, Op.session, Tx.runs_bind, Tx.runs_pure]
  exact ⟨_, _, hr, rfl, rfl⟩

/-- A step of the only caller. -/
theorem logins_step {env : Env} {s s' : Logins} {v v' : Visit} {l : VisitStep}
    (h : Visit.step env s v l = some (s', v')) :
    (logins Unit env).lts.step (s, fun _ => v) ((), l) (s', fun _ => v') := by
  refine ⟨v', ?_, ?_⟩
  · simp only [logins]
    exact h
  · funext i
    simp

theorem beginQrLogin_succeeds (env : Env) (w : World) (now : DateTime) :
    ∃ info challenge w', (beginQrLogin env "desktop" "linux" "1.0" now).Runs w
      (info, challenge) w' ∧ challenge.expiresAt = now + Duration.minutes 5 ∧
      w'.toStore = w.toStore := by
  unfold beginQrLogin
  simp only [check_bind_runs, Tx.runs_bind (t := newUuid env), newUuid_runs,
    Tx.runs_bind (t := randomToken env), randomToken_runs, Tx.runs_pure, World.set]
  exact ⟨_, _, _, ⟨by decide, by decide, _, _, ⟨rfl, rfl⟩, _, _, ⟨rfl, rfl⟩, rfl, rfl⟩, rfl, rfl⟩

/-- Alice has registered and approved the challenge of a second device. -/
theorem alice_approves : ∃ s c secret challenge userId now,
    (logins Unit Env.numbered).lts.Reachable (s, fun _ => .idle) ∧
    s.qrLogins.get c = some challenge ∧ now < challenge.expiresAt ∧
    challenge.secretHash = hashToken Env.numbered secret ∧
    challenge.approvedUserId = some userId ∧ InGoodStanding userId s.world ∧
    ∃ e session, session.userId = userId ∧ s.history = [e, .approved c secret session now] := by
  obtain ⟨w, i, profile, hs, -, ht⟩ := alice_registers
  have hget : w.accessTokens.get (hashToken Env.numbered i.accessToken) = some i.access := by
    rw [ht.access]
    exact Map.get_insert_self ..
  have hb := (allBacked_inductive Env.numbered_injective).reachable (ledger_service hs)
  obtain ⟨hstanding, ⟨device, hd, -, hdr⟩, -⟩ := hb.access _ _ hget rfl
  obtain ⟨info, challenge, w', hbegin, hexpires, hstore⟩ :=
    beginQrLogin_succeeds Env.numbered w (i.accessExpiresAt - 1)
  have hx : authenticateIdentity Env.numbered w'.toStore i.accessToken (i.accessExpiresAt - 1) =
      .ok (i.userId, i.deviceId) := by
    rw [hstore]
    exact authenticateIdentity_ok.mpr ⟨i.access, hget, rfl, rfl, Int.sub_lt_self _ Int.one_pos,
      ⟨device, hd, hdr⟩, hstanding⟩
  obtain ⟨hid, hsecret, hopen, -, -⟩ := beginQrLogin_runs hbegin
  have hnow : i.accessExpiresAt - 1 < challenge.expiresAt := by
    rw [hexpires]
    exact Int.lt_add_of_pos_right _ (by decide)
  have happrove : approveQrLogin Env.numbered i.userId info.challengeId info.secret
      (i.accessExpiresAt - 1) ((Map.empty : QrLogins).insert info.challengeId challenge) = _ :=
    approveQrLogin_succeeds (Map.get_insert_self ..) hnow hsecret hopen
  generalize hchallenges : (Map.empty : QrLogins).insert info.challengeId challenge = challenges
    at happrove
  obtain ⟨approved, happroved⟩ : ∃ approved, approved = (pruneQrLogins (i.accessExpiresAt - 1)
    challenges).insert info.challengeId { challenge with approvedUserId := some i.userId } := ⟨_, rfl⟩
  have hgetc : approved.get info.challengeId =
      some { challenge with approvedUserId := some i.userId } := by
    rw [happroved]
    exact Map.get_insert_self ..
  rw [← happroved] at happrove
  have h₁ : Visit.step Env.numbered ⟨w, .empty, []⟩ .idle
      (.begin "desktop" "linux" "1.0" (i.accessExpiresAt - 1)) =
      some (⟨w', challenges, [.begun info.challengeId info.secret info.expiresAt]⟩, .idle) := by
    unfold Tx.Runs at hbegin
    unfold Visit.step
    simp only [hbegin, hchallenges, List.nil_append]
  have h₂ : Visit.step Env.numbered
      ⟨w', challenges, [.begun info.challengeId info.secret info.expiresAt]⟩ .idle
      (.authenticate i.accessToken info.challengeId info.secret (i.accessExpiresAt - 1)) =
      some (⟨w', challenges, [.begun info.challengeId info.secret info.expiresAt]⟩,
        .approving i.access info.challengeId info.secret) := by
    have hget' : w'.accessTokens.get (hashToken Env.numbered i.accessToken) = some i.access := by
      rw [hstore]
      exact hget
    unfold Visit.step
    simp only [hx, hget']
  have h₃ : Visit.step Env.numbered
      ⟨w', challenges, [.begun info.challengeId info.secret info.expiresAt]⟩
      (.approving i.access info.challengeId info.secret) (.approve (i.accessExpiresAt - 1)) =
      some (⟨w', approved, [.begun info.challengeId info.secret info.expiresAt,
        .approved info.challengeId info.secret i.access (i.accessExpiresAt - 1)]⟩, .idle) := by
    unfold Visit.step
    simp only [Issue.access, happrove]
    rfl
  have hinit : (logins Unit Env.numbered).lts.init (⟨w, .empty, []⟩, fun _ => .idle) :=
    ⟨ledger_service hs, rfl, rfl, fun _ => rfl⟩
  refine ⟨_, info.challengeId, info.secret, _, i.userId, i.accessExpiresAt - 1,
    (((LTS.Reachable.init hinit).step (logins_step h₁)).step (logins_step h₂)).step
      (logins_step h₃), hgetc, hnow, hsecret, rfl, ?_, _, i.access, rfl, rfl⟩
  show InGoodStanding i.userId w'
  unfold InGoodStanding
  rw [hstore]
  exact hstanding

/-- A poll of an approved challenge: it takes the challenge, and then mints the session. -/
theorem poll_mints {env : Env} {s : Logins} {c : Uuid} {secret : String}
    {challenge : QrLoginChallenge} {userId : UserId} {now : DateTime}
    (hu : Function.Injective env.uuid) (hs : (logins Unit env).lts.Reachable (s, fun _ => .idle))
    (hget : s.qrLogins.get c = some challenge) (hnow : now < challenge.expiresAt)
    (hsecret : challenge.secretHash = hashToken env secret)
    (happroved : challenge.approvedUserId = some userId)
    (hstanding : InGoodStanding userId s.world) :
    ∃ s' g, (logins Unit env).lts.Reachable (s', fun _ => .idle) ∧ g.record.userId = userId ∧
      s'.history = s.history ++ [.issued g (.qr c secret now)] := by
  obtain ⟨session, w, hmint⟩ := pollQrLogin_succeeds hstanding challenge now
  obtain ⟨g, i, hg, hi, -, -, hentries⟩ := mint_runs hu (.qr c secret now) hmint
  have hclaim := claimQrLogin_succeeds hget hnow hsecret happroved
  have h₁ : Visit.step env s .idle (.poll c secret now) =
      some ({ s with qrLogins := (pruneQrLogins now s.qrLogins).remove c },
        .claimed c secret userId challenge now) := by
    unfold Visit.step
    simp only [hclaim]
  have h₂ : Visit.step env { s with qrLogins := (pruneQrLogins now s.qrLogins).remove c }
      (.claimed c secret userId challenge now) .mint =
      some (⟨w, (pruneQrLogins now s.qrLogins).remove c,
        s.history ++ [.issued g (.qr c secret now)]⟩, .idle) := by
    unfold Tx.Runs at hmint
    unfold Visit.step
    simp only [hmint, hentries]
  exact ⟨_, g, (hs.step (logins_step h₁)).step (logins_step h₂), by rw [hg]; exact hi, rfl⟩

/-- Alice's second device polls, and gets a session of hers. -/
theorem qr_login_once_alice : ∃ x c grant secret later,
    (logins Unit Env.numbered).lts.Reachable x ∧
    .issued grant (.qr c secret later) ∈ x.1.history ∧
    (x.1.history.filter (Entry.issues c)).length ≤ 1 := by
  obtain ⟨s, c, secret, challenge, userId, now, hs, hget, hnow, hsecret, happroved, hstanding, -⟩ :=
    alice_approves
  obtain ⟨s', g, hs', -, hhistory⟩ := poll_mints Env.numbered_injective hs hget hnow hsecret
    happroved hstanding
  have honce := (qr_login_once Env.numbered_injective Env.numbered_hashToken_injective hs' c).1
  exact ⟨_, c, g, secret, now, hs', by simp [hhistory], honce⟩

end IamRust
