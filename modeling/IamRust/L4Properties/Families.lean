import IamRust.L4Properties.Tokens

/-!
# Families of tokens

A session starts a family of tokens, and `refresh` adds the next two to it.
`ledger` is the service with the sessions it handed out, each with the family of
its tokens. What the tables hold is accounted for by the ledger (`Accounted`) in
the runs in which no random token is drawn twice.

* `reuse_kills_family`: after `refresh` reported the reuse of a token, no token
  of its family is accepted any more; the tokens of other families are treated
  as before.
* `logout_ends_session`: `logout` ends the family if the token is the current
  one. For a token that `refresh` has already replaced it does nothing, and the
  family goes on (`logout_keeps_session`).
-/
namespace IamRust

open Core
open Core.Tx (failIf okOr ofExcept whenTrue whenSome forEach mapEach)

/-! ## The ledger -/

/-- A session handed out, with the record of its access token. -/
structure Grant where
  session : AuthenticatedSession
  record : TokenRecord

def Grant.family (g : Grant) : Uuid := g.record.familyId

structure Ledger where
  world : World
  grants : List Grant

/-- The grant of a transaction that left `w`. -/
def granted (env : Env) (w : World) (session : Option AuthenticatedSession) : List Grant :=
  (session.bind fun s =>
    (w.accessTokens.get (hashToken env s.accessToken)).map fun r => ⟨s, r⟩).toList

def ledger (env : Env) : LTS Ledger Op where
  init s := s = ⟨World.init, []⟩
  step s op s' := ∃ session, (op.session env).Runs s.world session s'.world ∧
    s'.grants = s.grants ++ granted env s'.world session

/-- No two of the tokens drawn so far are the same. -/
def Fresh (env : Env) (w : World) : Prop :=
  ∀ m n, m < w.nextRandom → n < w.nextRandom → tokenText env m = tokenText env n → m = n

theorem Fresh.before {env : Env} {w w' : World} (h : Fresh env w')
    (hle : w.nextRandom ≤ w'.nextRandom) : Fresh env w := fun m n hm hn he =>
  h m n (hm.trans_le hle) (hn.trans_le hle) he

/-- The tables hold tokens of the ledger. -/
structure Accounted (env : Env) (s : Ledger) : Prop where
  tokens : ∀ g ∈ s.grants, ∃ n, n + 2 ≤ s.world.nextRandom ∧
    g.session.accessToken = tokenText env n ∧ g.session.refreshToken = tokenText env (n + 1)
  drawn : ∀ g ∈ s.grants, Drawn env g.family s.world
  access : ∀ k r, s.world.accessTokens.get k = some r → ∃ g ∈ s.grants,
    k = hashToken env g.session.accessToken ∧ r.familyId = g.family
  refresh : ∀ k r, s.world.refreshTokens.get k = some r → ∃ g ∈ s.grants,
    k = hashToken env g.session.refreshToken ∧ r.familyId = g.family
  consumed : ∀ k f, s.world.consumedRefreshTokens.get k = some f → ∃ g ∈ s.grants,
    k = hashToken env g.session.refreshToken ∧ f = g.family
  replaced : ∀ k, (s.world.consumedRefreshTokens.get k).isSome →
    s.world.refreshTokens.get k = none
  distinct : ∀ g ∈ s.grants, ∀ g' ∈ s.grants,
    g.session.accessToken = g'.session.accessToken ∨
      g.session.refreshToken = g'.session.refreshToken → g.family = g'.family

section
variable {env : Env}

/-- The grant of what was issued. -/
theorem granted_issue {w w' : World} {e : Effect} {i : Issue} (h : TokenStep env w w' e)
    (hi : e.issued = some i) (profile : UserProfile) :
    granted env w' (some (i.session profile)) = [⟨i.session profile, i.access⟩] := by
  have hget : w'.accessTokens.get (hashToken env i.accessToken) = some i.access := by
    rw [h.access]
    simp [Effect.onAccess, hi]
  simp [granted, Issue.session, hget]

theorem granted_eq {w w' : World} {e : Effect} {session : Option AuthenticatedSession}
    (h : TokenStep env w w' e) (hs : Option.Rel Carries session e.issued) :
    (e.issued = none ∧ granted env w' session = []) ∨
    ∃ i profile, e.issued = some i ∧
      granted env w' session = [⟨i.session profile, i.access⟩] := by
  cases hi : e.issued with
  | none =>
    rw [hi] at hs
    cases hs
    exact .inl ⟨rfl, rfl⟩
  | some i =>
    rw [hi] at hs
    obtain ⟨⟩ := hs
    rename_i session hc
    obtain ⟨profile, rfl⟩ := hc
    exact .inr ⟨i, profile, rfl, granted_issue h hi profile⟩

/-- A transaction that hands out a session, as a step of the ledger. -/
theorem ledger_issue {s : Ledger} (op : Op) {w' : World} {e : Effect} {i : Issue}
    {profile : UserProfile} (hrun : (op.session env).Runs s.world (some (i.session profile)) w')
    (h : TokenStep env s.world w' e) (hi : e.issued = some i) :
    (ledger env).step s op ⟨w', s.grants ++ [⟨i.session profile, i.access⟩]⟩ :=
  ⟨_, hrun, by rw [granted_issue h hi]⟩

/-- A token drawn later is none of the ledger's. -/
theorem Accounted.later (hh : Function.Injective (hashToken env)) {s : Ledger} {w' : World}
    (hs : Accounted env s) (hfresh : Fresh env w') {n : Nat} (hn : s.world.nextRandom ≤ n)
    (hn' : n + 2 ≤ w'.nextRandom) {g : Grant} (hg : g ∈ s.grants) :
    hashToken env g.session.accessToken ≠ hashToken env (tokenText env n) ∧
    hashToken env g.session.refreshToken ≠ hashToken env (tokenText env (n + 1)) := by
  obtain ⟨m, hm, ha, hr⟩ := hs.tokens g hg
  rw [ha, hr]
  constructor
  · intro he
    have := hfresh m n (by omega) (by omega) (hh he)
    omega
  · intro he
    have := hfresh (m + 1) (n + 1) (by omega) (by omega) (hh he)
    omega

/-- What is issued belongs to a family that was drawn. -/
theorem Accounted.issued_drawn {s : Ledger} {w' : World} {e : Effect} {i : Issue}
    (hs : Accounted env s) (h : TokenStep env s.world w' e) (hi : e.issued = some i) :
    Drawn env i.familyId w' := by
  rcases h.source i hi with ⟨-, -, ⟨k, -, hk, hf⟩, -⟩ | ⟨key, r, -, -, hr, -, -, -, -, hf⟩
  · exact ⟨k, hk, hf⟩
  · obtain ⟨g, hg, -, hfam⟩ := hs.refresh key r hr
    rw [hf, hfam]
    exact (hs.drawn g hg).mono h.uuids

theorem Accounted.step (hh : Function.Injective (hashToken env)) {s : Ledger} {w' : World}
    {e : Effect} {session : Option AuthenticatedSession} (hs : Accounted env s)
    (h : TokenStep env s.world w' e) (hc : Option.Rel Carries session e.issued)
    (hfresh : Fresh env w') : Accounted env ⟨w', s.grants ++ granted env w' session⟩ := by
  have hgiven := granted_eq h hc
  have hnew : ∀ i, e.issued = some i → ∃ profile,
      (⟨i.session profile, i.access⟩ : Grant) ∈ s.grants ++ granted env w' session := by
    intro i hi
    rcases hgiven with ⟨hn, -⟩ | ⟨i', profile, hi', hg⟩
    · cases hn.symm.trans hi
    · cases hi'.symm.trans hi
      exact ⟨profile, by simp [hg]⟩
  have hmem : ∀ g ∈ s.grants ++ granted env w' session, g ∈ s.grants ∨
      ∃ i profile, e.issued = some i ∧ g = ⟨i.session profile, i.access⟩ := by
    intro g hg
    rcases List.mem_append.mp hg with hg | hg
    · exact .inl hg
    · rcases hgiven with ⟨-, hn⟩ | ⟨i, profile, hi, hg'⟩
      · simp [hn] at hg
      · exact .inr ⟨i, profile, hi, by simpa [hg'] using hg⟩
  have hold : ∀ g ∈ s.grants, g ∈ s.grants ++ granted env w' session :=
    fun g => List.mem_append_left _
  constructor
  case tokens =>
    intro g hg
    rcases hmem g hg with hg | ⟨i, profile, hi, rfl⟩
    · obtain ⟨n, hn, htokens⟩ := hs.tokens g hg
      exact ⟨n, hn.trans h.randoms, htokens⟩
    · obtain ⟨n, -, hn, ha, hr⟩ := h.tokens i hi
      exact ⟨n, hn, ha, hr⟩
  case drawn =>
    intro g hg
    rcases hmem g hg with hg | ⟨i, profile, hi, rfl⟩
    · exact (hs.drawn g hg).mono h.uuids
    · exact hs.issued_drawn h hi
  case access =>
    intro k r hr
    rcases h.access_get hr with ⟨r₀, hr₀, rfl⟩ | ⟨i, hi, rfl, rfl⟩
    · obtain ⟨g, hg, hk, hf⟩ := hs.access k r₀ hr₀
      exact ⟨g, hold g hg, hk, by rw [Effect.onRecord_familyId, hf]⟩
    · obtain ⟨profile, hg⟩ := hnew i hi
      exact ⟨_, hg, rfl, rfl⟩
  case refresh =>
    intro k r hr
    rcases h.refresh_get hr with ⟨r₀, hr₀, rfl, -⟩ | ⟨i, hi, rfl, rfl⟩
    · obtain ⟨g, hg, hk, hf⟩ := hs.refresh k r₀ hr₀
      exact ⟨g, hold g hg, hk, by rw [Effect.onRecord_familyId, hf]⟩
    · obtain ⟨profile, hg⟩ := hnew i hi
      exact ⟨_, hg, rfl, rfl⟩
  case consumed =>
    intro k f hf
    rcases h.consumed_get hf with ⟨hf, -⟩ | hused
    · obtain ⟨g, hg, hk, hfam⟩ := hs.consumed k f hf
      exact ⟨g, hold g hg, hk, hfam⟩
    · obtain ⟨r, hr, rfl⟩ := h.used k f hused
      obtain ⟨g, hg, hk, hfam⟩ := hs.refresh k r hr
      exact ⟨g, hold g hg, hk, hfam⟩
  case replaced =>
    intro k hk
    obtain ⟨f, hf⟩ := Option.isSome_iff_exists.mp hk
    -- the key is that of an old token, so it is none of the new ones
    have hkey : ∃ g ∈ s.grants, k = hashToken env g.session.refreshToken := by
      rcases h.consumed_get hf with ⟨hf, -⟩ | hused
      · obtain ⟨g, hg, hk, -⟩ := hs.consumed k f hf
        exact ⟨g, hg, hk⟩
      · obtain ⟨r, hr, -⟩ := h.used k f hused
        obtain ⟨g, hg, hk, -⟩ := hs.refresh k r hr
        exact ⟨g, hg, hk⟩
    rw [Option.eq_none_iff_forall_ne_some]
    intro r hr
    rcases h.refresh_get hr with ⟨r₀, hr₀, -, hunused⟩ | ⟨i, hi, hk', -⟩
    · rcases h.consumed_get hf with ⟨hf, -⟩ | hused
      · simp [hs.replaced k (by simp [hf])] at hr₀
      · exact hunused f hused
    · obtain ⟨g, hg, rfl⟩ := hkey
      obtain ⟨n, hn, hn', -, ht⟩ := h.tokens i hi
      exact (hs.later hh hfresh hn hn' hg).2 (by rw [hk', ht])
  case distinct =>
    intro g hg g' hg' heq
    have hother : ∀ g ∈ s.grants, ∀ i profile, e.issued = some i →
        ¬ (g.session.accessToken = (i.session profile).accessToken ∨
          g.session.refreshToken = (i.session profile).refreshToken) := by
      intro g hg i profile hi heq
      obtain ⟨n, hn, hn', ha, ht⟩ := h.tokens i hi
      obtain ⟨hna, hnr⟩ := hs.later hh hfresh hn hn' hg
      rcases heq with heq | heq
      · exact hna (by rw [heq, ← ha]; rfl)
      · exact hnr (by rw [heq, ← ht]; rfl)
    rcases hmem g hg with hg | ⟨i, profile, hi, rfl⟩ <;>
      rcases hmem g' hg' with hg' | ⟨i', profile', hi', rfl⟩
    · exact hs.distinct g hg g' hg' heq
    · exact absurd heq (hother g hg i' profile' hi')
    · exact absurd (heq.imp Eq.symm Eq.symm) (hother g' hg' i profile hi)
    · cases hi.symm.trans hi'
      rfl

theorem ledger_accounted (hu : Function.Injective env.uuid)
    (hh : Function.Injective (hashToken env)) :
    (ledger env).Inductive fun s => Fresh env s.world → Accounted env s where
  init s hs _ := by
    subst hs
    constructor <;> simp [World.init, Store.default]
  step s op s' hs hstep hfresh := by
    obtain ⟨w', grants⟩ := s'
    obtain ⟨session, hrun, hgrants⟩ := hstep
    dsimp only at hrun hgrants hfresh
    subst hgrants
    obtain ⟨e, he, hc⟩ := Op.effect hu hrun
    exact (hs (hfresh.before he.randoms)).step hh he hc hfresh

theorem ledger_draws {s s' : Ledger} {ops : List Op} (h : (ledger env).Run s ops s') :
    s.world.nextUuid ≤ s'.world.nextUuid ∧ s.world.nextRandom ≤ s'.world.nextRandom := by
  refine h.relates (R := fun s s' => s.world.nextUuid ≤ s'.world.nextUuid ∧
    s.world.nextRandom ≤ s'.world.nextRandom) (fun _ => ⟨Nat.le_refl _, Nat.le_refl _⟩)
    (fun _ _ _ h₁ h₂ => ⟨h₁.1.trans h₂.1, h₁.2.trans h₂.2⟩) ?_
  intro s op s' hs
  obtain ⟨session, hrun, -⟩ := hs
  have := (op.evolves env).runs (Op.session_run hrun)
  exact ⟨this.uuids, this.randoms⟩

theorem ledger_service {s : Ledger} (h : (ledger env).Reachable s) :
    (service env).Reachable s.world := by
  refine h.map Ledger.world ?_ ?_
  · rintro s rfl
    rfl
  · rintro s op s' ⟨session, hrun, -⟩
    exact Op.session_run hrun

/-! ## Dead families -/

/-- Every token of the family is revoked. -/
structure AllRevoked (f : Uuid) (w : World) : Prop where
  access : ∀ k r, w.accessTokens.get k = some r → r.familyId = f → r.revoked = true
  refresh : ∀ k r, w.refreshTokens.get k = some r → r.familyId = f → r.revoked = true

/-- No session is issued in a family whose tokens are revoked. -/
theorem AllRevoked.issued_ne {f : Uuid} {w w' : World} {e : Effect} {i : Issue}
    (hu : Function.Injective env.uuid) (hf : AllRevoked f w) (hd : Drawn env f w)
    (h : TokenStep env w w' e) (hi : e.issued = some i) : i.familyId ≠ f := by
  rintro rfl
  rcases h.source i hi with ⟨-, -, ⟨k, hk, -, hfam⟩, -⟩ | ⟨key, r, -, -, hr, hlive, -, -, -, hfam⟩
  · exact hd.ne hu hk hfam
  · simp [hf.refresh key r hr hfam.symm] at hlive

/-- A dead family stays dead. -/
theorem AllRevoked.step {f : Uuid} {w w' : World} {e : Effect} (hu : Function.Injective env.uuid)
    (hf : AllRevoked f w) (hd : Drawn env f w) (h : TokenStep env w w' e) : AllRevoked f w' where
  access k r hr hfam := by
    rcases h.access_get hr with ⟨r₀, hr₀, rfl⟩ | ⟨i, hi, -, rfl⟩
    · exact Effect.onRecord_revoked (hf.access k r₀ hr₀ (by simpa using hfam))
    · exact absurd hfam (hf.issued_ne hu hd h hi)
  refresh k r hr hfam := by
    rcases h.refresh_get hr with ⟨r₀, hr₀, rfl, -⟩ | ⟨i, hi, -, rfl⟩
    · exact Effect.onRecord_revoked (hf.refresh k r₀ hr₀ (by simpa using hfam))
    · exact absurd hfam (hf.issued_ne hu hd h hi)

theorem AllRevoked.run {f : Uuid} {s s' : Ledger} {ops : List Op}
    (hu : Function.Injective env.uuid) (hf : AllRevoked f s.world) (hd : Drawn env f s.world)
    (h : (ledger env).Run s ops s') : AllRevoked f s'.world := by
  refine (h.preserves (I := fun s => AllRevoked f s.world ∧ Drawn env f s.world) ?_ ⟨hf, hd⟩).1
  rintro s op s' ⟨hf, hd⟩ ⟨session, hrun, -⟩
  obtain ⟨e, he, -⟩ := Op.effect hu hrun
  exact ⟨hf.step hu hd he, hd.mono he.uuids⟩

/-! ## Tokens that are accepted -/

/-- One of the two tokens is accepted, at some time. -/
def Usable (env : Env) (g : Grant) (w : World) : Prop :=
  (∃ now x, authenticateIdentity env w.toStore g.session.accessToken now = .ok x) ∨
  ∃ now session w', (refresh env g.session.refreshToken now).Runs w (.ok session) w'

theorem Accounted.not_usable (hh : Function.Injective (hashToken env)) {s : Ledger} {g : Grant}
    (hs : Accounted env s) (hg : g ∈ s.grants) (hf : AllRevoked g.family s.world) :
    ¬ Usable env g s.world := by
  rintro (⟨now, x, h⟩ | ⟨now, session, w', h⟩)
  · obtain ⟨r, hr, -, hlive, -⟩ := authenticateIdentity_ok.mp h
    obtain ⟨g', hg', hk, hfam⟩ := hs.access _ r hr
    have hsame := hs.distinct g hg g' hg' (.inl (hh hk))
    simp [hf.access _ r hr (hfam.trans hsame.symm)] at hlive
  · rcases refresh_effect h with ⟨_, -, he, -⟩ | ⟨r, i, profile, hr, -, -, hnext, -⟩
    · cases he
    · obtain ⟨key, r', hused, -, hr', hlive, -⟩ := hnext
      obtain ⟨rfl, -⟩ := Prod.mk.inj (Option.some.inj hused)
      obtain ⟨g', hg', hk, hfam⟩ := hs.refresh _ r' hr'
      have hsame := hs.distinct g hg g' hg' (.inr (hh hk))
      simp [hf.refresh _ r' hr' (hfam.trans hsame.symm)] at hlive

theorem runs_of_answer {α : Type} {t : Service α} {w : World} {a : α}
    (h : (t w).map Prod.fst = .ok a) : ∃ w', t.Runs w a w' := by
  unfold Tx.Runs
  cases hr : t w with
  | error e => simp [hr, Except.map] at h
  | ok x =>
    simp only [hr, Except.map, Except.ok.injEq] at h
    exact ⟨x.2, by rw [← h]⟩

/-- A current refresh token that is not revoked is exchanged, before it expires. -/
theorem refresh_succeeds {w : World} {token : String} {r : TokenRecord} {now : DateTime}
    (hr : w.refreshTokens.get (hashToken env token) = some r) (hlive : r.revoked = false)
    (hnow : now < r.expiresAt)
    (hunused : w.consumedRefreshTokens.get (hashToken env token) = none)
    (haccount : InGoodStanding r.userId w) :
    ∃ session w', (refresh env token now).Runs w (.ok session) w' := by
  obtain ⟨a, ha, hdel, -⟩ := haccount
  have hactive : w.activeAccount r.userId = some a := activeAccount_some.mpr ⟨ha, hdel⟩
  have hvalid : ¬ (r.revoked = true ∨ r.expiresAt ≤ now) := by
    simpa [hlive] using Int.not_le.mpr hnow
  have hanswer : (refresh env token now w).map Prod.fst = _ := refresh_answer
  simp only [hunused, hr, if_neg hvalid, hactive] at hanswer
  exact ⟨_, runs_of_answer hanswer⟩

/-- A token that was used up is reported. -/
theorem refresh_reports {w : World} {token : String} {f : Uuid} (now : DateTime)
    (hused : w.consumedRefreshTokens.get (hashToken env token) = some f) :
    ∃ w', (refresh env token now).Runs w (.error .refreshTokenReuse) w' := by
  have hanswer : (refresh env token now w).map Prod.fst = _ := refresh_answer
  simp only [hused] at hanswer
  exact runs_of_answer hanswer

/-- A token that is not revoked is accepted, before it expires. -/
theorem Accounted.usable {s : Ledger} {f : Uuid} (hs : Accounted env s)
    (hb : AllBacked env s.world) (hf : ¬ AllRevoked f s.world) :
    ∃ g ∈ s.grants, g.family = f ∧ Usable env g s.world := by
  by_contra hnone
  push Not at hnone
  refine hf ⟨fun k r hr hfam => ?_, fun k r hr hfam => ?_⟩ <;> by_contra hlive <;>
    rw [Bool.not_eq_true] at hlive
  · obtain ⟨g, hg, rfl, hgf⟩ := hs.access k r hr
    obtain ⟨⟨a, ha⟩, ⟨device, hd, -, hdr⟩, -⟩ := hb.access _ r hr hlive
    refine hnone g hg (hgf.symm.trans hfam) (.inl ⟨r.expiresAt - 1, (r.userId, r.deviceId), ?_⟩)
    exact authenticateIdentity_ok.mpr ⟨r, hr, rfl, hlive, Int.sub_lt_self _ Int.one_pos,
      ⟨device, hd, hdr⟩, a, ha⟩
  · obtain ⟨g, hg, rfl, hgf⟩ := hs.refresh k r hr
    refine hnone g hg (hgf.symm.trans hfam) (.inr ⟨r.expiresAt - 1, ?_⟩)
    refine refresh_succeeds hr hlive (Int.sub_lt_self _ Int.one_pos) ?_
      (hb.refresh _ r hr hlive).account
    by_contra hused
    have := hs.replaced _ (Option.isSome_iff_ne_none.mpr hused)
    simp [hr] at this

end

/-! A run to try them on: Alice registers and refreshes her session once. -/

theorem Env.numbered_hashToken_injective : Function.Injective (hashToken Env.numbered) := by
  intro s t h
  exact Text.bytes_injective (Text.toHex_injective h)

theorem fresh_numbered {w : World} (h : w.nextRandom ≤ 256) : Fresh Env.numbered w := by
  intro m n hm hn he
  have hbytes := Text.toHex_injective he
  have hhead := congrArg List.head? hbytes
  simp only [Env.numbered, List.range, List.range.loop, List.map_cons, List.head?_cons,
    Option.some.injEq, Nat.pow_zero, Nat.div_one] at hhead
  have := congrArg UInt8.toNat hhead
  simp only [UInt8.toNat_ofNat'] at this
  omega

/-- Draws of one byte. -/
def Env.short : Env := { Env.numbered with randomBytes := fun n _ => [UInt8.ofNat n] }

theorem Env.short_injective : Function.Injective Env.short.uuid := Env.numbered_injective

theorem Env.short_hashToken_injective : Function.Injective (hashToken Env.short) := by
  intro s t h
  exact Text.bytes_injective (Text.toHex_injective h)

theorem fresh_short {w : World} (h : w.nextRandom ≤ 256) : Fresh Env.short w := by
  intro m n hm hn he
  have := congrArg UInt8.toNat (List.head_eq_of_cons_eq (Text.toHex_injective he))
  simp only [UInt8.toNat_ofNat'] at this
  omega

theorem alice_registers : ∃ w i profile,
    (ledger Env.numbered).Reachable ⟨w, [⟨i.session profile, i.access⟩]⟩ ∧ w.nextRandom = 3 ∧
    TokenStep Env.numbered World.init w (.issuing i) := by
  obtain ⟨_, session, w, hinit, hr, hdraws⟩ := reaches_runs Env.numbered []
    (register Env.numbered alice 0) (fun _ _ w => w.nextRandom == 3) (by decide +kernel)
  cases hinit
  obtain ⟨i, profile, rfl, -, ht⟩ := register_effect Env.numbered_injective hr
  refine ⟨w, i, profile, ?_, beq_iff_eq.mp hdraws, ht⟩
  refine LTS.Reachable.step (LTS.Reachable.init rfl) (ledger_issue (.register alice 0) ?_ ht rfl)
  simp only [Op.session, Tx.runs_bind, Tx.runs_pure]
  exact ⟨_, _, hr, rfl, rfl⟩

/-- The refresh token she registered with is used up; that of her next session is accepted. -/
theorem alice_refreshes : ∃ s g₀ g₁, (ledger Env.numbered).Reachable s ∧
    Fresh Env.numbered s.world ∧ g₀ ∈ s.grants ∧ g₁ ∈ s.grants ∧ g₁.family = g₀.family ∧
    s.world.consumedRefreshTokens.get (hashToken Env.numbered g₀.session.refreshToken) =
      some g₀.family ∧ Usable Env.numbered g₁ s.world := by
  obtain ⟨w₁, i₁, profile₁, hs₁, hdraws₁, ht₁⟩ := alice_registers
  have hget₁ : w₁.refreshTokens.get (hashToken Env.numbered i₁.refreshToken) =
      some i₁.refresh := by
    rw [ht₁.refresh]
    exact Map.get_insert_self ..
  have hunused₁ : w₁.consumedRefreshTokens.get (hashToken Env.numbered i₁.refreshToken) =
      none := by
    rw [ht₁.consumed]
    exact Map.get_empty _
  have hb₁ := (allBacked_inductive Env.numbered_injective).reachable (ledger_service hs₁)
  obtain ⟨_, w₂, hr₂⟩ := refresh_succeeds hget₁ rfl (Int.sub_lt_self _ Int.one_pos) hunused₁
    (hb₁.refresh _ _ hget₁ rfl).account
  rcases refresh_effect hr₂ with ⟨_, -, he, -⟩ | ⟨r, i₂, profile₂, hr, -, he, hnext, ht₂, hdraws₂⟩
  · cases he
  cases he
  cases hget₁.symm.trans hr
  obtain ⟨_, r', hused, -, -, -, -, -, -, hfamily⟩ := hnext
  replace hfamily : i₂.familyId = i₁.familyId :=
    hfamily.trans (Prod.mk.inj (Option.some.inj hused)).2.symm
  have hs₂ : (ledger Env.numbered).Reachable ⟨w₂, [⟨i₁.session profile₁, i₁.access⟩] ++
      [⟨i₂.session profile₂, i₂.access⟩]⟩ := by
    refine hs₁.step (ledger_issue (.refresh i₁.refreshToken (i₁.refresh.expiresAt - 1)) ?_ ht₂ rfl)
    simp only [Op.session, Tx.runs_bind, Tx.runs_pure]
    exact ⟨_, _, hr₂, rfl, rfl⟩
  have hfresh : Fresh Env.numbered w₂ := fresh_numbered (by omega)
  have hacc := (ledger_accounted Env.numbered_injective Env.numbered_hashToken_injective).reachable
    hs₂ hfresh
  have hb₂ := (allBacked_inductive Env.numbered_injective).reachable (ledger_service hs₂)
  have hget₂ : w₂.refreshTokens.get (hashToken Env.numbered i₂.refreshToken) =
      some i₂.refresh := by
    rw [ht₂.refresh]
    exact Map.get_insert_self ..
  have hunused₂ : w₂.consumedRefreshTokens.get (hashToken Env.numbered i₂.refreshToken) =
      none := by
    by_contra hused
    have := hacc.replaced _ (Option.isSome_iff_ne_none.mpr hused)
    simp [hget₂] at this
  refine ⟨_, ⟨i₁.session profile₁, i₁.access⟩, ⟨i₂.session profile₂, i₂.access⟩, hs₂, hfresh,
    by simp, by simp, hfamily, ?_, .inr ⟨i₂.refresh.expiresAt - 1, ?_⟩⟩
  · show w₂.consumedRefreshTokens.get (hashToken Env.numbered i₁.refreshToken) = _
    rw [ht₂.consumed]
    exact Map.get_insert_self ..
  · exact refresh_succeeds hget₂ rfl (Int.sub_lt_self _ Int.one_pos) hunused₂
      (hb₂.refresh _ _ hget₂ rfl).account

section
variable {env : Env}

/-! ## Reuse -/

/-- Both tables rewritten by the revocation of the family. -/
theorem allRevoked_revokeIf {f : Uuid} {w : World} {access refresh : Map String TokenRecord}
    (haccess : w.accessTokens = access.mapValues (revokeIf fun r => f == r.familyId))
    (hrefresh : w.refreshTokens = refresh.mapValues (revokeIf fun r => f == r.familyId)) :
    AllRevoked f w := by
  have hrevoked : ∀ (m : Map String TokenRecord) k r,
      (m.mapValues (revokeIf fun r => f == r.familyId)).get k = some r → r.familyId = f →
      r.revoked = true := by
    intro m k r hr hf
    rw [Map.get_mapValues, Option.map_eq_some_iff] at hr
    obtain ⟨r₀, -, rfl⟩ := hr
    unfold revokeIf at hf ⊢
    split
    · rfl
    · rename_i hne
      rw [if_neg hne] at hf
      exact absurd (beq_iff_eq.mpr hf.symm) hne
  exact ⟨fun k r hr => hrevoked access k r (haccess ▸ hr),
    fun k r hr => hrevoked refresh k r (hrefresh ▸ hr)⟩

/-- Revoking a family is not noticed by the tokens of another. -/
theorem revokeIf_other {f : Uuid} {m : Map String TokenRecord} {k : String}
    (hne : ∀ r, m.get k = some r → r.familyId ≠ f) :
    (m.mapValues (revokeIf fun r => f == r.familyId)).get k = m.get k := by
  rw [Map.get_mapValues]
  cases hr : m.get k with
  | none => rfl
  | some r =>
    have : (f == r.familyId) = false := beq_eq_false_iff_ne.mpr (Ne.symm (hne r hr))
    simp [revokeIf, this]

/-- **Reuse kills the family.** After `refresh` has reported the reuse of a token, no access token
of its family is accepted by `authenticate_identity` and no refresh token of it by `refresh`, in
every state of every run that follows. A token of another family gets the answers it got before. -/
theorem reuse_kills_family (hu : Function.Injective env.uuid)
    (hh : Function.Injective (hashToken env)) {s s' : Ledger} {g₀ : Grant} {now : DateTime}
    {w : World} {ops : List Op} (hs : (ledger env).Reachable s) (hg₀ : g₀ ∈ s.grants)
    (hreuse : (refresh env g₀.session.refreshToken now).Runs s.world (.error .refreshTokenReuse) w)
    (hrun : (ledger env).Run ⟨w, s.grants⟩ ops s') (hfresh : Fresh env s'.world) :
    (ledger env).step s (.refresh g₀.session.refreshToken now) ⟨w, s.grants⟩ ∧
    (∀ g ∈ s'.grants, g.family = g₀.family → ¬ Usable env g s'.world) ∧
    ∀ g ∈ s.grants, g.family ≠ g₀.family → ∀ time,
      authenticateIdentity env w.toStore g.session.accessToken time =
        authenticateIdentity env s.world.toStore g.session.accessToken time ∧
      (refresh env g.session.refreshToken time w).map Prod.fst =
        (refresh env g.session.refreshToken time s.world).map Prod.fst := by
  have hstep : (ledger env).step s (.refresh g₀.session.refreshToken now) ⟨w, s.grants⟩ := by
    refine ⟨none, ?_, by simp [granted]⟩
    simp only [Op.session, Tx.runs_bind, Tx.runs_pure]
    exact ⟨_, _, hreuse, rfl, rfl⟩
  have hdraws := ledger_draws (.cons hstep hrun)
  have hacc := (ledger_accounted hu hh).reachable hs (hfresh.before hdraws.2)
  rcases refresh_effect hreuse with ⟨f, hf, -, rfl⟩ | ⟨_, _, _, -, -, he, -⟩
  · obtain ⟨g', hg', hk, rfl⟩ := hacc.consumed _ f hf
    have hfam : g₀.family = g'.family := hacc.distinct g₀ hg₀ g' hg' (.inr (hh hk))
    refine ⟨hstep, fun g hg hgf => ?_, fun g hg hne time => ?_⟩
    · have hs' : (ledger env).Reachable s' := (hs.step hstep).run hrun
      have hacc' := (ledger_accounted hu hh).reachable hs' hfresh
      refine hacc'.not_usable hh hg ?_
      rw [hgf, hfam]
      refine AllRevoked.run hu (allRevoked_revokeIf rfl rfl) ?_ hrun
      exact (hacc.drawn g' hg').mono (Nat.le_refl _)
    · rw [hfam] at hne
      have haccess : ∀ r, s.world.accessTokens.get (hashToken env g.session.accessToken) = some r →
          r.familyId ≠ g'.family := by
        intro r hr
        obtain ⟨g'', hg'', hk, hrf⟩ := hacc.access _ r hr
        rw [hrf, ← hacc.distinct g hg g'' hg'' (.inl (hh hk))]
        exact hne
      have hrefresh : ∀ r, s.world.refreshTokens.get (hashToken env g.session.refreshToken) =
          some r → r.familyId ≠ g'.family := by
        intro r hr
        obtain ⟨g'', hg'', hk, hrf⟩ := hacc.refresh _ r hr
        rw [hrf, ← hacc.distinct g hg g'' hg'' (.inr (hh hk))]
        exact hne
      constructor
      · unfold authenticateIdentity
        dsimp only
        rw [revokeIf_other haccess]
      · rw [refresh_answer, refresh_answer]
        dsimp only
        rw [revokeIf_other hrefresh]
        rfl
  · cases he

/-- Alice's used token is presented again, and her session is over. -/
theorem reuse_kills_family_alice : ∃ s g w, (ledger Env.numbered).Reachable s ∧ g ∈ s.grants ∧
    Usable Env.numbered g s.world ∧ (∃ token now,
      (refresh Env.numbered token now).Runs s.world (.error .refreshTokenReuse) w) ∧
    ¬ Usable Env.numbered g w := by
  obtain ⟨s, g₀, g₁, hs, hfresh, hg₀, hg₁, hfamily, hused, husable⟩ := alice_refreshes
  obtain ⟨w, hreuse⟩ := refresh_reports 0 hused
  have hdraws : w.nextRandom = s.world.nextRandom := by
    rcases refresh_effect hreuse with ⟨_, -, -, rfl⟩ | ⟨_, _, _, -, -, he, -⟩
    · rfl
    · cases he
  have hkilled := (reuse_kills_family Env.numbered_injective Env.numbered_hashToken_injective hs hg₀
    hreuse (.nil _) (hfresh.before hdraws.le)).2.1 g₁ hg₁ hfamily
  exact ⟨s, g₁, w, hs, hg₁, husable, ⟨_, _, hreuse⟩, hkilled⟩

/-! ## Logout -/

/-- **Logout.** After `logout`, no token of the family is accepted in any run that follows, if and
only if the token was the current one of its family or the family was revoked already. -/
theorem logout_ends_session (hu : Function.Injective env.uuid)
    (hh : Function.Injective (hashToken env)) {s : Ledger} {g₀ : Grant} {w : World}
    (hs : (ledger env).Reachable s) (hg₀ : g₀ ∈ s.grants)
    (hlogout : (logout env g₀.session.refreshToken).Runs s.world () w) (hfresh : Fresh env w) :
    (∀ ops s', (ledger env).Run ⟨w, s.grants⟩ ops s' → Fresh env s'.world →
      ∀ g ∈ s'.grants, g.family = g₀.family → ¬ Usable env g s'.world) ↔
    (∃ r, s.world.refreshTokens.get (hashToken env g₀.session.refreshToken) = some r) ∨
      AllRevoked g₀.family s.world := by
  have hstep : (ledger env).step s (.logout g₀.session.refreshToken) ⟨w, s.grants⟩ := by
    refine ⟨none, ?_, by simp [granted]⟩
    simp only [Op.session, Op.run, Tx.runs_bind, Tx.runs_void, Tx.runs_pure]
    exact ⟨(), w, ⟨(), hlogout⟩, trivial, rfl⟩
  have hacc := (ledger_accounted hu hh).reachable hs
    (hfresh.before (ledger_draws (.cons hstep (.nil _))).2)
  -- a dead family stays dead
  have hdead : AllRevoked g₀.family w → ∀ ops s', (ledger env).Run ⟨w, s.grants⟩ ops s' →
      Fresh env s'.world → ∀ g ∈ s'.grants, g.family = g₀.family → ¬ Usable env g s'.world := by
    intro hf ops s' hrun hfresh' g hg hgf
    have hacc' := (ledger_accounted hu hh).reachable ((hs.step hstep).run hrun) hfresh'
    refine hacc'.not_usable hh hg ?_
    rw [hgf]
    refine AllRevoked.run hu hf ?_ hrun
    exact (hacc.drawn g₀ hg₀).mono (ledger_draws (.cons hstep (.nil _))).1
  rcases logout_effect hlogout with ⟨hnone, rfl⟩ | ⟨r, hr, rfl⟩
  · constructor
    · intro hends
      refine .inr ?_
      by_contra hf
      have hb := (allBacked_inductive hu).reachable (ledger_service hs)
      obtain ⟨g, hg, hgf, husable⟩ := hacc.usable hb hf
      exact hends [] s (.nil _) hfresh g hg hgf husable
    · rintro (⟨r, hr⟩ | hf)
      · simp [hnone] at hr
      · exact hdead hf
  · refine ⟨fun _ => .inl ⟨r, hr⟩, fun _ => hdead ?_⟩
    obtain ⟨g', hg', hk, hrf⟩ := hacc.refresh _ r hr
    rw [hacc.distinct g₀ hg₀ g' hg' (.inr (hh hk)), ← hrf]
    exact allRevoked_revokeIf rfl rfl

/-- `logout` never fails, and leaves the store as it is if the token is not a current one. -/
theorem logout_succeeds (env : Env) (w : World) (token : String) :
    ∃ w', (logout env token).Runs w () w' ∧ w'.nextRandom = w.nextRandom ∧
    (w.refreshTokens.get (hashToken env token) = none → w' = w) := by
  unfold logout
  simp only [Tx.runs_get_bind, Tx.runs_whenSome]
  cases hr : w.refreshTokens.get (hashToken env token) with
  | none => exact ⟨w, .inr ⟨rfl, rfl⟩, rfl, fun _ => rfl⟩
  | some r =>
    simp only [update_bind_runs, revokeFamily, Tx.runs_bind (t := revokeTokens _),
      revokeTokens_runs, update_runs]
    exact ⟨_, .inl ⟨r, rfl, (), _, rfl, rfl⟩, rfl, by simp⟩

/-- Alice refreshes her session and logs out with the token she registered with: nothing happens,
and the next session of the family goes on. -/
theorem logout_keeps_session : ∃ s g₀ g₁, (ledger Env.numbered).Reachable s ∧
    Fresh Env.numbered s.world ∧ g₀ ∈ s.grants ∧ g₁ ∈ s.grants ∧ g₁.family = g₀.family ∧
    (logout Env.numbered g₀.session.refreshToken).Runs s.world () s.world ∧
    Usable Env.numbered g₁ s.world := by
  obtain ⟨s, g₀, g₁, hs, hfresh, hg₀, hg₁, hfamily, hused, husable⟩ := alice_refreshes
  have hacc := (ledger_accounted Env.numbered_injective Env.numbered_hashToken_injective).reachable
    hs hfresh
  obtain ⟨w, hlogout, -, hsame⟩ := logout_succeeds Env.numbered s.world g₀.session.refreshToken
  rw [hsame (hacc.replaced _ (by simp [hused]))] at hlogout
  exact ⟨s, g₀, g₁, hs, hfresh, hg₀, hg₁, hfamily, hlogout, husable⟩

/-- Alice registers and logs out. -/
theorem logout_ends_session_alice : ∃ s g w, (ledger Env.numbered).Reachable s ∧ g ∈ s.grants ∧
    (logout Env.numbered g.session.refreshToken).Runs s.world () w ∧
    ¬ Usable Env.numbered g w := by
  obtain ⟨w₁, i, profile, hs, hdraws, ht⟩ := alice_registers
  obtain ⟨w, hlogout, hsame, -⟩ := logout_succeeds Env.numbered w₁ i.refreshToken
  have hget : w₁.refreshTokens.get (hashToken Env.numbered i.refreshToken) = some i.refresh := by
    rw [ht.refresh]
    exact Map.get_insert_self ..
  have hfresh : Fresh Env.numbered w := fresh_numbered (by omega)
  have hg : (⟨i.session profile, i.access⟩ : Grant) ∈
      (⟨w₁, [⟨i.session profile, i.access⟩]⟩ : Ledger).grants := by simp
  have hends := (logout_ends_session Env.numbered_injective Env.numbered_hashToken_injective hs hg
    hlogout hfresh).mpr (.inl ⟨_, hget⟩)
  exact ⟨_, _, w, hs, hg, hlogout, hends [] _ (.nil _) hfresh _ hg rfl⟩

end

end IamRust
