import IamRust.L6Client.ApiClient

/-!
# The tokens of the client

What the client has in memory, in the credential store and on its way is of the
session it began with, or of a session that was exchanged for it: the family is
the same.

* `Ledger.refresh_ok`: the next session of the family is new.
* `tokensKnown_inductive`: the tokens, in every state of every run.
-/
namespace IamRust

open Core

/-! ## What the server does to the session -/

/-- The server handed out the token, in the family. -/
def Received (f : Uuid) (refreshToken : String) (s : Ledger) : Prop :=
  ∃ g ∈ s.grants, g.family = f ∧ g.session.refreshToken = refreshToken

/-- The server has not exchanged the token, nor ended its session with it. -/
def Unrotated (env : Env) (refreshToken : String) (s : Ledger) : Prop :=
  s.world.consumedRefreshTokens.get (hashToken env refreshToken) = none

/-- The server did nothing, or a transaction. -/
def Served (env : Env) (s s' : Ledger) : Prop := s' = s ∨ ∃ op, (ledger env).step s op s'

/-- The refresh token a request presents. -/
def Op.presents : Op → Option String
  | .refresh refreshToken _ | .logout refreshToken => some refreshToken
  | _ => none

section
variable {env : Env} {s s' : Ledger} {op : Op} {f : Uuid} {token : String} {now : DateTime}
  {session : AuthenticatedSession}

theorem Ledger.commit_cases (env : Env) (s : Ledger) (op : Op) :
    s.commit env op = s ∨ (ledger env).step s op (s.commit env op) := by
  unfold Ledger.commit
  cases hr : op.session env s.world with
  | error e =>
    left
    simp [Tx.commit, hr, Except.toOption, granted]
  | ok x =>
    right
    have hrun : (op.session env).Runs s.world x.1 x.2 := hr
    rw [Tx.commit_of_runs hrun]
    exact ⟨x.1, hrun, rfl⟩

theorem Ledger.commit_served (env : Env) (s : Ledger) (op : Op) :
    Served env s (s.commit env op) :=
  (s.commit_cases env op).imp_right fun h => ⟨op, h⟩

/-- The answer is an error that changed nothing, or what `refresh` returned. -/
theorem Ledger.refresh_cases (env : Env) (s : Ledger) (token : String) (now : DateTime) :
    (∃ e, s.refresh env token now = (.error e, s)) ∨
    ∃ result,
      (IamRust.refresh env token now).Runs s.world result (s.refresh env token now).2.world ∧
      (s.refresh env token now).1 = result ∧
      (ledger env).step s (.refresh token now) (s.refresh env token now).2 := by
  unfold Ledger.refresh
  cases hr : IamRust.refresh env token now s.world with
  | error e =>
    left
    exact ⟨e, by simp [Tx.commit, hr, Except.bind, Except.toOption, granted]⟩
  | ok x =>
    right
    have hrun : (IamRust.refresh env token now).Runs s.world x.1 x.2 := hr
    rw [Tx.commit_of_runs hrun]
    refine ⟨x.1, hrun, rfl, x.1.toOption, ?_, rfl⟩
    simp only [Op.session, Tx.runs_bind, Tx.runs_pure]
    exact ⟨_, _, hrun, rfl, rfl⟩

theorem Ledger.refresh_served (env : Env) (s : Ledger) (token : String) (now : DateTime) :
    Served env s (s.refresh env token now).2 := by
  rcases s.refresh_cases env token now with ⟨e, he⟩ | ⟨-, -, -, hstep⟩
  · exact .inl (by rw [he])
  · exact .inr ⟨_, hstep⟩

namespace Served

theorem reachable (h : Served env s s') (hs : (ledger env).Reachable s) :
    (ledger env).Reachable s' := by
  rcases h with rfl | ⟨op, hstep⟩
  · exact hs
  · exact hs.step hstep

theorem randoms (h : Served env s s') : s.world.nextRandom ≤ s'.world.nextRandom := by
  rcases h with rfl | ⟨op, hstep⟩
  · exact Nat.le_refl _
  · exact (ledger_draws (.cons hstep (.nil _))).2

theorem granted (h : Served env s s') {g : Grant} (hg : g ∈ s.grants) : g ∈ s'.grants := by
  rcases h with rfl | ⟨op, _, -, hgrants⟩
  · exact hg
  · exact hgrants ▸ List.mem_append_left _ hg

theorem received (h : Served env s s') (ht : Received f token s) : Received f token s' := by
  obtain ⟨g, hg, hgf, hgt⟩ := ht
  exact ⟨g, h.granted hg, hgf, hgt⟩

/-- A session that is over stays over. -/
theorem revoked (hu : Function.Injective env.uuid) (h : Served env s s')
    (hd : Drawn env f s.world) (hf : AllRevoked f s.world) : AllRevoked f s'.world := by
  rcases h with rfl | ⟨op, hstep⟩
  · exact hf
  · exact hf.run hu hd (.cons hstep (.nil _))

end Served

/-! ### Tokens that are exchanged -/

theorem Op.consumed_untouched (h : op.presents = none) :
    Field.consumedRefreshTokens ∉ op.touches ++ logFields := by
  cases op <;> simp_all [presents, touches, logFields]

/-- Only the token that is presented is used up. -/
theorem Ledger.commit_unrotated
    (h : ∀ t, op.presents = some t → hashToken env t ≠ hashToken env token)
    (ht : Unrotated env token s) : Unrotated env token (s.commit env op) := by
  rcases s.commit_cases env op with hsame | ⟨session, hrun, -⟩
  · rwa [hsame]
  unfold Unrotated at ht ⊢
  have hrun := Op.session_run hrun
  cases hp : op.presents with
  | none =>
    have hsame : (s.commit env op).world.consumedRefreshTokens = s.world.consumedRefreshTokens :=
      Op.same hrun (Op.consumed_untouched hp)
    rwa [hsame]
  | some t =>
    have hne := h t hp
    cases op <;> simp only [Op.presents, reduceCtorEq, Option.some.injEq] at hp <;> subst hp
    case refresh now =>
      simp only [Op.run, Tx.runs_void] at hrun
      obtain ⟨_, hrun⟩ := hrun
      rcases refresh_effect hrun with ⟨_, -, -, hw⟩ | ⟨_, _, _, -, -, -, -, hstep, -⟩
      · rw [hw]
        exact ht
      · rw [hstep.consumed]
        exact (Map.get_insert_ne (Ne.symm hne)).trans ht
    case logout =>
      simp only [Op.run, Tx.runs_void] at hrun
      obtain ⟨_, hrun⟩ := hrun
      rcases logout_effect hrun with ⟨-, hw⟩ | ⟨_, -, hw⟩
      · rwa [hw]
      · rw [hw]
        exact (Map.get_insert_ne (Ne.symm hne)).trans ht

/-- Nothing is used up by a request that fails. -/
theorem Ledger.refresh_error {e : ApplicationError} (h : (s.refresh env token now).1 = .error e) :
    (s.refresh env token now).2.world.consumedRefreshTokens = s.world.consumedRefreshTokens := by
  rcases s.refresh_cases env token now with ⟨e, he⟩ | ⟨result, hrun, hresult, -⟩
  · rw [he]
  · rcases refresh_effect hrun with ⟨_, -, -, hw⟩ | ⟨_, _, _, -, -, hok, -⟩
    · rw [hw]
    · cases h.symm.trans (hresult.trans hok)

/-- **Rotation.** The next session of the family has a new access token, and a refresh token that
is not used up. -/
theorem Ledger.refresh_ok (hh : Function.Injective (hashToken env)) (hs : Accounted env s)
    (hs' : Accounted env (s.refresh env token now).2)
    (hfresh : Fresh env (s.refresh env token now).2.world) (ht : Received f token s)
    (h : (s.refresh env token now).1 = .ok session) :
    (∃ g ∈ (s.refresh env token now).2.grants, g.family = f ∧ g.session = session) ∧
    (∀ g ∈ s.grants, g.session.accessToken ≠ session.accessToken) ∧
    Unrotated env session.refreshToken (s.refresh env token now).2 := by
  rcases s.refresh_cases env token now with ⟨e, he⟩ | ⟨result, hrun, hresult, -⟩
  · rw [he] at h
    cases h
  rcases refresh_effect hrun with ⟨_, -, herr, -⟩ | ⟨r, i, profile, hr, -, hok, hnext, hstep, -⟩
  · cases h.symm.trans (hresult.trans herr)
  obtain rfl : session = i.session profile := Except.ok.inj (h.symm.trans (hresult.trans hok))
  have hgrants : (s.refresh env token now).2.grants = s.grants ++
      [⟨i.session profile, i.access⟩] := by
    show s.grants ++ granted env _ (s.refresh env token now).1.toOption = _
    rw [h]
    exact congrArg _ (granted_issue hstep rfl profile)
  obtain ⟨n, hn, hn', hdraw, -⟩ := hstep.tokens i rfl
  refine ⟨⟨_, hgrants ▸ List.mem_append_right _ List.mem_cons_self, ?_, rfl⟩,
    fun g hg he => ?_, ?_⟩
  · obtain ⟨g, hg, rfl, hgt⟩ := ht
    obtain ⟨g', hg', hk, hfam⟩ := hs.refresh _ r hr
    obtain ⟨_, r', hused, -, -, -, -, -, -, hi⟩ := hnext
    obtain ⟨-, hsame⟩ := Prod.mk.inj (Option.some.inj hused)
    have hsession : g.family = g'.family := hs.distinct g hg g' hg' (.inr (hgt.trans (hh hk)))
    exact hi.trans (hsame.symm.trans (hfam.trans hsession.symm))
  · exact (hs.later hh hfresh hn hn' hg).1 (congrArg _ (he.trans hdraw))
  · have hget : (s.refresh env token now).2.world.refreshTokens.get
        (hashToken env i.refreshToken) = some i.refresh := by
      rw [hstep.refresh]
      exact Map.get_insert_self ..
    by_contra hused
    have := hs'.replaced _ (Option.isSome_iff_ne_none.mpr hused)
    cases hget.symm.trans this

end

/-! ## What the client holds -/

/-- The tokens are those of sessions of the family. -/
structure TokensHeld (f : Uuid) (s : ApiState) : Prop where
  access : ∀ a, s.session.access = some a → ∃ g ∈ s.ledger.grants, g.session.accessToken = a
  refresh : ∀ t, s.session.refresh = some t → Received f t s.ledger
  credential : ∀ t, s.credential = some t → Received f t s.ledger

/-- So are those a call has. -/
def ApiTask.HoldsTokens (f : Uuid) (s : ApiState) : ApiTask → Prop
  | .loaded t | .posting _ t | .loggingOut t => Received f t s.ledger
  | .answered _ session | .storing _ session =>
    ∃ g ∈ s.ledger.grants, g.family = f ∧ g.session = session
  | _ => True

/-- A place behind an answer where the call has no token to store. -/
def ApiTask.plain : ApiTask → Bool
  | .admitted _ _ _ _ | .refused _ _ => true
  | .dropping logout | .done logout => !logout
  | _ => false

/-- The call has `refresh_gate` locked. -/
def ApiTask.locked : ApiTask → Bool
  | .requesting retry _ _ | .admitted retry _ _ _ => retry
  | .comparing _ _ | .retrying _ | .refreshing _ | .posting _ _ | .answered _ _
  | .storing _ _ => true
  | .dropping logout | .clearing logout => !logout
  | _ => false

section
variable {env : Env} {s s' : ApiState} {t t' : ApiTask} {call : ApiCall} {l : ApiStep} {ok : Bool}
  {now : DateTime} {f : Uuid}

/-! A step, without the bookkeeping of the gate. -/

@[simp] theorem ApiState.finish_ledger (s : ApiState) (retry : Bool) :
    (s.finish retry).ledger = s.ledger := by
  cases retry <;> rfl

@[simp] theorem ApiState.finish_session (s : ApiState) (retry : Bool) :
    (s.finish retry).session = s.session := by
  cases retry <;> rfl

@[simp] theorem ApiState.finish_credential (s : ApiState) (retry : Bool) :
    (s.finish retry).credential = s.credential := by
  cases retry <;> rfl

/-- By itself a call changes nothing on the server. -/
theorem ApiTask.next_ledger (h : t.next call s ok = some (s', t')) : s'.ledger = s.ledger := by
  unfold next ApiState.lock ApiState.unlock at h
  split at h <;> (try split at h) <;> (try split at h) <;> cases h <;> rfl

theorem ApiTask.lose_same (h : t.lose s = some (s', t')) :
    s'.ledger = s.ledger ∧ s'.session = s.session ∧ s'.credential = s.credential := by
  unfold lose at h
  split at h <;> cases h
  case h_1 retry _ _ | h_2 retry _ _ _ => exact ⟨by simp, by simp, by simp⟩
  all_goals exact ⟨rfl, rfl, rfl⟩

/-- An answer does not change what the client has stored. -/
theorem ApiTask.answer_tokens (h : t.answer env s now = some (s', t')) :
    s'.session = s.session ∧ s'.credential = s.credential := by
  unfold answer at h
  split at h
  case h_1 retry _ _ =>
    split at h <;> cases h
    · exact ⟨rfl, rfl⟩
    · exact ⟨s.finish_session retry, s.finish_credential retry⟩
  case h_2 retry _ _ _ =>
    split at h
    · cases h
      exact ⟨s.finish_session retry, s.finish_credential retry⟩
    · dsimp only at h
      split at h <;> cases h <;> exact ⟨ApiState.finish_session .., ApiState.finish_credential ..⟩
  case h_3 =>
    dsimp only at h
    split at h
    · cases h
      exact ⟨rfl, rfl⟩
    · split at h <;> cases h <;> exact ⟨rfl, rfl⟩
  case h_4 =>
    cases h
    exact ⟨rfl, rfl⟩
  case h_5 => cases h

/-- Where an answer leads: to a session, to the end of one, or to nothing stored. -/
theorem ApiTask.answer_task (h : t.answer env s now = some (s', t')) :
    (∃ call token session, t = .posting call token ∧
      (s.ledger.refresh env token now).1 = .ok session ∧
      s' = { s with
        ledger := (s.ledger.refresh env token now).2
        refreshed := call.access.toList ++ s.refreshed } ∧ t' = .answered call session) ∨
    (∃ token, t = .loggingOut token ∧
      s' = { s with ledger := s.ledger.commit env (.logout token) } ∧ t' = .dropping true) ∨
    t'.plain = true := by
  unfold answer at h
  split at h
  case h_1 retry _ _ =>
    right; right
    split at h <;> cases h <;> first | rfl | cases retry <;> rfl
  case h_2 retry _ _ _ =>
    right; right
    split at h
    · cases h
      rfl
    · dsimp only at h
      split at h <;> cases h
      · rfl
      · split <;> first | rfl | cases retry <;> rfl
  case h_3 call token =>
    dsimp only at h
    split at h
    · rename_i session hok
      cases h
      exact .inl ⟨call, token, session, rfl, hok, rfl, rfl⟩
    · right; right
      split at h <;> cases h <;> rfl
  case h_4 token =>
    cases h
    exact .inr (.inl ⟨token, rfl, rfl, rfl⟩)
  case h_5 => cases h

theorem ApiTask.answer_served (h : t.answer env s now = some (s', t')) :
    Served env s.ledger s'.ledger := by
  unfold answer at h
  split at h
  case h_1 retry access request =>
    split at h <;> cases h
    · exact .inl rfl
    · exact .inl (s.finish_ledger retry)
  case h_2 retry access request userId =>
    split at h
    · cases h
      exact .inl (s.finish_ledger retry)
    · rename_i op _
      dsimp only at h
      split at h <;> cases h <;>
        (rw [ApiState.finish_ledger]; exact s.ledger.commit_served env op)
  case h_3 call token =>
    dsimp only at h
    split at h
    · cases h
      exact s.ledger.refresh_served env token now
    · split at h <;> cases h <;> exact s.ledger.refresh_served env token now
  case h_4 token =>
    cases h
    exact s.ledger.commit_served env (.logout token)
  case h_5 => cases h

theorem ApiTask.step_served (h : t.step env call s l = some (s', t')) :
    Served env s.ledger s'.ledger := by
  cases l with
  | next ok => exact .inl (ApiTask.next_ledger h)
  | answer now => exact ApiTask.answer_served h
  | lose => exact .inl (ApiTask.lose_same h).1
  | server op => cases h

theorem TokensHeld.same (h : TokensHeld f s) (hl : Served env s.ledger s'.ledger)
    (hs : s'.session = s.session) (hc : s'.credential = s.credential) : TokensHeld f s' where
  access a ha := by
    obtain ⟨g, hg, hga⟩ := h.access a (hs ▸ ha)
    exact ⟨g, hl.granted hg, hga⟩
  refresh t ht := hl.received (h.refresh t (hs ▸ ht))
  credential t ht := hl.received (h.credential t (hc ▸ ht))

theorem TokensHeld.withGate (h : TokensHeld f s) (b : Bool) :
    TokensHeld f { s with gate := b } := ⟨h.access, h.refresh, h.credential⟩

theorem ApiTask.HoldsTokens.mono (h : t.HoldsTokens f s) (hl : Served env s.ledger s'.ledger) :
    t.HoldsTokens f s' := by
  cases t with
  | loaded | posting | loggingOut => exact hl.received h
  | answered | storing =>
    obtain ⟨g, hg, hgf⟩ := h
    exact ⟨g, hl.granted hg, hgf⟩
  | _ => exact trivial

/-- The steps a call takes by itself. -/
theorem TokensHeld.next (hs : TokensHeld f s) (ht : t.HoldsTokens f s)
    (h : t.next call s ok = some (s', t')) : TokensHeld f s' ∧ t'.HoldsTokens f s' := by
  unfold ApiTask.next at h
  split at h
  case h_1 =>
    -- a call begins
    split at h <;> split at h <;> cases h
    · exact ⟨hs, trivial⟩
    · exact ⟨hs, trivial⟩
    · rename_i hcred
      exact ⟨hs, hs.credential _ hcred⟩
    · exact ⟨hs, trivial⟩
    · exact ⟨hs, trivial⟩
    · rename_i htoken
      exact ⟨hs, hs.refresh _ htoken⟩
  case h_2 access request =>
    unfold ApiState.lock at h
    split at h <;> cases h
    exact ⟨hs.withGate _, trivial⟩
  case h_3 access request =>
    split at h <;> cases h <;> exact ⟨hs, trivial⟩
  case h_4 request =>
    split at h <;> cases h
    · exact ⟨hs.withGate _, trivial⟩
    · exact ⟨hs, trivial⟩
  case h_5 token =>
    cases h
    refine ⟨⟨hs.access, fun t' ht' => ?_, hs.credential⟩, trivial⟩
    cases ht'
    exact ht
  case h_6 =>
    unfold ApiState.lock at h
    split at h <;> cases h
    exact ⟨hs.withGate _, trivial⟩
  case h_7 call =>
    split at h <;> cases h
    · exact ⟨hs, trivial⟩
    · rename_i htoken
      exact ⟨hs, hs.refresh _ htoken⟩
  case h_8 call session =>
    obtain ⟨g, hg, hgf, rfl⟩ := ht
    split at h <;> cases h
    · refine ⟨⟨hs.access, hs.refresh, fun t' ht' => ?_⟩, ⟨g, hg, hgf, rfl⟩⟩
      cases ht'
      exact ⟨g, hg, hgf, rfl⟩
    · exact ⟨hs.withGate _, trivial⟩
  case h_9 call session =>
    obtain ⟨g, hg, hgf, rfl⟩ := ht
    have hstored : TokensHeld f { s with session := g.session.tokens } := by
      refine ⟨fun a ha => ?_, fun t' ht' => ?_, hs.credential⟩
      · cases ha
        exact ⟨g, hg, rfl⟩
      · cases ht'
        exact ⟨g, hg, hgf, rfl⟩
    split at h <;> cases h
    · exact ⟨hstored, trivial⟩
    · exact ⟨hstored.withGate _, trivial⟩
  case h_10 logout =>
    cases h
    exact ⟨⟨by rintro _ ⟨⟩, by rintro _ ⟨⟩, hs.credential⟩, trivial⟩
  case h_11 logout =>
    have hcleared : TokensHeld f (if ok then { s with credential := none } else s) := by
      split
      · exact ⟨hs.access, hs.refresh, by rintro _ ⟨⟩⟩
      · exact hs
    cases h
    split
    · exact ⟨hcleared, trivial⟩
    · exact ⟨hcleared.withGate _, trivial⟩
  case h_12 => cases h

/-- What a call has behind an answer. -/
theorem ApiTask.HoldsTokens.answer (hh : Function.Injective (hashToken env))
    (hacc : Accounted env s.ledger) (hacc' : Accounted env s'.ledger)
    (hfresh : Fresh env s'.ledger.world) (ht : t.HoldsTokens f s)
    (h : t.answer env s now = some (s', t')) : t'.HoldsTokens f s' := by
  rcases ApiTask.answer_task h with ⟨call, token, session, rfl, hok, rfl, rfl⟩ | ⟨_, -, -, rfl⟩ | hp
  · exact (Ledger.refresh_ok hh hacc hacc' hfresh ht hok).1
  · exact trivial
  · cases t' <;> first | exact trivial | cases hp

theorem TokensHeld.step (hh : Function.Injective (hashToken env))
    (hacc : Accounted env s.ledger) (hacc' : Accounted env s'.ledger)
    (hfresh : Fresh env s'.ledger.world) (hs : TokensHeld f s) (ht : t.HoldsTokens f s)
    (h : t.step env call s l = some (s', t')) : TokensHeld f s' ∧ t'.HoldsTokens f s' := by
  have hserved := ApiTask.step_served h
  cases l with
  | next ok => exact hs.next ht h
  | answer now =>
    obtain ⟨hsession, hcredential⟩ := ApiTask.answer_tokens h
    exact ⟨hs.same hserved hsession hcredential, ht.answer hh hacc hacc' hfresh h⟩
  | lose =>
    obtain ⟨-, hsession, hcredential⟩ := ApiTask.lose_same h
    refine ⟨hs.same hserved hsession hcredential, ?_⟩
    simp only [ApiTask.step, ApiTask.lose] at h
    split at h <;> cases h <;> exact trivial
  | server op => cases h

end

/-! ### In every run -/

section
variable {ι : Type} {env : Env} {g : Grant} {call : ι → ApiCall}

theorem Served.fresh {s s' : Ledger} (h : Served env s s') (hfresh : Fresh env s'.world) :
    Fresh env s.world := hfresh.before h.randoms

/-- What is known of the tokens in every state. -/
structure TokensKnown (env : Env) (g : Grant) (x : ApiState × (ApiParty ι → ApiTask)) : Prop where
  reachable : (ledger env).Reachable x.1.ledger
  granted : g ∈ x.1.ledger.grants
  state : Fresh env x.1.ledger.world → TokensHeld g.family x.1
  task : ∀ p, Fresh env x.1.ledger.world → (x.2 p).HoldsTokens g.family x.1

theorem apiClient_served {p : ApiParty ι} {s s' : ApiState} {t t' : ApiTask} {l : ApiStep}
    (h : (apiClient env g call).step p s t l = some (s', t')) : Served env s.ledger s'.ledger := by
  cases p with
  | call i => exact ApiTask.step_served h
  | others =>
    cases l with
    | server op =>
      cases h
      exact s.ledger.commit_served env op
    | _ => cases h

variable [DecidableEq ι]

/-- **The client's tokens.** Those of its session and of what the session was exchanged for. -/
theorem tokensKnown_inductive (hu : Function.Injective env.uuid)
    (hh : Function.Injective (hashToken env)) :
    (apiClient env g call).lts.Inductive (TokensKnown env g) where
  init x hx := by
    obtain ⟨hx, hidle⟩ := hx
    refine ⟨hx.reachable, hx.granted, fun _ => ⟨fun a ha => ?_, fun t ht => ?_, fun t ht => ?_⟩,
      fun p _ => by rw [hidle]; exact trivial⟩
    · rcases hx.session with hsession | hsession <;> rw [hsession] at ha <;> cases ha
      exact ⟨g, hx.granted, rfl⟩
    · rcases hx.session with hsession | hsession <;> rw [hsession] at ht <;> cases ht
      exact ⟨g, hx.granted, rfl, rfl⟩
    · rw [hx.credential] at ht
      cases ht
      exact ⟨g, hx.granted, rfl, rfl⟩
  step x l x' hx hstep := by
    obtain ⟨p, l⟩ := l
    obtain ⟨s', f'⟩ := x'
    obtain ⟨t, hstep, rfl⟩ := hstep
    have hserved := apiClient_served hstep
    have hreach' := hserved.reachable hx.reachable
    have hacc := (ledger_accounted hu hh).reachable hx.reachable
    have hacc' := (ledger_accounted hu hh).reachable hreach'
    have hkept : Fresh env s'.ledger.world →
        TokensHeld g.family s' ∧ t.HoldsTokens g.family s' := by
      intro hfresh'
      have hfresh := hserved.fresh hfresh'
      cases p with
      | call i =>
        exact (hx.state hfresh).step hh (hacc hfresh) (hacc' hfresh') hfresh' (hx.task _ hfresh)
          hstep
      | others =>
        cases l with
        | server op =>
          cases hstep
          exact ⟨(hx.state hfresh).same hserved rfl rfl, (hx.task _ hfresh).mono hserved⟩
        | _ => cases hstep
    refine ⟨hreach', hserved.granted hx.granted, fun hf => (hkept hf).1, fun q hf => ?_⟩
    by_cases hq : q = p
    · subst hq
      simpa using (hkept hf).2
    · simpa [hq] using (hx.task q (hserved.fresh hf)).mono hserved

end

/-! ## A client to try them on -/

/-- Alice has registered. -/
def aliceLedger : Ledger := Ledger.commit Env.short ⟨World.init, []⟩ (.register alice 0)

theorem aliceLedger_grants : aliceLedger.grants ≠ [] :=
  List.ne_nil_of_length_pos (by decide +kernel)

def aliceGrant : Grant := aliceLedger.grants.head aliceLedger_grants

def aliceSignedIn : ApiState where
  ledger := aliceLedger
  session := aliceGrant.session.tokens
  credential := some aliceGrant.session.refreshToken
  gate := false
  refreshed := []

theorem signedIn_alice : SignedIn Env.short aliceGrant aliceSignedIn where
  reachable := (Ledger.commit_served Env.short ⟨World.init, []⟩ (.register alice 0)).reachable
    (LTS.Reachable.init rfl)
  granted := List.head_mem aliceLedger_grants
  current := by decide +kernel
  session := .inl rfl
  credential := rfl
  gate := rfl
  refreshed := rfl

/-- Alice's client starts again: the tokens in memory are gone. -/
theorem signedIn_aliceAgain :
    SignedIn Env.short aliceGrant { aliceSignedIn with session := .default } :=
  { signedIn_alice with session := .inr rfl }

/-- When her access token expires. -/
def aliceExpires : DateTime := aliceGrant.session.accessExpiresAt

/-- The request of a call is answered 401, and the call sends the refresh token. -/
def aliceRefused (i : Bool) : List (ApiParty Bool × ApiStep) :=
  [(.call i, .next true), (.call i, .answer aliceExpires), (.call i, .next true),
    (.call i, .next true), (.call i, .next true)]

/-- The next session is stored, and the request sent again. -/
def aliceRetries (i : Bool) : List (ApiParty Bool × ApiStep) :=
  [(.call i, .next true), (.call i, .next true), (.call i, .next true),
    (.call i, .answer aliceExpires), (.call i, .answer aliceExpires)]

end IamRust
