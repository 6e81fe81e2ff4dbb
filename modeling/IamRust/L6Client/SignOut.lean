import IamRust.L6Client.HeldTokens

/-!
# Logging out

`logout` tells the server and clears the session, without `refresh_gate`. A
refresh that runs meanwhile may use up the token `logout` presents, and it may
store the next session after `logout` has cleared this one.

* `logout_is_final`: in every run in which neither happens and the credential
  store can be cleared, no token is left once a `logout` has returned, and the
  server accepts no token of the session.
* `session_after_logout`: a run in which both happen.
-/
namespace IamRust

open Core

/-! ## The condition -/

/-- What a `logout` presents ends the session, unless the session is over already. -/
def ApiTask.EndsSession (env : Env) (f : Uuid) (call : ApiCall) (s : ApiState) :
    ApiTask → ApiStep → Prop
  | .idle, .next _ => call = .logout → s.session.refresh = none → AllRevoked f s.ledger.world
  | .loggingOut token, .answer _ =>
    (s.ledger.world.refreshTokens.get (hashToken env token)).isSome ∨
      AllRevoked f s.ledger.world
  | .loggingOut _, .lose => AllRevoked f s.ledger.world
  | _, _ => True

/-- The step puts a token in memory or in the credential store. -/
def ApiTask.stores : ApiTask → ApiStep → Bool
  | .loaded _, .next _ | .storing _ _, .next _ => true
  | .answered _ _, .next ok => ok
  | _, _ => false

/-- A `logout` has cleared the session in memory. -/
def ApiTask.cleared : ApiTask → Bool
  | .clearing logout | .done logout => logout
  | _ => false

/-- A `logout` ends the session, nothing is stored after it has cleared the session, and it can
clear the credential store. -/
structure LogoutUndisturbed {ι : Type} (env : Env) (f : Uuid) (call : ι → ApiCall)
    (x : ApiState × (ApiParty ι → ApiTask)) (l : ApiParty ι × ApiStep) : Prop where
  told : ∀ i, l.1 = .call i → (x.2 (.call i)).EndsSession env f (call i) x.1 l.2
  unstored : (x.2 l.1).stores l.2 = true → ∀ p, (x.2 p).cleared = false
  forgotten : x.2 l.1 = .clearing true → l.2 = .next true

/-- What a `logout` has brought about. -/
def ApiTask.LoggedOut (f : Uuid) (s : ApiState) : ApiTask → Prop
  | .dropping true => AllRevoked f s.ledger.world
  | .clearing true => AllRevoked f s.ledger.world ∧ s.session = .default
  | .done true => AllRevoked f s.ledger.world ∧ s.session = .default ∧ s.credential = none
  | _ => True

section
variable {env : Env} {s s' : ApiState} {t t' : ApiTask} {call : ApiCall} {l : ApiStep} {ok : Bool}
  {now : DateTime} {f : Uuid}

/-- A step that stores nothing leaves the tokens or clears them. -/
theorem ApiTask.step_unstored (h : t.step env call s l = some (s', t'))
    (hl : t.stores l = false) :
    (s.session = .default → s'.session = .default) ∧
      (s.credential = none → s'.credential = none) := by
  cases l with
  | next ok =>
    simp only [step, next, ApiState.lock, ApiState.unlock] at h
    split at h <;> (try split at h) <;> (try split at h) <;> cases h <;>
      first | exact ⟨id, id⟩ | simp_all [stores]
  | answer now =>
    obtain ⟨hsession, hcredential⟩ := ApiTask.answer_tokens h
    exact ⟨fun hs => hsession.trans hs, fun hc => hcredential.trans hc⟩
  | lose =>
    obtain ⟨-, hsession, hcredential⟩ := ApiTask.lose_same h
    exact ⟨fun hs => hsession.trans hs, fun hc => hcredential.trans hc⟩
  | server op => cases h

/-- What the steps of others leave of it. -/
theorem ApiTask.LoggedOut.mono (hu : Function.Injective env.uuid) (ht : t.LoggedOut f s)
    (hserved : Served env s.ledger s'.ledger) (hd : Drawn env f s.ledger.world)
    (hkept : t.cleared = true → (s.session = .default → s'.session = .default) ∧
      (s.credential = none → s'.credential = none)) : t.LoggedOut f s' := by
  have hrevoked : AllRevoked f s.ledger.world → AllRevoked f s'.ledger.world :=
    hserved.revoked hu hd
  cases t with
  | dropping logout =>
    cases logout with
    | true => exact hrevoked ht
    | false => exact trivial
  | clearing logout =>
    cases logout with
    | true => exact ⟨hrevoked ht.1, (hkept rfl).1 ht.2⟩
    | false => exact trivial
  | done logout =>
    cases logout with
    | true => exact ⟨hrevoked ht.1, (hkept rfl).1 ht.2.1, (hkept rfl).2 ht.2.2⟩
    | false => exact trivial
  | _ => exact trivial

/-- The server ends the session of the token. -/
theorem Ledger.commit_logout {s : Ledger} {token : String} (hu : Function.Injective env.uuid)
    (hh : Function.Injective (hashToken env))
    (hacc : Accounted env s) (hd : Drawn env f s.world) (ht : Received f token s)
    (hlive : (s.world.refreshTokens.get (hashToken env token)).isSome ∨ AllRevoked f s.world) :
    AllRevoked f (s.commit env (.logout token)).world := by
  rcases hlive with hlive | hover
  · obtain ⟨r, hr⟩ := Option.isSome_iff_exists.mp hlive
    obtain ⟨g, hg, rfl, rfl⟩ := ht
    obtain ⟨g', hg', hk, hfam⟩ := hacc.refresh _ r hr
    have hsame : r.familyId = g.family :=
      hfam.trans (hacc.distinct g hg g' hg' (.inr (hh hk))).symm
    obtain ⟨w, hlogout, -, -⟩ := logout_succeeds env s.world g.session.refreshToken
    have hrun : ((Op.logout g.session.refreshToken).session env).Runs s.world none w := by
      simp only [Op.session, Op.run, Tx.runs_bind, Tx.runs_void, Tx.runs_pure]
      exact ⟨(), w, ⟨(), hlogout⟩, trivial, rfl⟩
    have hworld : (s.commit env (.logout g.session.refreshToken)).world = w := by
      rw [Ledger.commit, Tx.commit_of_runs hrun]
    rw [hworld]
    rcases logout_effect hlogout with ⟨hnone, -⟩ | ⟨r', hr', hw⟩
    · cases hr.symm.trans hnone
    · cases hr.symm.trans hr'
      subst hw
      rw [← hsame]
      exact allRevoked_revokeIf rfl rfl
  · exact (s.commit_served env _).revoked hu hd hover

/-- **A step of a call.** -/
theorem ApiTask.LoggedOut.step (hu : Function.Injective env.uuid)
    (hh : Function.Injective (hashToken env)) (hacc : Accounted env s.ledger)
    (hd : Drawn env f s.ledger.world) (hheld : t.HoldsTokens f s) (ht : t.LoggedOut f s)
    (htold : t.EndsSession env f call s l) (hforgotten : t = .clearing true → l = .next true)
    (h : t.step env call s l = some (s', t')) : t'.LoggedOut f s' := by
  cases l with
  | next ok =>
    simp only [ApiTask.step, ApiTask.next, ApiState.lock, ApiState.unlock] at h
    split at h
    case h_1 =>
      split at h <;> split at h <;> cases h <;> try exact trivial
      rename_i hnone
      exact htold rfl hnone
    case h_10 logout =>
      cases h
      cases logout with
      | true => exact ⟨ht, rfl⟩
      | false => exact trivial
    case h_11 logout =>
      cases h
      cases logout with
      | true =>
        cases hforgotten rfl
        exact ⟨ht.1, ht.2, rfl⟩
      | false => exact trivial
    all_goals
      repeat split at h
      all_goals cases h
      all_goals exact trivial
  | answer now =>
    rcases ApiTask.answer_task h with ⟨_, _, _, rfl, -, -, rfl⟩ | ⟨token, rfl, rfl, rfl⟩ | hp
    · exact trivial
    · exact Ledger.commit_logout hu hh hacc hd hheld htold
    · cases t' with
      | dropping logout | done logout =>
        cases logout with
        | true => cases hp
        | false => exact trivial
      | admitted | refused => exact trivial
      | _ => cases hp
  | lose =>
    simp only [ApiTask.step, ApiTask.lose] at h
    split at h <;> cases h <;> first | exact trivial | exact htold
  | server op => cases h

end

section
variable {ι : Type} [DecidableEq ι] {env : Env} {g : Grant} {call : ι → ApiCall}

/-- What the `logout`s have brought about stays, in the runs that leave it alone. -/
theorem loggedOut_inductive (hu : Function.Injective env.uuid)
    (hh : Function.Injective (hashToken env)) :
    ((apiClient env g call).lts.restrict fun x l =>
      LogoutUndisturbed env g.family call x l ∧ TokensKnown env g x).Inductive
      (Threads.Holds (fun _ => True)
        (fun s t => Fresh env s.ledger.world → t.LoggedOut g.family s) fun _ _ => True) := by
  have hdrawn : ∀ x : ApiState × (ApiParty ι → ApiTask), TokensKnown env g x →
      Fresh env x.1.ledger.world →
      Accounted env x.1.ledger ∧ Drawn env g.family x.1.ledger.world := fun x hx hfresh => by
    have hacc := (ledger_accounted hu hh).reachable hx.reachable hfresh
    exact ⟨hacc, hacc.drawn g hx.granted⟩
  refine Threads.holds_inductive ?_ (fun _ _ _ => trivial) ?_ ?_
  · rintro x ⟨-, hidle⟩
    exact ⟨trivial, fun p _ => by rw [hidle]; exact trivial, fun _ _ _ => trivial⟩
  · rintro x p l s' t' ⟨hok, hx⟩ - ht hstep
    have hserved := apiClient_served hstep
    refine ⟨trivial, fun hfresh' => ?_⟩
    have hfresh := hserved.fresh hfresh'
    obtain ⟨hacc, hd⟩ := hdrawn x hx hfresh
    cases p with
    | call i =>
      exact (ht hfresh).step hu hh hacc hd (hx.task _ hfresh) (hok.told i rfl) hok.forgotten hstep
    | others =>
      cases l with
      | server op =>
        cases hstep
        exact (ht hfresh).mono hu hserved hd fun _ => ⟨id, id⟩
      | _ => cases hstep
  · rintro x p l s' t' q ⟨hok, hx⟩ - - - ht - hstep
    have hserved := apiClient_served hstep
    refine ⟨fun hfresh' => ?_, trivial⟩
    have hfresh := hserved.fresh hfresh'
    obtain ⟨-, hd⟩ := hdrawn x hx hfresh
    refine (ht hfresh).mono hu hserved hd fun hcleared => ?_
    cases p with
    | call i =>
      -- a step that stores something is not taken any more
      have hl : (x.2 (.call i)).stores l = false := by
        by_contra hstores
        rw [Bool.not_eq_false] at hstores
        rw [hok.unstored hstores q] at hcleared
        cases hcleared
      exact ApiTask.step_unstored hstep hl
    | others =>
      cases l with
      | server op =>
        cases hstep
        exact ⟨id, id⟩
      | _ => cases hstep

/-- **Logout is final.** For any number of calls of one client and every interleaving of their
locks, requests and accesses to the credential store: as long as each `logout` presents a token that
ends the session, nothing is stored after it has cleared the session, and it can clear the
credential store, then once a `logout` has returned no token is in memory or in the credential
store, and the server accepts no token of the session. -/
theorem logout_is_final (hu : Function.Injective env.uuid)
    (hh : Function.Injective (hashToken env)) {x : ApiState × (ApiParty ι → ApiTask)}
    (hx : ((apiClient env g call).lts.restrict
      (LogoutUndisturbed env g.family call)).Reachable x)
    (hfresh : Fresh env x.1.ledger.world) {i : ι} (hi : x.2 (.call i) = .done true) :
    x.1.session = .default ∧ x.1.credential = none ∧
      ∀ g' ∈ x.1.ledger.grants, g'.family = g.family → ¬ Usable env g' x.1.ledger.world := by
  have hknown : (apiClient env g call).lts.Inductive (TokensKnown env g) :=
    tokensKnown_inductive hu hh
  have hout := ((loggedOut_inductive hu hh).reachable (hx.restrict_of fun _ _ hs hok =>
    ⟨hok, hknown.reachable hs.of_restrict⟩)).thread (.call i) hfresh
  rw [hi] at hout
  obtain ⟨hrevoked, hsession, hcredential⟩ := hout
  refine ⟨hsession, hcredential, fun g' hg' hfam => ?_⟩
  have hacc := (ledger_accounted hu hh).reachable (hknown.reachable hx.of_restrict).reachable hfresh
  exact hacc.not_usable hh hg' (hfam ▸ hrevoked)

end

/-! ## Runs -/

/-- Alice's client logs out, and sends another request. -/
def aliceLeaves : Bool → ApiCall
  | true => .logout
  | false => .authorizedJson fun _ _ => none

/-- The condition, as far as these runs need it. -/
def logoutUndisturbed (x : ApiState × (ApiParty Bool → ApiTask)) (l : ApiParty Bool × ApiStep) :
    Bool :=
  (match x.2 l.1, l.2 with
    | .idle, .next _ => x.1.session.refresh.isSome
    | .loggingOut token, .answer _ =>
      (x.1.ledger.world.refreshTokens.get (hashToken Env.short token)).isSome
    | .loggingOut _, .lose => false
    | .clearing true, .next ok => ok
    | .clearing true, _ => false
    | _, _ => true) &&
  (!(x.2 l.1).stores l.2 ||
    [.others, .call true, .call false].all fun p => !(x.2 p).cleared)

theorem logoutUndisturbed_of {f : Uuid} {x : ApiState × (ApiParty Bool → ApiTask)}
    {l : ApiParty Bool × ApiStep} (h : logoutUndisturbed x l = true) :
    LogoutUndisturbed Env.short f aliceLeaves x l := by
  obtain ⟨p, l⟩ := l
  simp only [logoutUndisturbed, Bool.and_eq_true, Bool.or_eq_true, Bool.not_eq_true',
    List.all_eq_true] at h
  obtain ⟨htold, hstores⟩ := h
  refine ⟨?_, fun hs q => ?_, fun hp => ?_⟩
  · rintro i rfl
    unfold ApiTask.EndsSession
    split <;> simp_all
    exact fun _ hnone => by simp [hnone] at htold
  · have hall := hstores.resolve_left (by simp [hs])
    cases q with
    | others => exact hall _ (by simp)
    | call i => cases i <;> exact hall _ (by simp)
  · cases l <;> simp_all

/-- The session is refreshed, and the answer on its way. -/
def aliceRefreshes : List (ApiParty Bool × ApiStep) :=
  aliceRefused false ++ [(.call false, .answer aliceExpires)]

def aliceLogsOut : List (ApiParty Bool × ApiStep) :=
  [(.call true, .next true), (.call true, .answer aliceExpires), (.call true, .next true),
    (.call true, .next true)]

/-- All calls have returned. -/
def aliceDone (x : ApiState × (ApiParty Bool → ApiTask)) : Bool :=
  (x.2 (.call true) matches .done true) && (x.2 (.call false) matches .done false)

theorem aliceDone_logout {x : ApiState × (ApiParty Bool → ApiTask)} (h : aliceDone x = true) :
    x.2 (.call true) = .done true := by
  simp only [aliceDone, Bool.and_eq_true] at h
  split at h
  · assumption
  · cases h.1

/-- Alice logs out after the refresh. -/
theorem logout_is_final_alice : ∃ x,
    ((apiClient Env.short aliceGrant aliceLeaves).lts.restrict
      (LogoutUndisturbed Env.short aliceGrant.family aliceLeaves)).Reachable x ∧
    aliceDone x = true ∧ x.1.ledger.grants.length = 2 ∧ x.1.session = .default ∧
    x.1.credential = none ∧ ∀ g' ∈ x.1.ledger.grants, g'.family = aliceGrant.family →
      ¬ Usable Env.short g' x.1.ledger.world := by
  obtain ⟨x, hx, hp⟩ := Threads.reaches_checked (apiClient Env.short aliceGrant aliceLeaves)
    (fun x l (h : logoutUndisturbed x l = true) => logoutUndisturbed_of h)
    (aliceSignedIn, fun _ => .idle) ⟨signedIn_alice, fun _ => rfl⟩
    (aliceRefreshes ++ aliceRetries false ++ aliceLogsOut)
    (fun x => aliceDone x && x.1.ledger.grants.length == 2 &&
      decide (x.1.ledger.world.nextRandom ≤ 256)) (by decide +kernel)
  simp only [Bool.and_eq_true, beq_iff_eq, decide_eq_true_eq] at hp
  obtain ⟨⟨hdone, hlength⟩, hdraws⟩ := hp
  have hi : x.2 (.call true) = .done true := aliceDone_logout hdone
  exact ⟨x, hx, hdone, hlength, logout_is_final Env.short_injective
    Env.short_hashToken_injective hx (fresh_short hdraws) hi⟩

/-- The next session: the tokens in memory and in the credential store, which the server accepts. -/
def stillSignedIn (x : ApiState × (ApiParty Bool → ApiTask)) : Bool :=
  x.1.ledger.grants.any fun g => g.family == aliceGrant.family &&
    decide (x.1.session = g.session.tokens ∧ x.1.credential = some g.session.refreshToken) &&
    (authenticateIdentity Env.short x.1.ledger.world.toStore g.session.accessToken
      aliceExpires).isOk

/-- Alice logs out while the answer to a refresh is on its way: the server does nothing, the next
session is stored after the old one was cleared, and the server accepts it. -/
theorem session_after_logout : ∃ x,
    (apiClient Env.short aliceGrant aliceLeaves).lts.Reachable x ∧ aliceDone x = true ∧
    ∃ g ∈ x.1.ledger.grants, g.family = aliceGrant.family ∧ x.1.session = g.session.tokens ∧
      x.1.credential = some g.session.refreshToken ∧
      Usable Env.short g x.1.ledger.world := by
  obtain ⟨x, hx, hp⟩ := Threads.reaches (apiClient Env.short aliceGrant aliceLeaves)
    (aliceSignedIn, fun _ => .idle) ⟨signedIn_alice, fun _ => rfl⟩
    (aliceRefreshes ++ aliceLogsOut ++ aliceRetries false)
    (fun x => aliceDone x && stillSignedIn x) (by decide +kernel)
  simp only [Bool.and_eq_true, stillSignedIn, List.any_eq_true, beq_iff_eq, decide_eq_true_eq] at hp
  obtain ⟨hdone, g, hg, ⟨hfam, hsession, hcredential⟩, hok⟩ := hp
  refine ⟨x, hx, hdone, g, hg, hfam, hsession, hcredential, .inl ⟨aliceExpires, ?_⟩⟩
  cases hanswer : authenticateIdentity Env.short x.1.ledger.world.toStore
    g.session.accessToken aliceExpires with
  | ok identity => exact ⟨identity, rfl⟩
  | error e =>
    rw [hanswer] at hok
    cases hok

end IamRust
