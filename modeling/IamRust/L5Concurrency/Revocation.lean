import IamRust.L5Concurrency.QrGrants

/-!
# Revoking all sessions of a user

A new password, a reset one and the administrator's revocation end the sessions
a user has. What is issued to the user afterwards descends from a password
login, or from an approval by such a session (`Descends`).

* `revocation_cuts`: it does, in the runs in which no approval of the user is
  pending at a revocation: no challenge the user approved is in the map or with
  a poll that is about to mint, and no approval of the user is under way.
* `revocation_misses_approval`: a challenge that was approved before the
  revocation yields a session after it.
-/
namespace IamRust

open Core

/-! ## Descent -/

/-- The session descends from a password login of the user, in the history `h`: directly, by
rotation, or by a challenge that a session of such a family approved. -/
inductive Descends (u : UserId) (h : List Entry) : Grant → Prop where
  | password {g : Grant} (hg : .issued g .password ∈ h) (hu : g.record.userId = u) :
    Descends u h g
  | rotation {g parent : Grant} (hg : .issued g .rotation ∈ h) (hu : g.record.userId = u)
    (hp : Descends u h parent) (hf : parent.family = g.family) : Descends u h g
  | qr {g parent : Grant} {c : Uuid} {secret : String} {now : DateTime}
    {secret' : String} {session : TokenRecord} {now' : DateTime}
    (hg : .issued g (.qr c secret now) ∈ h) (hu : g.record.userId = u)
    (happroved : .approved c secret' session now' ∈ h) (hs : session.userId = u)
    (hp : Descends u h parent) (hf : parent.family = session.familyId) : Descends u h g

/-- A session of the family descends from a password login. -/
def Renewed (u : UserId) (h : List Entry) (family : Uuid) : Prop :=
  ∃ g, Descends u h g ∧ g.family = family

/-- The challenge was approved by such a session. -/
def ApprovedSince (u : UserId) (h : List Entry) (c : Uuid) : Prop :=
  ∃ secret session now, .approved c secret session now ∈ h ∧ session.userId = u ∧
    Renewed u h session.familyId

theorem Descends.mono {u : UserId} {h h' : List Entry} {g : Grant} (hg : Descends u h g)
    (hsub : h ⊆ h') : Descends u h' g := by
  induction hg with
  | password hg hu => exact .password (hsub hg) hu
  | rotation hg hu _ hf ih => exact .rotation (hsub hg) hu ih hf
  | qr hg hu happroved hs _ hf ih => exact .qr (hsub hg) hu (hsub happroved) hs ih hf

theorem Renewed.mono {u : UserId} {h h' : List Entry} {f : Uuid} (hf : Renewed u h f)
    (hsub : h ⊆ h') : Renewed u h' f := by
  obtain ⟨g, hg, hgf⟩ := hf
  exact ⟨g, hg.mono hsub, hgf⟩

theorem ApprovedSince.mono {u : UserId} {h h' : List Entry} {c : Uuid}
    (hc : ApprovedSince u h c) (hsub : h ⊆ h') : ApprovedSince u h' c := by
  obtain ⟨secret, session, now, hm, hu, hf⟩ := hc
  exact ⟨secret, session, now, hsub hm, hu, hf.mono hsub⟩

/-- `h'` is what happened since a revocation of the user. -/
def Since (u : UserId) (h h' : List Entry) : Prop := ∃ before, h = before ++ .cutOff u :: h'

theorem since_snoc {u : UserId} {h h' : List Entry} {e : Entry} (hs : Since u (h ++ [e]) h') :
    (h' = [] ∧ e = .cutOff u) ∨ ∃ h₀, h' = h₀ ++ [e] ∧ Since u h h₀ := by
  obtain ⟨before, hb⟩ := hs
  rcases List.eq_nil_or_concat h' with rfl | ⟨h₀, e', rfl⟩
  · exact .inl ⟨rfl, (List.append_inj' hb rfl).2 |> List.head_eq_of_cons_eq⟩
  · rw [List.concat_eq_append, ← List.cons_append, ← List.append_assoc] at hb
    obtain ⟨hl, he⟩ := List.append_inj' hb rfl
    cases he
    exact .inr ⟨h₀, List.concat_eq_append .., before, hl⟩

/-! ## What a transaction does to the sessions of a user -/

section
variable {env : Env} {w w' : World}

theorem cutsOff_effect {op : Op} {u : UserId} {session : Option AuthenticatedSession}
    (hc : op.cutsOff env w = some u) (h : (op.session env).Runs w session w') :
    session = none ∧ (∃ a, w.accounts.get u = some a) ∧
      TokenStep env w w' (.revoking fun r => r.userId == u) := by
  cases op <;> simp only [Op.cutsOff, reduceCtorEq, Option.some.injEq, Option.map_eq_some_iff] at hc
  case changePassword actor currentPassword newPassword =>
    subst hc
    simp only [Op.session, Op.run, Tx.runs_bind, Tx.runs_void, Tx.runs_pure] at h
    obtain ⟨_, _, ⟨_, hr⟩, rfl, rfl⟩ := h
    exact ⟨rfl, changePassword_effect hr⟩
  case resetPassword token newPassword now =>
    obtain ⟨reset, hreset, rfl⟩ := hc
    simp only [Op.session, Op.run, Tx.runs_bind, Tx.runs_void, Tx.runs_pure] at h
    obtain ⟨_, _, ⟨_, hr⟩, rfl, rfl⟩ := h
    obtain ⟨reset', hreset', haccount, hstep⟩ := resetPassword_effect hr
    cases hreset.symm.trans hreset'
    exact ⟨rfl, haccount, hstep⟩
  case adminRevokeUserSessions target now =>
    subst hc
    simp only [Op.session, Op.run, Tx.runs_bind, Tx.runs_void, Tx.runs_pure] at h
    obtain ⟨_, _, ⟨_, hr⟩, rfl, rfl⟩ := h
    exact ⟨rfl, adminRevokeUserSessions_effect hr⟩

/-- Where the user and the family of an issued session come from. -/
def SourceOf (env : Env) (w : World) (e : Effect) (i : Issue) : Source → Prop
  | .registration => ∃ k, w.nextUuid ≤ k ∧ i.userId = env.uuid k
  | .password => True
  | .rotation => NextOfFamily w e i
  | .qr _ _ _ => False

theorem source_effect (hu : Function.Injective env.uuid) {op : Op}
    {session : AuthenticatedSession} (hop : op.isPollQrLogin = false)
    (h : (op.session env).Runs w (some session) w') :
    ∃ e i profile, TokenStep env w w' e ∧ e.issued = some i ∧ session = i.session profile ∧
      op.cutsOff env w = none ∧ SourceOf env w e i op.source := by
  cases op
  case register input now =>
    simp only [Op.session, Tx.runs_bind, Tx.runs_pure, Option.some.injEq] at h
    obtain ⟨_, _, hr, rfl, rfl⟩ := h
    obtain ⟨i, profile, rfl, huser, hstep⟩ := register_effect hu hr
    exact ⟨_, i, profile, hstep, rfl, rfl, rfl, _, Nat.le_refl _, huser⟩
  case loginWithSecondFactor input code now =>
    simp only [Op.session, Tx.runs_bind, Tx.runs_pure, Option.some.injEq] at h
    obtain ⟨_, _, hr, rfl, rfl⟩ := h
    obtain ⟨i, profile, rfl, -, hstep⟩ := login_effect hu hr
    exact ⟨_, i, profile, hstep, rfl, rfl, rfl, trivial⟩
  case refresh token now =>
    simp only [Op.session, Tx.runs_bind, Tx.runs_pure] at h
    obtain ⟨_, _, hr, hsession, rfl⟩ := h
    rcases refresh_effect hr with ⟨_, -, rfl, -⟩ | ⟨r, i, profile, -, -, rfl, hnext, hstep, -⟩
    · cases hsession
    · cases hsession
      exact ⟨_, i, profile, hstep, rfl, rfl, rfl, hnext⟩
  case pollQrLogin => cases hop
  all_goals
    simp only [Op.session, Tx.runs_bind, Tx.runs_pure, reduceCtorEq, false_and, and_false,
      exists_false] at h

/-- What a transaction records: nothing, a session it issued, or a revocation. -/
theorem entries_cases (hu : Function.Injective env.uuid) {op : Op}
    {session : Option AuthenticatedSession} (hop : op.isPollQrLogin = false)
    (h : (op.session env).Runs w session w') :
    (∃ e, op.entries env op.source w w' session = [] ∧ TokenStep env w w' e ∧ e.issued = none) ∨
    (∃ e i g, op.entries env op.source w w' session = [.issued g op.source] ∧
      g.record = i.access ∧ TokenStep env w w' e ∧ e.issued = some i ∧
      SourceOf env w e i op.source) ∨
    ∃ u, op.entries env op.source w w' session = [.cutOff u] ∧ op.cutsOff env w = some u ∧
      (∃ a, w.accounts.get u = some a) ∧
      TokenStep env w w' (.revoking fun r => r.userId == u) := by
  cases hc : op.cutsOff env w with
  | some u =>
    obtain ⟨rfl, haccount, hstep⟩ := cutsOff_effect hc h
    exact .inr (.inr ⟨u, by simp [Op.entries, granted, hc], rfl, haccount, hstep⟩)
  | none =>
    cases session with
    | none =>
      obtain ⟨e, hstep, hissued⟩ := Op.effect hu h
      refine .inl ⟨e, by simp [Op.entries, granted, hc], hstep, ?_⟩
      cases he : e.issued with
      | none => rfl
      | some i =>
        rw [he] at hissued
        cases hissued
    | some session =>
      obtain ⟨e, i, profile, hstep, hi, rfl, -, hsource⟩ := source_effect hu hop h
      exact .inr (.inl ⟨e, i, ⟨i.session profile, i.access⟩,
        by simp [Op.entries, granted_issue hstep hi, hc], rfl, hstep, hi, hsource⟩)

end

/-! ## Since a revocation -/

/-- What holds of a user since a revocation, given what happened since. -/
structure Cut (env : Env) (s : Logins) (u : UserId) (h : List Entry) : Prop where
  drawn : Drawn env u s.world
  access : ∀ k r, s.world.accessTokens.get k = some r → r.userId = u → r.revoked = false →
    Renewed u h r.familyId
  refresh : ∀ k r, s.world.refreshTokens.get k = some r → r.userId = u → r.revoked = false →
    Renewed u h r.familyId
  pending : ∀ c challenge, s.qrLogins.get c = some challenge →
    challenge.approvedUserId = some u → ApprovedSince u h c
  issued : ∀ g source, .issued g source ∈ h → g.record.userId = u → Descends u h g
  polls : ∀ g c secret now, .issued g (.qr c secret now) ∈ h → g.record.userId = u →
    ApprovedSince u h c

def Visit.Cut (u : UserId) (h : List Entry) : Visit → Prop
  | .idle => True
  | .approving session _ _ => session.userId = u → Renewed u h session.familyId
  | .claimed c _ userId _ _ => userId = u → ApprovedSince u h c

theorem Visit.Cut.mono {u : UserId} {h h' : List Entry} {v : Visit} (hv : v.Cut u h)
    (hsub : h ⊆ h') : v.Cut u h' := by
  cases v with
  | idle => trivial
  | approving session c secret => exact fun hu => (hv hu).mono hsub
  | claimed c secret userId challenge now => exact fun hu => (hv hu).mono hsub

section
variable {env : Env} {s s' : Logins} {u : UserId} {h : List Entry}

/-- A token is spared only if it was not revoked before. -/
theorem Effect.live_of_onRecord {e : Effect} {r : TokenRecord}
    (hr : (e.onRecord r).revoked = false) : r.revoked = false := by
  rw [← (Effect.spares_of_onRecord hr).2]
  exact hr

/-- A transaction, with what it recorded. -/
theorem Cut.step {w : World} {e : Effect} (es : List Entry) (hs : Cut env s u h)
    (ht : TokenStep env s.world w e)
    (hfamily : ∀ i, e.issued = some i → i.userId = u → Renewed u (h ++ es) i.familyId)
    (hissued : ∀ g source, .issued g source ∈ es → g.record.userId = u →
      Descends u (h ++ es) g)
    (hpolls : ∀ g c secret now, .issued g (.qr c secret now) ∈ es → g.record.userId = u →
      ApprovedSince u (h ++ es) c) :
    Cut env { s with world := w, history := s.history ++ es } u (h ++ es) where
  drawn := hs.drawn.mono ht.uuids
  access k r hr hu hlive := by
    rcases ht.access_get hr with ⟨r₀, hr₀, rfl⟩ | ⟨i, hi, -, rfl⟩
    · rw [Effect.onRecord_familyId]
      exact (hs.access k r₀ hr₀ (by simpa using hu) (Effect.live_of_onRecord hlive)).mono
        (List.subset_append_left ..)
    · exact hfamily i hi hu
  refresh k r hr hu hlive := by
    rcases ht.refresh_get hr with ⟨r₀, hr₀, rfl, -⟩ | ⟨i, hi, -, rfl⟩
    · rw [Effect.onRecord_familyId]
      exact (hs.refresh k r₀ hr₀ (by simpa using hu) (Effect.live_of_onRecord hlive)).mono
        (List.subset_append_left ..)
    · exact hfamily i hi hu
  pending c challenge hget happroved :=
    (hs.pending c challenge hget happroved).mono (List.subset_append_left ..)
  issued g source hm hu := by
    rcases List.mem_append.mp hm with hm | hm
    · exact (hs.issued g source hm hu).mono (List.subset_append_left ..)
    · exact hissued g source hm hu
  polls g c secret now hm hu := by
    rcases List.mem_append.mp hm with hm | hm
    · exact (hs.polls g c secret now hm hu).mono (List.subset_append_left ..)
    · exact hpolls g c secret now hm hu

/-- A challenge is recorded and the map changed; the approvals in it are accounted for. -/
theorem Cut.record {w : World} {challenges : QrLogins} (es : List Entry) (hs : Cut env s u h)
    (hw : w.toStore = s.world.toStore) (hle : s.world.nextUuid ≤ w.nextUuid)
    (hes : ∀ g source, .issued g source ∉ es)
    (hpending : ∀ c challenge, challenges.get c = some challenge →
      challenge.approvedUserId = some u → ApprovedSince u (h ++ es) c) :
    Cut env ⟨w, challenges, s.history ++ es⟩ u (h ++ es) where
  drawn := hs.drawn.mono hle
  access k r hr hu hlive := by
    dsimp only at hr
    rw [hw] at hr
    exact (hs.access k r hr hu hlive).mono (List.subset_append_left ..)
  refresh k r hr hu hlive := by
    dsimp only at hr
    rw [hw] at hr
    exact (hs.refresh k r hr hu hlive).mono (List.subset_append_left ..)
  pending := hpending
  issued g source hm hu := by
    rcases List.mem_append.mp hm with hm | hm
    · exact (hs.issued g source hm hu).mono (List.subset_append_left ..)
    · exact absurd hm (hes g source)
  polls g c secret now hm hu := by
    rcases List.mem_append.mp hm with hm | hm
    · exact (hs.polls g c secret now hm hu).mono (List.subset_append_left ..)
    · exact absurd hm (hes g _)

/-- Right after a revocation nothing is left. -/
theorem Cut.start {w : World} (hdrawn : Drawn env u s.world)
    (ht : TokenStep env s.world w (.revoking fun r => r.userId == u))
    (hpending : ∀ c challenge, s.qrLogins.get c = some challenge →
      challenge.approvedUserId ≠ some u) (history : List Entry) :
    Cut env { s with world := w, history := history } u [] where
  drawn := hdrawn.mono ht.uuids
  access k r hr hu hlive := by
    rcases ht.access_get hr with ⟨r₀, -, rfl⟩ | ⟨i, hi, -⟩
    · obtain ⟨hspares, hsame⟩ := Effect.spares_of_onRecord hlive
      rw [hsame] at hu
      simpa [hu] using hspares _ rfl
    · cases hi
  refresh k r hr hu hlive := by
    rcases ht.refresh_get hr with ⟨r₀, -, rfl, -⟩ | ⟨i, hi, -⟩
    · obtain ⟨hspares, hsame⟩ := Effect.spares_of_onRecord hlive
      rw [hsame] at hu
      simpa [hu] using hspares _ rfl
    · cases hi
  pending c challenge hget happroved := absurd happroved (hpending c challenge hget)
  issued _ _ hm := by cases hm
  polls _ _ _ _ hm := by cases hm

end

/-! ## Every run -/

/-- The call may still lead to an approval of the user's, or to a session by one. -/
def Visit.Approves (u : UserId) : Visit → Prop
  | .idle => False
  | .approving session _ _ => session.userId = u
  | .claimed _ _ userId _ _ => userId = u

def VisitStep.cutsOff (env : Env) (w : World) : VisitStep → Option UserId
  | .transaction op => op.cutsOff env w
  | _ => none

/-- Nothing the user approved, or is about to approve, is pending. -/
def NonePending {ι : Type} (u : UserId) (x : Logins × (ι → Visit)) : Prop :=
  (∀ c challenge, x.1.qrLogins.get c = some challenge → challenge.approvedUserId ≠ some u) ∧
  ∀ i, ¬ (x.2 i).Approves u

/-- The sessions of a user are revoked when nothing of the user is pending. -/
def CutsCleanly {ι : Type} (env : Env) (x : Logins × (ι → Visit)) (l : ι × VisitStep) : Prop :=
  ∀ u, l.2.cutsOff env x.1.world = some u → NonePending u x

section
variable {env : Env} {s s' : Logins} {v v' : Visit} {l : VisitStep}

structure AllCut (env : Env) (s : Logins) : Prop where
  accounts : AccountsDrawn env s.world
  cut : ∀ u h, Since u s.history h → Cut env s u h

def Visit.AllCut (s : Logins) (v : Visit) : Prop := ∀ u h, Since u s.history h → v.Cut u h

/-- The history grows by one entry: what has to hold since each revocation. -/
theorem since_forall {P : UserId → List Entry → Prop} {h : List Entry} {e : Entry}
    (hcut : ∀ u, e = .cutOff u → P u []) (hold : ∀ u h', Since u h h' → P u (h' ++ [e])) (u : UserId)
    (h' : List Entry) (hs : Since u (h ++ [e]) h') : P u h' := by
  rcases since_snoc hs with ⟨rfl, he⟩ | ⟨h₀, rfl, hsince⟩
  · exact hcut u he
  · exact hold u h₀ hsince

theorem AccountsDrawn.step {op : Op} {session : Option AuthenticatedSession} {w w' : World}
    (hw : AccountsDrawn env w) (h : (op.session env).Runs w session w') : AccountsDrawn env w' :=
  (accountsDrawn_inductive env).step w op w' hw (Op.session_run h)

theorem AllCut.step (hu : Function.Injective env.uuid) (hs : AllCut env s) (hv : v.AllCut s)
    (hok : ∀ u, l.cutsOff env s.world = some u → ∀ c challenge,
      s.qrLogins.get c = some challenge → challenge.approvedUserId ≠ some u)
    (h : Moves env s v l s' v') : AllCut env s' ∧ v'.AllCut s' := by
  cases h with
  | @transaction op session w hop hrun =>
    refine ⟨⟨hs.accounts.step hrun, ?_⟩, fun _ _ _ => trivial⟩
    rcases entries_cases hu hop hrun with ⟨e, hes, ht, hnone⟩ | ⟨e, i, g, hes, hg, ht, hi, hsource⟩ |
      ⟨u₀, hes, hcut, ⟨a, ha⟩, ht⟩ <;> rw [hes]
    · intro u h hsince
      rw [List.append_nil] at hsince
      simpa using (hs.cut u h hsince).step [] ht (by simp [hnone]) (by simp) (by simp)
    · refine since_forall (by simp) fun u h hsince => ?_
      have hc := hs.cut u h hsince
      have hdesc : g.record.userId = u → Descends u (h ++ [.issued g op.source]) g := by
        intro hgu
        have hiu : i.userId = u := by
          rw [hg] at hgu
          exact hgu
        cases hop' : op.source with
        | registration =>
          rw [hop'] at hsource
          obtain ⟨k, hk, hik⟩ := hsource
          exact absurd (hiu.symm.trans hik) (hc.drawn.ne hu hk)
        | password => exact .password (by simp) hgu
        | rotation =>
          rw [hop'] at hsource
          obtain ⟨key, r, -, -, hr, hlive, -, huser, -, hfamily⟩ := hsource
          obtain ⟨parent, hparent, hpf⟩ := hc.refresh key r hr (huser.symm.trans hiu) hlive
          refine .rotation (by simp) hgu (hparent.mono (List.subset_append_left ..)) ?_
          rw [hpf, Grant.family, hg]
          exact hfamily.symm
        | qr => rw [hop'] at hsource; exact hsource.elim
      refine hc.step _ ht (fun i' hi' hiu => ⟨g, hdesc ?_, ?_⟩) ?_ ?_
      · cases hi.symm.trans hi'
        rw [hg]
        exact hiu
      · cases hi.symm.trans hi'
        rw [Grant.family, hg]
        rfl
      · intro g' source hm hgu
        cases List.mem_singleton.mp hm
        exact hdesc hgu
      · intro g' c secret now hm hgu
        have hsame := List.mem_singleton.mp hm
        injection hsame with _ hqr
        rw [← hqr] at hsource
        exact hsource.elim
    · refine since_forall ?_ fun u h hsince => ?_
      · rintro u ⟨⟩
        exact Cut.start (hs.accounts u₀ a ha) ht (hok u₀ hcut) _
      · exact (hs.cut u h hsince).step _ ht (by simp [Effect.revoking]) (by simp) (by simp)
  | @begun deviceName platform appVersion now info challenge w hrun =>
    obtain ⟨-, -, hopen, -, rfl⟩ := beginQrLogin_runs hrun
    refine ⟨⟨fun v a ha => ?_, since_forall (by simp) fun u h hsince => ?_⟩, fun _ _ _ => trivial⟩
    · obtain ⟨k, hk, hv⟩ := hs.accounts v a ha
      exact ⟨k, Nat.lt_succ_of_lt hk, hv⟩
    · have hc := hs.cut u h hsince
      refine hc.record _ rfl (Nat.le_succ _) (by simp) fun c challenge' hget happroved => ?_
      by_cases hc' : c = info.challengeId
      · subst hc'
        rw [Map.get_insert_self] at hget
        cases hget
        simp [hopen] at happroved
      · rw [Map.get_insert_ne hc'] at hget
        exact (hc.pending c challenge' hget happroved).mono (List.subset_append_left ..)
  | @authenticated accessToken c secret now session x hx hsession =>
    refine ⟨hs, fun u h hsince hsu => ?_⟩
    obtain ⟨r, hr, -, hlive, -⟩ := authenticateIdentity_ok.mp hx
    cases hsession.symm.trans hr
    exact (hs.cut u h hsince).access _ session hsession hsu hlive
  | @approved session c₀ secret now challenge hget hnow hsecret hopen =>
    refine ⟨⟨hs.accounts, since_forall (by simp) fun u h hsince => ?_⟩, fun _ _ _ => trivial⟩
    have hc := hs.cut u h hsince
    refine hc.record _ rfl (Nat.le_refl _) (by simp) fun c challenge' hget' happroved => ?_
    by_cases hc' : c = c₀
    · subst hc'
      rw [Map.get_insert_self] at hget'
      cases hget'
      have hsu : session.userId = u := Option.some.inj happroved
      exact ⟨secret, session, now, by simp, hsu,
        (hv u h hsince hsu).mono (List.subset_append_left ..)⟩
    · rw [Map.get_insert_ne hc'] at hget'
      exact (hc.pending c challenge' (shrinks_prune c challenge' hget') happroved).mono
        (List.subset_append_left ..)
  | @claimed c₀ secret userId challenge now hget hnow hsecret happroved =>
    refine ⟨⟨hs.accounts, fun u h hsince => ?_⟩, fun u h hsince hsu => ?_⟩
    · have hc := hs.cut u h hsince
      simpa using hc.record [] rfl (Nat.le_refl _) (by simp) fun c challenge' hget' happroved' => by
        simpa using hc.pending c challenge' (shrinks_remove c challenge' hget') happroved'
    · exact (hs.cut u h hsince).pending c₀ challenge hget (happroved.trans (congrArg some hsu))
  | @minted c₀ secret userId challenge now session w hrun =>
    obtain ⟨g, i, hg, hi, -, ht, hes⟩ := mint_runs hu (.qr c₀ secret now) hrun
    rw [hes]
    refine ⟨⟨hs.accounts.step hrun, since_forall (by simp) fun u h hsince => ?_⟩,
      fun _ _ _ => trivial⟩
    have happroved : userId = u → ApprovedSince u h c₀ := hv u h hsince
    have hgu : g.record.userId = userId := by
      rw [hg]
      exact hi
    have hdesc : g.record.userId = u → Descends u (h ++ [.issued g (.qr c₀ secret now)]) g := by
      intro hu'
      obtain ⟨secret', session', now', hm, hsu, parent, hparent, hpf⟩ :=
        happroved (hgu.symm.trans hu')
      exact .qr (List.mem_append_right _ List.mem_cons_self) hu' (List.mem_append_left _ hm) hsu
        (hparent.mono (List.subset_append_left ..)) hpf
    refine (hs.cut u h hsince).step _ ht (fun i' hi' hiu => ⟨g, hdesc ?_, ?_⟩) ?_ ?_
    · cases hi'
      exact hgu.trans (hi.symm.trans hiu)
    · cases hi'
      rw [Grant.family, hg]
      rfl
    · intro g' source hm hgu'
      cases List.mem_singleton.mp hm
      exact hdesc hgu'
    · intro g' c secret' now' hm hgu'
      cases List.mem_singleton.mp hm
      exact (happroved (hgu.symm.trans hgu')).mono (List.subset_append_left ..)
  | ended hshrinks =>
    refine ⟨⟨hs.accounts, fun u h hsince => ?_⟩, fun _ _ _ => trivial⟩
    have hc := hs.cut u h hsince
    simpa using hc.record [] rfl (Nat.le_refl _) (by simp) fun c challenge hget happroved => by
      simpa using hc.pending c challenge (hshrinks c challenge hget) happroved

/-- A step adds at most one entry; a revocation is one of a transaction. -/
theorem history_step (hu : Function.Injective env.uuid) (h : Moves env s v l s' v') :
    s'.history = s.history ∨ ∃ e, s'.history = s.history ++ [e] ∧
      ∀ u, e = .cutOff u → l.cutsOff env s.world = some u := by
  cases h with
  | @transaction op session w hop hrun =>
    rcases entries_cases hu hop hrun with ⟨e, hes, -⟩ | ⟨e, i, g, hes, -⟩ | ⟨u, hes, hcut, -⟩ <;>
      dsimp only <;> rw [hes]
    · exact .inl (List.append_nil _)
    · exact .inr ⟨_, rfl, by simp⟩
    · refine .inr ⟨_, rfl, ?_⟩
      rintro u ⟨⟩
      exact hcut
  | begun => exact .inr ⟨_, rfl, by simp⟩
  | authenticated => exact .inl rfl
  | approved => exact .inr ⟨_, rfl, by simp⟩
  | claimed => exact .inl rfl
  | @minted c₀ secret userId challenge now session w hrun =>
    obtain ⟨g, i, -, -, -, -, hes⟩ := mint_runs hu (.qr c₀ secret now) hrun
    dsimp only
    rw [hes]
    exact .inr ⟨_, rfl, by simp⟩
  | ended => exact .inl rfl

theorem Visit.AllCut.others {o : Visit} (hu : Function.Injective env.uuid) (ho : o.AllCut s)
    (hok : ∀ u, l.cutsOff env s.world = some u → ¬ o.Approves u)
    (h : Moves env s v l s' v') : o.AllCut s' := by
  unfold Visit.AllCut
  rcases history_step hu h with hsame | ⟨e, hsnoc, hcut⟩
  · rw [hsame]
    exact ho
  · rw [hsnoc]
    refine since_forall ?_ fun u h hsince => (ho u h hsince).mono (List.subset_append_left ..)
    intro u he
    have hnot := hok u (hcut u he)
    cases o with
    | idle => trivial
    | approving session c secret => exact fun hsu => absurd hsu hnot
    | claimed c secret userId challenge now => exact fun hsu => absurd hsu hnot

theorem allCut_inductive {ι : Type} [DecidableEq ι] (hu : Function.Injective env.uuid) :
    ((logins ι env).lts.restrict (CutsCleanly env)).Inductive
      (Threads.Holds (AllCut env) Visit.AllCut fun _ _ => True) := by
  refine Threads.holds_inductive ?_ (fun _ _ _ => trivial) ?_ ?_
  · rintro ⟨s, visits⟩ ⟨hw, -, hhistory, -⟩
    dsimp only at hw hhistory
    have hnone : ∀ u h, ¬ Since u s.history h := by
      rintro u h ⟨before, hb⟩
      rw [hhistory] at hb
      cases before <;> cases hb
    exact ⟨⟨accounts_drawn hw, fun u h hsince => absurd hsince (hnone u h)⟩,
      fun i u h hsince => absurd hsince (hnone u h), fun _ _ _ => trivial⟩
  · intro x i l s' v' hok hs hv h
    exact hs.step hu hv (fun u hcut => (hok u hcut).1) (moves_of_step h)
  · intro x i l s' v' j hok _ _ _ ho _ h
    exact ⟨ho.others hu (fun u hcut => (hok u hcut).2 j) (moves_of_step h), trivial⟩

theorem mem_unique {α : Type} {l : List α} (hl : l.length ≤ 1) {a b : α} (ha : a ∈ l)
    (hb : b ∈ l) : a = b := by
  match l, hl with
  | [x], _ => rw [List.mem_singleton.mp ha, List.mem_singleton.mp hb]

/-- **A revocation cuts.** In every run in which the sessions of a user are revoked only when no
approval of the user is pending, what is issued to the user after a revocation descends from a
password login since then, and a challenge approved before it yields nothing. -/
theorem revocation_cuts {ι : Type} [DecidableEq ι] (hu : Function.Injective env.uuid)
    (hh : Function.Injective (hashToken env)) {x : Logins × (ι → Visit)}
    (hx : ((logins ι env).lts.restrict (CutsCleanly env)).Reachable x) {u : UserId}
    {before after : List Entry} (hhistory : x.1.history = before ++ .cutOff u :: after) :
    (∀ g source, .issued g source ∈ after → g.record.userId = u → Descends u after g) ∧
    ∀ c secret session now, .approved c secret session now ∈ before → session.userId = u →
      ∀ g secret' later, .issued g (.qr c secret' later) ∉ after := by
  have hcut := ((allCut_inductive hu).reachable hx).shared.cut u after ⟨before, hhistory⟩
  refine ⟨hcut.issued, fun c secret session now hbefore hsu g secret' later hafter => ?_⟩
  obtain ⟨-, honce, hissued, -⟩ := qr_login_once hu hh hx.of_restrict c
  have hfirst : Entry.approved c secret session now ∈ before.filter (Entry.approves c) :=
    List.mem_filter.mpr ⟨hbefore, beq_self_eq_true _⟩
  -- the session would be the approver's, so the challenge was approved since then
  obtain ⟨_, session', now', -, happroved, -, -, hgu⟩ :=
    hissued g secret' later (by simp [hhistory, hafter])
  have hsame : Entry.approved c secret' session' now' = .approved c secret session now := by
    refine mem_unique honce (List.mem_filter.mpr ⟨happroved, beq_self_eq_true _⟩) ?_
    rw [hhistory, List.filter_append]
    exact List.mem_append_left _ hfirst
  injection hsame with _ _ hsession _
  have hgu : g.record.userId = u := by rw [hgu, hsession, hsu]
  obtain ⟨secret'', session'', now'', hlater, -, -⟩ := hcut.polls g c secret' later hafter hgu
  have hsecond : Entry.approved c secret'' session'' now'' ∈ after.filter (Entry.approves c) :=
    List.mem_filter.mpr ⟨hlater, beq_self_eq_true _⟩
  have hpos₁ := List.length_pos_of_mem hfirst
  have hpos₂ := List.length_pos_of_mem hsecond
  rw [hhistory, List.filter_append, List.length_append,
    List.filter_cons_of_neg (by simp [Entry.approves])] at honce
  omega

end

/-! ## Two runs -/

theorem adminRevokeUserSessions_succeeds (env : Env) {w : World} {u : UserId} {a : Account}
    (ha : w.activeAccount u = some a) (now : DateTime) :
    ∃ w', ((Op.adminRevokeUserSessions u now).session env).Runs w none w' := by
  have hruns : ∃ w', (adminRevokeUserSessions env u now).Runs w () w' := by
    unfold adminRevokeUserSessions appendAuditEntry
    simp only [Tx.runs_get_bind, Tx.runs_failIf_bind, ha, Tx.runs_bind (t := newUuid env),
      newUuid_runs, Tx.runs_bind (t := revokeUserSessions _ _), revokeUserSessions_runs,
      update_runs]
    exact ⟨_, by simp, (), _, rfl, _, _, ⟨rfl, rfl⟩, rfl⟩
  obtain ⟨w', hr⟩ := hruns
  refine ⟨w', ?_⟩
  simp only [Op.session, Op.run, Tx.runs_bind, Tx.runs_void, Tx.runs_pure]
  exact ⟨(), w', ⟨(), hr⟩, trivial, rfl⟩

/-- The administrator revokes the sessions of a user, and nothing else is going on. -/
theorem revoke_step (env : Env) {s : Logins} {u : UserId} (hstanding : InGoodStanding u s.world)
    (now : DateTime) :
    ∃ w, Only ([.auditEvents, .accessTokens, .refreshTokens, .devices] ++ logFields) s.world w ∧
      (logins Unit env).lts.step (s, fun _ => .idle)
        ((), .transaction (.adminRevokeUserSessions u now))
        (⟨w, s.qrLogins, s.history ++ [.cutOff u]⟩, fun _ => .idle) := by
  obtain ⟨a, ha, hdel, -⟩ := hstanding
  obtain ⟨w, hr⟩ := adminRevokeUserSessions_succeeds env
    (activeAccount_some.mpr ⟨ha, hdel⟩) now
  refine ⟨w, fun f => Op.same (Op.session_run hr), logins_step ?_⟩
  unfold Tx.Runs at hr
  unfold Visit.step
  simp only [Op.isPollQrLogin, Bool.false_eq_true, if_false, hr]
  rfl

/-- A challenge that was approved before the revocation yields a session after it. -/
theorem revocation_misses_approval : ∃ x before after u c secret session now g,
    (logins Unit Env.numbered).lts.Reachable x ∧
    x.1.history = before ++ .cutOff u :: after ∧
    .approved c secret session now ∈ before ∧ session.userId = u ∧
    .issued g (.qr c secret now) ∈ after ∧ g.record.userId = u ∧ ¬ Descends u after g := by
  obtain ⟨s, c, secret, challenge, u, now, hs, hget, hnow, hsecret, happroved, hstanding, e,
    session, hsession, hhistory⟩ := alice_approves
  obtain ⟨w, honly, hstep⟩ := revoke_step Env.numbered hstanding 0
  have haccounts : w.accounts = s.world.accounts := honly .accounts (by decide)
  have hstanding' : InGoodStanding u w := by
    unfold InGoodStanding
    rw [haccounts]
    exact hstanding
  obtain ⟨s', g, hs', hg, hhistory'⟩ := poll_mints Env.numbered_injective (hs.step hstep) hget hnow
    hsecret happroved hstanding'
  refine ⟨_, s.history, [.issued g (.qr c secret now)], u, c, secret, session, now, g, hs', ?_, ?_,
    hsession, by simp, hg, ?_⟩
  · rw [hhistory']
    simp
  · simp [hhistory]
  · intro hdesc
    cases hdesc <;> simp_all

theorem login_succeeds (env : Env) {w : World} {input : LoginInput} {u : UserId} {a : Account}
    {now : DateTime} (hname : validateDeviceName input.deviceName = .ok ())
    (hmetadata : validateDeviceMetadata input.platform input.appVersion = .ok ())
    (hlookup : (w.byEmail.get (Text.toAsciiLowercase (Text.trim input.login))).or
      (w.byUsername.get (Text.toAsciiLowercase (Text.trim input.login))) = some u)
    (ha : w.accounts.get u = some a) (hstanding : a.deletedAt = none ∧ a.suspended = false)
    (hverify : env.verifyPassword input.password a.passwordHash = true)
    (hfactor : a.secondFactor = none) :
    ∃ session w', ((Op.loginWithSecondFactor input none now).session env).Runs w session w' := by
  have hruns : ∃ session w', (loginWithSecondFactor env input none now).Runs w session w' := by
    unfold loginWithSecondFactor issueSession
    simp only [check_bind_runs, Tx.runs_get_bind, Tx.runs_okOr_bind, Tx.runs_failIf_bind,
      Tx.runs_ofExcept_bind, Tx.runs_bind (t := newUuid env), newUuid_runs, update_bind_runs,
      World.set, issueSessionInFamily_runs]
    exact ⟨_, _, hname, hmetadata, u, hlookup, a, by simp [ha, hstanding], by simp [hverify], a,
      by simp [verifySecondFactorForAccount, hfactor], _, _, ⟨rfl, rfl⟩, _, _, ⟨rfl, rfl⟩, rfl, rfl⟩
  obtain ⟨session, w', hr⟩ := hruns
  refine ⟨some session, w', ?_⟩
  simp only [Op.session, Tx.runs_bind, Tx.runs_pure]
  exact ⟨_, _, hr, rfl, rfl⟩

/-- Alice has registered; what a password login of hers asks of the store. -/
theorem alice_can_login : ∃ w a, (service Env.numbered).Reachable w ∧
    w.byEmail.get "alice" = none ∧ w.byUsername.get "alice" = some 1 ∧
    w.accounts.get 1 = some a ∧ (a.deletedAt = none ∧ a.suspended = false) ∧
    a.secondFactor = none ∧ a.passwordHash = "Passw0rd123" := by
  obtain ⟨w, hw, hp⟩ := reaches Env.numbered [.register alice 0]
    (fun w => ((w.accounts.get 1).any fun a => a.deletedAt.isNone && !a.suspended &&
      a.secondFactor.isNone && a.passwordHash == "Passw0rd123") && w.byEmail.get "alice" == none &&
      w.byUsername.get "alice" == some 1) (by decide +kernel)
  simp only [Bool.and_eq_true, beq_iff_eq, Option.any_eq_true, Option.isNone_iff_eq_none,
    Bool.not_eq_true'] at hp
  obtain ⟨⟨⟨a, ha, ⟨⟨hdel, hsus⟩, hfactor⟩, hpassword⟩, hemail⟩, husername⟩ := hp
  exact ⟨w, a, reachable_of_run hw, hemail, husername, ha, ⟨hdel, hsus⟩, hfactor, hpassword⟩

/-- Alice's sessions are revoked, and she logs in again. -/
theorem revocation_cuts_alice : ∃ x g,
    ((logins Unit Env.numbered).lts.restrict (CutsCleanly Env.numbered)).Reachable x ∧
    x.1.history = [.cutOff 1, .issued g .password] ∧ g.record.userId = 1 ∧
    Descends 1 [.issued g .password] g := by
  obtain ⟨w₀, a, hw₀, hemail, husername, ha, hstanding, hfactor, hpassword⟩ := alice_can_login
  have hinit : ((logins Unit Env.numbered).lts.restrict (CutsCleanly Env.numbered)).init
      (⟨w₀, .empty, []⟩, fun _ => .idle) := ⟨hw₀, rfl, rfl, fun _ => rfl⟩
  obtain ⟨w₁, honly, hrevoke⟩ := revoke_step Env.numbered (s := ⟨w₀, .empty, []⟩)
    ⟨a, ha, hstanding⟩ 0
  have haccounts : w₁.accounts = w₀.accounts := honly .accounts (by decide)
  have hbyEmail : w₁.byEmail = w₀.byEmail := honly .byEmail (by decide)
  have hbyUsername : w₁.byUsername = w₀.byUsername := honly .byUsername (by decide)
  let input : LoginInput := ⟨"alice", "Passw0rd123", "phone", "ios", "1.0"⟩
  have hlookup : (w₁.byEmail.get (Text.toAsciiLowercase (Text.trim input.login))).or
      (w₁.byUsername.get (Text.toAsciiLowercase (Text.trim input.login))) = some 1 := by
    have hlogin : Text.toAsciiLowercase (Text.trim input.login) = "alice" := by decide
    rw [hlogin, hbyEmail, hbyUsername, hemail, husername]
    rfl
  obtain ⟨session, w₂, hlogin⟩ : ∃ session w₂,
      ((Op.loginWithSecondFactor input none 0).session Env.numbered).Runs w₁ session w₂ :=
    login_succeeds Env.numbered (by decide) (by decide) hlookup (by rw [haccounts]; exact ha)
      hstanding (by rw [hpassword]; decide) hfactor
  obtain ⟨i, profile, rfl, huser, ht⟩ : ∃ i profile, session = some (i.session profile) ∧
      i.userId = 1 ∧ TokenStep Env.numbered w₁ w₂ (.issuing i) := by
    simp only [Op.session, Tx.runs_bind, Tx.runs_pure] at hlogin
    obtain ⟨_, _, hr, rfl, rfl⟩ := hlogin
    obtain ⟨i, profile, rfl, huser, ht⟩ := login_effect Env.numbered_injective hr
    exact ⟨i, profile, rfl, Option.some.inj (huser.symm.trans hlookup), ht⟩
  have hentries := granted_issue ht rfl profile
  have hstep : (logins Unit Env.numbered).lts.step
      (⟨w₁, .empty, [.cutOff 1]⟩, fun _ => .idle)
      ((), .transaction (.loginWithSecondFactor input none 0))
      (⟨w₂, .empty, [.cutOff 1, .issued ⟨i.session profile, i.access⟩ .password]⟩,
        fun _ => .idle) := by
    refine logins_step ?_
    unfold Tx.Runs at hlogin
    unfold Visit.step
    simp only [Op.isPollQrLogin, Bool.false_eq_true, if_false, hlogin, Op.entries, hentries]
    rfl
  have hreach : ((logins Unit Env.numbered).lts.restrict (CutsCleanly Env.numbered)).Reachable
      (⟨w₂, .empty, [.cutOff 1, .issued ⟨i.session profile, i.access⟩ .password]⟩,
        fun _ => .idle) := by
    refine ((LTS.Reachable.init hinit).step ⟨?_, hrevoke⟩).step ⟨?_, hstep⟩
    · exact fun u _ => ⟨fun c challenge hget => by simp at hget, fun _ h => h⟩
    · rintro u ⟨⟩
  have hcut := (revocation_cuts Env.numbered_injective Env.numbered_hashToken_injective hreach
    (List.nil_append _).symm).1
  exact ⟨_, _, hreach, rfl, huser, hcut _ .password (by simp) huser⟩

end IamRust
