import IamRust.L4Properties.Families
import IamRust.L5Concurrency.Gateway

/-!
# Sockets of a session that is over

A session is over when its device is revoked, its family is logged out, the
password is changed or the account is suspended: its tokens are revoked, and
every request is authenticated. A socket is not: the session counts when the
ticket is asked for, and never again.

* `revocation_reaches_sockets`: a session that is over has no socket and gets
  none, in the runs in which a session ends only when it has no socket, no
  ticket and no request for one.
* `socket_outlives_logout`: Alice logs out and sends a message on her socket.
-/
namespace IamRust

open Core

/-! ## Sessions that end -/

/-- The two are tokens of one session: it keeps its family when it is refreshed. -/
def TokenRecord.SameSession (r session : TokenRecord) : Prop :=
  r.userId = session.userId ∧ r.deviceId = session.deviceId ∧ r.familyId = session.familyId

/-- The transaction ends the session, if it succeeds. The last three revoke the devices of the
user. -/
def Op.ends (env : Env) (w : World) (session : TokenRecord) : Op → Bool
  | .revokeDevice _ deviceId _ => session.deviceId == deviceId
  | .logout token =>
    (w.refreshTokens.get (hashToken env token)).any fun r => session.familyId == r.familyId
  | .changePassword actor _ _ => session.userId == actor
  | .resetPassword token _ _ =>
    (w.passwordResets.get (hashToken env token)).any fun reset => session.userId == reset.userId
  | .adminSetUserSuspended target suspended _ => suspended && session.userId == target
  | .adminRevokeUserSessions target _ => session.userId == target
  | .deleteAccount actor _ _ _ => session.userId == actor
  | _ => false

/-- Every token of the session is revoked, and its family is not drawn again. -/
structure SessionOver (env : Env) (session : TokenRecord) (w : World) : Prop where
  access : ∀ k r, w.accessTokens.get k = some r → r.SameSession session → r.revoked = true
  refresh : ∀ k r, w.refreshTokens.get k = some r → r.SameSession session → r.revoked = true
  drawn : Drawn env session.familyId w

section
variable {env : Env} {w w' : World} {session r : TokenRecord} {e : Effect}

@[simp] theorem sameSession_onRecord :
    (e.onRecord r).SameSession session ↔ r.SameSession session := by
  simp [TokenRecord.SameSession]

theorem Effect.onRecord_picked {p : TokenRecord → Bool} (he : e.revoked = some p)
    (hr : p r = true) : (e.onRecord r).revoked = true := by
  simp [Effect.onRecord, he, revokeIf, hr]

/-- What ends a session revokes its tokens and issues none. -/
theorem Op.ends_effect {op : Op} (h : (op.run env).Runs w () w')
    (hop : op.ends env w session = true) : ∃ e p, TokenStep env w w' e ∧ e.issued = none ∧
      e.revoked = some p ∧ ∀ r : TokenRecord, r.SameSession session → p r = true := by
  cases op <;> simp only [Op.ends, Bool.false_eq_true] at hop
  case revokeDevice actor deviceId now =>
    obtain ⟨_, hr⟩ := Tx.runs_void.mp h
    refine ⟨_, _, revokeDevice_effect hr, rfl, rfl, fun r hsame => ?_⟩
    simpa [hsame.2.1] using hop
  case logout token =>
    obtain ⟨_, hr⟩ := Tx.runs_void.mp h
    obtain ⟨r, hget, hfamily⟩ := (Option.any_eq_true ..).mp hop
    rcases logout_effect hr with ⟨hnone, -⟩ | ⟨r', hget', rfl⟩
    · simp [hget] at hnone
    · cases hget.symm.trans hget'
      refine ⟨_, _, logout_step hget, rfl, rfl, fun t hsame => ?_⟩
      simp [hsame.2.2, beq_iff_eq.mp hfamily]
  case changePassword actor currentPassword newPassword =>
    obtain ⟨_, hr⟩ := Tx.runs_void.mp h
    refine ⟨_, _, (changePassword_effect hr).2, rfl, rfl, fun r hsame => ?_⟩
    simpa [hsame.1] using hop
  case resetPassword token newPassword now =>
    obtain ⟨_, hr⟩ := Tx.runs_void.mp h
    obtain ⟨reset, hget, huser⟩ := (Option.any_eq_true ..).mp hop
    obtain ⟨reset', hget', -, hstep⟩ := resetPassword_effect hr
    cases hget.symm.trans hget'
    refine ⟨_, _, hstep, rfl, rfl, fun r hsame => ?_⟩
    simpa [hsame.1] using huser
  case adminSetUserSuspended target suspended now =>
    obtain ⟨_, hr⟩ := Tx.runs_void.mp h
    obtain ⟨rfl, huser⟩ := Bool.and_eq_true_iff.mp hop
    refine ⟨_, _, adminSetUserSuspended_effect hr, rfl, rfl, fun r hsame => ?_⟩
    simpa [hsame.1] using huser
  case adminRevokeUserSessions target now =>
    obtain ⟨_, hr⟩ := Tx.runs_void.mp h
    refine ⟨_, _, (adminRevokeUserSessions_effect hr).2, rfl, rfl, fun r hsame => ?_⟩
    simpa [hsame.1] using hop
  case deleteAccount actor currentPassword confirmation now =>
    obtain ⟨_, hr⟩ := Tx.runs_void.mp h
    refine ⟨_, _, deleteAccount_effect hr, rfl, rfl, fun r hsame => ?_⟩
    simpa [hsame.1] using hop

theorem Op.ends_session {op : Op} (h : (op.run env).Runs w () w')
    (hop : op.ends env w session = true) (hd : Drawn env session.familyId w) :
    SessionOver env session w' := by
  obtain ⟨e, p, hstep, hissued, hrevoked, hp⟩ := Op.ends_effect h hop
  refine ⟨fun k r hr hsame => ?_, fun k r hr hsame => ?_, hd.mono hstep.uuids⟩
  · rcases hstep.access_get hr with ⟨r₀, -, rfl⟩ | ⟨i, hi, -⟩
    · exact Effect.onRecord_picked hrevoked (hp r₀ (sameSession_onRecord.mp hsame))
    · simp [hissued] at hi
  · rcases hstep.refresh_get hr with ⟨r₀, -, rfl, -⟩ | ⟨i, hi, -⟩
    · exact Effect.onRecord_picked hrevoked (hp r₀ (sameSession_onRecord.mp hsame))
    · simp [hissued] at hi

/-- The session gets no new tokens: a new family is another one, and there is nothing to
refresh it with. -/
theorem SessionOver.not_issued {i : Issue} (hu : Function.Injective env.uuid)
    (h : SessionOver env session w) (hstep : TokenStep env w w' e) (hi : e.issued = some i) :
    ¬ i.access.SameSession session := by
  rintro ⟨huser, hdevice, hfamily⟩
  dsimp only [Issue.access] at huser hdevice hfamily
  rcases hstep.source i hi with ⟨-, -, ⟨k, hk, -, hnew⟩, -⟩ |
    ⟨key, r, -, -, hr, hlive, -, huser', hdevice', hfamily'⟩
  · exact h.drawn.ne hu hk (hfamily.symm.trans hnew)
  · have hsame : r.SameSession session :=
      ⟨huser'.symm.trans huser, hdevice'.symm.trans hdevice, hfamily'.symm.trans hfamily⟩
    simp [h.refresh key r hr hsame] at hlive

/-- A session that is over stays over. -/
theorem SessionOver.step (hu : Function.Injective env.uuid) (h : SessionOver env session w)
    (hstep : TokenStep env w w' e) : SessionOver env session w' where
  access k r hr hsame := by
    rcases hstep.access_get hr with ⟨r₀, hr₀, rfl⟩ | ⟨i, hi, -, rfl⟩
    · exact Effect.onRecord_revoked (h.access k r₀ hr₀ (sameSession_onRecord.mp hsame))
    · exact absurd hsame (h.not_issued hu hstep hi)
  refresh k r hr hsame := by
    rcases hstep.refresh_get hr with ⟨r₀, hr₀, rfl, -⟩ | ⟨i, hi, -, rfl⟩
    · exact Effect.onRecord_revoked (h.refresh k r₀ hr₀ (sameSession_onRecord.mp hsame))
    · exact absurd hsame (h.not_issued hu hstep hi)
  drawn := h.drawn.mono hstep.uuids

/-! ### Families -/

/-- The family of every token was drawn. -/
structure FamiliesDrawn (env : Env) (w : World) : Prop where
  access : ∀ k r, w.accessTokens.get k = some r → Drawn env r.familyId w
  refresh : ∀ k r, w.refreshTokens.get k = some r → Drawn env r.familyId w

theorem FamiliesDrawn.issued {i : Issue} (h : FamiliesDrawn env w) (hstep : TokenStep env w w' e)
    (hi : e.issued = some i) : Drawn env i.familyId w' := by
  rcases hstep.source i hi with ⟨-, -, ⟨k, -, hk, hnew⟩, -⟩ |
    ⟨key, r, -, -, hr, -, -, -, -, hfamily⟩
  · exact ⟨k, hk, hnew⟩
  · rw [hfamily]
    exact (h.refresh key r hr).mono hstep.uuids

theorem FamiliesDrawn.step (h : FamiliesDrawn env w) (hstep : TokenStep env w w' e) :
    FamiliesDrawn env w' where
  access k r hr := by
    rcases hstep.access_get hr with ⟨r₀, hr₀, rfl⟩ | ⟨i, hi, -, rfl⟩
    · simpa using (h.access k r₀ hr₀).mono hstep.uuids
    · exact h.issued hstep hi
  refresh k r hr := by
    rcases hstep.refresh_get hr with ⟨r₀, hr₀, rfl, -⟩ | ⟨i, hi, -, rfl⟩
    · simpa using (h.refresh k r₀ hr₀).mono hstep.uuids
    · exact h.issued hstep hi

end

/-! ## Tickets and sockets of a session -/

/-- No ticket of the session can be used. -/
def Gateway.NoTicket (session : TokenRecord) (g : Gateway) : Prop :=
  ∀ k value, g.tickets.get k = some value → g.clock < value.expiresAt → value.session ≠ session

/-- The session has no socket, no ticket for one, and no request for a ticket is under way. -/
structure Uncarried {ι : Type} (session : TokenRecord) (x : Gateway × (ι → Task)) : Prop where
  tickets : x.1.NoTicket session
  tasks : ∀ i, (x.2 i).session ≠ some session

/-- The transaction of a request. -/
def Task.transaction : Task → TaskStep → Option Op
  | .idle, .transaction op => some op
  | .requesting _ (.call op), .call => some op
  | _, _ => none

/-- A session ends when it has no socket, no ticket, and no request for one. -/
def EndsUncarried {ι : Type} (env : Env) (x : Gateway × (ι → Task)) (l : ι × TaskStep) : Prop :=
  ∀ op session w', (x.2 l.1).transaction l.2 = some op → (op.run env).Runs x.1.world () w' →
    op.ends env x.1.world session = true → Uncarried session x

section
variable {env : Env} {g g' : Gateway} {t t' : Task} {l : TaskStep} {session : TokenRecord}

theorem Advances.tokens (hu : Function.Injective env.uuid) (h : Advances env g t l g' t') :
    ∃ e, TokenStep env g.world g'.world e := by
  cases h with
  | quiet hworld => exact ⟨.nothing, hworld ▸ .refl _⟩
  | ran hrun =>
    obtain ⟨_, hs⟩ := Op.session_of_run hrun
    obtain ⟨e, he, -⟩ := Op.effect hu hs
    exact ⟨e, he⟩
  | authenticated => exact ⟨.nothing, .refl _⟩
  | issued => exact ⟨.nothing, .refl _⟩
  | upgraded => exact ⟨.nothing, .refl _⟩
  | expired => exact ⟨.nothing, .refl _⟩
  | due => exact ⟨.nothing, .refl _⟩

/-- The families of the sessions behind the tickets were drawn. -/
structure Gateway.SessionsDrawn (env : Env) (g : Gateway) : Prop where
  tokens : FamiliesDrawn env g.world
  tickets : ∀ k value, g.tickets.get k = some value → Drawn env value.session.familyId g.world

def Task.SessionDrawn (env : Env) (g : Gateway) (t : Task) : Prop :=
  ∀ session, t.session = some session → Drawn env session.familyId g.world

theorem Advances.sessionsDrawn (hu : Function.Injective env.uuid) (h : Advances env g t l g' t')
    (hg : g.SessionsDrawn env) (ht : t.SessionDrawn env g) :
    g'.SessionsDrawn env ∧ t'.SessionDrawn env g' := by
  obtain ⟨e, hstep⟩ := h.tokens hu
  refine ⟨⟨hg.tokens.step hstep, fun k value hget => ?_⟩, fun session hs => ?_⟩
  · rcases h.ticket_source hget with hget | ⟨rfl, -⟩
    · exact (hg.tickets k value hget).mono hstep.uuids
    · exact (ht value.session rfl).mono hstep.uuids
  · rcases h.session_source hs with hs | ⟨k, value, hget, -, rfl⟩ | ⟨_, _, _, -, hget, -⟩
    · exact (ht session hs).mono hstep.uuids
    · exact (hg.tickets k value hget).mono hstep.uuids
    · exact (hg.tokens.access _ session hget).mono hstep.uuids

/-- A session without a socket gets one only by a request that is authenticated. -/
theorem Advances.uncarried (h : Advances env g t l g' t')
    (hover : ∀ accessToken request now, l = .authenticate accessToken request now →
      SessionOver env session g.world)
    (hg : g.NoTicket session) (ht : t.session ≠ some session) :
    g'.NoTicket session ∧ t'.session ≠ some session := by
  refine ⟨fun k value hget hlive => ?_, fun hs => ?_⟩
  · rcases h.ticket_source hget with hget | ⟨rfl, -⟩
    · exact hg k value hget (Nat.lt_of_le_of_lt h.clock_le hlive)
    · exact fun he => ht (congrArg some he)
  · rcases h.session_source hs with hs | ⟨k, value, hget, hlive, he⟩ | ⟨_, _, _, hl, hget, hlive⟩
    · exact ht hs
    · exact hg k value hget hlive he
    · simp [(hover _ _ _ hl).access _ session hget ⟨rfl, rfl, rfl⟩] at hlive

end

/-! ## Every run -/

section
variable {ι : Type} [DecidableEq ι] {env : Env} {x x₀ x' y : Gateway × (ι → Task)}
  {session : TokenRecord}

theorem sessionsDrawn_inductive (hu : Function.Injective env.uuid) :
    ((gateway ι env).lts.restrict (EndsUncarried env)).Inductive
      (Threads.Holds (Gateway.SessionsDrawn env) (Task.SessionDrawn env) fun _ _ => True) := by
  refine Threads.holds_inductive (fun x hx => ?_) (fun _ _ h => h) ?_ ?_
  · obtain ⟨⟨clock, hg⟩, hidle⟩ := hx
    refine ⟨?_, fun i session hs => ?_, fun _ _ _ => trivial⟩
    · rw [hg]
      exact ⟨⟨nofun, nofun⟩, nofun⟩
    · rw [hidle i] at hs
      cases hs
  · intro x i l g' t' _ hI hL hstep
    exact (advances_of_step hstep).sessionsDrawn hu hI hL
  · intro x i l g' t' j _ _ _ _ hLj _ hstep
    obtain ⟨e, he⟩ := (advances_of_step hstep).tokens hu
    exact ⟨fun session hs => (hLj session hs).mono he.uuids, trivial⟩

theorem Uncarried.step {l : ι × TaskStep} (h : Uncarried session x)
    (hstep : (gateway ι env).lts.step x l x')
    (hover : ∀ accessToken request now, l.2 = .authenticate accessToken request now →
      SessionOver env session x.1.world) : Uncarried session x' := by
  obtain ⟨t, htask, hothers⟩ := hstep
  obtain ⟨htickets, ht⟩ := (advances_of_step htask).uncarried hover h.tickets (h.tasks _)
  refine ⟨htickets, fun i => ?_⟩
  rw [hothers, Function.update_apply]
  split
  · exact ht
  · exact h.tasks i

/-- **Revocation reaches sockets.** Once a session that had a socket has ended, it has no socket
and gets none: no frame is acted upon for it and nothing is sent to it, in the runs in which a
session ends only when it has no socket, no ticket, and no request for one. -/
theorem revocation_reaches_sockets (hu : Function.Injective env.uuid) {i : ι} {l : ι × TaskStep}
    {op : Op} {ls ls' : List (ι × TaskStep)}
    (hx₀ : ((gateway ι env).lts.restrict (EndsUncarried env)).Reachable x₀)
    (hopened : (x₀.2 i).session = some session)
    (hbefore : ((gateway ι env).lts.restrict (EndsUncarried env)).Run x₀ ls x)
    (hstep : ((gateway ι env).lts.restrict (EndsUncarried env)).step x l x')
    (hop : (x.2 l.1).transaction l.2 = some op) (hrun : (op.run env).Runs x.1.world () x'.1.world)
    (hends : op.ends env x.1.world session = true)
    (hafter : ((gateway ι env).lts.restrict (EndsUncarried env)).Run x' ls' y) :
    Uncarried session y := by
  have hdrawn : Drawn env session.familyId x.1.world := by
    have hopened := ((sessionsDrawn_inductive hu).reachable hx₀).thread i session hopened
    refine hbefore.preserves (I := fun x => Drawn env session.familyId x.1.world) ?_ hopened
    rintro x l x' hx ⟨-, t, htask, -⟩
    obtain ⟨e, he⟩ := (advances_of_step htask).tokens hu
    exact hx.mono he.uuids
  have hover : SessionOver env session x'.1.world := Op.ends_session hrun hends hdrawn
  have hcarried : Uncarried session x' := by
    refine (hstep.1 op session _ hop hrun hends).step hstep.2 fun accessToken request now hl => ?_
    rw [hl] at hop
    cases ht : x.2 l.1 <;> simp [ht, Task.transaction] at hop
  refine (hafter.preserves (I := fun x => SessionOver env session x.1.world ∧ Uncarried session x)
    ?_ ⟨hover, hcarried⟩).2
  rintro x l x' ⟨hover, hcarried⟩ ⟨-, hstep⟩
  obtain ⟨t, htask, -⟩ := id hstep
  obtain ⟨e, he⟩ := (advances_of_step htask).tokens hu
  exact ⟨hover.step hu he, hcarried.step hstep fun _ _ _ _ => hover⟩

end

/-- No ticket is out and no socket is open. -/
theorem endsUncarried_of_clear {env : Env} {x : Gateway × (Unit → Task)} {l : Unit × TaskStep}
    (h : ((x.2 ()).transaction l.2).isNone = true ∨
      (x.2 ()).session = none ∧ x.1.tickets.values = []) : EndsUncarried env x l := by
  intro op session w' hop _ _
  rcases h with h | ⟨hs, htickets⟩
  · simp [hop] at h
  · refine ⟨fun k value hget => ?_, fun i => by simp [hs]⟩
    simpa [htickets] using Map.mem_values.mpr ⟨k, hget⟩

/-- Somebody logs out. -/
theorem logout_ends {ι : Type} [DecidableEq ι] (env : Env) {x : Gateway × (ι → Task)} {i : ι}
    (token : String) (h : ((x.2 i).transaction (.transaction (.logout token))).isSome = true) :
    ∃ x', (gateway ι env).lts.step x (i, .transaction (.logout token)) x' ∧
      (x.2 i).transaction (.transaction (.logout token)) = some (.logout token) ∧
      ((Op.logout token).run env).Runs x.1.world () x'.1.world := by
  have hidle : x.2 i = .idle := by
    cases ht : x.2 i <;> simp [ht, Task.transaction] at h
    rfl
  obtain ⟨w', hlogout, -⟩ := logout_succeeds env x.1.world token
  have hrun : ((Op.logout token).run env).Runs x.1.world () w' := Tx.runs_void.mpr ⟨_, hlogout⟩
  refine ⟨({ x.1 with world := w' }, Function.update x.2 i .idle), ⟨.idle, ?_, rfl⟩, ?_, hrun⟩
  · dsimp only [gateway]
    rw [hidle]
    unfold Task.step
    simp only [Op.isPublic, if_true, Gateway.commit, Tx.commit_of_runs hrun]
  · rw [hidle]
    rfl

/-- Alice opens and closes a socket and logs out. -/
theorem revocation_reaches_sockets_alice : ∃ (x₀ x x' : Gateway × (Unit → Task))
    (session : TokenRecord) (ls : List (Unit × TaskStep)) (token : String),
    (x₀.2 ()).session = some session ∧
    ((gateway Unit Env.brief).lts.restrict (EndsUncarried Env.brief)).Run x₀ ls x ∧
    (Op.logout token).ends Env.brief x.1.world session = true ∧
    ((gateway Unit Env.brief).lts.restrict (EndsUncarried Env.brief)).step x
      ((), .transaction (.logout token)) x' ∧
    Uncarried session x' := by
  let token (n : Nat) := Text.toHex (Env.brief.randomBytes n 32)
  let check (x : Gateway × (Unit → Task)) (l : Unit × TaskStep) : Bool :=
    ((x.2 ()).transaction l.2).isNone || ((x.2 ()).session.isNone && x.1.tickets.values.isEmpty)
  let next (x : Gateway × (Unit → Task)) (l : Unit × TaskStep) :=
    if check x l then (gateway Unit Env.brief).next x l else none
  have hcheck : ∀ x l, check x l = true → EndsUncarried Env.brief x l := fun x l h =>
    endsUncarried_of_clear (by simpa [check] using h)
  obtain ⟨x₀, hx₀, hp⟩ := (gateway Unit Env.brief).reaches_checked hcheck
    (.fresh 0, fun _ => .idle) ⟨⟨0, rfl⟩, fun _ => rfl⟩
    ([.transaction (.register alice 0), .authenticate (token 1) .ticket 0, .issueTicket 50,
      .upgrade 50, .count].map fun l => ((), l))
    (fun x₀ => (x₀.2 ()).session.any fun session =>
      (LTS.exec next ([.presence 0, .subscribe, .hangUp, .count, .presence 0].map fun l => ((), l))
        x₀).any fun x => check x ((), .transaction (.logout (token 2))) &&
          ((x.2 ()).transaction (.transaction (.logout (token 2)))).isSome &&
          (Op.logout (token 2)).ends Env.brief x.1.world session) (by decide +kernel)
  simp only [Bool.and_eq_true, Option.any_eq_true] at hp
  obtain ⟨session, hsession, x, hx, ⟨hc, hidle⟩, hends⟩ := hp
  have hbefore := LTS.run_of_exec
      (M := (gateway Unit Env.brief).lts.restrict (EndsUncarried Env.brief))
      (fun y l _ y' (hnext : next y l = some y') => by
    dsimp only [next] at hnext
    split at hnext
    · exact ⟨hcheck y l ‹_›, Threads.step_of_next hnext⟩
    · cases hnext) hx
  obtain ⟨x', hstep, hop, hrun⟩ := logout_ends Env.brief (token 2) hidle
  replace hstep : ((gateway Unit Env.brief).lts.restrict (EndsUncarried Env.brief)).step x
    ((), .transaction (.logout (token 2))) x' := ⟨hcheck x _ hc, hstep⟩
  have hu : Function.Injective Env.brief.uuid := Env.numbered_injective
  have huncarried := revocation_reaches_sockets hu hx₀ hsession hbefore hstep hop hrun hends
    (.nil _)
  exact ⟨x₀, x, x', session, _, token 2, hsession, hbefore, hends, hstep, huncarried⟩

/-- The socket a loop serves. -/
def Task.socket : Task → Option Socket
  | .serving socket => some socket
  | _ => none

/-- Alice logs out and sends Bob a message on the socket she opened before. -/
theorem socket_outlives_logout : ∃ (x x' y : Gateway × (Bool → Task)) (session : TokenRecord)
    (socket : Socket) (token : String) (frame : ClientFrame),
    (gateway Bool Env.brief).lts.Reachable x ∧
    x.2 true = .serving socket ∧ socket.session = session ∧
    (Op.logout token).ends Env.brief x.1.world session = true ∧
    (gateway Bool Env.brief).lts.step x (false, .transaction (.logout token)) x' ∧
    (gateway Bool Env.brief).lts.Run x' [(true, .frame (some frame)), (true, .handle 0)] y ∧
    x'.1.world.messageAt 9 0 = none ∧ (y.1.world.messageAt 9 0).isSome = true := by
  let token (n : Nat) := Text.toHex (Env.brief.randomBytes n 32)
  let frame : ClientFrame := .sendMessage 60 9 (.text 100 "hi")
  let next := (gateway Bool Env.brief).next
  obtain ⟨x, hx, hp⟩ := gateway_reaches Env.brief
    ([(false, .transaction (.register alice 0)), (false, .transaction (.register bob 0)),
      (false, .authenticate (token 1) (.call (.sendFriendRequest 1 "bob" "" 0)) 0), (false, .call),
      (false, .authenticate (token 4) (.call (.decideFriendRequest 4 7 .accept 0)) 0),
      (false, .call), (true, .authenticate (token 1) .ticket 0), (true, .issueTicket 50),
      (true, .upgrade 50), (true, .count), (true, .presence 0), (true, .subscribe),
      (true, .welcome 0)])
    (fun x => (x.2 true).socket.any fun socket =>
      (Op.logout (token 2)).ends Env.brief x.1.world socket.session &&
      (next x (false, .transaction (.logout (token 2)))).any fun x' =>
        (x'.1.world.messageAt 9 0).isNone &&
        (LTS.exec next [(true, .frame (some frame)), (true, .handle 0)] x').any fun y =>
          (y.1.world.messageAt 9 0).isSome) (by decide +kernel)
  simp only [Bool.and_eq_true, Option.any_eq_true, Option.isNone_iff_eq_none] at hp
  obtain ⟨socket, hsocket, hends, x', hlogout, hnone, y, hy, hsent⟩ := hp
  have hserving : x.2 true = .serving socket := by
    cases ht : x.2 true <;> simp [ht, Task.socket] at hsocket
    rw [hsocket]
  exact ⟨x, x', y, _, socket, _, _, hx, hserving, rfl, hends, Threads.step_of_next hlogout,
    LTS.run_of_exec (fun _ _ _ _ h => Threads.step_of_next h) hy, hnone, hsent⟩

end IamRust
