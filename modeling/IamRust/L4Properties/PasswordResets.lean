import IamRust.L4Properties.AccountSteps
import IamRust.L4Properties.Families

/-!
# Password resets

`resets` is the service under a clock that does not go back, with the reset
tokens it issued and those that were used. A request for a reset drops what is
live of the user and keeps what is used or expired, so it is the table that
tells a used token from a new one, until the account is deleted.

* `ResetsTracked`: the table holds issued tokens, consumed where they were used.
* `reset_tokens_single`: at most one token of a user is live, none is used twice
  or late, and with its use every session of the user ends.
-/
namespace IamRust

open Core
open Core.Tx (failIf okOr ofExcept whenTrue whenSome forEach mapEach)

/-! ## The runs -/

/-- The time a transaction is given, if it is given one. -/
def Op.now : Op → Option DateTime
  | .logout _ | .changePassword _ _ _ | .deleteSticker _ _ | .cancelScheduledMessage _ _
  | .removeScheduledMessage _ | .setMessageFavorite _ _ _ => none
  | .register _ now | .loginWithSecondFactor _ _ now | .beginSecondFactorSetup _ now
  | .enableSecondFactor _ _ now | .disableSecondFactor _ _ _ now
  | .regenerateRecoveryCodes _ _ _ now | .pollQrLogin _ _ _ _ now | .refresh _ now
  | .revokeDevice _ _ now | .requestPasswordReset _ now | .resetPassword _ _ now
  | .setConnectionPresence _ _ now | .updateProfile _ _ _ now | .updateProfilePrivacy _ _ now
  | .deleteAccount _ _ _ now | .adminSetUserSuspended _ _ now | .adminRevokeUserSessions _ now
  | .authorizeAttachment _ _ _ _ _ now | .completeAttachment _ _ now
  | .quarantineAttachment _ _ now | .createSticker _ _ now | .cleanupExpiredAttachments now
  | .sendFriendRequest _ _ _ now | .decideFriendRequest _ _ _ now
  | .updateFriendSettings _ _ _ now | .deleteFriend _ _ now | .blockUser _ _ now
  | .unblockUser _ _ now | .reportUser _ _ _ now | .createDirect _ _ now
  | .createGroup _ _ _ now | .updateGroup _ _ _ now | .addGroupMembers _ _ _ now
  | .leaveGroup _ _ now | .disbandGroup _ _ now | .updateGroupMember _ _ _ _ now
  | .removeGroupMember _ _ _ now | .transferGroupOwnership _ _ _ now | .setGroupMute _ _ _ now
  | .createGroupAnnouncement _ _ _ now | .readGroupAnnouncement _ _ now
  | .requestToJoinGroup _ _ _ now | .decideGroupJoinRequest _ _ _ now
  | .createGroupPoll _ _ _ now | .voteGroupPoll _ _ _ now | .updateConversationSettings _ _ _ now
  | .markAllRead _ now | .markRead _ _ _ now | .scheduleMessage _ _ now
  | .sendMessageRequest _ _ _ now | .acknowledgeDelivery _ _ now | .recallMessage _ _ now
  | .reactToMessage _ _ _ _ now | .forwardMessages _ _ _ _ now => some now

/-- A token that was sent out. -/
structure IssuedReset where
  resetToken : String
  userId : UserId
  expiresAt : DateTime

structure ResetRun where
  world : World
  clock : DateTime
  issued : List IssuedReset
  used : List String

section
variable (env : Env)

def Op.issuesReset (w : World) : Op → Option IssuedReset
  | .requestPasswordReset email now =>
    (w.byEmail.get (Text.toAsciiLowercase (Text.trim email))).map fun userId =>
      ⟨tokenText env w.nextRandom, userId, now + Duration.minutes 15⟩
  | _ => none

def Op.usesReset : Op → Option String
  | .resetPassword token _ _ => some token
  | _ => none

/-- The service while time does not go back and no random token is drawn twice. -/
def resets : LTS ResetRun Op where
  init s := s.world = World.init ∧ s.issued = [] ∧ s.used = []
  step s op s' := (op.run env).Runs s.world () s'.world ∧ Fresh env s'.world ∧
    (∀ now, op.now = some now → s.clock ≤ now) ∧ s'.clock = op.now.getD s.clock ∧
    s'.issued = s.issued ++ (op.issuesReset env s.world).toList ∧
    s'.used = s.used ++ op.usesReset.toList

/-- The table holds tokens that were issued, and those that can still be used were not. -/
structure ResetsTracked (s : ResetRun) : Prop where
  issued : ∀ i ∈ s.issued, ∃ n < s.world.nextRandom, i.resetToken = tokenText env n
  distinct : (s.issued.map (·.resetToken)).Nodup
  known : ∀ k r, s.world.passwordResets.get k = some r → ∃ i ∈ s.issued,
    k = hashToken env i.resetToken ∧ r.userId = i.userId ∧ r.expiresAt = i.expiresAt ∧
      (r.consumed = false → i.resetToken ∉ s.used)
  used : ∀ t ∈ s.used, ∃ i ∈ s.issued, i.resetToken = t
  once : s.used.Nodup
  single : ∀ k₁ k₂ r₁ r₂, s.world.passwordResets.get k₁ = some r₁ →
    s.world.passwordResets.get k₂ = some r₂ → r₁.userId = r₂.userId →
    r₁.consumed = false → s.clock < r₁.expiresAt → r₂.consumed = false → s.clock < r₂.expiresAt →
    k₁ = k₂

end

section
variable {env : Env} {w w' : World}

/-! ## The three transactions -/

theorem requestPasswordReset_table {email : String} {now : DateTime}
    {delivery : Option PasswordResetDelivery}
    (h : (requestPasswordReset env email now).Runs w delivery w') :
    w'.nextRandom = w.nextRandom + 1 ∧
      delivery.map (fun d => (d.resetToken, d.expiresAt)) =
        ((Op.requestPasswordReset email now).issuesReset env w).map
          (fun i => (i.resetToken, i.expiresAt)) ∧
      w'.passwordResets = match (Op.requestPasswordReset email now).issuesReset env w with
        | none => w.passwordResets
        | some i => (w.passwordResets.retain fun _ reset =>
            reset.userId != i.userId || reset.consumed || decide (reset.expiresAt ≤ now)).insert
              (hashToken env i.resetToken) ⟨i.userId, i.expiresAt, 0, false⟩ := by
  unfold requestPasswordReset at h
  simp only [check_bind_runs, Tx.runs_bind (t := randomToken env), randomToken_runs,
    Tx.runs_get_bind] at h
  obtain ⟨-, _, _, ⟨rfl, rfl⟩, h⟩ := h
  simp only [Tx.runs_bind, Tx.runs_whenSome, update_runs, Tx.runs_pure] at h
  obtain ⟨_, _, hwrite, rfl, rfl⟩ := h
  rcases hwrite with ⟨userId, huser, _, _, rfl, rfl⟩ | ⟨hnone, rfl⟩
  · have hissued : (Op.requestPasswordReset email now).issuesReset env w =
        some ⟨tokenText env w.nextRandom, userId, now + Duration.minutes 15⟩ :=
      congrArg (Option.map _) huser
    rw [hissued, huser]
    exact ⟨rfl, rfl, rfl⟩
  · have hissued : (Op.requestPasswordReset email now).issuesReset env w = none :=
      congrArg (Option.map _) hnone
    rw [hissued, hnone]
    exact ⟨rfl, rfl, rfl⟩

theorem resetPassword_table {token newPassword : String} {now : DateTime} {x : Unit}
    (h : (resetPassword env token newPassword now).Runs w x w') :
    ∃ reset, w.passwordResets.get (hashToken env token) = some reset ∧ reset.consumed = false ∧
      now < reset.expiresAt ∧ w'.passwordResets = w.passwordResets.insert (hashToken env token)
        { reset with attempts := nextAttempt reset.attempts, consumed := true } := by
  unfold resetPassword at h
  simp only [check_bind_runs, Tx.runs_bind (t := hashPassword env _), hashPassword_runs,
    Tx.runs_get_bind, Tx.runs_okOr_bind, Tx.runs_failIf_bind, update_bind_runs] at h
  obtain ⟨-, _, _, ⟨-, rfl⟩, reset, hreset, hvalid, account, -, h⟩ := h
  simp only [not_or, Bool.not_eq_true, Int.not_le] at hvalid
  have hsame := (Tx.Keeps.runs (R := Evolves [.accessTokens, .refreshTokens, .devices]) h).same
    .passwordResets (by decide)
  exact ⟨reset, hreset, hvalid.1, hvalid.2.1, hsame⟩

/-- Every other transaction at most drops records. -/
theorem Op.resets_kept {op : Op} (hr : (op.run env).Runs w () w')
    (hrequest : ∀ email now, op ≠ .requestPasswordReset email now)
    (huse : ∀ token newPassword now, op ≠ .resetPassword token newPassword now) {k : String}
    {r : PasswordResetRecord} (h : w'.passwordResets.get k = some r) :
    w.passwordResets.get k = some r := by
  have hother : Field.passwordResets ∉ op.touches ++ logFields → w.passwordResets.get k = some r :=
    fun hf => by rw [← show w'.passwordResets = w.passwordResets from Op.same hr hf, h]
  cases op
  case requestPasswordReset email now => exact absurd rfl (hrequest email now)
  case resetPassword token newPassword now => exact absurd rfl (huse token newPassword now)
  case deleteAccount =>
    obtain ⟨_, hr⟩ := Tx.runs_void.mp hr
    rw [(deleteAccount_deletes hr).passwordResets] at h
    exact Map.get_of_retain h
  all_goals exact hother (by dsimp only [Op.touches]; decide)

/-! ## The invariant -/

/-- The digest of a token is that of one token. -/
theorem ResetsTracked.record {s : ResetRun} (h : ResetsTracked env s)
    (hh : Function.Injective (hashToken env)) {token : String} {r : PasswordResetRecord}
    (hr : s.world.passwordResets.get (hashToken env token) = some r) :
    ∃ i ∈ s.issued, i.resetToken = token ∧ r.userId = i.userId ∧ r.expiresAt = i.expiresAt ∧
      (r.consumed = false → token ∉ s.used) := by
  obtain ⟨i, hi, hk, hu, he, hnew⟩ := h.known _ r hr
  cases hh hk
  exact ⟨i, hi, rfl, hu, he, hnew⟩

/-- Records may go, and time may pass. -/
theorem ResetsTracked.kept {s s' : ResetRun} (h : ResetsTracked env s)
    (hdraws : s.world.nextRandom ≤ s'.world.nextRandom) (hclock : s.clock ≤ s'.clock)
    (hissued : s'.issued = s.issued) (hused : s'.used = s.used)
    (htable : ∀ k r, s'.world.passwordResets.get k = some r →
      s.world.passwordResets.get k = some r) : ResetsTracked env s' where
  issued i hi := by
    obtain ⟨n, hn, ht⟩ := h.issued i (hissued ▸ hi)
    exact ⟨n, by omega, ht⟩
  distinct := hissued ▸ h.distinct
  known k r hr := by
    rw [hissued, hused]
    exact h.known k r (htable k r hr)
  used t ht := by
    rw [hissued]
    exact h.used t (hused ▸ ht)
  once := hused ▸ h.once
  single k₁ k₂ r₁ r₂ h₁ h₂ huser hc₁ he₁ hc₂ he₂ :=
    h.single k₁ k₂ r₁ r₂ (htable k₁ r₁ h₁) (htable k₂ r₂ h₂) huser hc₁
      (Int.lt_of_le_of_lt hclock he₁) hc₂ (Int.lt_of_le_of_lt hclock he₂)

/-- A new token takes the place of what was live of the user. -/
theorem ResetsTracked.request {s s' : ResetRun} (h : ResetsTracked env s) {email : String}
    {now : DateTime} {delivery : Option PasswordResetDelivery} (hclock : s.clock ≤ now)
    (hnow : s'.clock = now)
    (hfresh : Fresh env s'.world)
    (hissued : s'.issued = s.issued ++
      ((Op.requestPasswordReset email now).issuesReset env s.world).toList)
    (hused : s'.used = s.used)
    (hr : (requestPasswordReset env email now).Runs s.world delivery s'.world) :
    ResetsTracked env s' := by
  obtain ⟨hdraws, -, htable⟩ := requestPasswordReset_table hr
  cases hnew : (Op.requestPasswordReset email now).issuesReset env s.world with
  | none =>
    rw [hnew] at hissued htable
    refine h.kept (by omega) (hnow ▸ hclock) (by simpa using hissued) hused fun k r hk => ?_
    rw [← hk, htable]
  | some i =>
    rw [hnew] at hissued htable
    dsimp only [Option.toList] at hissued htable
    have htoken : i.resetToken = tokenText env s.world.nextRandom := by
      obtain ⟨_, -, rfl⟩ := Option.map_eq_some_iff.mp hnew
      rfl
    -- the token is none of those before
    have hother : ∀ j ∈ s.issued, j.resetToken ≠ i.resetToken := by
      intro j hj he
      obtain ⟨n, hn, ht⟩ := h.issued j hj
      have := hfresh n s.world.nextRandom (by omega) (by omega)
        (ht.symm.trans (he.trans htoken))
      omega
    have hold : ∀ k r, s'.world.passwordResets.get k = some r → k ≠ hashToken env i.resetToken →
        s.world.passwordResets.get k = some r ∧
          (r.userId = i.userId → r.consumed = true ∨ r.expiresAt ≤ now) := by
      intro k r hk hne
      rw [htable, Map.get_insert_ne hne, Map.get_retain, Option.filter_eq_some_iff] at hk
      refine ⟨hk.1, fun he => ?_⟩
      simpa [he] using hk.2
    constructor
    case issued =>
      intro j hj
      rw [hissued, List.mem_append, List.mem_singleton] at hj
      rcases hj with hj | rfl
      · obtain ⟨n, hn, ht⟩ := h.issued j hj
        exact ⟨n, by omega, ht⟩
      · exact ⟨_, by omega, htoken⟩
    case distinct =>
      rw [hissued, List.map_append, List.map_singleton]
      refine List.nodup_append.mpr ⟨h.distinct, List.nodup_singleton _, ?_⟩
      rintro t ht _ (_ | ⟨_, ⟨⟩⟩) rfl
      obtain ⟨j, hj, he⟩ := List.mem_map.mp ht
      exact hother j hj he
    case known =>
      intro k r hk
      rw [hissued, hused]
      by_cases hself : k = hashToken env i.resetToken
      · rw [hself, htable, Map.get_insert_self] at hk
        cases hk
        refine ⟨i, by simp, hself, rfl, rfl, fun _ hmem => ?_⟩
        obtain ⟨j, hj, he⟩ := h.used _ hmem
        exact hother j hj he
      · obtain ⟨j, hj, hk, hrest⟩ := h.known k r (hold k r hk hself).1
        exact ⟨j, List.mem_append_left _ hj, hk, hrest⟩
    case used =>
      intro t ht
      rw [hused] at ht
      obtain ⟨j, hj, he⟩ := h.used t ht
      exact ⟨j, hissued ▸ List.mem_append_left _ hj, he⟩
    case once => exact hused ▸ h.once
    case single =>
      intro k₁ k₂ r₁ r₂ h₁ h₂ huser hc₁ he₁ hc₂ he₂
      rw [hnow] at he₁ he₂
      -- a record of before that is live is of another user
      have hlive : ∀ k r, s'.world.passwordResets.get k = some r → k ≠ hashToken env i.resetToken →
          r.consumed = false → now < r.expiresAt → r.userId ≠ i.userId := by
        intro k r hk hne hc he hsame
        rcases (hold k r hk hne).2 hsame with hc' | he'
        · simp [hc] at hc'
        · exact absurd he' (Int.not_le.mpr he)
      have hself : ∀ r, s'.world.passwordResets.get (hashToken env i.resetToken) = some r →
          r.userId = i.userId := by
        intro r hk
        rw [htable, Map.get_insert_self] at hk
        cases hk
        rfl
      by_cases hs₁ : k₁ = hashToken env i.resetToken <;>
        by_cases hs₂ : k₂ = hashToken env i.resetToken
      · rw [hs₁, hs₂]
      · exact absurd (huser.symm.trans (hself r₁ (hs₁ ▸ h₁))) (hlive k₂ r₂ h₂ hs₂ hc₂ he₂)
      · exact absurd (huser.trans (hself r₂ (hs₂ ▸ h₂))) (hlive k₁ r₁ h₁ hs₁ hc₁ he₁)
      · exact h.single k₁ k₂ r₁ r₂ (hold k₁ r₁ h₁ hs₁).1 (hold k₂ r₂ h₂ hs₂).1 huser hc₁
          (Int.lt_of_le_of_lt hclock he₁) hc₂ (Int.lt_of_le_of_lt hclock he₂)

/-- The token is used up. -/
theorem ResetsTracked.use (hh : Function.Injective (hashToken env)) {s s' : ResetRun}
    (h : ResetsTracked env s) {token newPassword : String} {now : DateTime} {x : Unit}
    (hdraws : s.world.nextRandom ≤ s'.world.nextRandom) (hclock : s.clock ≤ s'.clock)
    (hissued : s'.issued = s.issued) (hused : s'.used = s.used ++ [token])
    (hr : (resetPassword env token newPassword now).Runs s.world x s'.world) :
    ResetsTracked env s' := by
  obtain ⟨reset, hreset, hnew, -, htable⟩ := resetPassword_table hr
  obtain ⟨i, hi, rfl, huser, hexpires, hunused⟩ := h.record hh hreset
  have hold : ∀ k r, s'.world.passwordResets.get k = some r → r.consumed = false →
      k ≠ hashToken env i.resetToken ∧ s.world.passwordResets.get k = some r := by
    intro k r hk hc
    rw [htable, Map.get_insert] at hk
    split at hk
    · cases hk
      cases hc
    · exact ⟨‹_›, hk⟩
  constructor
  case issued =>
    intro j hj
    obtain ⟨n, hn, ht⟩ := h.issued j (hissued ▸ hj)
    exact ⟨n, by omega, ht⟩
  case distinct => exact hissued ▸ h.distinct
  case known =>
    intro k r hk
    rw [hissued]
    by_cases hc : r.consumed = false
    · obtain ⟨hne, hk⟩ := hold k r hk hc
      obtain ⟨j, hj, rfl, hu, he, hunused⟩ := h.known k r hk
      refine ⟨j, hj, rfl, hu, he, fun _ hmem => ?_⟩
      rw [hused, List.mem_append, List.mem_singleton] at hmem
      rcases hmem with hmem | hmem
      · exact hunused hc hmem
      · exact hne (by rw [hmem])
    · rw [htable, Map.get_insert] at hk
      split at hk
      · cases hk
        exact ⟨i, hi, ‹_›, huser, hexpires, nofun⟩
      · obtain ⟨j, hj, hk, hu, he, -⟩ := h.known k r hk
        exact ⟨j, hj, hk, hu, he, fun hc' => absurd hc' hc⟩
  case used =>
    intro t ht
    rw [hissued]
    rw [hused, List.mem_append, List.mem_singleton] at ht
    rcases ht with ht | rfl
    · exact h.used t ht
    · exact ⟨i, hi, rfl⟩
  case once =>
    rw [hused]
    refine List.nodup_append.mpr ⟨h.once, List.nodup_singleton _, ?_⟩
    rintro t ht _ (_ | ⟨_, ⟨⟩⟩) rfl
    exact hunused hnew ht
  case single =>
    intro k₁ k₂ r₁ r₂ h₁ h₂ hsame hc₁ he₁ hc₂ he₂
    exact h.single k₁ k₂ r₁ r₂ (hold k₁ r₁ h₁ hc₁).2 (hold k₂ r₂ h₂ hc₂).2 hsame hc₁
      (Int.lt_of_le_of_lt hclock he₁) hc₂ (Int.lt_of_le_of_lt hclock he₂)

theorem resetsTracked_inductive (hh : Function.Injective (hashToken env)) :
    (resets env).Inductive (ResetsTracked env) where
  init := by
    rintro ⟨_, clock, _, _⟩ ⟨rfl, rfl, rfl⟩
    refine ⟨nofun, List.nodup_nil, fun k r hr => ?_, nofun, List.nodup_nil, fun k₁ _ r₁ _ hr => ?_⟩
    all_goals cases (Map.get_empty _).symm.trans hr
  step := by
    rintro s op s' h ⟨hr, hfresh, htime, hclock, hissued, hused⟩
    have hdraws : s.world.nextRandom ≤ s'.world.nextRandom := ((op.evolves env).runs hr).randoms
    have hle : s.clock ≤ s'.clock := by
      rw [hclock]
      cases hnow : op.now with
      | none => exact Int.le_refl _
      | some now => exact htime now hnow
    have hother : op.issuesReset env s.world = none → op.usesReset = none →
        (∀ email now, op ≠ .requestPasswordReset email now) →
        (∀ token newPassword now, op ≠ .resetPassword token newPassword now) →
        ResetsTracked env s' := by
      intro hnone hnone' hrequest huse
      rw [hnone] at hissued
      rw [hnone'] at hused
      exact h.kept hdraws hle (hissued.trans (List.append_nil _))
        (hused.trans (List.append_nil _)) fun k r hk =>
        Op.resets_kept hr hrequest huse hk
    cases op
    case requestPasswordReset email now =>
      obtain ⟨_, hr⟩ := Tx.runs_void.mp hr
      exact h.request (htime now rfl) hclock hfresh hissued (hused.trans (List.append_nil _)) hr
    case resetPassword token newPassword now =>
      obtain ⟨_, hr⟩ := Tx.runs_void.mp hr
      exact h.use hh hdraws hle (hissued.trans (List.append_nil _)) hused hr
    all_goals exact hother rfl rfl nofun nofun

/-- What the use of a token leaves of the sessions of the user. -/
theorem resetPassword_revokes {token newPassword : String} {now : DateTime} {x : Unit}
    {reset : PasswordResetRecord} (hreset : w.passwordResets.get (hashToken env token) = some reset)
    (h : (resetPassword env token newPassword now).Runs w x w') :
    (∀ k r, w'.accessTokens.get k = some r → r.userId = reset.userId → r.revoked = true) ∧
    ∀ k r, w'.refreshTokens.get k = some r → r.userId = reset.userId → r.revoked = true := by
  obtain ⟨reset', hreset', -, hstep⟩ := resetPassword_effect h
  cases hreset.symm.trans hreset'
  have hrevoked : ∀ (m : Map String TokenRecord) k r,
      (m.mapValues (revokeIf fun r => r.userId == reset.userId)).get k = some r →
      r.userId = reset.userId → r.revoked = true := by
    intro m k r hr huser
    rw [Map.get_mapValues] at hr
    obtain ⟨r₀, -, rfl⟩ := Option.map_eq_some_iff.mp hr
    unfold revokeIf at huser ⊢
    split
    · rfl
    · rename_i hne
      rw [if_neg hne] at huser
      exact absurd (beq_iff_eq.mpr huser) hne
  exact ⟨fun k r hr => hrevoked _ k r (hstep.access ▸ hr),
    fun k r hr => hrevoked _ k r (hstep.refresh ▸ hr)⟩

end

/-- **Reset tokens are single, and single-use.** In every run in which time does not go back and
random tokens are distinct: of two live tokens of a user, now or later, there is one; no token is
used twice; a use is of a token that was issued, before it expires, and it leaves the user without
an access token that is authenticated and without a refresh token that is exchanged. -/
theorem reset_tokens_single (env : Env) (hh : Function.Injective (hashToken env)) (s : ResetRun)
    (hs : (resets env).Reachable s) :
    (∀ t, s.clock ≤ t → ∀ k₁ k₂ r₁ r₂, s.world.passwordResets.get k₁ = some r₁ →
      s.world.passwordResets.get k₂ = some r₂ → r₁.userId = r₂.userId →
      r₁.consumed = false → t < r₁.expiresAt → r₂.consumed = false → t < r₂.expiresAt → k₁ = k₂) ∧
    s.used.Nodup ∧
    ∀ token newPassword now x w', (resetPassword env token newPassword now).Runs s.world x w' →
      token ∉ s.used ∧ (∀ i ∈ s.issued, i.resetToken = token → now < i.expiresAt) ∧
      ∃ i ∈ s.issued, i.resetToken = token ∧
        (∀ text now' x, authenticateIdentity env w'.toStore text now' = .ok x → x.1 ≠ i.userId) ∧
        ∀ text r, w'.refreshTokens.get (hashToken env text) = some r → r.userId = i.userId →
          ∀ now' session w'', ¬ (refresh env text now').Runs w' (.ok session) w'' := by
  have h := (resetsTracked_inductive hh).reachable hs
  refine ⟨fun t ht k₁ k₂ r₁ r₂ h₁ h₂ huser hc₁ he₁ hc₂ he₂ => ?_, h.once, ?_⟩
  · exact h.single k₁ k₂ r₁ r₂ h₁ h₂ huser hc₁ (Int.lt_of_le_of_lt ht he₁) hc₂
      (Int.lt_of_le_of_lt ht he₂)
  intro token newPassword now x w' hr
  obtain ⟨reset, hreset, hunused, hlive, -⟩ := resetPassword_table hr
  obtain ⟨i, hi, rfl, huser, hexpires, hnew⟩ := h.record hh hreset
  obtain ⟨haccess, hrefresh⟩ := resetPassword_revokes hreset hr
  refine ⟨hnew hunused, fun j hj he => ?_, i, hi, rfl, fun text now' x hx heq => ?_, ?_⟩
  · rw [List.inj_on_of_nodup_map h.distinct hj hi he, ← hexpires]
    exact hlive
  · obtain ⟨r, hget, rfl, hrev, -⟩ := authenticateIdentity_ok.mp hx
    rw [haccess _ r hget (heq.trans huser.symm)] at hrev
    cases hrev
  · intro text r hget hr' now' session w'' hrun
    rcases refresh_effect hrun with ⟨_, -, he, -⟩ | ⟨r', i', profile, -, -, -, hnext, -⟩
    · cases he
    · obtain ⟨key, r', hused, -, hget', hrev, -⟩ := hnext
      obtain ⟨rfl, -⟩ := Prod.mk.inj (Option.some.inj hused)
      cases hget.symm.trans hget'
      rw [hrefresh _ r hget (hr'.trans huser.symm)] at hrev
      cases hrev

/-- Alice asks for a reset and uses the token. -/
theorem reset_tokens_single_alice : ∃ s w',
    (resets Env.short).Reachable s ∧
    (resetPassword Env.short (tokenText Env.short 3) "Passw0rd456" 0).Runs s.world () w' ∧
    tokenText Env.short 3 ∉ s.used ∧
    ∃ i ∈ s.issued, i.resetToken = tokenText Env.short 3 ∧
      ∀ text now x, authenticateIdentity Env.short w'.toStore text now = .ok x →
        x.1 ≠ i.userId := by
  let use := resetPassword Env.short (tokenText Env.short 3) "Passw0rd456" 0
  let next (s : ResetRun) (op : Op) : Option ResetRun :=
    match op.run Env.short s.world with
    | .error _ => none
    | .ok (_, w) =>
      if w.nextRandom ≤ 256 ∧ op.now.all (s.clock ≤ ·) then
        some ⟨w, op.now.getD s.clock, s.issued ++ (op.issuesReset Env.short s.world).toList,
          s.used ++ op.usesReset.toList⟩
      else none
  have hnext : ∀ s, ∀ op ∈ [Op.register alice 0, .requestPasswordReset "alice@example.com" 0],
      ∀ s', next s op = some s' → (resets Env.short).step s op s' := by
    intro s op _ s' h
    dsimp only [next] at h
    split at h
    · cases h
    · rename_i w hr
      split at h
      · rename_i hok
        cases h
        exact ⟨hr, fresh_short hok.1, fun now hnow => by simpa [hnow] using hok.2, rfl, rfl, rfl⟩
      · cases h
  obtain ⟨s, hs, hp⟩ := LTS.reaches_of_exec (M := resets Env.short)
    (s := ⟨World.init, 0, [], []⟩) ⟨rfl, rfl, rfl⟩ _ hnext
    (fun s => (use s.world).toOption.isSome) (by decide +kernel)
  cases hr : use s.world with
  | error e => simp [hr, Except.toOption] at hp
  | ok r =>
    have hr : use.Runs s.world () r.2 := hr
    obtain ⟨hnew, -, i, hi, htoken, haccess, -⟩ := (reset_tokens_single Env.short
      Env.short_hashToken_injective s hs).2.2 _ _ _ _ _ hr
    exact ⟨s, r.2, hs, hr, hnew, i, hi, htoken, haccess⟩

end IamRust
