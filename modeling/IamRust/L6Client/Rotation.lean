import IamRust.L6Client.HeldTokens

/-!
# One refresh for each token

A refresh token is sent from behind `refresh_gate`, and the next session takes
its place in memory before the gate is unlocked: so the token in memory is one
the server has not exchanged. That fails if the next session cannot be saved,
and if `restore`, which is not behind the gate yet, puts back a token that was
exchanged since it was loaded.

* `Unspent`: what holds whenever the gate is not locked.
* `refresh_single_flight`: in every run in which neither happens, no exchanged
  token is sent to the server, and no access token causes two refreshes.
* `replayed_after_failed_save`, `replayed_by_restore`: runs in which they do.
-/
namespace IamRust

open Core

/-! ## The condition -/

/-- The step replaces the session in memory behind the server's, or puts back its token. -/
def ApiTask.Replaces (env : Env) (s : ApiState) : ApiTask → ApiStep → Prop
  | .answered _ _, .next ok => ok = true
  | .posting _ _, .lose | .answered _ _, .lose => False
  | .loaded token, .next _ => s.session.refresh = some token ∨ Unrotated env token s.ledger
  | _, _ => True

/-- Nobody else presents the tokens of the session. -/
def Op.Foreign (f : Uuid) (s : Ledger) (op : Op) : Prop :=
  ∀ token, op.presents = some token → ¬ Received f token s

/-- Every answer to a refresh arrives and is saved, `restore` puts no exchanged token in memory, and
the client alone presents its tokens. -/
structure RefreshUndisturbed {ι : Type} (env : Env) (f : Uuid)
    (x : ApiState × (ApiParty ι → ApiTask)) (l : ApiParty ι × ApiStep) : Prop where
  replaced : ∀ i, l.1 = .call i → (x.2 (.call i)).Replaces env x.1 l.2
  foreign : ∀ op, l = (.others, .server op) → op.Foreign f x.1.ledger

/-! ## Behind the gate -/

/-- The tokens the client has stored are not used up. -/
structure Unspent (env : Env) (s : ApiState) : Prop where
  refresh : ∀ t, s.session.refresh = some t → Unrotated env t s.ledger
  credential : ∀ t, s.credential = some t → Unrotated env t s.ledger
  access : ∀ a, s.session.access = some a → a ∉ s.refreshed

/-- The refresh is for the access token in memory. -/
def Refresher.Current (call : Refresher) (s : ApiState) : Prop :=
  ∀ a, call.access = some a → s.session.access = some a

/-- What holds for the call that has the gate locked; from the answer to a refresh until the next
session is in memory, the tokens in memory are used up. -/
def ApiTask.Rotating (env : Env) (s : ApiState) : ApiTask → Prop
  | .requesting retry _ _ | .admitted retry _ _ _ => retry = true → Unspent env s
  | .comparing _ _ | .retrying _ => Unspent env s
  | .refreshing call => Unspent env s ∧ call.Current s
  | .posting call token => Unspent env s ∧ call.Current s ∧ Unrotated env token s.ledger
  | .answered _ session =>
    Unrotated env session.refreshToken s.ledger ∧ session.accessToken ∉ s.refreshed
  | .storing _ session =>
    Unrotated env session.refreshToken s.ledger ∧ session.accessToken ∉ s.refreshed ∧
      s.credential = some session.refreshToken
  | .dropping logout | .clearing logout => logout = false ∧ Unspent env s
  | .done logout => logout = false
  | .loggingOut _ => False
  | _ => True

/-- What the calls share. -/
structure RotationShared (env : Env) (s : ApiState) : Prop where
  unspent : s.gate = false → Unspent env s
  once : s.refreshed.Nodup
  granted : ∀ a ∈ s.refreshed, ∃ g ∈ s.ledger.grants, g.session.accessToken = a

/-- What a step leaves that is not taken behind the gate. -/
structure Beside (env : Env) (f : Uuid) (s s' : ApiState) : Prop where
  access : s'.session.access = s.session.access
  refresh : ∀ t, s'.session.refresh = some t →
    s.session.refresh = some t ∨ Unrotated env t s'.ledger
  credential : s'.credential = s.credential
  refreshed : s'.refreshed = s.refreshed
  unrotated : ∀ t, Received f t s.ledger → Unrotated env t s.ledger → Unrotated env t s'.ledger

section
variable {env : Env} {s s' : ApiState} {t t' : ApiTask} {call : ApiCall} {l : ApiStep} {ok : Bool}
  {now : DateTime} {f : Uuid} {op : Op}

theorem Unspent.beside (h : Unspent env s) (hheld : TokensHeld f s) (hb : Beside env f s s') :
    Unspent env s' where
  refresh t ht := (hb.refresh t ht).elim
    (fun ht => hb.unrotated t (hheld.refresh t ht) (h.refresh t ht)) id
  credential t ht := by
    rw [hb.credential] at ht
    exact hb.unrotated t (hheld.credential t ht) (h.credential t ht)
  access a ha := by
    rw [hb.access] at ha
    rw [hb.refreshed]
    exact h.access a ha

theorem Refresher.Current.beside {call : Refresher} (h : call.Current s)
    (hb : Beside env f s s') : call.Current s' := fun a ha => hb.access.trans (h a ha)

/-- A call relies on the others for what holds behind the gate. -/
theorem ApiTask.Rotating.beside (ht : t.Rotating env s) (hheld : TokensHeld f s)
    (htask : t.HoldsTokens f s) (hb : Beside env f s s') : t.Rotating env s' := by
  cases t with
  | requesting | admitted => exact fun hretry => (ht hretry).beside hheld hb
  | comparing | retrying => exact Unspent.beside ht hheld hb
  | refreshing => exact ⟨ht.1.beside hheld hb, ht.2.beside hb⟩
  | posting => exact ⟨ht.1.beside hheld hb, ht.2.1.beside hb, hb.unrotated _ htask ht.2.2⟩
  | answered =>
    obtain ⟨g, hg, hgf, rfl⟩ := htask
    exact ⟨hb.unrotated _ ⟨g, hg, hgf, rfl⟩ ht.1, by rw [hb.refreshed]; exact ht.2⟩
  | storing =>
    obtain ⟨g, hg, hgf, rfl⟩ := htask
    exact ⟨hb.unrotated _ ⟨g, hg, hgf, rfl⟩ ht.1, by rw [hb.refreshed]; exact ht.2.1,
      hb.credential.trans ht.2.2⟩
  | dropping | clearing => exact ⟨ht.1, ht.2.beside hheld hb⟩
  | idle | refused | loaded | restoring | done | loggingOut => exact ht

/-- Before it has the gate locked, a call needs nothing. -/
theorem ApiTask.Rotating.unlocked (ht : t.Rotating env s) (hl : t.locked = false) :
    t.Rotating env s' := by
  cases t with
  | requesting retry | admitted retry =>
    cases hl
    exact fun h => nomatch h
  | dropping logout | clearing logout =>
    cases ht.1
    cases hl
  | idle | refused | loaded | restoring | done | loggingOut => exact ht
  | comparing | retrying | refreshing | posting | answered | storing => cases hl

/-! ## The gate -/

/-- A step keeps the gate as it is, locks it or unlocks it. -/
theorem ApiTask.step_gate (h : t.step env call s l = some (s', t')) :
    (t'.locked = t.locked ∧ s'.gate = s.gate) ∨
    (t.locked = false ∧ s.gate = false ∧ t'.locked = true ∧ s'.gate = true) ∨
    (t.locked = true ∧ t'.locked = false ∧ s'.gate = false) := by
  have hfinish : ∀ (s : ApiState) (retry : Bool), (s.finish retry).gate = (s.gate && !retry) := by
    intro s retry
    cases retry <;> simp [ApiState.finish, ApiState.unlock]
  cases l with
  | next ok =>
    simp only [step, next, ApiState.lock] at h
    split at h
    case h_11 logout =>
      cases h
      cases logout
      · exact .inr (.inr ⟨rfl, rfl, rfl⟩)
      · exact .inl ⟨rfl, by cases ok <;> rfl⟩
    all_goals
      repeat' split at h
      all_goals cases h
      all_goals simp_all [locked, ApiState.unlock]
  | answer now =>
    simp only [step, answer] at h
    split at h
    case h_1 retry access request | h_2 retry access request userId =>
      repeat' split at h
      all_goals cases h
      all_goals cases retry <;> simp [locked, hfinish, refuse]
    case h_3 call token =>
      repeat' split at h
      all_goals cases h
      all_goals simp [locked, ApiState.unlock]
    case h_4 => cases h; simp [locked]
    case h_5 => cases h
  | lose =>
    simp only [step, lose] at h
    split at h <;> cases h
    case h_1 retry _ _ | h_2 retry _ _ _ => cases retry <;> simp [locked, hfinish]
    all_goals simp [locked, ApiState.unlock]
  | server op => cases h

/-! ## Steps beside the gate -/

theorem Op.presents_of_actor {u : UserId} (h : op.actor = some u) : op.presents = none := by
  cases op <;> first | rfl | cases h

theorem beside_refl (env : Env) (f : Uuid) (s : ApiState) : Beside env f s s :=
  ⟨rfl, fun _ => .inl, rfl, rfl, fun _ _ => id⟩

/-- A transaction that presents no token of the session. -/
theorem beside_commit (hh : Function.Injective (hashToken env)) (hop : op.Foreign f s.ledger)
    (gate : Bool) :
    Beside env f s { s with ledger := s.ledger.commit env op, gate := gate } where
  access := rfl
  refresh _ := .inl
  credential := rfl
  refreshed := rfl
  unrotated _ ht := Ledger.commit_unrotated fun t' hp he => hop t' hp (hh he ▸ ht)

theorem Op.foreign_of_actor {u : UserId} {w : Ledger} (h : op.actor = some u) :
    op.Foreign f w := by
  intro t hp
  rw [Op.presents_of_actor h] at hp
  cases hp

/-- **A step beside the gate.** A call that locks it finds the tokens as they were left. -/
theorem ApiTask.step_unlocked (hh : Function.Injective (hashToken env)) (hcall : call ≠ .logout)
    (hl : t.locked = false) (ht : t.Rotating env s) (hok : t.Replaces env s l)
    (h : t.step env call s l = some (s', t')) :
    Beside env f s s' ∧ ((s.gate = false → Unspent env s') → t'.Rotating env s') := by
  cases t with
  | idle =>
    cases l with
    | next ok =>
      simp only [step, next] at h
      split at h <;> split at h <;> cases h <;>
        first
          | exact absurd rfl hcall
          | exact ⟨beside_refl .., fun _ => trivial⟩
          | exact ⟨beside_refl .., fun _ => rfl⟩
          | exact ⟨beside_refl .., fun _ hl => by cases hl⟩
    | _ => cases h
  | requesting retry access request =>
    cases hl
    cases l with
    | answer now =>
      simp only [step, answer] at h
      split at h <;> cases h
      · exact ⟨beside_refl .., fun _ hl => by cases hl⟩
      · exact ⟨beside_refl .., fun _ => trivial⟩
    | lose =>
      cases h
      exact ⟨beside_refl .., fun _ => rfl⟩
    | _ => cases h
  | admitted retry access request userId =>
    cases hl
    cases l with
    | answer now =>
      simp only [step, answer] at h
      split at h
      · cases h
        exact ⟨beside_refl .., fun _ => rfl⟩
      · rename_i op hop
        have hactor : op.actor = some userId := beq_iff_eq.mp (Option.filter_eq_some_iff.mp hop).2
        have hbeside := beside_commit (s := s) hh (Op.foreign_of_actor (f := f) hactor) s.gate
        split at h <;> cases h
        · exact ⟨hbeside, fun _ => rfl⟩
        · refine ⟨hbeside, fun _ => ?_⟩
          split
          · exact trivial
          · rfl
    | lose =>
      cases h
      exact ⟨beside_refl .., fun _ => rfl⟩
    | _ => cases h
  | refused access request =>
    cases l with
    | next ok =>
      simp only [step, next, ApiState.lock] at h
      split at h <;> cases h
      rename_i hgate
      exact ⟨⟨rfl, fun _ => .inl, rfl, rfl, fun _ _ => id⟩,
        fun hs => hs (Bool.not_eq_true _ ▸ hgate)⟩
    | _ => cases h
  | loaded token =>
    cases l with
    | next ok =>
      cases h
      refine ⟨⟨rfl, fun t ht => ?_, rfl, rfl, fun _ _ => id⟩, fun _ => trivial⟩
      cases ht
      exact hok
    | _ => cases h
  | restoring =>
    cases l with
    | next ok =>
      simp only [step, next, ApiState.lock] at h
      split at h <;> cases h
      rename_i hgate
      exact ⟨⟨rfl, fun _ => .inl, rfl, rfl, fun _ _ => id⟩,
        fun hs => ⟨hs (Bool.not_eq_true _ ▸ hgate), fun _ ha => by cases ha⟩⟩
    | _ => cases h
  | dropping logout | clearing logout =>
    cases ht.1
    cases hl
  | loggingOut => exact ht.elim
  | done => cases l <;> cases h
  | comparing | retrying | refreshing | posting | answered | storing => cases hl

/-! ## Steps behind the gate -/

theorem Unspent.unlock (h : Unspent env s) : Unspent env s.unlock :=
  ⟨h.refresh, h.credential, h.access⟩

/-- The call that leaves the gate has put back what the others need. -/
theorem RotationShared.unlock (hs : RotationShared env s) (h : Unspent env s) :
    RotationShared env s.unlock :=
  ⟨fun _ => h.unlock, hs.once, hs.granted⟩

theorem RotationShared.locked (hs : RotationShared env s) (hserved : Served env s.ledger s'.ledger)
    (hrefreshed : s'.refreshed = s.refreshed) (hgate : s'.gate = true) :
    RotationShared env s' where
  unspent hfree := by
    rw [hgate] at hfree
    cases hfree
  once := by
    rw [hrefreshed]
    exact hs.once
  granted a ha := by
    rw [hrefreshed] at ha
    obtain ⟨g, hg, hga⟩ := hs.granted a ha
    exact ⟨g, hserved.granted hg, hga⟩

/-- An answer without a session uses up no token. -/
theorem Unspent.refused {e : ApplicationError} {token : String} (h : Unspent env s)
    (he : (s.ledger.refresh env token now).1 = .error e) :
    Unspent env { s with ledger := (s.ledger.refresh env token now).2 } := by
  have hsame : ∀ t, Unrotated env t s.ledger →
      Unrotated env t (s.ledger.refresh env token now).2 := fun t ht => by
    unfold Unrotated
    rw [Ledger.refresh_error he]
    exact ht
  exact ⟨fun t ht => hsame t (h.refresh t ht), fun t ht => hsame t (h.credential t ht), h.access⟩

theorem RotationShared.beside (hs : RotationShared env s) (hheld : TokensHeld f s)
    (hserved : Served env s.ledger s'.ledger) (hb : Beside env f s s')
    (hgate : s'.gate = false → s.gate = false) : RotationShared env s' where
  unspent hfree := (hs.unspent (hgate hfree)).beside hheld hb
  once := by
    rw [hb.refreshed]
    exact hs.once
  granted a ha := by
    rw [hb.refreshed] at ha
    obtain ⟨g, hg, hga⟩ := hs.granted a ha
    exact ⟨g, hserved.granted hg, hga⟩

/-- **The answer to a refresh.** Its access token is new, and that of the call was not refreshed
before. -/
theorem rotation_answered {call : Refresher} {token : String} {session : AuthenticatedSession}
    (hh : Function.Injective (hashToken env)) (hacc : Accounted env s.ledger)
    (hacc' : Accounted env (s.ledger.refresh env token now).2)
    (hfresh : Fresh env (s.ledger.refresh env token now).2.world) (hgate : s.gate = true)
    (hs : RotationShared env s) (hheld : TokensHeld f s) (htoken : Received f token s.ledger)
    (h : Unspent env s) (hcurrent : call.Current s)
    (hok : (s.ledger.refresh env token now).1 = .ok session) :
    RotationShared env { s with
      ledger := (s.ledger.refresh env token now).2
      refreshed := call.access.toList ++ s.refreshed } ∧
    Unrotated env session.refreshToken (s.ledger.refresh env token now).2 ∧
    session.accessToken ∉ call.access.toList ++ s.refreshed := by
  obtain ⟨-, hnew, hunrotated⟩ := Ledger.refresh_ok hh hacc hacc' hfresh htoken hok
  have hserved := s.ledger.refresh_served env token now
  have hgranted : ∀ a ∈ call.access.toList ++ s.refreshed,
      ∃ g ∈ s.ledger.grants, g.session.accessToken = a := by
    intro a ha
    rcases List.mem_append.mp ha with ha | ha
    · exact hheld.access a (hcurrent a (Option.mem_toList.mp ha))
    · exact hs.granted a ha
  refine ⟨⟨fun hfree => ?_, ?_, fun a ha => ?_⟩, hunrotated, fun ha => ?_⟩
  · cases hgate.symm.trans hfree
  · cases haccess : call.access with
    | none => exact hs.once
    | some a => exact List.nodup_cons.mpr ⟨h.access a (hcurrent a haccess), hs.once⟩
  · obtain ⟨g, hg, hga⟩ := hgranted a ha
    exact ⟨g, hserved.granted hg, hga⟩
  · obtain ⟨g, hg, hga⟩ := hgranted _ ha
    exact hnew g hg hga

/-- **A step behind the gate.** -/
theorem ApiTask.step_locked (hh : Function.Injective (hashToken env))
    (hacc : Accounted env s.ledger) (hacc' : Accounted env s'.ledger)
    (hfresh : Fresh env s'.ledger.world) (hl : t.locked = true) (hgate : s.gate = true)
    (hs : RotationShared env s) (hheld : TokensHeld f s) (htask : t.HoldsTokens f s)
    (ht : t.Rotating env s) (hok : t.Replaces env s l)
    (h : t.step env call s l = some (s', t')) :
    RotationShared env s' ∧ t'.Rotating env s' := by
  have hserved := step_served h
  cases t with
  | requesting retry access request =>
    cases hl
    cases l with
    | answer now =>
      simp only [step, answer] at h
      split at h <;> cases h
      · exact ⟨hs, ht⟩
      · exact ⟨hs.unlock (ht rfl), rfl⟩
    | lose =>
      cases h
      exact ⟨hs.unlock (ht rfl), rfl⟩
    | _ => cases h
  | admitted retry access request userId =>
    cases hl
    cases l with
    | answer now =>
      simp only [step, answer] at h
      split at h
      · cases h
        exact ⟨hs.unlock (ht rfl), rfl⟩
      · rename_i op hop
        have hactor : op.actor = some userId := beq_iff_eq.mp (Option.filter_eq_some_iff.mp hop).2
        have hbeside := beside_commit (s := s) hh (Op.foreign_of_actor (f := f) hactor) s.gate
        have hshared : RotationShared env { s with ledger := s.ledger.commit env op } :=
          hs.locked (s.ledger.commit_served env op) rfl hgate
        have hunlocked := hshared.unlock ((ht rfl).beside hheld hbeside)
        split at h <;> cases h
        · exact ⟨hunlocked, rfl⟩
        · refine ⟨hunlocked, ?_⟩
          split <;> rfl
    | lose =>
      cases h
      exact ⟨hs.unlock (ht rfl), rfl⟩
    | _ => cases h
  | comparing access request =>
    cases l with
    | next ok =>
      simp only [step, next] at h
      split at h <;> cases h
      · rename_i hsame
        refine ⟨hs, ht, ?_⟩
        rintro _ ⟨⟩
        exact hsame
      · exact ⟨hs, ht⟩
    | _ => cases h
  | retrying request =>
    cases l with
    | next ok =>
      simp only [step, next] at h
      split at h <;> cases h
      · exact ⟨hs.unlock ht, rfl⟩
      · exact ⟨hs, fun _ => ht⟩
    | _ => cases h
  | refreshing call =>
    cases l with
    | next ok =>
      simp only [step, next] at h
      split at h <;> cases h
      · exact ⟨hs, rfl, ht.1⟩
      · exact ⟨hs, ht.1, ht.2, ht.1.refresh _ ‹_›⟩
    | _ => cases h
  | posting call token =>
    cases l with
    | answer now =>
      simp only [step, answer] at h
      split at h
      · rename_i session hanswer
        cases h
        have hrotated := rotation_answered hh hacc hacc' hfresh hgate hs hheld htask ht.1 ht.2.1
          hanswer
        exact ⟨hrotated.1, hrotated.2⟩
      · rename_i e he
        have hunspent := ht.1.refused he
        have hshared : RotationShared env
            { s with ledger := (s.ledger.refresh env token now).2 } :=
          hs.locked (s.ledger.refresh_served env token now) rfl hgate
        split at h <;> cases h
        · exact ⟨hshared, rfl, hunspent⟩
        · exact ⟨hshared.unlock hunspent, rfl⟩
    | lose => exact hok.elim
    | _ => cases h
  | answered call session =>
    cases l with
    | next ok =>
      cases hok
      cases h
      exact ⟨hs.locked hserved rfl hgate, ht.1, ht.2, rfl⟩
    | lose => exact hok.elim
    | _ => cases h
  | storing call session =>
    cases l with
    | next ok =>
      have hunspent : Unspent env { s with session := session.tokens } := by
        refine ⟨fun t' ht' => ?_, fun t' ht' => ?_, fun a ha => ?_⟩
        · cases ht'
          exact ht.1
        · cases ht.2.2.symm.trans ht'
          exact ht.1
        · cases ha
          exact ht.2.1
      have hshared : RotationShared env { s with session := session.tokens } :=
        hs.locked (.inl rfl) rfl hgate
      simp only [step, next] at h
      split at h <;> cases h
      · exact ⟨hshared, hunspent⟩
      · exact ⟨hshared.unlock hunspent, rfl⟩
    | _ => cases h
  | dropping logout =>
    obtain ⟨rfl, hunspent⟩ := ht
    cases l with
    | next ok =>
      cases h
      exact ⟨hs.locked hserved rfl hgate, rfl, (fun _ ht => by cases ht),
        hunspent.credential, fun _ ha => by cases ha⟩
    | _ => cases h
  | clearing logout =>
    obtain ⟨rfl, hunspent⟩ := ht
    cases l with
    | next ok =>
      cases h
      refine ⟨RotationShared.unlock ?_ ?_, rfl⟩
      · cases ok <;> exact hs.locked (.inl rfl) rfl hgate
      · cases ok with
        | true => exact ⟨hunspent.refresh, (fun _ ht => by cases ht), hunspent.access⟩
        | false => exact hunspent
    | _ => cases h
  | idle | refused | loaded | restoring | loggingOut | done => cases hl

end

section
variable {ι : Type} {env : Env} {g : Grant} {call : ι → ApiCall}

/-- What a step leaves whose call has not the gate locked. -/
theorem beside_step (hh : Function.Injective (hashToken env)) (hcall : ∀ i, call i ≠ .logout)
    {x : ApiState × (ApiParty ι → ApiTask)} {p : ApiParty ι} {l : ApiStep} {s' : ApiState}
    {t' : ApiTask} (hok : RefreshUndisturbed env g.family x (p, l))
    (hl : (x.2 p).locked = false) (ht : (x.2 p).Rotating env x.1)
    (h : (apiClient env g call).step p x.1 (x.2 p) l = some (s', t')) :
    Beside env g.family x.1 s' ∧ ((x.1.gate = false → Unspent env s') → t'.Rotating env s') := by
  cases p with
  | call i => exact ApiTask.step_unlocked hh (hcall i) hl ht (hok.replaced i rfl) h
  | others =>
    cases l with
    | server op =>
      cases h
      exact ⟨beside_commit hh (hok.foreign op rfl) x.1.gate, fun _ => ht.unlocked hl⟩
    | _ => cases h

/-- What is known of a state: the tokens are those of the session, and one call at a time has the
gate locked. -/
structure RotationKnown (env : Env) (g : Grant) (x : ApiState × (ApiParty ι → ApiTask)) : Prop where
  tokens : TokensKnown env g x
  gate : Threads.Holds (fun _ => True) (fun s (t : ApiTask) => t.locked = true → s.gate = true)
    (fun t u => ¬ (t.locked = true ∧ u.locked = true)) x

variable [DecidableEq ι]

/-- **Mutual exclusion.** One call at a time has the gate locked. -/
theorem gate_inductive : ((apiClient env g call).lts.restrict fun _ _ => True).Inductive
    (Threads.Holds (fun _ => True) (fun s t => t.locked = true → s.gate = true)
      fun t u => ¬ (t.locked = true ∧ u.locked = true)) := by
  have hgate : ∀ {p s t l s' t'}, (apiClient env g call).step p s t l = some (s', t') →
      (t'.locked = t.locked ∧ s'.gate = s.gate) ∨
      (t.locked = false ∧ s.gate = false ∧ t'.locked = true ∧ s'.gate = true) ∨
      (t.locked = true ∧ t'.locked = false ∧ s'.gate = false) := by
    intro p s t l s' t' h
    cases p with
    | call i => exact ApiTask.step_gate h
    | others =>
      cases l with
      | server op =>
        cases h
        exact .inl ⟨rfl, rfl⟩
      | _ => cases h
  refine Threads.holds_inductive ?_ ?_ ?_ ?_
  · rintro x ⟨-, hidle⟩
    refine ⟨trivial, fun p => ?_, fun p q _ => ?_⟩ <;> rw [hidle] <;> simp [ApiTask.locked]
  · rintro t u h ⟨hu, ht⟩
    exact h ⟨ht, hu⟩
  · rintro x p l s' t' - - ht hstep
    refine ⟨trivial, fun hlocked => ?_⟩
    rcases hgate hstep with ⟨h, h'⟩ | ⟨-, -, -, h'⟩ | ⟨-, h, -⟩
    · exact h'.trans (ht (h ▸ hlocked))
    · exact h'
    · cases h.symm.trans hlocked
  · rintro x p l s' t' q - - - - hq hpair hstep
    rcases hgate hstep with ⟨h, h'⟩ | ⟨-, hfree, -, h'⟩ | ⟨hlocked, h, -⟩
    · rw [h, h']
      exact ⟨hq, hpair⟩
    · refine ⟨fun _ => h', fun hboth => ?_⟩
      cases hfree.symm.trans (hq hboth.2)
    · refine ⟨fun hlocked' => absurd ⟨hlocked, hlocked'⟩ hpair, fun hboth => ?_⟩
      cases h.symm.trans hboth.1

/-- **The tokens behind the gate.** No exchanged token is in the reach of a refresh. -/
theorem rotation_inductive (hu : Function.Injective env.uuid)
    (hh : Function.Injective (hashToken env)) (hcall : ∀ i, call i ≠ .logout) :
    ((apiClient env g call).lts.restrict fun x l =>
      RefreshUndisturbed env g.family x l ∧ RotationKnown env g x).Inductive
      (Threads.Holds (fun s => Fresh env s.ledger.world → RotationShared env s)
        (fun s t => Fresh env s.ledger.world → t.Rotating env s) fun _ _ => True) := by
  refine Threads.holds_inductive ?_ (fun _ _ _ => trivial) ?_ ?_
  · rintro x ⟨hx, hidle⟩
    refine ⟨fun hfresh => ⟨fun _ => ⟨fun t ht => ?_, fun t ht => ?_, fun a _ => ?_⟩, ?_, ?_⟩,
      fun p _ => by rw [hidle]; exact trivial, fun _ _ _ => trivial⟩
    · rcases hx.session with hsession | hsession <;> rw [hsession] at ht <;> cases ht
      exact hx.current
    · rw [hx.credential] at ht
      cases ht
      exact hx.current
    · rw [hx.refreshed]
      exact List.not_mem_nil
    · rw [hx.refreshed]
      exact List.nodup_nil
    · rw [hx.refreshed]
      exact nofun
  · rintro x p l s' t' ⟨hok, hx⟩ hs ht hstep
    have hserved := apiClient_served hstep
    suffices h : Fresh env s'.ledger.world → RotationShared env s' ∧ t'.Rotating env s' from
      ⟨fun hfresh => (h hfresh).1, fun hfresh => (h hfresh).2⟩
    intro hfresh'
    have hfresh := hserved.fresh hfresh'
    have hheld := hx.tokens.state hfresh
    have hacc := (ledger_accounted hu hh).reachable hx.tokens.reachable hfresh
    have hacc' := (ledger_accounted hu hh).reachable (hserved.reachable hx.tokens.reachable) hfresh'
    cases p with
    | others =>
      cases l with
      | server op =>
        cases hstep
        have hb := beside_commit (s := x.1) hh (hok.foreign op rfl) x.1.gate
        exact ⟨(hs hfresh).beside hheld hserved hb id,
          (ht hfresh).beside hheld (hx.tokens.task _ hfresh) hb⟩
      | _ => cases hstep
    | call i =>
      cases hl : (x.2 (.call i)).locked with
      | true =>
        exact ApiTask.step_locked hh hacc hacc' hfresh' hl (hx.gate.thread _ hl) (hs hfresh) hheld
          (hx.tokens.task _ hfresh) (ht hfresh) (hok.replaced i rfl) hstep
      | false =>
        obtain ⟨hb, hnext⟩ := beside_step hh hcall hok hl (ht hfresh) hstep
        refine ⟨(hs hfresh).beside hheld hserved hb fun hfree => ?_,
          hnext fun hfree => ((hs hfresh).unspent hfree).beside hheld hb⟩
        rcases ApiTask.step_gate hstep with ⟨-, h⟩ | ⟨-, h, -⟩ | ⟨h, -⟩
        · exact h ▸ hfree
        · exact h
        · cases hl.symm.trans h
  · rintro x p l s' t' q ⟨hok, hx⟩ hne hs ht hq - hstep
    refine ⟨fun hfresh' => ?_, trivial⟩
    have hfresh := (apiClient_served hstep).fresh hfresh'
    cases hl : (x.2 q).locked with
    | false => exact (hq hfresh).unlocked hl
    | true =>
      have hp : (x.2 p).locked = false := by
        by_contra hp
        exact hx.gate.pair p q hne ⟨by simpa using hp, hl⟩
      obtain ⟨hb, -⟩ := beside_step hh hcall hok hp (ht hfresh) hstep
      exact (hq hfresh).beside (hx.tokens.state hfresh) (hx.tokens.task q hfresh) hb

/-- **Single flight.** For any number of calls of `authorized_json` and `restore` and every
interleaving: as long as each answer to a refresh arrives and is saved, `restore` puts a token in
memory only if it is there already or the server has not exchanged it, and nobody else presents the
tokens, no token is on its way to `/auth/refresh` that the server has exchanged, and no access token
caused two refreshes. -/
theorem refresh_single_flight (hu : Function.Injective env.uuid)
    (hh : Function.Injective (hashToken env)) (hcall : ∀ i, call i ≠ .logout)
    {x : ApiState × (ApiParty ι → ApiTask)}
    (hx : ((apiClient env g call).lts.restrict (RefreshUndisturbed env g.family)).Reachable x)
    (hfresh : Fresh env x.1.ledger.world) :
    (∀ i r token, x.2 (.call i) = .posting r token → Unrotated env token x.1.ledger) ∧
      x.1.refreshed.Nodup := by
  have hknown : ∀ y, (apiClient env g call).lts.Reachable y → RotationKnown env g y :=
    fun y hy => ⟨(tokensKnown_inductive hu hh).reachable hy,
      gate_inductive.reachable (hy.restrict fun _ _ => trivial)⟩
  have hinv := (rotation_inductive hu hh hcall).reachable (hx.restrict_of fun _ _ hs hok =>
    ⟨hok, hknown _ hs.of_restrict⟩)
  refine ⟨fun i r token hi => ?_, (hinv.shared hfresh).once⟩
  have ht := hinv.thread (.call i) hfresh
  rw [hi] at ht
  exact ht.2.2

end

/-! ## Runs -/

/-- Two requests of Alice's client. -/
def aliceRequests (_ : Bool) : ApiCall := .authorizedJson fun _ _ => none

/-- Her client starts, twice at the same time. -/
def aliceRestores (_ : Bool) : ApiCall := .restore

/-- The condition, as far as these runs need it. -/
def refreshUndisturbed (x : ApiState × (ApiParty Bool → ApiTask)) (l : ApiParty Bool × ApiStep) :
    Bool :=
  match x.2 l.1, l.2 with
  | .answered _ _, .next ok => ok
  | .posting _ _, .lose | .answered _ _, .lose | .loaded _, .next _ | _, .server _ => false
  | _, _ => true

theorem refreshUndisturbed_of {f : Uuid} {x : ApiState × (ApiParty Bool → ApiTask)}
    {l : ApiParty Bool × ApiStep} (h : refreshUndisturbed x l = true) :
    RefreshUndisturbed Env.short f x l := by
  obtain ⟨p, l⟩ := l
  refine ⟨?_, ?_⟩
  · rintro i rfl
    unfold ApiTask.Replaces
    simp only [refreshUndisturbed] at h
    split <;> simp_all
  · intro op hop
    obtain ⟨rfl, rfl⟩ := Prod.mk.inj hop
    unfold refreshUndisturbed at h
    split at h <;> simp_all

/-- Both requests are answered 401; the session is refreshed once. -/
theorem refresh_single_flight_alice : ∃ x,
    ((apiClient Env.short aliceGrant aliceRequests).lts.restrict
      (RefreshUndisturbed Env.short aliceGrant.family)).Reachable x ∧
    x.1.ledger.grants.length = 2 ∧ x.1.refreshed.length = 1 ∧
    (∀ i r token, x.2 (.call i) = .posting r token →
      Unrotated Env.short token x.1.ledger) ∧ x.1.refreshed.Nodup := by
  obtain ⟨x, hx, hp⟩ := Threads.reaches_checked (apiClient Env.short aliceGrant aliceRequests)
    (fun x l (h : refreshUndisturbed x l = true) => refreshUndisturbed_of h)
    (aliceSignedIn, fun _ => .idle) ⟨signedIn_alice, fun _ => rfl⟩
    ((aliceRefused true).take 2 ++ aliceRefused false ++ [(.call false, .answer aliceExpires)] ++
      aliceRetries false ++ aliceRetries true)
    (fun x => x.1.ledger.grants.length == 2 && x.1.refreshed.length == 1 &&
      decide (x.1.ledger.world.nextRandom ≤ 256)) (by decide +kernel)
  simp only [Bool.and_eq_true, beq_iff_eq, decide_eq_true_eq] at hp
  obtain ⟨⟨hgrants, honce⟩, hdraws⟩ := hp
  have hcall : ∀ i, aliceRequests i ≠ .logout := fun _ h => by cases h
  exact ⟨x, hx, hgrants, honce, refresh_single_flight Env.short_injective
    Env.short_hashToken_injective hcall hx (fresh_short hdraws)⟩

/-- A token is on its way that the server has exchanged. -/
def replays (x : ApiState × (ApiParty Bool → ApiTask)) (i : Bool) : Bool :=
  match x.2 (.call i) with
  | .posting _ token =>
    (x.1.ledger.world.consumedRefreshTokens.get (hashToken Env.short token)).isSome
  | _ => false

theorem posting_of_replays {x : ApiState × (ApiParty Bool → ApiTask)} {i : Bool}
    (h : replays x i = true) : ∃ r token, x.2 (.call i) = .posting r token ∧
      ¬ Unrotated Env.short token x.1.ledger := by
  unfold replays at h
  split at h
  · rename_i r token hi
    exact ⟨r, token, hi, Option.isSome_iff_ne_none.mp h⟩
  · cases h

/-- The next session cannot be saved, so the next request answered 401 sends the old token again. -/
theorem replayed_after_failed_save : ∃ x,
    (apiClient Env.short aliceGrant aliceRequests).lts.Reachable x ∧
    ∃ r token, x.2 (.call true) = .posting r token ∧
      ¬ Unrotated Env.short token x.1.ledger := by
  obtain ⟨x, hx, hp⟩ := Threads.reaches (apiClient Env.short aliceGrant aliceRequests)
    (aliceSignedIn, fun _ => .idle) ⟨signedIn_alice, fun _ => rfl⟩
    (aliceRefused false ++ [(.call false, .answer aliceExpires), (.call false, .next false)] ++
      aliceRefused true)
    (replays · true) (by decide +kernel)
  exact ⟨x, hx, posting_of_replays hp⟩

/-- Two calls of `restore` load the same token; the second puts it back behind the first. -/
theorem replayed_by_restore : ∃ x,
    (apiClient Env.short aliceGrant aliceRestores).lts.Reachable x ∧
    ∃ r token, x.2 (.call false) = .posting r token ∧
      ¬ Unrotated Env.short token x.1.ledger := by
  obtain ⟨x, hx, hp⟩ := Threads.reaches (apiClient Env.short aliceGrant aliceRestores)
    ({ aliceSignedIn with session := .default }, fun _ => .idle)
    ⟨signedIn_aliceAgain, fun _ => rfl⟩
    ([(.call true, .next true), (.call false, .next true), (.call true, .next true),
      (.call true, .next true), (.call true, .next true), (.call true, .answer aliceExpires),
      (.call true, .next true), (.call true, .next true), (.call false, .next true),
      (.call false, .next true), (.call false, .next true)])
    (replays · false) (by decide +kernel)
  exact ⟨x, hx, posting_of_replays hp⟩

end IamRust
