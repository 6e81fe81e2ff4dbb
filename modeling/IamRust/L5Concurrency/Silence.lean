import IamRust.L5Concurrency.Gateway

/-!
# Suspended users

A suspended user cannot authenticate, but suspension only revokes tokens and
devices. What was authenticated before goes on: an open socket or a ticket for
one, a request on its way to the lock, a scheduled message.

* `suspended_is_silent`: no message of a suspended user is stored, in the runs
  in which a user is suspended only when there is nothing of the kind.
* `suspended_is_heard`: the delivery worker sends the message of a suspended
  user.
-/
namespace IamRust

open Core

/-- Nothing that the tasks share speaks for the user: no scheduled message, no ticket. -/
structure Gateway.Hushed (u : UserId) (g : Gateway) : Prop where
  scheduled : NoneScheduled u g.world
  tickets : ∀ k value, g.tickets.get k = some value → g.clock < value.expiresAt →
    value.userId ≠ u

/-- Nothing may still speak for the user. -/
structure Quiet {ι : Type} (u : UserId) (x : Gateway × (ι → Task)) : Prop where
  shared : x.1.Hushed u
  tasks : ∀ i, ¬ (x.2 i).SpeaksFor u

/-- A user is suspended when nothing may still speak for them. -/
def SuspendsQuietly {ι : Type} (x : Gateway × (ι → Task)) (l : ι × TaskStep) : Prop :=
  ∀ u now, l.2 = .transaction (.adminSetUserSuspended u true now) → Quiet u x

section
variable {env : Env} {g g' : Gateway} {t t' : Task} {l : TaskStep}

/-- The transaction of a request is one of the session's user. -/
def Task.Own (t : Task) : Prop :=
  ∀ session op, t = .requesting session (.call op) → op.actor = some session.userId

theorem public_not_speaks {op : Op} (h : op.isPublic = true) : op.speaks = false := by
  cases op <;> first | rfl | cases h

/-- Only a task that speaks for the actor runs a transaction that may store messages. -/
theorem Task.Performs.speaksFor {op : Op} (h : t.Performs op l) (hown : t.Own)
    (hop : op.speaks = true) : ∃ u, op.actor = some u ∧ t.SpeaksFor u := by
  unfold Task.Performs at h
  split at h
  · obtain ⟨rfl, hpublic⟩ := h
    rw [public_not_speaks hpublic] at hop
    cases hop
  · subst h
    exact ⟨_, hown _ _ rfl, rfl, hop⟩
  · exact ⟨_, h, rfl⟩
  · subst h
    cases hop
  · subst h
    cases hop
  · subst h
    exact ⟨_, rfl, _, List.mem_cons_self, rfl⟩
  · subst h
    cases hop
  · exact h.elim

set_option synthInstance.maxSize 1000000000000 in
/-- A transaction that does not speak stores and schedules nothing. -/
theorem Op.silent_of_not_speaks {op : Op} {w w' : World} (h : (op.run env).Runs w () w')
    (hop : op.speaks = false) (u : UserId) :
    Silent u w w' ∧ (NoneScheduled u w → NoneScheduled u w') := by
  refine ⟨?_, fun hw m hm => ?_⟩
  · cases op <;> simp only [Op.speaks, reduceCtorEq] at hop <;> dsimp only [Op.run] at h <;>
      exact Tx.Keeps.runs (R := Silent u) h
  · rcases Op.scheduled h with hsub | ⟨_, _, _, rfl, -⟩
    · exact hw m (hsub hm)
    · cases hop

/-- A transaction of a task that does not speak for the user. -/
theorem performs_silent {op : Op} {u : UserId} (hrun : (op.run env).Runs g.world () g'.world)
    (hop : t.Performs op l) (hown : t.Own) (hu : ¬ t.SpeaksFor u) :
    Silent u g.world g'.world ∧ (NoneScheduled u g.world → NoneScheduled u g'.world) := by
  cases hspeaks : op.speaks with
  | false => exact Op.silent_of_not_speaks hrun hspeaks u
  | true =>
    obtain ⟨v, hv, hfor⟩ := hop.speaksFor hown hspeaks
    have hne : op.actor ≠ some u := by
      rw [hv]
      rintro ⟨⟩
      exact hu hfor
    exact ⟨Op.silent hrun hne, Op.noneScheduled hrun hne⟩

/-- The administrator acts in a transaction of no session. -/
theorem Task.Performs.admin {u : UserId} {now : DateTime}
    (h : t.Performs (.adminSetUserSuspended u true now) l) (hown : t.Own) :
    l = .transaction (.adminSetUserSuspended u true now) := by
  unfold Task.Performs at h
  split at h
  · rw [h.1]
  · subst h
    cases hown _ _ rfl
  all_goals cases h

/-- A user is suspended by the administrator, or was before. -/
theorem suspended_before (h : Advances env g t l g' t') (hown : t.Own) {u : UserId}
    (hu : Suspended u g'.world) :
    Suspended u g.world ∨ ∃ now, l = .transaction (.adminSetUserSuspended u true now) := by
  cases h with
  | quiet hworld =>
    rw [hworld] at hu
    exact .inl hu
  | @ran _ _ _ _ op hrun hop =>
    by_contra hnot
    obtain ⟨hbefore, hadmin⟩ := not_or.mp hnot
    refine not_suspended.mpr (Op.unsuspended hrun ?_ (not_suspended.mp hbefore)) hu
    rintro now rfl
    exact hadmin ⟨now, hop.admin hown⟩
  | authenticated => exact .inl hu
  | issued => exact .inl hu
  | upgraded => exact .inl hu
  | expired => exact .inl hu
  | due => exact .inl hu

/-! ## The invariant -/

def Gateway.Calm (g : Gateway) : Prop := ∀ u, Suspended u g.world → g.Hushed u

structure Task.Calm (g : Gateway) (t : Task) : Prop where
  own : t.Own
  silent : ∀ u, Suspended u g.world → ¬ t.SpeaksFor u

theorem Advances.own (h : Advances env g t l g' t') (hown : t.Own) : t'.Own := by
  intro session op he
  cases h with
  | quiet _ _ _ htask => exact hown _ _ ((htask.call _ _ he).trans he)
  | ran _ _ _ _ htask => exact hown _ _ ((htask.call _ _ he).trans he)
  | @authenticated _ request _ userId _ _ hok hsession hadmits =>
    injection he with hs hr
    subst hs hr
    obtain ⟨r, hr, hid, -⟩ := authenticateIdentity_ok.mp hok
    cases hsession.symm.trans hr
    cases hid
    simpa [Request.admits] using hadmits
  | issued => cases he
  | upgraded => cases he
  | expired => cases he
  | due => cases he

theorem Task.SpeaksFor.requesting {session : TokenRecord} {request : Request} {u : UserId}
    (h : (Task.requesting session request).SpeaksFor u) : session.userId = u := by
  cases request with
  | call op => exact h.1
  | ticket => exact h

/-- A task that does not speak for the user leaves it so. -/
theorem Advances.hushed (h : Advances env g t l g' t') (hown : t.Own) {u : UserId}
    (hstanding : ∀ accessToken request now, l = .authenticate accessToken request now →
      ¬ InGoodStanding u g.world) (hspeaks : ¬ t.SpeaksFor u) (hg : g.Hushed u) :
    g'.Hushed u ∧ ¬ t'.SpeaksFor u ∧ Silent u g.world g'.world := by
  have htickets : ∀ k value, g'.tickets.get k = some value → g'.clock < value.expiresAt →
      value.userId ≠ u := by
    intro k value hget hlive
    rcases h.ticket_source hget with hget | ⟨rfl, huser⟩
    · exact hg.tickets k value hget (Nat.lt_of_le_of_lt h.clock_le hlive)
    · exact huser ▸ hspeaks
  cases h with
  | quiet hworld _ _ htask =>
    exact ⟨⟨hworld ▸ hg.scheduled, htickets⟩, fun h => hspeaks (htask.speaks u h),
      hworld ▸ refl _⟩
  | ran hrun hop _ _ htask =>
    obtain ⟨hsilent, hscheduled⟩ := performs_silent hrun hop hown hspeaks
    exact ⟨⟨hscheduled hg.scheduled, htickets⟩, fun h => hspeaks (htask.speaks u h), hsilent⟩
  | authenticated hok hsession hadmits =>
    refine ⟨hg, fun h => hstanding _ _ _ rfl ?_, refl _⟩
    obtain ⟨r, hr, -, -, -, -, a, ha, hstands⟩ := authenticateIdentity_ok.mp hok
    cases hsession.symm.trans hr
    exact ⟨a, h.requesting ▸ ha, hstands⟩
  | issued => exact ⟨⟨hg.scheduled, htickets⟩, fun h => h, refl _⟩
  | upgraded hget hlive =>
    exact ⟨⟨hg.scheduled, htickets⟩, hg.tickets _ _ hget hlive, refl _⟩
  | expired => exact ⟨⟨hg.scheduled, htickets⟩, fun h => h, refl _⟩
  | due =>
    refine ⟨hg, ?_, refl _⟩
    rintro ⟨m, hm, hu⟩
    exact hg.scheduled m (List.mem_of_mem_filter hm) hu

end

/-! ## Every run -/

section
variable {ι : Type} {env : Env} {u : UserId} {x x' : Gateway × (ι → Task)}

/-- Suspended users were suspended before, or nothing speaks for them. -/
theorem suspended_or_quiet {i : ι} {l : TaskStep} {g' : Gateway} {t' : Task}
    (hok : SuspendsQuietly x (i, l)) (h : Advances env x.1 (x.2 i) l g' t') (hown : (x.2 i).Own)
    (hu : Suspended u g'.world) : Suspended u x.1.world ∨ Quiet u x := by
  rcases suspended_before h hown hu with hu | ⟨now, rfl⟩
  · exact .inl hu
  · exact .inr (hok u now rfl)

/-- Whoever is suspended cannot authenticate, and the administrator's step is no attempt to. -/
theorem not_authenticated {l : TaskStep} {w : World}
    (hu : Suspended u w ∨ ∃ now, l = .transaction (.adminSetUserSuspended u true now))
    (accessToken : String) (request : Request) (now : DateTime)
    (hl : l = .authenticate accessToken request now) : ¬ InGoodStanding u w := by
  rintro ⟨a, ha, -, hs⟩
  rcases hu with ⟨b, hb, hsus⟩ | ⟨_, rfl⟩
  · cases ha.symm.trans hb
    rw [hs] at hsus
    cases hsus
  · cases hl

variable [DecidableEq ι]

theorem calm_inductive : ((gateway ι env).lts.restrict SuspendsQuietly).Inductive
    (Threads.Holds Gateway.Calm Task.Calm fun _ _ => True) := by
  refine Threads.holds_inductive (fun x hx => ?_) (fun _ _ h => h) ?_ ?_
  · obtain ⟨⟨clock, hg⟩, hidle⟩ := hx
    refine ⟨fun u hu => ?_, fun i => ?_, fun _ _ _ => trivial⟩
    · rw [hg] at hu
      obtain ⟨a, ha, -⟩ := hu
      cases ha
    · rw [hidle i]
      exact ⟨fun _ _ h => (nomatch h), fun _ _ h => h⟩
  · intro x i l g' t' hok hI hL hstep
    have h := advances_of_step hstep
    have hcalm : ∀ u, Suspended u g'.world → g'.Hushed u ∧ ¬ t'.SpeaksFor u := by
      intro u hu
      have hbefore := suspended_before h hL.own hu
      obtain ⟨hg, ht⟩ : x.1.Hushed u ∧ ¬ (x.2 i).SpeaksFor u := by
        rcases suspended_or_quiet hok h hL.own hu with hu | hquiet
        · exact ⟨hI u hu, hL.silent u hu⟩
        · exact ⟨hquiet.shared, hquiet.tasks i⟩
      obtain ⟨hg', ht', -⟩ := h.hushed hL.own (not_authenticated hbefore) ht hg
      exact ⟨hg', ht'⟩
    exact ⟨fun u hu => (hcalm u hu).1, h.own hL.own, fun u hu => (hcalm u hu).2⟩
  · intro x i l g' t' j hok _ _ hLi hLj _ hstep
    refine ⟨⟨hLj.own, fun u hu => ?_⟩, trivial⟩
    rcases suspended_or_quiet hok (advances_of_step hstep) hLi.own hu with hu | hquiet
    · exact hLj.silent u hu
    · exact hquiet.tasks j

/-- **A suspended user is silent.** While a user is suspended no message of theirs is stored, if
nothing may still speak for a user who gets suspended. -/
theorem suspended_is_silent {ls : List (ι × TaskStep)}
    (hx : ((gateway ι env).lts.restrict SuspendsQuietly).Reachable x)
    (hrun : (((gateway ι env).lts.restrict SuspendsQuietly).restrict
      fun y _ => Suspended u y.1.world).Run x ls x') :
    Silent u x.1.world x'.1.world := by
  induction hrun with
  | nil => exact refl _
  | @cons x y _ l _ hstep _ ih =>
    obtain ⟨hu, hstep⟩ := hstep
    have hcalm := calm_inductive.reachable hx
    obtain ⟨-, t, htask, -⟩ := id hstep
    obtain ⟨-, -, hsilent⟩ := (advances_of_step htask).hushed (hcalm.thread _).own
      (not_authenticated (.inl hu)) ((hcalm.thread _).silent u hu) (hcalm.shared u hu)
    exact IsTrans.trans _ _ _ hsilent (ih (hx.step hstep))

end

/-- Nothing is scheduled, no ticket is out and every task is idle. -/
theorem quiet_of_idle {ι : Type} {x : Gateway × (ι → Task)}
    (hscheduled : x.1.world.scheduledMessages = []) (htickets : x.1.tickets = .empty)
    (hidle : ∀ i, x.2 i = .idle) (u : UserId) : Quiet u x where
  shared := by
    constructor
    · simp [NoneScheduled, hscheduled]
    · simp [htickets]
  tasks i := by simp [hidle, Task.SpeaksFor]

/-- Alice is suspended when nothing speaks for her, and the worker looks for what is due. -/
theorem suspended_is_silent_alice : ∃ (x x' : Gateway × (Unit → Task))
    (ls : List (Unit × TaskStep)),
    ((gateway Unit Env.numbered).lts.restrict SuspendsQuietly).Reachable x ∧
    (((gateway Unit Env.numbered).lts.restrict SuspendsQuietly).restrict
      fun y _ => Suspended 1 y.1.world).Run x ls x' ∧ ls ≠ [] ∧
    Silent 1 x.1.world x'.1.world := by
  let g₁ := (Gateway.fresh 0).commit Env.numbered (.register alice 0)
  let g₂ := g₁.commit Env.numbered (.adminSetUserSuspended 1 true 0)
  have hinit : ((gateway Unit Env.numbered).lts.restrict SuspendsQuietly).init
      (.fresh 0, fun _ => .idle) := ⟨⟨0, rfl⟩, fun _ => rfl⟩
  have hregister : ((gateway Unit Env.numbered).lts.restrict SuspendsQuietly).step
      (.fresh 0, fun _ => .idle) ((), .transaction (.register alice 0)) (g₁, fun _ => .idle) :=
    ⟨fun _ _ h => (nomatch h), .idle, rfl, by simp⟩
  have hscheduled : g₁.world.scheduledMessages.isEmpty = true := by decide +kernel
  have hquiet : ∀ u, Quiet u (g₁, fun _ : Unit => Task.idle) :=
    quiet_of_idle (List.isEmpty_iff.mp hscheduled) rfl fun _ => rfl
  have hsuspend : ((gateway Unit Env.numbered).lts.restrict SuspendsQuietly).step
      (g₁, fun _ => .idle) ((), .transaction (.adminSetUserSuspended 1 true 0))
      (g₂, fun _ => .idle) := ⟨fun u _ _ => hquiet u, .idle, rfl, by simp⟩
  have hsuspended : Suspended 1 g₂.world := by
    have h : ((g₂.world.accounts.get 1).any fun a => a.suspended) = true := by decide +kernel
    exact (Option.any_eq_true ..).mp h
  have hdue : ((gateway Unit Env.numbered).lts.restrict SuspendsQuietly).step
      (g₂, fun _ => .idle) ((), .due 0) (g₂, fun _ => .delivering
        (g₂.world.scheduledMessages.filter fun m => decide (m.scheduledFor ≤ 0)) 0) :=
    ⟨fun _ _ h => (nomatch h), _, rfl, by funext; simp⟩
  have hx := ((LTS.Reachable.init hinit).step hregister).step hsuspend
  have hrun : (((gateway Unit Env.numbered).lts.restrict SuspendsQuietly).restrict
      fun y _ => Suspended 1 y.1.world).Run (g₂, fun _ => .idle) [((), .due 0)]
      (g₂, fun _ => .delivering
        (g₂.world.scheduledMessages.filter fun m => decide (m.scheduledFor ≤ 0)) 0) :=
    .cons ⟨hsuspended, hdue⟩ (.nil _)
  exact ⟨_, _, _, hx, hrun, by simp, suspended_is_silent hx hrun⟩

/-- Alice schedules a message for Bob, and is suspended before it is due. The worker sends it. -/
theorem suspended_is_heard : ∃ (x x' : Gateway × (Unit → Task)) (l : Unit × TaskStep),
    (gateway Unit Env.brief).lts.Reachable x ∧ Suspended 1 x.1.world ∧
    (gateway Unit Env.brief).lts.step x l x' ∧ ¬ Silent 1 x.1.world x'.1.world := by
  let token (n : Nat) := Text.toHex (Env.brief.randomBytes n 32)
  let message : ScheduleMessageRequest :=
    ⟨9, 100, .text "hi", none, [], false, Duration.seconds 20, none⟩
  obtain ⟨x, hx, hp⟩ := gateway_reaches Env.brief
    ([.transaction (.register alice 0), .transaction (.register bob 0),
      .authenticate (token 1) (.call (.sendFriendRequest 1 "bob" "" 0)) 0, .call,
      .authenticate (token 4) (.call (.decideFriendRequest 4 7 .accept 0)) 0, .call,
      .authenticate (token 1) (.call (.scheduleMessage 1 message 0)) 0, .call,
      .transaction (.adminSetUserSuspended 1 true 0), .due (Duration.seconds 20)].map
        fun l => ((), l))
    (fun x => ((x.1.world.accounts.get 1).any fun a => a.suspended) &&
      (x.1.world.messageAt 9 0).isNone &&
      ((gateway Unit Env.brief).next x ((), .deliver)).any fun x' =>
        (x'.1.world.messageAt 9 0).any fun m => m.senderId == 1) (by decide +kernel)
  simp only [Bool.and_eq_true, Option.any_eq_true, Option.isNone_iff_eq_none, beq_iff_eq] at hp
  obtain ⟨⟨hsuspended, hnone⟩, x', hnext, m, hm, hsender⟩ := hp
  refine ⟨x, x', _, hx, hsuspended, Threads.step_of_next hnext, fun hsilent => ?_⟩
  obtain ⟨m₀, hm₀, -⟩ := hsilent 9 0 m hm hsender
  cases hnone.symm.trans hm₀

end IamRust
