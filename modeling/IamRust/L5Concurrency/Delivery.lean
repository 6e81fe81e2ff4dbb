import IamRust.L4Properties.ClientIds
import IamRust.L4Properties.Suspension

/-!
# The delivery worker

`deliver_due_messages` takes a copy of what is due and goes through it: the message
is sent in one transaction and its schedule removed in another. In between, and
between the messages, everything else runs. The database can refuse either
transaction, and the process can stop anywhere: the copy is lost then, the store
is not.

* `cancelled_stays_unsent`: a schedule is never sent after it was cancelled, if
  none is cancelled while the worker holds it in its copy.
* `cancelled_is_sent`: the worker does not look at the schedules again.
* A schedule leads to one message at most, whatever is cancelled and wherever the
  process stops: the client id is on record after the first.
-/
namespace IamRust

open Core

/-! ## The steps -/

/-- Where the worker is, with what is left of its copy. -/
inductive Worker where
  | idle
  | delivering (due : List ScheduledMessage) (now : DateTime)
  | delivered (id : Uuid) (due : List ScheduledMessage) (now : DateTime)

def Worker.due : Worker → List ScheduledMessage
  | .idle => []
  | .delivering due _ | .delivered _ due _ => due

/-- The store and the worker. `sent`: the messages the worker stored, with the schedules they are
from. `cancelled`: the schedules cancelled before. -/
structure Delivery where
  world : World
  worker : Worker
  sent : List (ScheduledMessage × Message)
  cancelled : List Uuid

/-- `refused`: the database does not take the transaction, and the store is put back. `restart`:
the process stops, and starts again from the last store. -/
inductive DeliveryStep where
  | transaction (op : Op)
  | due (now : DateTime)
  | deliver
  | remove
  | refused
  | restart

/-- mirrors crates/application/src/service.rs:3491-3499 -/
def World.dueAt (w : World) (now : DateTime) : List ScheduledMessage :=
  w.scheduledMessages.filter fun message => decide (message.scheduledFor ≤ now)

/-- The schedule a transaction cancels, if its message was not stored yet. -/
def Delivery.cancels (d : Delivery) : Op → List Uuid
  | .cancelScheduledMessage _ id => if d.sent.any (·.1.id == id) then [] else [id]
  | _ => []

section
variable (env : Env)

/-- mirrors crates/application/src/service.rs:3490-3532, apps/server/src/main.rs:82-94 -/
def Delivery.step (d : Delivery) : DeliveryStep → Option Delivery
  | .transaction op =>
    match op.run env d.world with
    | .error _ => none
    | .ok (_, world) => some { d with world := world, cancelled := d.cancelled ++ d.cancels op }
  | .due now =>
    match d.worker with
    | .idle => some { d with worker := .delivering (d.world.dueAt now) now }
    | _ => none
  | .deliver =>
    match d.worker with
    | .delivering [] _ => some { d with worker := .idle }
    | .delivering (scheduled :: due) now =>
      match sendMessageRequest env scheduled.actor scheduled.conversationId scheduled.request now
          d.world with
      | .error _ => some { d with worker := .delivering due now }
      | .ok ((message, _), world) => some { d with
          world := world
          worker := .delivered scheduled.id due now
          -- an acknowledged repetition returns a message that was there before
          sent := if (findMessage d.world.toStore message.id).isSome then d.sent
            else d.sent ++ [(scheduled, message)] }
    | _ => none
  | .remove =>
    match d.worker with
    | .delivered id due now => some { d with
        world := ((removeScheduledMessage id).commit d.world).2
        worker := .delivering due now }
    | _ => none
  | .refused =>
    match d.worker with
    | .delivering (_ :: due) now | .delivered _ due now =>
      some { d with worker := .delivering due now }
    | _ => none
  | .restart => some { d with worker := .idle }

end

/-- The service and its worker, from an empty store. -/
def delivery (env : Env) : LTS Delivery DeliveryStep where
  init d := d = ⟨World.init, .idle, [], []⟩
  step d l d' := d.step env l = some d'

/-! ## What a step can do -/

/-- The cases of a step. `stored` sends a message that was not on record. -/
inductive Delivers (env : Env) (d : Delivery) : DeliveryStep → Delivery → Prop where
  | ran {op world} (hrun : (op.run env).Runs d.world () world) :
    Delivers env d (.transaction op)
      { d with world := world, cancelled := d.cancelled ++ d.cancels op }
  | due {now} : Delivers env d (.due now) { d with worker := .delivering (d.world.dueAt now) now }
  | moved {l worker} (hdue : worker.due ⊆ d.worker.due) : Delivers env d l { d with worker := worker }
  | stored {m due now message world sent}
    (hworker : d.worker = .delivering (m :: due) now)
    (hrun : ((Op.sendMessageRequest m.actor m.conversationId m.request now).run env).Runs d.world ()
      world)
    (hnone : d.world.messageDedup.get (m.actor, m.clientMessageId) = none)
    (hrecorded : (world.messageDedup.get (m.actor, m.clientMessageId)).isSome)
    (hsent : sent = d.sent ∨ sent = d.sent ++ [(m, message)]) :
    Delivers env d .deliver
      { d with world := world, worker := .delivered m.id due now, sent := sent }
  | removed {id due now world} (hworker : d.worker = .delivered id due now)
    (hrun : ((Op.removeScheduledMessage id).run env).Runs d.world () world) :
    Delivers env d .remove { d with world := world, worker := .delivering due now }

section
variable {env : Env} {d d' : Delivery} {l : DeliveryStep}

theorem delivers_of_step (h : d.step env l = some d') : Delivers env d l d' := by
  unfold Delivery.step at h
  split at h
  · split at h <;> cases h
    exact .ran ‹_›
  · split at h <;> cases h
    exact .due
  · split at h
    · cases h
      exact .moved (List.nil_subset _)
    · rename_i m due now hworker
      split at h
      · cases h
        refine .moved ?_
        rw [hworker]
        exact List.subset_cons_self m due
      · rename_i message ack world hsend
        cases h
        rcases sendMessageRequest_cases hsend with ⟨e, -, hfound, -, rfl⟩ | ⟨hnone, hrec, -, hsender,
          -, hclient, -⟩
        · rw [(findMessage_some hfound).1, hfound]
          refine .moved ?_
          rw [hworker]
          exact List.subset_cons_self m due
        · refine @Delivers.stored _ _ m due now message _ _ hworker
            (Tx.runs_void.mpr ⟨_, hsend⟩) hnone ?_ ?_
          · obtain ⟨s, -, hdedup⟩ := hrec.dedup
            rw [hdedup, hsender, hclient]
            simp [ScheduledMessage.request]
          · split
            · exact .inl rfl
            · exact .inr rfl
    · cases h
  · split at h
    · rename_i id due now hworker
      cases h
      exact .removed hworker (Tx.runs_void.mpr ⟨_, rfl⟩)
    · cases h
  · split at h
    · rename_i m due now hworker
      cases h
      refine .moved ?_
      rw [hworker]
      exact List.subset_cons_self m due
    · rename_i id due now hworker
      cases h
      refine .moved ?_
      rw [hworker]
      exact fun _ h => h
    · cases h
  · cases h
    exact .moved (List.nil_subset _)

/-! ## Schedules -/

/-- The schedule is in the store, in the worker's copy, or was sent. -/
inductive Delivery.Holds (d : Delivery) (m : ScheduledMessage) : Prop where
  | scheduled (h : m ∈ d.world.scheduledMessages)
  | due (h : m ∈ d.worker.due)
  | sent {message} (h : (m, message) ∈ d.sent)

/-- The client id of the schedule is on record for its author. -/
def World.Taken (w : World) (m : ScheduledMessage) : Prop :=
  (w.messageDedup.get (m.actor, m.clientMessageId)).isSome

/-- A client id stays on record. -/
theorem World.Taken.step {op : Op} {w w' : World} {m : ScheduledMessage} (h : w.Taken m)
    (hs : (op.run env).Runs w () w') : w'.Taken m := by
  have hinsert : ∀ {w w' : World} {m' : Message}, w.Taken m → Recorded env w m' w' → w'.Taken m := by
    intro w w' m' h hrec
    obtain ⟨s, -, hdedup⟩ := hrec.dedup
    unfold World.Taken
    rw [hdedup, Map.get_insert]
    split
    · rfl
    · exact h
  have hsame : ∀ {w w' : World}, w.Taken m → Same .messageDedup w w' → w'.Taken m := by
    intro w w' h hd
    unfold World.Taken
    rw [show w'.messageDedup = w.messageDedup from hd]
    exact h
  have hstorage : Storage env fun w => w.Taken m :=
    { same := fun h _ hd _ => hsame h hd
      amended := fun h _ hd _ => hsame h hd
      noticed := fun h hn => hsame h hn.dedup
      forwarded := fun h hrec _ => hinsert h hrec }
  exact Storage.step (I := fun w => w.Taken m) hs (fun _ _ hrec _ _ h => hinsert h hrec) h

/-- The schedule a request makes, under the id drawn next. -/
def Op.Schedules (env : Env) (w : World) (op : Op) (m : ScheduledMessage) : Prop :=
  ∃ actor request now, op = .scheduleMessage actor request now ∧
    m = request.scheduled (env.uuid w.nextUuid) actor

/-- After a transaction a schedule was there before, or it is the one of the request. -/
theorem scheduled_ran {op : Op} {w w' : World} (hrun : (op.run env).Runs w () w')
    {m : ScheduledMessage} (h : m ∈ w'.scheduledMessages) :
    m ∈ w.scheduledMessages ∨ op.Schedules env w m ∧ w.nextUuid < w'.nextUuid := by
  rcases Op.scheduled hrun with hsub | ⟨actor, request, now, rfl, -, rfl⟩
  · exact .inl (hsub h)
  · rcases List.mem_append.mp h with h | h
    · exact .inl h
    · exact .inr ⟨⟨actor, request, now, rfl, List.mem_singleton.mp h⟩, Nat.lt_succ_self _⟩

theorem Op.Schedules.id_eq {op : Op} {w : World} {m : ScheduledMessage}
    (h : op.Schedules env w m) : m.id = env.uuid w.nextUuid := by
  obtain ⟨_, _, _, -, rfl⟩ := h
  rfl

theorem Op.Schedules.unique {op : Op} {w : World} {m m' : ScheduledMessage}
    (h : op.Schedules env w m) (h' : op.Schedules env w m') : m = m' := by
  obtain ⟨_, _, _, rfl, rfl⟩ := h
  obtain ⟨_, _, _, he, rfl⟩ := h'
  cases he
  rfl

/-- A schedule has the id drawn for it, no two have the same, and what was sent is on record. -/
structure Delivery.Orderly (env : Env) (d : Delivery) : Prop where
  drawn : ∀ {m}, d.Holds m → ∃ k < d.world.nextUuid, m.id = env.uuid k
  unique : ∀ {m m'}, d.Holds m → d.Holds m' → m.id = m'.id → m = m'
  taken : ∀ {p}, p ∈ d.sent → d.world.Taken p.1
  once : d.sent.Pairwise fun p q => p.1.id ≠ q.1.id

/-- What was cancelled is not sent, and will not be: a schedule the worker still holds has a client
id that is on record. -/
structure Delivery.Final (env : Env) (d : Delivery) : Prop where
  drawn : ∀ id ∈ d.cancelled, ∃ k < d.world.nextUuid, id = env.uuid k
  taken : ∀ {m}, m.id ∈ d.cancelled → m ∈ d.world.scheduledMessages ∨ m ∈ d.worker.due →
    d.world.Taken m
  unsent : ∀ {p}, p ∈ d.sent → p.1.id ∉ d.cancelled

/-- No schedule is cancelled while the worker holds it and may still send it. -/
def CancelsUnheld (d : Delivery) (l : DeliveryStep) : Prop :=
  ∀ u id, l = .transaction (.cancelScheduledMessage u id) → ∀ m ∈ d.world.scheduledMessages,
    m.id = id → m.actor = u → ¬ d.world.Taken m → m ∉ d.worker.due

/-- What is held after a step was held before, or is the schedule of the request. -/
theorem holds_before (h : Delivers env d l d') {m : ScheduledMessage} (hm : d'.Holds m) :
    d.Holds m ∨ ∃ op, l = .transaction op ∧ op.Schedules env d.world m ∧
      d.world.nextUuid < d'.world.nextUuid := by
  cases h with
  | ran hrun =>
    cases hm with
    | scheduled hm =>
      rcases scheduled_ran hrun hm with hm | hnew
      · exact .inl (.scheduled hm)
      · exact .inr ⟨_, rfl, hnew⟩
    | due hm => exact .inl (.due hm)
    | sent hm => exact .inl (.sent hm)
  | due =>
    refine .inl ?_
    cases hm with
    | scheduled hm => exact .scheduled hm
    | due hm => exact .scheduled (List.mem_of_mem_filter hm)
    | sent hm => exact .sent hm
  | moved hdue =>
    refine .inl ?_
    cases hm with
    | scheduled hm => exact .scheduled hm
    | due hm => exact .due (hdue hm)
    | sent hm => exact .sent hm
  | stored hworker hrun _ _ hsent =>
    refine .inl ?_
    cases hm with
    | scheduled hm =>
      rcases scheduled_ran hrun hm with hm | ⟨⟨_, _, _, he, -⟩, -⟩
      · exact .scheduled hm
      · cases he
    | due hm => exact .due (by rw [hworker]; exact List.mem_cons_of_mem _ hm)
    | sent hm =>
      rcases hsent with rfl | rfl
      · exact .sent hm
      · rcases List.mem_append.mp hm with hm | hm
        · exact .sent hm
        · cases List.mem_singleton.mp hm
          exact .due (by rw [hworker]; exact List.mem_cons_self)
  | removed hworker hrun =>
    refine .inl ?_
    cases hm with
    | scheduled hm =>
      rcases scheduled_ran hrun hm with hm | ⟨⟨_, _, _, he, -⟩, -⟩
      · exact .scheduled hm
      · cases he
    | due hm => exact .due (by rw [hworker]; exact hm)
    | sent hm => exact .sent hm

/-- Client ids stay on record, and no draw is given back. -/
theorem Delivers.mono (h : Delivers env d l d') : d.world.nextUuid ≤ d'.world.nextUuid ∧
    ∀ m, d.world.Taken m → d'.world.Taken m := by
  cases h with
  | ran hrun => exact ⟨((Op.evolves env _).runs hrun).uuids, fun m h => h.step hrun⟩
  | due => exact ⟨Nat.le_refl _, fun m h => h⟩
  | moved hdue => exact ⟨Nat.le_refl _, fun m h => h⟩
  | stored hworker hrun => exact ⟨((Op.evolves env _).runs hrun).uuids, fun m h => h.step hrun⟩
  | removed hworker hrun => exact ⟨((Op.evolves env _).runs hrun).uuids, fun m h => h.step hrun⟩

/-- The worker stored nothing, or the message of a schedule whose client id was not on record and
now is. -/
theorem Delivers.sent (h : Delivers env d l d') : d'.sent = d.sent ∨
    ∃ m message, m ∈ d.worker.due ∧ ¬ d.world.Taken m ∧ d'.world.Taken m ∧
      d'.sent = d.sent ++ [(m, message)] ∧ d'.cancelled = d.cancelled := by
  cases h with
  | @stored m due now message world sent hworker hrun hnone hrecorded hsent =>
    rcases hsent with rfl | rfl
    · exact .inl rfl
    · refine .inr ⟨m, message, by rw [hworker]; exact List.mem_cons_self, ?_, hrecorded, rfl, rfl⟩
      simp [World.Taken, hnone]
  | ran => exact .inl rfl
  | due => exact .inl rfl
  | moved => exact .inl rfl
  | removed => exact .inl rfl

/-- **Step.** -/
theorem Delivery.Orderly.step (hu : Function.Injective env.uuid) (hd : d.Orderly env)
    (h : Delivers env d l d') : d'.Orderly env := by
  obtain ⟨hle, htaken⟩ := h.mono
  -- a schedule held before has an id drawn before
  have hfresh : ∀ {m m' : ScheduledMessage} {op : Op}, d.Holds m → op.Schedules env d.world m' →
      m.id ≠ m'.id := by
    intro m m' op hm hnew he
    obtain ⟨k, hlt, hk⟩ := hd.drawn hm
    have : k = d.world.nextUuid := hu (by rw [← hk, he, hnew.id_eq])
    omega
  refine ⟨fun hm => ?_, fun hm hm' he => ?_, fun {p} hp => ?_, ?_⟩
  · rcases holds_before h hm with hm | ⟨op, -, hnew, hlt⟩
    · obtain ⟨k, hlt, hk⟩ := hd.drawn hm
      exact ⟨k, by omega, hk⟩
    · exact ⟨_, hlt, hnew.id_eq⟩
  · rcases holds_before h hm with hm | ⟨op, rfl, hnew, -⟩ <;>
      rcases holds_before h hm' with hm' | ⟨op', hl, hnew', -⟩
    · exact hd.unique hm hm' he
    · exact absurd he (hfresh hm hnew')
    · exact absurd he.symm (hfresh hm' hnew)
    · cases hl
      exact hnew.unique hnew'
  · rcases h.sent with hsent | ⟨m, message, -, -, hm, hsent, -⟩
    · rw [hsent] at hp
      exact htaken _ (hd.taken hp)
    · rw [hsent] at hp
      rcases List.mem_append.mp hp with hp | hp
      · exact htaken _ (hd.taken hp)
      · cases List.mem_singleton.mp hp
        exact hm
  · rcases h.sent with hsent | ⟨m, message, hm, hfree, -, hsent, -⟩
    · rw [hsent]
      exact hd.once
    · rw [hsent]
      refine List.pairwise_append.mpr ⟨hd.once, List.pairwise_singleton _ _, fun p hp q hq he => ?_⟩
      cases List.mem_singleton.mp hq
      -- the schedule sent before is the same, and its client id is on record
      cases hd.unique (.sent hp) (.due hm) he
      exact hfree (hd.taken hp)

/-! ## Cancelled schedules -/

/-- A cancellation finds a schedule of the user and removes it. -/
theorem cancelScheduledMessage_runs {u : UserId} {id : Uuid} {w w' : World}
    (h : (cancelScheduledMessage u id).Runs w () w') :
    (∃ m ∈ w.scheduledMessages, m.id = id ∧ m.actor = u) ∧
      ∀ m ∈ w'.scheduledMessages, m ∈ w.scheduledMessages ∧ ¬ (m.id = id ∧ m.actor = u) := by
  simp only [cancelScheduledMessage, Tx.runs_get_bind, Tx.runs_failIf_bind] at h
  obtain ⟨hlength, h⟩ := h
  rw [Tx.runs_modify.mp h]
  refine ⟨?_, fun m hm => ?_⟩
  · by_contra hnone
    refine hlength (congrArg List.length (List.filter_eq_self.mpr fun m hm => ?_))
    by_contra hfound
    exact hnone ⟨m, hm, by simpa using hfound⟩
  · obtain ⟨hm, hkept⟩ := List.mem_filter.mp hm
    exact ⟨hm, by simpa [imp_iff_not_or] using hkept⟩

theorem Delivers.cancelled (h : Delivers env d l d') : d'.cancelled = d.cancelled ∨
    ∃ u id, l = .transaction (.cancelScheduledMessage u id) ∧
      (cancelScheduledMessage u id).Runs d.world () d'.world ∧ d'.worker = d.worker ∧
      d'.sent = d.sent ∧ d'.cancelled = d.cancelled ++ [id] ∧ ∀ p ∈ d.sent, p.1.id ≠ id := by
  cases h with
  | @ran op world hrun =>
    cases op
    case cancelScheduledMessage u id =>
      dsimp only [Delivery.cancels]
      split
      · exact .inl (List.append_nil _)
      · rename_i hsent
        obtain ⟨_, hr⟩ := Tx.runs_void.mp hrun
        exact .inr ⟨u, id, rfl, hr, rfl, rfl, rfl, by simpa using hsent⟩
    all_goals exact .inl (List.append_nil _)
  | due => exact .inl rfl
  | moved => exact .inl rfl
  | stored => exact .inl rfl
  | removed => exact .inl rfl

/-- What is still to be sent after a step was before, or is the schedule of the request. -/
theorem pending_before (h : Delivers env d l d') {m : ScheduledMessage}
    (hm : m ∈ d'.world.scheduledMessages ∨ m ∈ d'.worker.due) :
    (m ∈ d.world.scheduledMessages ∨ m ∈ d.worker.due) ∨
      ∃ op : Op, op.Schedules env d.world m := by
  cases h with
  | ran hrun =>
    rcases hm with hm | hm
    · exact (scheduled_ran hrun hm).imp .inl fun hnew => ⟨_, hnew.1⟩
    · exact .inl (.inr hm)
  | due =>
    rcases hm with hm | hm
    · exact .inl (.inl hm)
    · exact .inl (.inl (List.mem_of_mem_filter hm))
  | moved hdue => exact .inl (hm.imp_right fun hm => hdue hm)
  | stored hworker hrun =>
    rcases hm with hm | hm
    · exact (scheduled_ran hrun hm).imp .inl fun hnew => ⟨_, hnew.1⟩
    · exact .inl (.inr (by rw [hworker]; exact List.mem_cons_of_mem _ hm))
  | removed hworker hrun =>
    rcases hm with hm | hm
    · exact (scheduled_ran hrun hm).imp .inl fun hnew => ⟨_, hnew.1⟩
    · exact .inl (.inr (by rw [hworker]; exact hm))

/-- **Step.** -/
theorem Delivery.Final.step (hu : Function.Injective env.uuid) (ho : d.Orderly env)
    (hd : d.Final env) (hok : CancelsUnheld d l) (h : Delivers env d l d') : d'.Final env := by
  obtain ⟨hle, htaken⟩ := h.mono
  have hpending : ∀ {m}, m.id ∈ d.cancelled →
      m ∈ d'.world.scheduledMessages ∨ m ∈ d'.worker.due → d'.world.Taken m := by
    intro m hid hm
    rcases pending_before h hm with hm | ⟨op, hnew⟩
    · exact htaken m (hd.taken hid hm)
    · -- its id was drawn before
      obtain ⟨k, hlt, hk⟩ := hd.drawn _ hid
      have : k = d.world.nextUuid := hu (by rw [← hk, hnew.id_eq])
      omega
  rcases h.cancelled with hcancelled | ⟨u, id, rfl, hrun, hworker, hsent, hcancelled, hunsent⟩
  · refine ⟨fun id hid => ?_, fun hid hm => ?_, fun {p} hp hid => ?_⟩
    · rw [hcancelled] at hid
      obtain ⟨k, hlt, hk⟩ := hd.drawn id hid
      exact ⟨k, by omega, hk⟩
    · rw [hcancelled] at hid
      exact hpending hid hm
    · rw [hcancelled] at hid
      rcases h.sent with hsent | ⟨m, message, hm, hfree, -, hsent, -⟩
      · rw [hsent] at hp
        exact hd.unsent hp hid
      · rw [hsent] at hp
        rcases List.mem_append.mp hp with hp | hp
        · exact hd.unsent hp hid
        · cases List.mem_singleton.mp hp
          exact hfree (hd.taken hid (.inr hm))
  · obtain ⟨⟨m₀, hm₀, hid₀, hactor⟩, hrest⟩ := cancelScheduledMessage_runs hrun
    refine ⟨fun id' hid' => ?_, fun {m} hid' hm => ?_, fun {p} hp hid' => ?_⟩
    all_goals rw [hcancelled] at hid'
    · rcases List.mem_append.mp hid' with hid' | hid'
      · obtain ⟨k, hlt, hk⟩ := hd.drawn _ hid'
        exact ⟨k, by omega, hk⟩
      · cases List.mem_singleton.mp hid'
        obtain ⟨k, hlt, hk⟩ := ho.drawn (.scheduled hm₀)
        exact ⟨k, by omega, hid₀ ▸ hk⟩
    · rcases List.mem_append.mp hid' with hid' | hid'
      · exact hpending hid' hm
      · have hid := List.mem_singleton.mp hid'
        rcases hm with hm | hm
        · obtain ⟨hm, hkept⟩ := hrest m hm
          cases ho.unique (.scheduled hm) (.scheduled hm₀) (hid.trans hid₀.symm)
          exact absurd ⟨hid₀, hactor⟩ hkept
        · rw [hworker] at hm
          cases ho.unique (.due hm) (.scheduled hm₀) (hid.trans hid₀.symm)
          refine htaken _ ?_
          by_contra hfree
          exact hok u id rfl _ hm₀ hid₀ hactor hfree hm
    · rw [hsent] at hp
      rcases List.mem_append.mp hid' with hid' | hid'
      · exact hd.unsent hp hid'
      · exact hunsent p hp (List.mem_singleton.mp hid')

end

/-! ## Every run -/

theorem orderly_inductive {env : Env} (hu : Function.Injective env.uuid) :
    (delivery env).Inductive (Delivery.Orderly env) where
  init d h := by
    have hnone : ∀ m, ¬ d.Holds m := by
      subst h
      intro m hm
      cases hm with
      | scheduled h => cases h
      | due h => cases h
      | sent h => cases h
    refine ⟨fun hm => absurd hm (hnone _), fun hm => absurd hm (hnone _), fun {p} hp => ?_, ?_⟩
    · exact absurd (.sent hp) (hnone p.1)
    · subst h
      exact .nil
  step d l d' hd hs := hd.step hu (delivers_of_step hs)

theorem final_inductive {env : Env} (hu : Function.Injective env.uuid) :
    ((delivery env).restrict CancelsUnheld).Inductive fun d => d.Orderly env ∧ d.Final env where
  init d h := by
    refine ⟨(orderly_inductive hu).init d h, ?_⟩
    subst h
    exact ⟨fun _ h => (nomatch h), fun h => (nomatch h), fun _ h => (nomatch h)⟩
  step d l d' hd hs :=
    have h := delivers_of_step hs.2
    ⟨hd.1.step hu h, hd.2.step hu hd.1 hs.1 h⟩

/-- **A cancelled message stays unsent** in every run in which none is cancelled while the worker
holds its schedule and may still send it. In every run at all a schedule leads to one message at
most. -/
theorem cancelled_stays_unsent (env : Env) (hu : Function.Injective env.uuid) (d : Delivery) :
    (((delivery env).restrict CancelsUnheld).Reachable d →
      ∀ p ∈ d.sent, p.1.id ∉ d.cancelled) ∧
    ((delivery env).Reachable d → d.sent.Pairwise fun p q => p.1.id ≠ q.1.id) :=
  ⟨fun h _ hp => ((final_inductive hu).reachable h).2.unsent hp,
    fun h => ((orderly_inductive hu).reachable h).once⟩

/-! ## Two runs -/

/-- A text from Alice to Bob, due after 20 seconds. -/
def ScheduleMessageRequest.text (clientMessageId : MessageId) (text : String) :
    ScheduleMessageRequest :=
  ⟨9, clientMessageId, .text text, none, [], false, Duration.seconds 20, none⟩

/-- Alice schedules two messages, 14 and 15. -/
def twoScheduled : List DeliveryStep :=
  (aliceAndBob ++ [Op.scheduleMessage 1 (.text 100 "hi") 0,
    Op.scheduleMessage 1 (.text 101 "ho") 0]).map .transaction

def DeliveryStep.cancelsIdly (d : Delivery) : DeliveryStep → Bool
  | .transaction (.cancelScheduledMessage _ _) => d.worker.due.isEmpty
  | _ => true

theorem cancelsUnheld_of_idly {d : Delivery} {l : DeliveryStep} (h : l.cancelsIdly d = true) :
    CancelsUnheld d l := by
  rintro u id rfl m - - - -
  rw [List.isEmpty_iff.mp h]
  exact List.not_mem_nil

/-- The steps one after the other, as long as no schedule is cancelled under the worker. -/
theorem delivery_reaches_checked (env : Env) (ls : List DeliveryStep) (p : Delivery → Bool)
    (h : (LTS.exec (fun d l => if l.cancelsIdly d then d.step env l else none) ls
      ⟨World.init, .idle, [], []⟩).any p = true) :
    ∃ d, ((delivery env).restrict CancelsUnheld).Reachable d ∧ p d = true := by
  refine LTS.reaches_of_exec (M := (delivery env).restrict CancelsUnheld) rfl ls
    (fun d l _ d' hnext => ?_) p h
  split at hnext
  · exact ⟨cancelsUnheld_of_idly ‹_›, hnext⟩
  · cases hnext

/-- She cancels the second one in time, and the worker sends the first. -/
theorem cancelled_stays_unsent_alice : ∃ d, (delivery Env.numbered).Reachable d ∧
    15 ∈ d.cancelled ∧ d.sent ≠ [] ∧ ∀ p ∈ d.sent, p.1.id ∉ d.cancelled := by
  obtain ⟨d, hd, hp⟩ := delivery_reaches_checked Env.numbered
    (twoScheduled ++ [.transaction (.cancelScheduledMessage 1 15), .due (Duration.seconds 20),
      .deliver, .remove])
    (fun d => d.cancelled.contains 15 && !d.sent.isEmpty) (by decide +kernel)
  simp only [Bool.and_eq_true, List.contains_iff_mem, Bool.not_eq_true', List.isEmpty_eq_false_iff]
    at hp
  exact ⟨d, hd.of_restrict, hp.1, hp.2,
    (cancelled_stays_unsent Env.numbered Env.numbered_injective d).1 hd⟩

/-- She cancels while the worker has a copy of both, and the message is sent all the same. -/
theorem cancelled_is_sent : ∃ d, (delivery Env.numbered).Reachable d ∧
    ∃ p ∈ d.sent, p.1.id ∈ d.cancelled := by
  have hrun : (LTS.exec (Delivery.step Env.numbered)
      (twoScheduled ++ [.due (Duration.seconds 20), .deliver, .remove,
        .transaction (.cancelScheduledMessage 1 15), .deliver]) ⟨World.init, .idle, [], []⟩).any
      (fun d : Delivery => d.sent.any fun p => d.cancelled.contains p.1.id) = true := by
    decide +kernel
  obtain ⟨d, hd, hp⟩ := LTS.reaches_of_exec (M := delivery Env.numbered) rfl _
    (fun _ _ _ _ h => h) _ hrun
  obtain ⟨p, hp, hid⟩ := List.any_eq_true.mp hp
  exact ⟨d, hd, p, hp, List.contains_iff_mem.mp hid⟩

end IamRust
