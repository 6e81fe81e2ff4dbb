import IamRust.L5Concurrency.Delivery

/-!
# Scheduled messages are not lost

The worker removes a schedule in a second transaction, by its id. The first one
stored the message, or found that the client id of the schedule was on record
already. Between the two the process can stop and the database can refuse the
second one, and the worker comes back to the schedule later.

A schedule leaves the store by `cancel_scheduled_message` and `delete_account` of
its author, and by the worker. So at every point of every run the author
withdrew it, or it is still there, or a message of the author with its client
id is stored.
-/
namespace IamRust

open Core

/-- The worker alone runs the second transaction of a delivery. -/
def ByWorker (_ : Delivery) (l : DeliveryStep) : Prop :=
  ∀ id, l ≠ .transaction (.removeScheduledMessage id)

/-- The author cancels the schedule, or closes the account. -/
inductive DeliveryStep.Withdraws (m : ScheduledMessage) : DeliveryStep → Prop where
  | cancelled : Withdraws m (.transaction (.cancelScheduledMessage m.actor m.id))
  | closed {currentPassword confirmation now} :
    Withdraws m (.transaction (.deleteAccount m.actor currentPassword confirmation now))

/-- The author has a stored message with the client id of the schedule. -/
def World.Delivered (w : World) (m : ScheduledMessage) : Prop :=
  ∃ c, ∃ message ∈ w.timeline c, message.senderId = m.actor ∧
    message.clientMessageId = m.clientMessageId

section
variable {env : Env} {d d' : Delivery} {l : DeliveryStep} {m : ScheduledMessage}

theorem World.Taken.delivered {w : World} (h : w.Taken m) (hd : Deduped w) : w.Delivered m := by
  obtain ⟨e, he⟩ := Option.isSome_iff_exists.mp h
  obtain ⟨c, i, message, hat, hmatch⟩ := hd _ e he
  exact ⟨c, message, Store.mem_of_messageAt hat, hmatch.senderId, hmatch.clientMessageId⟩

/-! ## What leaves the store -/

/-- A closed account takes no schedule of another user along. -/
theorem deleteAccount_scheduled {actor : UserId} {currentPassword confirmation : String}
    {now : DateTime} {w w' : World} {x : Unit}
    (h : (deleteAccount env actor currentPassword confirmation now).Runs w x w')
    (hm : m ∈ w.scheduledMessages) (hactor : m.actor ≠ actor) : m ∈ w'.scheduledMessages := by
  simp only [deleteAccount, deleteAccountInStore, Tx.runs_failIf_bind, Tx.runs_get_bind,
    Tx.runs_okOr_bind] at h
  obtain ⟨-, account, hacc, -, h⟩ := h
  have hget := (activeAccount_some.mp hacc).1
  simp [detachAccountFromConversations, anonymizeAccount, purgeAccountRelationships,
    revokeUserSessions, revokeTokens, appendEvent_runs, hget] at h
  subst h
  simp [hm, hactor]

theorem cancelScheduledMessage_others {u : UserId} {id : Uuid} {w w' : World} {x : Unit}
    (h : (cancelScheduledMessage u id).Runs w x w') (hm : m ∈ w.scheduledMessages)
    (hother : ¬ (m.id = id ∧ m.actor = u)) : m ∈ w'.scheduledMessages := by
  simp only [cancelScheduledMessage, Tx.runs_get_bind, Tx.runs_failIf_bind] at h
  rw [Tx.runs_modify.mp h.2]
  refine List.mem_filter.mpr ⟨hm, ?_⟩
  simpa [imp_iff_not_or] using hother

theorem removeScheduledMessage_others {id : Uuid} {w w' : World} {x : Unit}
    (h : (removeScheduledMessage id).Runs w x w') (hm : m ∈ w.scheduledMessages)
    (hother : m.id ≠ id) : m ∈ w'.scheduledMessages := by
  unfold removeScheduledMessage at h
  rw [update_runs] at h
  subst h
  exact List.mem_filter.mpr ⟨hm, by simpa using hother⟩

/-- No other transaction takes a schedule out of the store. -/
theorem Op.keeps_scheduled {op : Op} {w w' : World} (h : (op.run env).Runs w () w')
    (hm : m ∈ w.scheduledMessages) (hworker : ∀ id, op ≠ .removeScheduledMessage id)
    (hauthor : ¬ (DeliveryStep.transaction op).Withdraws m) : m ∈ w'.scheduledMessages := by
  have hsame : Same .scheduledMessages w w' → m ∈ w'.scheduledMessages := by
    intro hs
    rw [show w'.scheduledMessages = w.scheduledMessages from hs]
    exact hm
  cases op
  case scheduleMessage actor request now =>
    obtain ⟨_, hr⟩ := Tx.runs_void.mp h
    rw [(scheduleMessage_runs hr).2]
    exact List.mem_append_left _ hm
  case cancelScheduledMessage u id =>
    obtain ⟨_, hr⟩ := Tx.runs_void.mp h
    refine cancelScheduledMessage_others hr hm ?_
    rintro ⟨rfl, rfl⟩
    exact hauthor .cancelled
  case deleteAccount actor currentPassword confirmation now =>
    obtain ⟨_, hr⟩ := Tx.runs_void.mp h
    refine deleteAccount_scheduled hr hm ?_
    rintro rfl
    exact hauthor .closed
  case removeScheduledMessage id => exact absurd rfl (hworker id)
  all_goals exact hsame (Op.same h (by dsimp only [Op.touches]; decide))

/-! ## What the worker removes -/

/-- What the worker is about to remove has its client id on record. -/
structure Delivery.Settled (env : Env) (d : Delivery) : Prop where
  drawn : ∀ {id due now}, d.worker = .delivered id due now → ∃ k < d.world.nextUuid, id = env.uuid k
  taken : ∀ {id due now m}, d.worker = .delivered id due now → d.Holds m → m.id = id →
    d.world.Taken m

/-- A worker between the two transactions was there before, or has just sent the message or found
its client id on record. -/
theorem delivered_before {id : Uuid} {due : List ScheduledMessage} {now : DateTime}
    (h : d.step env l = some d') (hworker : d'.worker = .delivered id due now) :
    d.worker = .delivered id due now ∨
      ∃ m ∈ d.worker.due, m.id = id ∧ d'.world.Taken m ∧ l = .deliver := by
  unfold Delivery.step at h
  split at h
  · split at h <;> cases h
    exact .inl hworker
  · split at h <;> cases h
    cases hworker
  · split at h
    · cases h
      cases hworker
    · rename_i m rest now' hdelivering
      split at h
      · cases h
        cases hworker
      · rename_i message ack world hsend
        cases h
        cases hworker
        refine .inr ⟨m, by rw [hdelivering]; exact List.mem_cons_self, rfl, ?_, rfl⟩
        rcases sendMessageRequest_cases hsend with ⟨e, he, -, -, rfl⟩ | ⟨-, hrec, -, hsender, -,
          hclient, -⟩
        · exact Option.isSome_iff_exists.mpr ⟨e, he⟩
        · obtain ⟨s, -, hdedup⟩ := hrec.dedup
          simp [World.Taken, hdedup, hsender, hclient, ScheduledMessage.request]
    · cases h
  · split at h
    · cases h
      cases hworker
    · cases h
  · split at h <;> cases h <;> cases hworker
  · cases h
    cases hworker

/-- **Step.** -/
theorem Delivery.Settled.step (hu : Function.Injective env.uuid) (ho : d.Orderly env)
    (hd : d.Settled env) (hs : d.step env l = some d') : d'.Settled env := by
  have h := delivers_of_step hs
  obtain ⟨hle, htaken⟩ := h.mono
  refine ⟨fun {id due now} hworker => ?_, fun {id due now m} hworker hm hid => ?_⟩
  · rcases delivered_before hs hworker with hbefore | ⟨m, hm, rfl, -, -⟩
    · obtain ⟨k, hlt, hk⟩ := hd.drawn hbefore
      exact ⟨k, by omega, hk⟩
    · obtain ⟨k, hlt, hk⟩ := ho.drawn (.due hm)
      exact ⟨k, by omega, hk⟩
  · rcases delivered_before hs hworker with hbefore | ⟨m', hm', hid', htaken', rfl⟩
    · rcases holds_before h hm with hm | ⟨op, -, hnew, -⟩
      · exact htaken m (hd.taken hbefore hm hid)
      · -- its id is drawn now, the other one was drawn before
        obtain ⟨k, hlt, hk⟩ := hd.drawn hbefore
        have : k = d.world.nextUuid := hu (by rw [← hk, ← hid, hnew.id_eq])
        omega
    · rcases holds_before h hm with hm | ⟨op, hl, -⟩
      · cases ho.unique hm (.due hm') (hid.trans hid'.symm)
        exact htaken'
      · cases hl

/-- The schedule is in the store, or its client id is on record. -/
def Delivery.Keeps (d : Delivery) (m : ScheduledMessage) : Prop :=
  m ∈ d.world.scheduledMessages ∨ d.world.Taken m

/-- **Step.** -/
theorem Delivery.Keeps.step (hd : d.Settled env) (hworker : ByWorker d l)
    (hauthor : ¬ l.Withdraws m) (hs : d.step env l = some d') (hm : d.Keeps m) : d'.Keeps m := by
  have h := delivers_of_step hs
  rcases hm with hm | hm
  · cases h with
    | ran hrun =>
      exact .inl (Op.keeps_scheduled hrun hm (fun id he => hworker id (congrArg _ he)) hauthor)
    | due => exact .inl hm
    | moved => exact .inl hm
    | stored _ hrun =>
      refine .inl (Op.keeps_scheduled hrun hm (fun id he => ?_) fun hw => ?_)
      · cases he
      · cases hw
    | @removed id due now world hdelivered hrun =>
      obtain ⟨_, hr⟩ := Tx.runs_void.mp hrun
      by_cases hid : m.id = id
      · exact .inr ((hd.taken hdelivered (.scheduled hm) hid).step hrun)
      · exact .inl (removeScheduledMessage_others hr hm hid)
  · exact .inr (h.mono.2 m hm)

end

/-! ## Every run -/

theorem settled_inductive {env : Env} (hu : Function.Injective env.uuid) :
    (delivery env).Inductive fun d => d.Orderly env ∧ d.Settled env where
  init d h := by
    refine ⟨(orderly_inductive hu).init d h, ?_⟩
    subst h
    constructor
    · intro id due now hworker
      cases hworker
    · intro id due now m hworker
      cases hworker
  step d l d' hd hs := ⟨hd.1.step hu (delivers_of_step hs), hd.2.step hu hd.1 hs⟩

/-- The store of the service and its worker is one of the service. -/
theorem delivery_deduped {env : Env} {d : Delivery} (h : (delivery env).Reachable d) :
    Deduped d.world := by
  have hI : (delivery env).Inductive fun d => Deduped d.world :=
    { init := fun d h => by subst h; exact (deduped_inductive env).init _ rfl
      step := fun d l d' hd hs => by
        cases delivers_of_step hs with
        | ran hrun => exact (deduped_inductive env).step _ _ _ hd hrun
        | due => exact hd
        | moved => exact hd
        | stored _ hrun => exact (deduped_inductive env).step _ _ _ hd hrun
        | removed _ hrun => exact (deduped_inductive env).step _ _ _ hd hrun }
  exact hI.reachable h

/-- **No scheduled message is lost.** Wherever a run gets from a state with the schedule in the
store, whatever the database refused and however often the process stopped, the schedule is in the
store, or a message of its author with its client id is, or the author withdrew it on the way. -/
theorem scheduled_not_lost (env : Env) (hu : Function.Injective env.uuid) (d : Delivery)
    (hd : (delivery env).Reachable d) (m : ScheduledMessage) (hm : m ∈ d.world.scheduledMessages)
    (ls : List DeliveryStep) (d' : Delivery)
    (h : ((delivery env).restrict ByWorker).Run d ls d') :
    m ∈ d'.world.scheduledMessages ∨ d'.world.Delivered m ∨ ∃ l ∈ ls, l.Withdraws m := by
  have hkeeps : d.Keeps m := .inl hm
  clear hm
  induction h with
  | nil d => exact hkeeps.imp_right fun htaken => .inl (htaken.delivered (delivery_deduped hd))
  | @cons d d₁ d' l ls hs _ ih =>
    by_cases hauthor : l.Withdraws m
    · exact .inr (.inr ⟨l, List.mem_cons_self, hauthor⟩)
    · have hsettled := ((settled_inductive hu).reachable hd).2
      rcases ih (hd.step hs.2) (hkeeps.step hsettled hs.1 hauthor hs.2) with
        hm | hm | ⟨l', hl', hw⟩
      · exact .inl hm
      · exact .inr (.inl hm)
      · exact .inr (.inr ⟨l', List.mem_cons_of_mem _ hl', hw⟩)

/-- The process stops after the message is stored. The worker comes back to the schedule, is told
that the message was sent, and removes it. -/
def interrupted : List DeliveryStep :=
  [.due (Duration.seconds 20), .deliver, .restart, .due (Duration.seconds 20), .deliver, .remove]

theorem scheduled_not_lost_interrupted : ∃ (d d' : Delivery) (m : ScheduledMessage),
    (delivery Env.numbered).Reachable d ∧ m ∈ d.world.scheduledMessages ∧
    m ∉ d'.world.scheduledMessages ∧ d'.world.Delivered m := by
  have hrun : ((LTS.exec (Delivery.step Env.numbered) twoScheduled
      ⟨World.init, .idle, [], []⟩).any fun d : Delivery =>
      (LTS.exec (Delivery.step Env.numbered) interrupted d).any fun d' : Delivery =>
        d.world.scheduledMessages.any fun m =>
          d'.world.scheduledMessages.all fun m' => m'.id != m.id) = true := by
    decide +kernel
  obtain ⟨d, hd, hrest⟩ := (Option.any_eq_true ..).mp hrun
  obtain ⟨d', hd', hleft⟩ := (Option.any_eq_true ..).mp hrest
  obtain ⟨m, hm, hgone⟩ := List.any_eq_true.mp hleft
  have hgone : m ∉ d'.world.scheduledMessages := by
    intro h
    simpa using List.all_eq_true.mp hgone m h
  have hreach : (delivery Env.numbered).Reachable d :=
    ⟨_, _, rfl, LTS.run_of_exec (fun _ _ _ _ h => h) hd⟩
  have hby : ((delivery Env.numbered).restrict ByWorker).Run d interrupted d' := by
    refine LTS.run_of_exec (M := (delivery Env.numbered).restrict ByWorker)
      (fun s l hl s' h => ⟨fun id he => ?_, h⟩) hd'
    subst he
    simp [interrupted] at hl
  refine ⟨d, d', m, hreach, hm, hgone, ?_⟩
  rcases scheduled_not_lost Env.numbered Env.numbered_injective d hreach m hm interrupted d'
      hby with
    h | h | ⟨l, hl, hw⟩
  · exact absurd h hgone
  · exact h
  · cases hw <;> simp [interrupted] at hl

end IamRust
