import IamRust.L4Properties.Announcements
import IamRust.L4Properties.Log
import IamRust.L4Properties.Timelines

/-!
# Read receipts

What `mark_read` shows to somebody else. The readers drop the users who have
read receipts disabled from `read_by`; the event of `mark_read` goes to all
members whatever the setting, and `delivered_to` is shown as it is. So the
reading stays hidden from exactly the users who are no members.
-/
namespace IamRust

open Core

/-- What `v` can observe about reading is the same in the two stores. -/
structure SameReading (v : UserId) (w w' : World) : Prop where
  statuses : ∀ now id before limit,
    (messages w'.toStore now v id before limit).map (·.map fun m => (m.id, m.status)) =
      (messages w.toStore now v id before limit).map (·.map fun m => (m.id, m.status))
  deliveredTo : ∀ id, (messageDetails w'.toStore v id).map (·.deliveredTo) =
    (messageDetails w.toStore v id).map (·.deliveredTo)
  readBy : ∀ id, (messageDetails w'.toStore v id).map (·.readBy) =
    (messageDetails w.toStore v id).map (·.readBy)
  payloads : (addressed w'.toStore v).map (·.payload) = (addressed w.toStore v).map (·.payload)

/-- The receipts of a message its reader has opened. -/
def ReceiptState.readFrom (receipts : ReceiptState) (reader : UserId) : ReceiptState :=
  { receipts with
    deliveredTo := insert reader receipts.deliveredTo
    readBy := insert reader receipts.readBy }

section
variable {env : Env} {w w' : World} {reader v : UserId} {id : ConversationId} {through : Nat}
  {now : DateTime}

/-- The loop of `mark_read`. -/
theorem readFrom_loop {ids : List MessageId} {u : Unit}
    (h : (Tx.forEach ids fun messageId => update .messageReceipts fun w =>
      w.messageReceipts.upsert messageId .default (·.readFrom reader)).Runs w u w') (i : MessageId) :
    w'.messageReceipts.get i =
      if i ∈ ids then some (((w.messageReceipts.get i).getD .default).readFrom reader)
      else w.messageReceipts.get i := by
  induction ids generalizing w with
  | nil =>
    obtain ⟨-, rfl⟩ := Tx.runs_pure.mp h
    simp
  | cons messageId ids ih =>
    obtain ⟨_, w₁, hfirst, h⟩ := Tx.runs_bind.mp h
    rw [ih h]
    have hget : w₁.messageReceipts.get i = if i = messageId then
        some (((w.messageReceipts.get i).getD .default).readFrom reader)
        else w.messageReceipts.get i := by
      obtain ⟨-, rfl⟩ := hfirst
      show (Map.upsert ..).get i = _
      rw [Map.get_upsert]
      split
      · subst_vars
        rfl
      · rfl
    rw [hget]
    by_cases hi : i = messageId
    · subst hi
      by_cases hmem : i ∈ ids <;> simp [hmem, ReceiptState.readFrom]
    · by_cases hmem : i ∈ ids <;> simp [hi, hmem]

/-- What `mark_read` does. -/
structure MarksRead (w : World) (reader : UserId) (id : ConversationId) (w' : World) : Prop where
  member : w.readable reader id = true
  others : Evolves [.messageReceipts, .readPositions, .conversationSettings] w w'
  receipts : ∀ i, w'.messageReceipts.get i = w.messageReceipts.get i ∨
    (∃ m ∈ w.timeline id, m.id = i) ∧ w'.messageReceipts.get i =
      some (((w.messageReceipts.get i).getD .default).readFrom reader)
  event : ∃ e, w'.events = w.events ++ [e] ∧ e.recipients = w.audience id

theorem markRead_marks {u : Unit} (h : (markRead env reader id through now).Runs w u w') :
    MarksRead w reader id w' := by
  have hothers := Tx.Keeps.runs
    (R := Evolves [.messageReceipts, .readPositions, .conversationSettings]) h
  unfold markRead at h
  simp only [Tx.runs_get_bind, Tx.runs_okOr_bind, Tx.runs_failIf_bind] at h
  obtain ⟨c, hget, hread, h⟩ := h
  obtain ⟨_, w₁, hloop, h⟩ := Tx.runs_bind.mp h
  simp only [update_bind_runs] at h
  have hsilent := Tx.Keeps.runs (R := Logs fun _ _ => False) hloop
  have hevents : w₁.events = w.events := events_same hsilent
  have hreceipts : w'.messageReceipts = w₁.messageReceipts :=
    appendEvent_only h .messageReceipts (by decide)
  refine ⟨readable_of hget (by simpa using hread), hothers, fun i => ?_, ?_⟩
  · rw [hreceipts, readFrom_loop hloop i]
    split
    · rename_i hmem
      obtain ⟨m, hm, rfl⟩ := List.mem_map.mp hmem
      exact .inr ⟨⟨m, List.mem_of_mem_filter hm, rfl⟩, rfl⟩
    · exact .inl rfl
  · rw [appendEvent_runs.mp h]
    exact ⟨_, congrArg (· ++ _) hevents, (audience_of hget).symm⟩

theorem messages_congr {before : Option Nat} {limit : Nat}
    (hconv : w'.conversations = w.conversations) (hmessages : w'.messages = w.messages)
    (hexpires : w'.messageExpirations = w.messageExpirations)
    (hstatus : w.readable v id = true → ∀ m ∈ w.timeline id,
      shownStatus w'.toStore v m = shownStatus w.toStore v m) :
    messages w'.toStore now v id before limit = messages w.toStore now v id before limit := by
  unfold messages readableConversation
  rw [hconv]
  cases hget : w.conversations.get id with
  | none => rfl
  | some c =>
    dsimp only
    split
    · rename_i hread
      unfold unexpired
      rw [hmessages, hexpires]
      refine congrArg Except.ok (List.map_congr_left fun m hm => ?_)
      have hm : m ∈ w.timeline id :=
        List.mem_of_mem_filter (List.mem_reverse.mp (List.mem_of_mem_take (List.mem_reverse.mp hm)))
      rw [hstatus (readable_of hget hread) m hm]
    · rfl

theorem readableMessage_congr (hconv : w'.conversations = w.conversations)
    (hmessages : w'.messages = w.messages) (i : MessageId) :
    readableMessage w'.toStore v i = readableMessage w.toStore v i := by
  unfold readableMessage findMessage readableConversation
  rw [hconv, hmessages]

theorem details_deliveredTo (s : Store) (i : MessageId) :
    (messageDetails s v i).map (·.deliveredTo) = (readableMessage s v i).map fun _ =>
      ((s.messageReceipts.get i).getD .default).deliveredTo.sort (· ≤ ·) := by
  unfold messageDetails
  cases readableMessage s v i <;> rfl

theorem details_readBy (s : Store) (i : MessageId) :
    (messageDetails s v i).map (·.readBy) = (readableMessage s v i).map fun _ =>
      (((s.messageReceipts.get i).getD .default).readBy.filter fun userId =>
        userId = v ∨ readReceiptsEnabled s userId).sort (· ≤ ·) := by
  unfold messageDetails
  cases readableMessage s v i <;> rfl

theorem map_congr_ok {ε α β : Type} {x : Except ε α} {f g : α → β}
    (h : ∀ a, x = .ok a → f a = g a) : x.map f = x.map g := by
  cases x with
  | error e => rfl
  | ok a => exact congrArg Except.ok (h a rfl)

/-! ## Who notices -/

/-- The messages somebody else can read have the receipts they had. -/
theorem MarksRead.receipts_same (h : MarksRead w reader id w') (ht : Timelines env w)
    (hnot : w.readable v id = false) {c : ConversationId} {m : Message} (hm : m ∈ w.timeline c)
    (hread : w.readable v c = true) :
    w'.messageReceipts.get m.id = w.messageReceipts.get m.id := by
  rcases h.receipts m.id with hsame | ⟨⟨m', hm', hid⟩, -⟩
  · exact hsame
  · obtain ⟨i, hi⟩ := Store.messageAt_of_mem hm
    obtain ⟨j, hj⟩ := Store.messageAt_of_mem hm'
    obtain ⟨rfl, -⟩ := ht.unique hi hj hid.symm
    rw [hread] at hnot
    cases hnot

theorem MarksRead.shownStatus_same (h : MarksRead w reader id w') {m : Message}
    (hreceipts : w'.messageReceipts.get m.id = w.messageReceipts.get m.id) :
    shownStatus w'.toStore v m = shownStatus w.toStore v m := by
  have hprivacy : w'.profilePrivacy = w.profilePrivacy :=
    h.others.same .profilePrivacy (by decide)
  unfold shownStatus readReceiptsEnabled
  rw [hreceipts, hprivacy]

/-- A disabled receipt is dropped from `read_by`. -/
theorem MarksRead.readBy_same (h : MarksRead w reader id w')
    (hdisabled : readReceiptsEnabled w.toStore reader = false) (hne : reader ≠ v) (i : MessageId) :
    (messageDetails w'.toStore v i).map (·.readBy) =
      (messageDetails w.toStore v i).map (·.readBy) := by
  have hprivacy : w'.profilePrivacy = w.profilePrivacy :=
    h.others.same .profilePrivacy (by decide)
  have henabled : ∀ u, readReceiptsEnabled w'.toStore u = readReceiptsEnabled w.toStore u := by
    intro u
    unfold readReceiptsEnabled
    rw [hprivacy]
  rw [details_readBy, details_readBy, readableMessage_congr (h.others.same .conversations (by decide))
    (h.others.same .messages (by decide))]
  refine map_congr_ok fun m _ => congrArg (Finset.sort · (· ≤ ·)) ?_
  simp only [henabled]
  rcases h.receipts i with hsame | ⟨-, hget⟩
  · rw [hsame]
  · rw [hget, Option.getD_some]
    unfold ReceiptState.readFrom
    rw [Finset.filter_insert, if_neg (by simp [hne, hdisabled])]

/-- The event is addressed to the members. -/
theorem MarksRead.payloads (h : MarksRead w reader id w') :
    (addressed w'.toStore v).length =
      (addressed w.toStore v).length + if w.readable v id then 1 else 0 := by
  obtain ⟨e, he, hrecipients⟩ := h.event
  have haddressed : e.addressedTo v = w.readable v id := by
    rw [Bool.eq_iff_iff, ← Store.mem_audience, ← hrecipients]
    simp [UserEvent.addressedTo]
  unfold addressed
  rw [he, List.filter_append, List.map_append, List.length_append]
  congr 1
  cases hread : w.readable v id <;> simp [haddressed, hread]

/-- A member sees one event more. -/
theorem MarksRead.noticed (h : MarksRead w reader id w') (hread : w.readable v id = true) :
    ¬ SameReading v w w' := by
  intro hsame
  have hlength := congrArg List.length hsame.payloads
  rw [List.length_map, List.length_map, h.payloads, if_pos hread] at hlength
  omega

theorem MarksRead.sameReading (h : MarksRead w reader id w') (ht : Timelines env w)
    (hnot : w.readable v id = false) : SameReading v w w' := by
  have hconv : w'.conversations = w.conversations := h.others.same .conversations (by decide)
  have hmessages : w'.messages = w.messages := h.others.same .messages (by decide)
  have hprivacy : w'.profilePrivacy = w.profilePrivacy :=
    h.others.same .profilePrivacy (by decide)
  have hreceipts : ∀ i m, readableMessage w.toStore v i = .ok m →
      w'.messageReceipts.get i = w.messageReceipts.get i := by
    intro i m hok
    obtain ⟨hfind, hread⟩ := readableMessage_ok hok
    obtain ⟨rfl, c, hm⟩ := findMessage_some hfind
    obtain ⟨j, hj⟩ := Store.messageAt_of_mem hm
    rw [ht.home hj] at hread
    exact h.receipts_same ht hnot hm hread
  constructor
  · intro now c before limit
    rw [messages_congr hconv hmessages (h.others.same .messageExpirations (by decide))]
    exact fun hread m hm => h.shownStatus_same (h.receipts_same ht hnot hm hread)
  · intro i
    rw [details_deliveredTo, details_deliveredTo, readableMessage_congr hconv hmessages]
    exact map_congr_ok fun m hok => by rw [hreceipts i m hok]
  · intro i
    rw [details_readBy, details_readBy, readableMessage_congr hconv hmessages]
    refine map_congr_ok fun m hok => ?_
    unfold readReceiptsEnabled
    rw [hreceipts i m hok, hprivacy]
  · obtain ⟨e, he, hrecipients⟩ := h.event
    have haddressed : e.addressedTo v = false := by
      rw [← hnot, Bool.eq_iff_iff, ← Store.mem_audience, ← hrecipients]
      simp [UserEvent.addressedTo]
    unfold addressed
    rw [he, List.filter_append]
    simp [haddressed]

end

/-- **Read receipts.** `mark_read` of a user with read receipts disabled is hidden from exactly
those who are not in the conversation. It shows in nobody's `read_by`. -/
theorem reading_hidden (env : Env) (hu : Function.Injective env.uuid) (w : World)
    (hw : (service env).Reachable w) (reader v : UserId) (hne : reader ≠ v)
    (hdisabled : readReceiptsEnabled w.toStore reader = false) (id : ConversationId)
    (through : Nat) (now : DateTime) (w' : World)
    (hr : (markRead env reader id through now).Runs w () w') :
    (SameReading v w w' ↔ w.readable v id = false) ∧
      ∀ i, (messageDetails w'.toStore v i).map (·.readBy) =
        (messageDetails w.toStore v i).map (·.readBy) := by
  have h := markRead_marks hr
  refine ⟨⟨fun hsame => ?_, h.sameReading (reachable_timelines hu hw)⟩,
    h.readBy_same hdisabled hne⟩
  exact Bool.eq_false_iff.mpr fun hread => h.noticed hread hsame

/-- Bob, user 4, disables his read receipts; Alice writes to the group of the two. -/
def receiptsDisabled : List Op :=
  aliceAndBob ++ [.updateProfilePrivacy 4 { ProfilePrivacySettings.default with
    readReceiptsEnabled := false } 0, .sendMessageRequest 1 11 (.text 100 "hi") 0]

/-- User 99 is not in the group. -/
theorem reading_hidden_outside : ∃ w w', (service Env.numbered).Reachable w ∧
    readReceiptsEnabled w.toStore 4 = false ∧ (markRead Env.numbered 4 11 1 0).Runs w () w' ∧
    SameReading 99 w w' := by
  obtain ⟨w, _, w', hw, hr, hp⟩ := reaches_runs Env.numbered receiptsDisabled
    (markRead Env.numbered 4 11 1 0) (fun w _ _ =>
      !readReceiptsEnabled w.toStore 4 && !w.readable 99 11) (by decide +kernel)
  simp only [Bool.and_eq_true, Bool.not_eq_true'] at hp
  have hreach := reachable_of_run hw
  exact ⟨w, w', hreach, hp.1, hr, (reading_hidden Env.numbered Env.numbered_injective w hreach 4 99
    (by decide) hp.1 11 1 0 w' hr).1.mpr hp.2⟩

/-- Alice is: she is told that Bob has read her message, and it is shown as delivered to him. -/
theorem reading_seen : ∃ w w', (service Env.numbered).Reachable w ∧
    readReceiptsEnabled w.toStore 4 = false ∧ (markRead Env.numbered 4 11 1 0).Runs w () w' ∧
    ¬ SameReading 1 w w' ∧ ∃ m ∈ w.timeline 11, shownStatus w.toStore 1 m = .sent ∧
      shownStatus w'.toStore 1 m = .delivered := by
  obtain ⟨w, _, w', hw, hr, hp⟩ := reaches_runs Env.numbered receiptsDisabled
    (markRead Env.numbered 4 11 1 0) (fun w _ w' => !readReceiptsEnabled w.toStore 4 &&
      w.readable 1 11 && (w.timeline 11).any fun m => shownStatus w.toStore 1 m == .sent &&
        shownStatus w'.toStore 1 m == .delivered) (by decide +kernel)
  simp only [Bool.and_eq_true, Bool.not_eq_true', List.any_eq_true, beq_iff_eq] at hp
  obtain ⟨⟨hdisabled, hread⟩, hstatus⟩ := hp
  exact ⟨w, w', reachable_of_run hw, hdisabled, hr, (markRead_marks hr).noticed hread, hstatus⟩

end IamRust
