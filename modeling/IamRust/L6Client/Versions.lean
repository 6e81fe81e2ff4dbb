import IamRust.L0Core.Interleave
import IamRust.L6Client.LocalStore

/-!
# Versions of a message in the cache

For each sync event the client spawns a task that records the event and then
caches the message it carries. Nothing orders the tasks, and `cache_messages`
writes whatever it is given: the task that comes last decides.

* `latest_cached`: if no task comes behind the one of a later event, the cache
  shows the message of the last event, in the row and in the search index.
* `recalled_text_returns`: a recalled text that is cached again.
-/
namespace IamRust

open Core

/-- The message of a created or updated event.
mirrors apps/desktop/src/ui.rs:3052-3060 -/
def SyncEvent.message? (event : SyncEvent) : Option Message :=
  match event.kind, event.payload with
  | .messageCreated, .message message | .messageCreated, .messageForwarded message
  | .messageUpdated, .message message | .messageUpdated, .messageForwarded message => some message
  | _, _ => none

/-- Where the task of an event is. -/
inductive Handling where
  | spawned | recorded | done
  deriving DecidableEq, Repr

section
variable {ι : Type} [DecidableEq ι] (rfc3339 : DateTime → String) (keyed : Bool)

/-- One task for each event; what the calls return is not looked at.
mirrors apps/desktop/src/ui.rs:3070-3078 -/
def handleSyncEvents (events : ι → SyncEvent) : Threads ι Cache Handling Unit where
  init _ f := ∀ i, f i = .spawned
  step i s t _ :=
    match t with
    | .spawned => some (((recordSyncEvent (events i)).commit s).2, .recorded)
    | .recorded =>
      match (events i).message? with
      | none => some (s, .done)
      | some message => some (((cacheMessages rfc3339 keyed [message]).commit s).2, .done)
    | .done => none

end

/-- The row and the index are those of the message. -/
structure LocalStore.Shows (keyed : Bool) (s : Cache) (message : Message) : Prop where
  row : ∃ row, s.messages.get message.id = some row ∧ row.payload = message ∧
    row.sequence = message.sequence
  index : s.search.filter (·.messageId == message.id) = message.searchRows keyed

/-- The events are about one message. -/
def OneMessage {ι : Type} (events : ι → SyncEvent) (id : MessageId) : Prop :=
  ∀ i, ∃ message, (events i).message? = some message ∧ message.id = id

/-- A task that caches comes behind no task of a later event, and the store takes its message. -/
def InCursorOrder {ι : Type} (events : ι → SyncEvent) (x : Cache × (ι → Handling))
    (l : ι × Unit) : Prop :=
  x.2 l.1 = .recorded → (∀ j, x.2 j = .done → (events j).cursor ≤ (events l.1).cursor) ∧
    ∀ message, (events l.1).message? = some message → x.1.Accepts message

/-! ## One step -/

section
variable {rfc3339 : DateTime → String} {keyed : Bool} {s s' : Cache} {message : Message}

/-- The messages and their index as they were. -/
def SameMessages (s s' : Cache) : Prop := s'.messages = s.messages ∧ s'.search = s.search

theorem recordSyncEvent_same (event : SyncEvent) (s : Cache) :
    SameMessages s ((recordSyncEvent event).commit s).2 := by
  unfold Tx.commit
  split
  · rename_i b s' h
    replace h : (recordSyncEvent event).Runs s b s' := h
    unfold recordSyncEvent at h
    rw [Tx.runs_get_bind] at h
    split at h
    · obtain ⟨-, rfl⟩ := Tx.runs_pure.mp h
      exact ⟨rfl, rfl⟩
    · obtain ⟨cursor, -, h⟩ := Tx.runs_ofExcept_bind.mp h
      split at h
      · obtain ⟨-, rfl⟩ := Tx.runs_pure.mp h
        exact ⟨rfl, rfl⟩
      · simp only [Tx.runs_failIf_bind, Tx.runs_modify_bind, Tx.runs_pure] at h
        obtain ⟨-, -, -, rfl⟩ := h
        exact ⟨rfl, rfl⟩
  · exact ⟨rfl, rfl⟩

theorem LocalStore.Shows.same (h : s.Shows keyed message) (hs : SameMessages s s') :
    s'.Shows keyed message where
  row := hs.1 ▸ h.row
  index := hs.2 ▸ h.index

theorem Message.searchRows_id {keyed : Bool} {message : Message} :
    ∀ entry ∈ message.searchRows keyed, entry.messageId = message.id := by
  intro entry he
  unfold Message.searchRows at he
  split at he
  · split at he
    · cases he
    · rw [List.mem_singleton] at he
      rw [he]
  · cases he

/-- A message that was cached is shown. -/
theorem LocalStore.shows_cached (rfc3339 : DateTime → String) (keyed : Bool) (s : Cache)
    (message : Message) : (s.cached rfc3339 keyed message message).Shows keyed message where
  row := by
    refine ⟨_, Map.get_insert_self .., ?_⟩
    unfold LocalStore.row
    split <;> exact ⟨rfl, rfl⟩
  index := by
    unfold LocalStore.cached
    rw [List.filter_append, List.filter_filter]
    have hold : ∀ entry : SearchRow,
        (entry.messageId == message.id && entry.messageId != message.id) = false := fun entry => by
      cases h : entry.messageId == message.id <;> simp [bne, h]
    simp only [hold, List.filter_false, List.nil_append]
    exact List.filter_eq_self.mpr fun entry he => by simp [Message.searchRows_id entry he]

end

/-! ## Runs -/

section
variable {ι : Type} [DecidableEq ι] {rfc3339 : DateTime → String} {keyed : Bool}
  {events : ι → SyncEvent} {id : MessageId}

/-- Of the tasks that are done, one with the highest cursor is shown. -/
def ShowsLatest (keyed : Bool) (events : ι → SyncEvent) (x : Cache × (ι → Handling)) : Prop :=
  (∃ i, x.2 i = .done) → ∃ i message, x.2 i = .done ∧
    (∀ j, x.2 j = .done → (events j).cursor ≤ (events i).cursor) ∧
    (events i).message? = some message ∧ x.1.Shows keyed message

theorem showsLatest_inductive (h : OneMessage events id) :
    ((handleSyncEvents rfc3339 keyed events).lts.restrict (InCursorOrder events)).Inductive
      (ShowsLatest keyed events) where
  init x hx := by
    rintro ⟨i, hi⟩
    rw [hx i] at hi
    cases hi
  step := by
    rintro ⟨s, f⟩ ⟨i, ⟨⟩⟩ ⟨s', f'⟩ hI ⟨hok, t, hstep, rfl⟩
    unfold ShowsLatest InCursorOrder at *
    dsimp only at *
    simp only [handleSyncEvents] at hstep
    cases hi : f i with
    | done => simp [hi] at hstep
    | spawned =>
      simp only [hi, Option.some.injEq, Prod.mk.injEq] at hstep
      obtain ⟨rfl, rfl⟩ := hstep
      -- the tasks that are done are those there were
      have hdone : ∀ j, Function.update f i .recorded j = .done ↔ f j = .done := fun j => by
        by_cases hj : j = i
        · subst hj
          simp [hi]
        · simp [hj]
      simp only [hdone]
      intro hsome
      obtain ⟨j, message, hj, hmax, hm, hshows⟩ := hI hsome
      exact ⟨j, message, hj, hmax, hm, hshows.same (recordSyncEvent_same (events i) s)⟩
    | recorded =>
      obtain ⟨hlast, haccepts⟩ := hok hi
      obtain ⟨message, hm, -⟩ := h i
      simp only [hi, hm, Option.some.injEq, Prod.mk.injEq] at hstep
      obtain ⟨rfl, rfl⟩ := hstep
      rw [cacheMessages_commit, if_pos (haccepts message hm)]
      refine fun _ => ⟨i, message, by simp, fun j hj => ?_, hm,
        LocalStore.shows_cached rfc3339 keyed s message⟩
      by_cases hji : j = i
      · rw [hji]
      · exact hlast j (by simpa [hji] using hj)

/-- **The last version is what the cache shows**, in every run in which no task comes behind one of
a later event: whenever all tasks are done, and before that of those that are done. -/
theorem latest_cached (events : ι → SyncEvent) (id : MessageId) (h : OneMessage events id)
    (x : Cache × (ι → Handling))
    (hx : ((handleSyncEvents rfc3339 keyed events).lts.restrict (InCursorOrder events)).Reachable x)
    (i : ι) (hi : x.2 i = .done)
    (hmax : ∀ j, x.2 j = .done → j ≠ i → (events j).cursor < (events i).cursor) :
    ∃ message, (events i).message? = some message ∧ x.1.Shows keyed message := by
  obtain ⟨j, message, hj, hlast, hm, hshows⟩ := (showsLatest_inductive h).reachable hx ⟨i, hi⟩
  have hij : j = i := by
    by_contra hne
    have := hmax j hj hne
    have := hlast i hi
    omega
  subst hij
  exact ⟨message, hm, hshows⟩

end

/-! ## A text and its recall -/

/-- Alice's text in the conversation 9. -/
def hiMessage : Message where
  id := 14
  clientMessageId := 0
  conversationId := 9
  senderId := 1
  sequence := some 1
  content := .text "hi"
  status := .sent
  replyTo := none
  mentions := []
  mentionAll := false
  createdAt := 0
  serverCreatedAt := some 0
  editedAt := none

/-- Its recall has the later event. -/
def hiAndRecall : Bool → SyncEvent
  | false => ⟨21, 1, .messageCreated, .message hiMessage, 0⟩
  | true => ⟨22, 2, .messageUpdated, .message (hiMessage.recalled 5), 5⟩

theorem hiAndRecall_oneMessage : OneMessage hiAndRecall 14
  | false => ⟨_, rfl, rfl⟩
  | true => ⟨_, rfl, rfl⟩

def knowsConversation : Cache where
  conversations := Map.empty.insert 9 ()

/-- The condition for the two tasks, decided. -/
def inCursorOrder (x : Cache × (Bool → Handling)) (l : Bool × Unit) : Bool :=
  x.2 l.1 != .recorded || ((x.2 !l.1) != .done ||
    decide ((hiAndRecall !l.1).cursor ≤ (hiAndRecall l.1).cursor)) &&
    (hiAndRecall l.1).message?.all fun message => decide (x.1.Accepts message)

theorem inCursorOrder_of (x : Cache × (Bool → Handling)) (l : Bool × Unit)
    (h : inCursorOrder x l = true) : InCursorOrder hiAndRecall x l := by
  intro hrecorded
  simp only [inCursorOrder, hrecorded, Bool.and_eq_true, Bool.or_eq_true, bne_iff_ne, ne_eq,
    not_true_eq_false, false_or, decide_eq_true_eq] at h
  refine ⟨fun j hj => ?_, fun message hm => ?_⟩
  · by_cases hjl : j = l.1
    · rw [hjl]
    · obtain rfl : j = !l.1 := Bool.eq_not.mpr hjl
      exact h.1.resolve_left fun hne => hne hj
  · have haccepts := h.2
    rw [hm] at haccepts
    exact of_decide_eq_true haccepts

/-- In the order of the events the recall is what stays. -/
theorem latest_cached_in_order : ∃ x,
    ((handleSyncEvents (fun _ => "") false hiAndRecall).lts.restrict
      (InCursorOrder hiAndRecall)).Reachable x ∧ (∀ i, x.2 i = .done) ∧
    ∃ message, (hiAndRecall true).message? = some message ∧ x.1.Shows false message := by
  obtain ⟨x, hx, hp⟩ := Threads.reaches_checked (handleSyncEvents (fun _ => "") false hiAndRecall)
    inCursorOrder_of (knowsConversation, fun _ => .spawned) (fun _ => rfl)
    [(false, ()), (true, ()), (false, ()), (true, ())]
    (fun x => x.2 false == .done && x.2 true == .done) (by decide +kernel)
  simp only [Bool.and_eq_true, beq_iff_eq] at hp
  have hdone : ∀ i, x.2 i = .done
    | false => hp.1
    | true => hp.2
  refine ⟨x, hx, hdone, latest_cached hiAndRecall 14 hiAndRecall_oneMessage x hx true hp.2 ?_⟩
  intro j _ hj
  cases j with
  | false => decide
  | true => exact absurd rfl hj

/-- The task of the recall is done first: the cache shows the text again, and finds it. -/
theorem recalled_text_returns : ∃ x,
    (handleSyncEvents (fun _ => "") false hiAndRecall).lts.Reachable x ∧ (∀ i, x.2 i = .done) ∧
    ¬ x.1.Shows false (hiMessage.recalled 5) ∧
    (x.1.messages.get 14).map (·.payload.status) = some .sent ∧
    x.1.search = [⟨14, 9, 1, "hi"⟩] := by
  obtain ⟨x, hx, hp⟩ := Threads.reaches (handleSyncEvents (fun _ => "") false hiAndRecall)
    (knowsConversation, fun _ => .spawned) (fun _ => rfl)
    [(false, ()), (true, ()), (true, ()), (false, ())]
    (fun x => (x.2 false == .done && x.2 true == .done) &&
      ((x.1.messages.get 14).map (·.payload.status) == some .sent &&
        x.1.search == [⟨14, 9, 1, "hi"⟩])) (by decide +kernel)
  simp only [Bool.and_eq_true, beq_iff_eq] at hp
  obtain ⟨⟨hfalse, htrue⟩, hstatus, hsearch⟩ := hp
  have hdone : ∀ i, x.2 i = .done
    | false => hfalse
    | true => htrue
  refine ⟨x, hx, hdone, fun hshows => ?_, hstatus, hsearch⟩
  have hindex := hshows.index
  rw [hsearch] at hindex
  exact absurd hindex (by decide)

end IamRust
