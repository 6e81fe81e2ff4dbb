import IamRust.L6Client.Searching

/-!
# A message that is given up

`discard_pending_message` goes by the client id alone, which is unique only
together with the sender (`UNIQUE (sender_id, client_message_id)`); and a
message may have got its sequence meanwhile.

* `discard_touches_iff`: only the unsent message of the user goes, exactly if
  every row under the client id is one.
* `others_message_discarded`: a message of somebody else under the client id.
-/
namespace IamRust

open Core

section
variable {γ π ρ : Type}

/-- The row is an unsent message of the user under the client id. -/
def CachedMessage.PendingOf (me : UserId) (clientMessageId : MessageId) (row : CachedMessage π) :
    Prop :=
  row.clientMessageId = clientMessageId ∧ row.senderId = me ∧ row.sequence = none

instance {me : UserId} {clientMessageId : MessageId} {row : CachedMessage π} :
    Decidable (row.PendingOf me clientMessageId) :=
  inferInstanceAs (Decidable (_ ∧ _))

/-- The entries of the search index for a message. -/
def LocalStore.entriesOf (s : LocalStore γ π ρ) (id : MessageId) : List SearchRow :=
  s.search.filter (·.messageId == id)

/-- The entry of the outbox and the unsent message of the user go, with what the index has of the
message; everything else stays. -/
structure LocalStore.DiscardsOnly (me : UserId) (clientMessageId : MessageId)
    (s s' : LocalStore γ π ρ) : Prop where
  outbox : s'.outbox = s.outbox.remove clientMessageId
  gone : ∀ id row, s.messages.get id = some row → row.PendingOf me clientMessageId →
    s'.messages.get id = none ∧ s'.entriesOf id = []
  kept : ∀ id row, s.messages.get id = some row → ¬ row.PendingOf me clientMessageId →
    s'.messages.get id = some row ∧ s'.entriesOf id = s.entriesOf id
  absent : ∀ id, s.messages.get id = none →
    s'.messages.get id = none ∧ s'.entriesOf id = s.entriesOf id
  conversations : s'.conversations = s.conversations
  syncCursor : s'.syncCursor = s.syncCursor
  seenEvents : s'.seenEvents = s.seenEvents

/-- The store behind the call. -/
def LocalStore.discarded (s : LocalStore γ π ρ) (clientMessageId : MessageId) :
    LocalStore γ π ρ :=
  ((discardPendingMessage clientMessageId).commit s).2

section
variable {s : LocalStore γ π ρ} {clientMessageId : MessageId} {id : MessageId}

theorem discarded_get :
    (s.discarded clientMessageId).messages.get id =
      (s.messages.get id).filter (·.clientMessageId != clientMessageId) :=
  Map.get_retain ..

theorem discarded_entries :
    (s.discarded clientMessageId).entriesOf id =
      if (s.messages.get id).any (·.clientMessageId == clientMessageId) then []
      else s.entriesOf id := by
  have hsearch : (s.discarded clientMessageId).search = s.search.filter fun entry =>
      !(s.messages.get entry.messageId).any fun row => row.clientMessageId == clientMessageId := rfl
  unfold LocalStore.entriesOf
  rw [hsearch, List.filter_filter]
  split
  · rename_i hrow
    refine List.filter_eq_nil_iff.mpr fun entry _ => ?_
    rw [Bool.and_eq_true, beq_iff_eq]
    rintro ⟨rfl, hnot⟩
    rw [hrow] at hnot
    cases hnot
  · rename_i hrow
    refine List.filter_congr fun entry _ => ?_
    by_cases hid : entry.messageId = id
    · rw [hid]
      simp [hrow]
    · simp [hid]

/-- What is discarded under the client id should have been. -/
theorem LocalStore.DiscardsOnly.pendingOf {me : UserId} {row : CachedMessage π}
    (h : s.DiscardsOnly me clientMessageId (s.discarded clientMessageId))
    (hrow : s.messages.get id = some row) (hclient : row.clientMessageId = clientMessageId) :
    row.PendingOf me clientMessageId := by
  by_contra hnot
  have hkept := (h.kept id row hrow hnot).1
  rw [discarded_get, hrow] at hkept
  simp [hclient] at hkept

end

/-- **Only the unsent message of the user goes**, exactly if every row under the client id is one. -/
theorem discard_touches_iff (s : LocalStore γ π ρ) (me : UserId) (clientMessageId : MessageId) :
    s.DiscardsOnly me clientMessageId (s.discarded clientMessageId) ↔
      ∀ id row, s.messages.get id = some row → row.clientMessageId = clientMessageId →
        row.senderId = me ∧ row.sequence = none := by
  constructor
  · intro h id row hrow hclient
    exact (h.pendingOf hrow hclient).2
  · intro h
    refine ⟨rfl, fun id row hrow hp => ?_, fun id row hrow hp => ?_, fun id hrow => ?_, rfl, rfl,
      rfl⟩
    · rw [discarded_get, discarded_entries, hrow]
      simp [hp.1]
    · have hother : row.clientMessageId ≠ clientMessageId := fun hclient =>
        hp ⟨hclient, h id row hrow hclient⟩
      rw [discarded_get, discarded_entries, hrow]
      simp [hother]
    · rw [discarded_get, discarded_entries, hrow]
      simp

end

/-! ## A client id two members share -/

/-- Alice's text, not sent yet. -/
def unsentMessage : Message :=
  { hiMessage with id := 0, sequence := none, status := .pending, serverCreatedAt := none }

/-- Bob's text, under the same client id. -/
def bobsMessage : Message := { hiMessage with id := 16, senderId := 4 }

/-- Alice, user 1, gives up her message: Bob's goes with it. -/
theorem others_message_discarded : ∃ s, (caching false).Reachable s ∧
    (∃ row, s.messages.get 0 = some row ∧ row.PendingOf 1 0) ∧
    ¬ s.DiscardsOnly 1 0 (s.discarded 0) := by
  have hs : (caching false).Reachable _ :=
    ⟨knowsConversation, [[unsentMessage], [bobsMessage]], rfl, .cons rfl (.cons rfl (.nil _))⟩
  obtain ⟨hmine, hbobs⟩ :
      (((cacheMessages toRfc3339 false [bobsMessage]).commit
        ((cacheMessages toRfc3339 false [unsentMessage]).commit knowsConversation).2).2.messages.get
          0).any (fun row => decide (row.PendingOf 1 0)) = true ∧
      (((cacheMessages toRfc3339 false [bobsMessage]).commit
        ((cacheMessages toRfc3339 false [unsentMessage]).commit knowsConversation).2).2.messages.get
          16).any (fun row => row.clientMessageId == 0 && row.senderId == 4) = true := by
    decide +kernel
  refine ⟨_, hs, by simpa [Option.any_eq_true] using hmine, fun h => ?_⟩
  obtain ⟨row, hget, hrow⟩ := (Option.any_eq_true ..).mp hbobs
  simp only [Bool.and_eq_true, beq_iff_eq] at hrow
  obtain ⟨hclient, hsender⟩ := hrow
  have hmine := (h.pendingOf hget hclient).2.1
  rw [hsender] at hmine
  cases hmine

end IamRust
