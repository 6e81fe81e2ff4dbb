import IamRust.L3Service.Client
import Mathlib.Data.List.Sort

/-!
# The client's local store

The SQLite cache of the desktop client: conversations, messages with their
search index, outbox, sync cursor. A function is one transaction
(`Tx String LocalStore`); its caller commits it or, on an error, leaves the
store as it was.

* A table is a map from the primary key to the other columns; `UNIQUE` and
  `REFERENCES` are the guards of the functions that write.
* An identifier is a column of type TEXT with a printed UUID, here the UUID.
  `validate_uuid` holds of each.
* What a conversation's row, a message's payload and a request's payload hold
  is left open (`γ`, `π`, `ρ`): the values themselves in a `Cache`, the texts
  of the columns in `IamRust.L6Client.Cells`. `keyed` says whether a cache key
  is in memory.
* A time in a column is the text `rfc3339` prints, and is compared as text.
-/
namespace IamRust

open Core
open Core.Tx (failIf okOr forEach)

/-- `i64::MAX`. -/
def i64Max : Nat := 2 ^ 63 - 1

/-! ## Tables -/

/-- mirrors crates/client-core/migrations/0001_local.sql:35-48 -/
structure CachedMessage (π : Type) where
  clientMessageId : MessageId
  conversationId : ConversationId
  senderId : UserId
  sequence : Option Nat
  kind : String
  payload : π
  createdAt : String

/-- mirrors crates/client-core/migrations/0001_local.sql:52-58 -/
structure SearchRow where
  messageId : MessageId
  conversationId : ConversationId
  senderId : UserId
  body : String
  deriving DecidableEq

/-- mirrors crates/client-core/migrations/0001_local.sql:67-76 -/
structure OutboxRow (ρ : Type) where
  conversationId : ConversationId
  payload : ρ
  attemptCount : Nat
  nextAttemptAt : String
  lastErrorCode : Option String
  createdAt : String

/-- `syncCursor` is the value of the row `sync_cursor` of `local_meta`. -/
structure LocalStore (γ π ρ : Type) where
  conversations : Map ConversationId γ := .empty
  messages : Map MessageId (CachedMessage π) := .empty
  search : List SearchRow := []
  outbox : Map MessageId (OutboxRow ρ) := .empty
  syncCursor : Option String := some "0"
  seenEvents : Map Uuid Nat := .empty

/-- The store with the values its payloads stand for; the payload of an entry of the outbox is
`none` if it is not the JSON of a request. -/
abbrev Cache := LocalStore Unit Message (Option SendMessageRequest)

/-- `kind` of `cached_messages`.
mirrors crates/client-core/src/lib.rs:241-249 -/
def MessageContent.kindName : MessageContent → String
  | .text _ => "text"
  | .image _ => "image"
  | .file _ => "file"
  | .audio _ _ => "audio"
  | .sticker _ _ => "sticker"
  | .forwardBundle _ _ => "forward_bundle"
  | .system _ => "system"

section
variable {γ π ρ : Type}

/-! ## Messages -/

/-- Same sender and client id under another id. -/
def CachedMessage.superseded (message : Message) (id : MessageId) (row : CachedMessage π) :
    Bool :=
  row.senderId == message.senderId && row.clientMessageId == message.clientMessageId &&
    id != message.id

/-- mirrors crates/client-core/src/lib.rs:250-275 -/
def LocalStore.supersede (s : LocalStore γ π ρ) (message : Message) : LocalStore γ π ρ :=
  { s with
    search := s.search.filter fun entry => !(s.messages.get entry.messageId).any fun row =>
      row.superseded message entry.messageId
    messages := s.messages.retain fun id row => !row.superseded message id }

section
variable (rfc3339 : DateTime → String)

/-- A new row, or the old one with the columns of `DO UPDATE` overwritten. -/
def LocalStore.row (s : LocalStore γ π ρ) (message : Message) (payload : π) : CachedMessage π :=
  match s.messages.get message.id with
  | some row => { row with sequence := message.sequence, payload := payload }
  | none => {
      clientMessageId := message.clientMessageId
      conversationId := message.conversationId
      senderId := message.senderId
      sequence := message.sequence
      kind := message.content.kindName
      payload := payload
      createdAt := rfc3339 message.createdAt }

/-- The foreign key of a new row, and `UNIQUE (conversation_id, sequence)`: an old row keeps its
conversation. -/
def LocalStore.rejects (s : LocalStore γ π ρ) (message : Message) : Bool :=
  let conversationId := match s.messages.get message.id with
    | some row => row.conversationId
    | none => message.conversationId
  (!s.messages.containsKey message.id && !s.conversations.containsKey message.conversationId) ||
    message.sequence.isSome && s.messages.entries.any fun entry =>
      entry.1 != message.id && entry.2.sequence == message.sequence &&
        entry.2.conversationId == conversationId

/-- The entry of the search index a message gets: a text, as long as there is no key. -/
def Message.searchRows (keyed : Bool) (message : Message) : List SearchRow :=
  match message.content with
  | .text body =>
    if keyed then [] else [⟨message.id, message.conversationId, message.senderId, body⟩]
  | _ => []

/-- `asPayload` makes the payload of the column.
mirrors crates/client-core/src/lib.rs:237-321 -/
def cacheMessage (keyed : Bool) (asPayload : Message → Except String π) (message : Message) :
    Tx String (LocalStore γ π ρ) Unit := do
  let payload ← Tx.ofExcept (asPayload message)
  modify (·.supersede message)
  failIf (message.sequence.any fun n => decide (i64Max < n)) "message sequence is too large"
  let s ← get
  failIf (s.rejects message) "failed to cache message"
  modify fun s => { s with
    messages := s.messages.insert message.id (s.row rfc3339 message payload)
    search := s.search.filter (·.messageId != message.id) ++ message.searchRows keyed }

/-- `asPayload i` makes the payload of the `i`-th message.
mirrors crates/client-core/src/lib.rs:230-327 -/
def cacheMessagesWith (keyed : Bool) (asPayload : Nat → Message → Except String π)
    (messages : List Message) : Tx String (LocalStore γ π ρ) Unit :=
  forEach messages.zipIdx fun entry => cacheMessage rfc3339 keyed (asPayload entry.2) entry.1

/-- The same where a payload is the message. -/
def cacheMessages (keyed : Bool) (messages : List Message) : Tx String Cache Unit :=
  cacheMessagesWith rfc3339 keyed (fun _ => .ok) messages

end

/-- The store takes the message. -/
def LocalStore.Accepts (s : LocalStore γ π ρ) (message : Message) : Prop :=
  message.sequence.all (fun n => decide (n ≤ i64Max)) = true ∧
    (s.supersede message).rejects message = false

instance {s : LocalStore γ π ρ} {message : Message} : Decidable (s.Accepts message) :=
  inferInstanceAs (Decidable (_ ∧ _))

section
variable {rfc3339 : DateTime → String} {keyed : Bool} {message : Message}

theorem LocalStore.row_payload (s : LocalStore γ π ρ) (message : Message) (payload : π) :
    (s.row rfc3339 message payload).payload = payload := by
  unfold LocalStore.row
  split <;> rfl

/-- The store behind a message that was cached. -/
def LocalStore.cached (rfc3339 : DateTime → String) (keyed : Bool) (s : LocalStore γ π ρ)
    (message : Message) (payload : π) : LocalStore γ π ρ :=
  let s := s.supersede message
  { s with
    messages := s.messages.insert message.id (s.row rfc3339 message payload)
    search := s.search.filter (·.messageId != message.id) ++ message.searchRows keyed }

theorem cacheMessage_runs {asPayload : Message → Except String π} {s s' : LocalStore γ π ρ} :
    (cacheMessage rfc3339 keyed asPayload message).Runs s () s' ↔
      ∃ payload, asPayload message = .ok payload ∧ s.Accepts message ∧
        s' = s.cached rfc3339 keyed message payload := by
  have hfits : (¬ message.sequence.any (fun n => decide (i64Max < n)) = true) ↔
      message.sequence.all (fun n => decide (n ≤ i64Max)) = true := by
    cases message.sequence <;> simp
  unfold cacheMessage
  simp only [Tx.runs_ofExcept_bind, Tx.runs_modify_bind, Tx.runs_failIf_bind, Tx.runs_get_bind,
    Tx.runs_modify, hfits, LocalStore.Accepts, Bool.not_eq_true, and_assoc]
  rfl

theorem cacheMessages_runs {s s' : Cache} : (cacheMessages rfc3339 keyed [message]).Runs s () s' ↔
    s.Accepts message ∧ s' = s.cached rfc3339 keyed message message := by
  have hone : cacheMessages rfc3339 keyed [message] =
      (do cacheMessage rfc3339 keyed .ok message; pure ()) := rfl
  rw [hone, Tx.runs_bind]
  constructor
  · rintro ⟨⟨⟩, s₁, h, hp⟩
    obtain ⟨payload, hok, haccepts, rfl⟩ := cacheMessage_runs.mp h
    cases hok
    exact ⟨haccepts, (Tx.runs_pure.mp hp).2⟩
  · rintro ⟨haccepts, rfl⟩
    exact ⟨(), _, cacheMessage_runs.mpr ⟨_, rfl, haccepts, rfl⟩, Tx.runs_pure.mpr ⟨rfl, rfl⟩⟩

/-- The store after one message, taken or not. -/
theorem cacheMessages_commit {s : Cache} :
    ((cacheMessages rfc3339 keyed [message]).commit s).2 =
      if s.Accepts message then s.cached rfc3339 keyed message message else s := by
  split
  · exact congrArg Prod.snd (Tx.commit_of_runs (cacheMessages_runs.mpr ⟨‹_›, rfl⟩))
  · rename_i hrejects
    unfold Tx.commit
    split
    · rename_i s' hs'
      exact absurd (cacheMessages_runs.mp hs').1 hrejects
    · rfl

end

/-- `ORDER BY sequence, created_at`: `NULL` comes first. -/
def CachedMessage.before (a b : CachedMessage π) : Bool :=
  match a.sequence, b.sequence with
  | none, some _ => true
  | some _, none => false
  | some m, some n => decide (m < n) || decide (m = n) && decide (a.createdAt ≤ b.createdAt)
  | none, none => decide (a.createdAt ≤ b.createdAt)

/-- The payloads of a conversation, in order.
mirrors crates/client-core/src/lib.rs:329-345 -/
def loadMessages (s : LocalStore γ π ρ) (conversationId : ConversationId) : List π :=
  ((s.messages.values.filter (·.conversationId == conversationId)).insertionSort
    (fun a b => a.before b = true)).map (·.payload)

/-! ## Outbox -/

section
variable (rfc3339 : DateTime → String)

/-- A new row, due at once, or the old one with another payload. -/
def LocalStore.enqueued (s : LocalStore γ π ρ) (clientMessageId : MessageId)
    (conversationId : ConversationId) (payload : ρ) (now : DateTime) : OutboxRow ρ :=
  match s.outbox.get clientMessageId with
  | some row => { row with payload := payload }
  | none => {
      conversationId := conversationId
      payload := payload
      attemptCount := 0
      nextAttemptAt := rfc3339 now
      lastErrorCode := none
      createdAt := rfc3339 now }

/-- The statement of `enqueue_outbox`; what comes before it is about the text of the payload.
mirrors crates/client-core/src/lib.rs:430-449 -/
def enqueueOutbox (clientMessageId : MessageId) (conversationId : ConversationId) (payload : ρ)
    (now : DateTime) : Tx String (LocalStore γ π ρ) Unit := do
  let s ← get
  failIf (!s.outbox.containsKey clientMessageId && !s.conversations.containsKey conversationId)
    "failed to enqueue message"
  modify fun s => { s with
    outbox := s.outbox.insert clientMessageId
      (s.enqueued rfc3339 clientMessageId conversationId payload now) }

variable {rfc3339} in
theorem enqueueOutbox_runs {clientMessageId : MessageId} {conversationId : ConversationId}
    {payload : ρ} {now : DateTime} {s s' : LocalStore γ π ρ} {u : Unit} :
    (enqueueOutbox rfc3339 clientMessageId conversationId payload now).Runs s u s' ↔
      ¬ (!s.outbox.containsKey clientMessageId && !s.conversations.containsKey conversationId) =
        true ∧
      s' = { s with
        outbox := s.outbox.insert clientMessageId
          (s.enqueued rfc3339 clientMessageId conversationId payload now) } := by
  unfold enqueueOutbox
  rw [Tx.runs_get_bind, Tx.runs_failIf_bind, Tx.runs_modify]

/-- The due entries, the oldest first, at most 100.
mirrors crates/client-core/src/lib.rs:451-474 -/
def readyOutbox (s : LocalStore γ π ρ) (now : DateTime) : List (MessageId × OutboxRow ρ) :=
  ((s.outbox.entries.filter fun entry => decide (entry.2.nextAttemptAt ≤ rfc3339 now)).insertionSort
    (fun a b => a.2.createdAt ≤ b.2.createdAt)).take 100

/-- mirrors crates/client-core/src/lib.rs:476-484 -/
def acknowledgeOutbox (clientMessageId : MessageId) : Tx String (LocalStore γ π ρ) Unit :=
  modify fun s => { s with outbox := s.outbox.remove clientMessageId }

/-- mirrors crates/client-core/src/lib.rs:486-505 -/
def retryOutboxNow (clientMessageId : MessageId) (now : DateTime) :
    Tx String (LocalStore γ π ρ) Unit := do
  let s ← get
  failIf (!s.outbox.containsKey clientMessageId) "outbox message not found"
  modify fun s => { s with outbox := s.outbox.modify clientMessageId fun row =>
    { row with nextAttemptAt := rfc3339 now, lastErrorCode := none } }

/-- The check of the code an attempt failed with.
mirrors crates/client-core/src/lib.rs:546-553 -/
def invalidErrorCode (errorCode : String) : Bool :=
  errorCode.isEmpty || decide (96 < Text.byteLen errorCode) ||
    !errorCode.toList.all fun c => Text.isAsciiAlphanumeric c || c == '_' || c == '-' || c == '.'

/-- The attempts so far: the first statement of `record_outbox_failure`.
mirrors crates/client-core/src/lib.rs:545-561 -/
def outboxAttempts (s : LocalStore γ π ρ) (clientMessageId : MessageId) (errorCode : String) :
    Except String Nat :=
  if invalidErrorCode errorCode then .error "outbox error code is invalid"
  else
    match s.outbox.get clientMessageId with
    | some row => .ok row.attemptCount
    | none => .error "outbox message not found"

/-- The wait before attempt `next`: exponential, with a random part, at most five minutes.
mirrors crates/client-core/src/lib.rs:563-567 -/
def retryDelay (next random : Nat) : Duration :=
  let base := 2 ^ min next 8
  Duration.seconds (min (base + random % (base / 2 + 1)) 300 : Nat)

/-- The second statement, which goes by the attempts the first one read.
mirrors crates/client-core/src/lib.rs:562-582 -/
def rescheduleOutbox (clientMessageId : MessageId) (errorCode : String) (attempts random : Nat)
    (now : DateTime) : Tx String (LocalStore γ π ρ) Unit :=
  let next := min (attempts + 1) i64Max
  modify fun s => { s with outbox := s.outbox.modify clientMessageId fun row =>
    { row with
      attemptCount := next
      nextAttemptAt := rfc3339 (now + retryDelay next random)
      lastErrorCode := some errorCode } }

end

/-- mirrors crates/client-core/src/lib.rs:507-538 -/
def discardPendingMessage (clientMessageId : MessageId) : Tx String (LocalStore γ π ρ) Unit :=
  modify fun s => { s with
    search := s.search.filter fun entry => !(s.messages.get entry.messageId).any fun row =>
      row.clientMessageId == clientMessageId
    messages := s.messages.retain fun _ row => row.clientMessageId != clientMessageId
    outbox := s.outbox.remove clientMessageId }

/-! ## Sync state -/

/-- mirrors crates/client-core/src/lib.rs:623-634 -/
def syncCursor (s : LocalStore γ π ρ) : Except String Nat :=
  match parseU64 (s.syncCursor.getD "0") with
  | some cursor => .ok cursor
  | none => .error "stored sync cursor is invalid"

/-- The insert fails if the cursor is taken: `seen_events.cursor` is `UNIQUE`.
mirrors crates/client-core/src/lib.rs:636-699 -/
def recordSyncEvent (event : SyncEvent) : Tx String (LocalStore γ π ρ) Bool := do
  let s ← get
  if s.seenEvents.containsKey event.id then pure false
  else
    let cursor ← Tx.ofExcept (syncCursor s)
    if event.cursor ≤ cursor then pure false
    else
      failIf (i64Max < event.cursor) "sync cursor is too large"
      failIf (s.seenEvents.values.any (· == event.cursor)) "failed to record sync event"
      modify fun s => { s with seenEvents := s.seenEvents.insert event.id event.cursor }
      modify fun s => { s with syncCursor := some (Nat.repr event.cursor) }
      modify fun s => { s with
        seenEvents := s.seenEvents.retain fun _ cursor => decide (event.cursor - 50000 ≤ cursor) }
      pure true

/-- The conversations and the cursor of a bootstrap, and of a conversation what its row holds.
mirrors crates/client-core/src/lib.rs:178-213, 804-849 -/
def cacheBootstrap (conversations : List (ConversationId × γ)) (cursor : Nat) :
    Tx String (LocalStore γ π ρ) Unit :=
  modify fun s => { s with
    conversations := conversations.foldl (fun m c => m.insert c.1 c.2) s.conversations
    syncCursor := some (Nat.repr cursor) }

/-- Of `local_meta` the row of the cursor stays, set to zero.
mirrors crates/client-core/src/lib.rs:734-760 -/
def clearAccountCache : Tx String (LocalStore γ π ρ) Unit :=
  modify fun s => { syncCursor := s.syncCursor.map fun _ => "0" }

end

end IamRust
