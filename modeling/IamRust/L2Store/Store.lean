import IamRust.L0Core.Tx
import IamRust.L2Store.Records

/-!
# The store

`Store` is the in-memory state behind the service's lock, field by field.
`World` adds what an operation consumes from outside: how many identifiers
(`Uuid::now_v7`) and random byte strings have been drawn so far. `Env` holds
the code outside the repository as parameters: identifiers and random bytes
by draw, the cryptographic primitives, URL parsing and the Unicode tables.

An operation of the service is a `Service`: a transaction on the world that
fails with an `ApplicationError`.
-/
namespace IamRust

open Core

/-- mirrors crates/application/src/service.rs:301-338 -/
structure Store where
  accounts : Map UserId Account
  profilePrivacy : Map UserId ProfilePrivacySettings
  preferredPresence : Map UserId Presence
  byEmail : Map String UserId
  byUsername : Map String UserId
  accessTokens : Map String TokenRecord
  refreshTokens : Map String TokenRecord
  consumedRefreshTokens : Map String Uuid
  devices : Map DeviceId DeviceRecord
  passwordResets : Map String PasswordResetRecord
  friendRequests : Map FriendRequestId FriendRequest
  friendships : List Friendship
  friendSettings : Map (UserId × UserId) FriendSettings
  blocks : Finset (UserId × UserId)
  reports : List UserReport
  auditEvents : List AdminAuditEntry
  conversations : Map ConversationId Conversation
  conversationSettings : Map (UserId × ConversationId) ConversationSettings
  groupMuteAll : Finset ConversationId
  groupAnnouncements : Map Uuid GroupAnnouncement
  groupJoinRequests : Map Uuid GroupJoinRequest
  groupPolls : Map Uuid GroupPoll
  messages : Map ConversationId (List Message)
  messageDedup : Map (UserId × MessageId) (MessageId × Nat)
  messageReactions : Map MessageId (Map String (Finset UserId))
  messageReceipts : Map MessageId ReceiptState
  favoriteMessages : Finset (UserId × MessageId)
  messageExpirations : Map MessageId DateTime
  scheduledMessages : List ScheduledMessage
  attachments : Map AttachmentId PendingAttachment
  stickers : Map Uuid Sticker
  readPositions : Map (UserId × ConversationId) Nat
  events : List UserEvent
  cursor : Nat

/-- `Store::default()`. -/
def Store.default : Store where
  accounts := .empty
  profilePrivacy := .empty
  preferredPresence := .empty
  byEmail := .empty
  byUsername := .empty
  accessTokens := .empty
  refreshTokens := .empty
  consumedRefreshTokens := .empty
  devices := .empty
  passwordResets := .empty
  friendRequests := .empty
  friendships := []
  friendSettings := .empty
  blocks := ∅
  reports := []
  auditEvents := []
  conversations := .empty
  conversationSettings := .empty
  groupMuteAll := ∅
  groupAnnouncements := .empty
  groupJoinRequests := .empty
  groupPolls := .empty
  messages := .empty
  messageDedup := .empty
  messageReactions := .empty
  messageReceipts := .empty
  favoriteMessages := ∅
  messageExpirations := .empty
  scheduledMessages := []
  attachments := .empty
  stickers := .empty
  readPositions := .empty
  events := []
  cursor := 0

structure World extends Store where
  nextUuid : Nat
  nextRandom : Nat

/-- A fresh service: the default store, nothing drawn. -/
def World.init : World := { Store.default with nextUuid := 0, nextRandom := 0 }

/-- What the service takes from outside the repository. -/
structure Env where
  /-- The identifier of the `n`-th draw. -/
  uuid : Nat → Uuid
  /-- `randomBytes n len`: `len` bytes, the `n`-th draw. -/
  randomBytes : Nat → Nat → List UInt8
  sha256 : List UInt8 → List UInt8
  hmacSha1 : List UInt8 → List UInt8 → List UInt8
  /-- Argon2; the salt is the random bytes given. -/
  hashPassword : List UInt8 → String → Option String
  verifyPassword : String → String → Bool
  /-- AES-256-GCM under the service's key: nonce, then text. -/
  encrypt : List UInt8 → List UInt8 → Option (List UInt8)
  decrypt : List UInt8 → List UInt8 → Option (List UInt8)
  base32 : List UInt8 → String
  /-- The scheme of `Url::parse(s)`, if it parses. -/
  urlScheme : String → Option String
  isUppercase : Char → Bool
  isLowercase : Char → Bool

/-- An operation on the world. -/
abbrev Service := Tx ApplicationError World

/-! ## Fields

An operation writes one field at a time (`update`). What a write leaves alone
is then a statement about fields: `Same` for one, `Only` for all but some. -/

/-- The fields of the world. -/
inductive Field where
  | accounts | profilePrivacy | preferredPresence | byEmail | byUsername | accessTokens
  | refreshTokens | consumedRefreshTokens | devices | passwordResets | friendRequests
  | friendships | friendSettings | blocks | reports | auditEvents | conversations
  | conversationSettings | groupMuteAll | groupAnnouncements | groupJoinRequests | groupPolls
  | messages | messageDedup | messageReactions | messageReceipts | favoriteMessages
  | messageExpirations | scheduledMessages | attachments | stickers | readPositions | events
  | cursor | nextUuid | nextRandom
  deriving DecidableEq

abbrev Field.Ty : Field → Type
  | .accounts => Map UserId Account
  | .profilePrivacy => Map UserId ProfilePrivacySettings
  | .preferredPresence => Map UserId Presence
  | .byEmail => Map String UserId
  | .byUsername => Map String UserId
  | .accessTokens => Map String TokenRecord
  | .refreshTokens => Map String TokenRecord
  | .consumedRefreshTokens => Map String Uuid
  | .devices => Map DeviceId DeviceRecord
  | .passwordResets => Map String PasswordResetRecord
  | .friendRequests => Map FriendRequestId FriendRequest
  | .friendships => List Friendship
  | .friendSettings => Map (UserId × UserId) FriendSettings
  | .blocks => Finset (UserId × UserId)
  | .reports => List UserReport
  | .auditEvents => List AdminAuditEntry
  | .conversations => Map ConversationId Conversation
  | .conversationSettings => Map (UserId × ConversationId) ConversationSettings
  | .groupMuteAll => Finset ConversationId
  | .groupAnnouncements => Map Uuid GroupAnnouncement
  | .groupJoinRequests => Map Uuid GroupJoinRequest
  | .groupPolls => Map Uuid GroupPoll
  | .messages => Map ConversationId (List Message)
  | .messageDedup => Map (UserId × MessageId) (MessageId × Nat)
  | .messageReactions => Map MessageId (Map String (Finset UserId))
  | .messageReceipts => Map MessageId ReceiptState
  | .favoriteMessages => Finset (UserId × MessageId)
  | .messageExpirations => Map MessageId DateTime
  | .scheduledMessages => List ScheduledMessage
  | .attachments => Map AttachmentId PendingAttachment
  | .stickers => Map Uuid Sticker
  | .readPositions => Map (UserId × ConversationId) Nat
  | .events => List UserEvent
  | .cursor => Nat
  | .nextUuid => Nat
  | .nextRandom => Nat

def World.field (w : World) : (f : Field) → f.Ty
  | .accounts => w.accounts
  | .profilePrivacy => w.profilePrivacy
  | .preferredPresence => w.preferredPresence
  | .byEmail => w.byEmail
  | .byUsername => w.byUsername
  | .accessTokens => w.accessTokens
  | .refreshTokens => w.refreshTokens
  | .consumedRefreshTokens => w.consumedRefreshTokens
  | .devices => w.devices
  | .passwordResets => w.passwordResets
  | .friendRequests => w.friendRequests
  | .friendships => w.friendships
  | .friendSettings => w.friendSettings
  | .blocks => w.blocks
  | .reports => w.reports
  | .auditEvents => w.auditEvents
  | .conversations => w.conversations
  | .conversationSettings => w.conversationSettings
  | .groupMuteAll => w.groupMuteAll
  | .groupAnnouncements => w.groupAnnouncements
  | .groupJoinRequests => w.groupJoinRequests
  | .groupPolls => w.groupPolls
  | .messages => w.messages
  | .messageDedup => w.messageDedup
  | .messageReactions => w.messageReactions
  | .messageReceipts => w.messageReceipts
  | .favoriteMessages => w.favoriteMessages
  | .messageExpirations => w.messageExpirations
  | .scheduledMessages => w.scheduledMessages
  | .attachments => w.attachments
  | .stickers => w.stickers
  | .readPositions => w.readPositions
  | .events => w.events
  | .cursor => w.cursor
  | .nextUuid => w.nextUuid
  | .nextRandom => w.nextRandom

@[simp] def World.set (w : World) : (f : Field) → f.Ty → World
  | .accounts, v => { w with accounts := v }
  | .profilePrivacy, v => { w with profilePrivacy := v }
  | .preferredPresence, v => { w with preferredPresence := v }
  | .byEmail, v => { w with byEmail := v }
  | .byUsername, v => { w with byUsername := v }
  | .accessTokens, v => { w with accessTokens := v }
  | .refreshTokens, v => { w with refreshTokens := v }
  | .consumedRefreshTokens, v => { w with consumedRefreshTokens := v }
  | .devices, v => { w with devices := v }
  | .passwordResets, v => { w with passwordResets := v }
  | .friendRequests, v => { w with friendRequests := v }
  | .friendships, v => { w with friendships := v }
  | .friendSettings, v => { w with friendSettings := v }
  | .blocks, v => { w with blocks := v }
  | .reports, v => { w with reports := v }
  | .auditEvents, v => { w with auditEvents := v }
  | .conversations, v => { w with conversations := v }
  | .conversationSettings, v => { w with conversationSettings := v }
  | .groupMuteAll, v => { w with groupMuteAll := v }
  | .groupAnnouncements, v => { w with groupAnnouncements := v }
  | .groupJoinRequests, v => { w with groupJoinRequests := v }
  | .groupPolls, v => { w with groupPolls := v }
  | .messages, v => { w with messages := v }
  | .messageDedup, v => { w with messageDedup := v }
  | .messageReactions, v => { w with messageReactions := v }
  | .messageReceipts, v => { w with messageReceipts := v }
  | .favoriteMessages, v => { w with favoriteMessages := v }
  | .messageExpirations, v => { w with messageExpirations := v }
  | .scheduledMessages, v => { w with scheduledMessages := v }
  | .attachments, v => { w with attachments := v }
  | .stickers, v => { w with stickers := v }
  | .readPositions, v => { w with readPositions := v }
  | .events, v => { w with events := v }
  | .cursor, v => { w with cursor := v }
  | .nextUuid, v => { w with nextUuid := v }
  | .nextRandom, v => { w with nextRandom := v }

/-- The field `f` becomes `g w`. -/
def update (f : Field) (g : World → f.Ty) : Service Unit := modify fun w => w.set f (g w)

@[simp] theorem update_runs {f : Field} {g : World → f.Ty} {w w' : World} {u : Unit} :
    (update f g).Runs w u w' ↔ w' = w.set f (g w) := by
  simp [update]

@[simp] theorem update_bind_runs {α : Type} {f : Field} {g : World → f.Ty} {k : Unit → Service α}
    {w w' : World} {a : α} :
    (update f g >>= k).Runs w a w' ↔ (k ()).Runs (w.set f (g w)) a w' := Iff.rfl

/-- The two worlds have the same value in the field. -/
def Same (f : Field) (w w' : World) : Prop := w'.field f = w.field f

theorem same_set {f g : Field} (h : g ≠ f) (w : World) (v : f.Ty) : Same g w (w.set f v) := by
  cases f <;> cases g <;> first | rfl | exact absurd rfl h

/-- Only the fields in `fs` may differ. -/
def Only (fs : List Field) (w w' : World) : Prop := ∀ f, f ∉ fs → Same f w w'

instance (fs : List Field) : IsPreorder World (Only fs) where
  refl _ _ _ := rfl
  trans _ _ _ h₁ h₂ f hf := (h₂ f hf).trans (h₁ f hf)

theorem Only.mono {fs gs : List Field} (h : fs ⊆ gs) {w w' : World} (hw : Only fs w w') :
    Only gs w w' := fun f hf => hw f fun hm => hf (h hm)

theorem only_set (f : Field) (w : World) (v : f.Ty) : Only [f] w (w.set f v) :=
  fun _ hg => same_set (fun h => hg (List.mem_singleton.mpr h)) w v

/-- `R` does not look at the field `f`. -/
class Ignores (R : World → World → Prop) (f : Field) : Prop where
  set : ∀ w v, R w (w.set f v)

instance keeps_update {R : World → World → Prop} {f : Field} {g : World → f.Ty}
    [hi : Ignores R f] : Tx.Keeps R (update f g) :=
  Tx.keeps_modify fun w => hi.set w _

/-! An invariant `I` of the world is a relation, `Tx.Preserving I`; it ignores the fields it does
not read. -/

/-- `f` is one of `fs`. -/
class Has (f : Field) (fs : List Field) : Prop where
  mem : f ∈ fs

instance has_head (f : Field) (fs : List Field) : Has f (f :: fs) := ⟨List.mem_cons_self⟩

instance has_tail (f g : Field) (fs : List Field) [h : Has f fs] : Has f (g :: fs) :=
  ⟨List.mem_cons_of_mem g h.mem⟩

instance has_left (f : Field) (fs gs : List Field) [h : Has f fs] : Has f (fs ++ gs) :=
  ⟨List.mem_append_left gs h.mem⟩

instance has_right (f : Field) (fs gs : List Field) [h : Has f gs] : Has f (fs ++ gs) :=
  ⟨List.mem_append_right fs h.mem⟩

/-! The fields by area. -/

abbrev accountFields : List Field :=
  [.accounts, .profilePrivacy, .preferredPresence, .byEmail, .byUsername]

abbrev sessionFields : List Field :=
  [.accessTokens, .refreshTokens, .consumedRefreshTokens, .devices, .passwordResets]

abbrev socialFields : List Field :=
  [.friendRequests, .friendships, .friendSettings, .blocks, .reports, .auditEvents]

abbrev groupFields : List Field :=
  [.conversations, .conversationSettings, .groupMuteAll, .groupAnnouncements, .groupJoinRequests,
    .groupPolls]

/-- What belongs to messages, without the timelines and the client ids themselves. -/
abbrev contentFields : List Field :=
  [.messageReactions, .messageReceipts, .favoriteMessages, .messageExpirations,
    .scheduledMessages, .attachments, .stickers, .readPositions]

/-- The log, its cursor and the draw counters. -/
abbrev logFields : List Field := [.events, .cursor, .nextUuid, .nextRandom]

/-! ## Draws -/

section
variable (env : Env)

/-- `Uuid::now_v7()`, `MessageId::new()` and the like. -/
def newUuid : Service Uuid := do
  let w ← get
  update .nextUuid fun w => w.nextUuid + 1
  pure (env.uuid w.nextUuid)

/-- `rand::rng().fill_bytes(&mut bytes)` for `len` bytes. -/
def fillBytes (len : Nat) : Service (List UInt8) := do
  let w ← get
  update .nextRandom fun w => w.nextRandom + 1
  pure (env.randomBytes w.nextRandom len)

@[simp] theorem newUuid_runs {w w' : World} {u : Uuid} :
    (newUuid env).Runs w u w' ↔
      u = env.uuid w.nextUuid ∧ w' = w.set .nextUuid (w.nextUuid + 1) := by
  simp [newUuid]

@[simp] theorem fillBytes_runs {len : Nat} {w w' : World} {b : List UInt8} :
    (fillBytes env len).Runs w b w' ↔
      b = env.randomBytes w.nextRandom len ∧ w' = w.set .nextRandom (w.nextRandom + 1) := by
  simp [fillBytes]

end

end IamRust
