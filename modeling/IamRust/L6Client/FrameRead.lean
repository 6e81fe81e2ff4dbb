import IamRust.L0Core.JsonDecode
import IamRust.L4Properties.Replay
import IamRust.L5Concurrency.FrameJson
import IamRust.L5Concurrency.Gateway
import IamRust.L5Concurrency.RateLimits

/-!
# Reading frames

What the derived readers make of the values that frames are written as. How a
`Uuid` and a time are read is left open, like how a time is printed; a value is
`Typed` if its numbers are of the types they are declared with.

* `serverFrame_read`, `clientFrame_read`: a frame is read back from its value.
-/
namespace IamRust

open Core

/-- How identifiers and times are read. -/
structure TextReader where
  uuid : String → Option Uuid
  dateTime : String → Option DateTime

/-- What is printed is read back. -/
structure TextReader.Reads (reader : TextReader) (chrono : Chrono) : Prop where
  uuid : ∀ u < 2 ^ 128, reader.uuid (Uuid.toString u) = some u
  dateTime : ∀ t, reader.dateTime (chrono.dateTime t) = some t

/-- How deep `serde_json` lets arrays and objects nest. -/
def recursionLimit : Nat := 127

/-! ## Readers -/

section
variable (reader : TextReader)

def readUuid : Json → Option Uuid
  | .string s => reader.uuid s
  | _ => none

def readTime : Json → Option DateTime
  | .string s => reader.dateTime s
  | _ => none

/-- A name of an enumeration. -/
def readName {α : Type} (names : List (α × String)) : Json → Option α
  | .string s => (names.find? (·.2 == s)).map (·.1)
  | _ => none

def AttachmentKind.names : List (AttachmentKind × String) :=
  [.image, .file, .audio, .video].map fun k => (k, k.name)

def MessageStatus.names : List (MessageStatus × String) :=
  [.pending, .sent, .delivered, .read, .failed, .recalled].map fun s => (s, s.name)

def EventKind.names : List (EventKind × String) :=
  [.messageCreated, .messageUpdated, .conversationUpdated, .friendshipUpdated,
    .groupMembershipUpdated, .readPositionUpdated, .draftUpdated, .presenceUpdated].map
    fun k => (k, k.name)

/-- mirrors crates/domain/src/message.rs:16-25 -/
def Attachment.ofJson (j : Json) : Option Attachment := do
  let fields ← j.fields?
  let id ← Json.required fields "id" (readUuid reader)
  let kind ← Json.required fields "kind" (readName AttachmentKind.names)
  let fileName ← Json.required fields "file_name" Json.text?
  let mimeType ← Json.required fields "mime_type" Json.text?
  let byteSize ← Json.required fields "byte_size" (Json.unsigned? 64)
  let sha256 ← Json.optional fields "sha256" Json.text?
  let storageKey ← Json.required fields "storage_key" Json.text?
  let thumbnailKey ← Json.optional fields "thumbnail_key" Json.text?
  some { id, kind, fileName, mimeType, byteSize, sha256, storageKey, thumbnailKey }

/-- A forwarded message, with a reader for its content.
mirrors crates/domain/src/message.rs:27-33 -/
def readForwarded (content : Json → Option MessageContent) (j : Json) :
    Option ForwardedMessage := do
  let fields ← j.fields?
  let senderId ← Json.required fields "sender_id" (readUuid reader)
  let senderName ← Json.required fields "sender_name" Json.text?
  let content ← Json.required fields "content" content
  let createdAt ← Json.required fields "created_at" (readTime reader)
  some { senderId, senderName, content, createdAt }

/-- The data of a content by its tag, with a reader for forwarded messages.
mirrors crates/domain/src/message.rs:35-62 -/
def readData (forwarded : Json → Option ForwardedMessage) (type : String)
    (data : List (String × Json)) : Option MessageContent :=
  match type with
  | "text" => (Json.required data "text" Json.text?).map .text
  | "image" => (Json.required data "attachment" (Attachment.ofJson reader)).map .image
  | "file" => (Json.required data "attachment" (Attachment.ofJson reader)).map .file
  | "audio" => do
    let attachment ← Json.required data "attachment" (Attachment.ofJson reader)
    (Json.required data "duration_ms" (Json.unsigned? 32)).map (.audio attachment)
  | "sticker" => do
    let attachment ← Json.required data "attachment" (Attachment.ofJson reader)
    (Json.required data "name" Json.text?).map (.sticker attachment)
  | "forward_bundle" => do
    let title ← Json.required data "title" Json.text?
    (Json.required data "messages" (Json.listOf forwarded)).map (.forwardBundle title)
  | "system" => (Json.required data "text" Json.text?).map .system
  | _ => none

/-- The text has been read before, so no content nests deeper than the fuel. -/
def MessageContent.ofJson : Nat → Json → Option MessageContent
  | 0, _ => none
  | fuel + 1, j => do
    let fields ← j.fields?
    let type ← Json.required fields "type" Json.text?
    let data ← Json.required fields "data" Json.fields?
    readData reader (readForwarded reader (MessageContent.ofJson fuel)) type data

def readContent : Json → Option MessageContent := MessageContent.ofJson reader recursionLimit

/-- mirrors crates/domain/src/message.rs:120-137 -/
def Message.ofJson (j : Json) : Option Message := do
  let fields ← j.fields?
  let id ← Json.required fields "id" (readUuid reader)
  let clientMessageId ← Json.required fields "client_message_id" (readUuid reader)
  let conversationId ← Json.required fields "conversation_id" (readUuid reader)
  let senderId ← Json.required fields "sender_id" (readUuid reader)
  let sequence ← Json.optional fields "sequence" (Json.unsigned? 64)
  let content ← Json.required fields "content" (readContent reader)
  let status ← Json.required fields "status" (readName MessageStatus.names)
  let replyTo ← Json.optional fields "reply_to" (readUuid reader)
  let mentions ← Json.defaulted fields "mentions" [] (Json.listOf (readUuid reader))
  let mentionAll ← Json.defaulted fields "mention_all" false Json.flag?
  let createdAt ← Json.required fields "created_at" (readTime reader)
  let serverCreatedAt ← Json.optional fields "server_created_at" (readTime reader)
  let editedAt ← Json.optional fields "edited_at" (readTime reader)
  some ⟨id, clientMessageId, conversationId, senderId, sequence, content, status, replyTo,
    mentions, mentionAll, createdAt, serverCreatedAt, editedAt⟩

/-- mirrors crates/protocol/src/lib.rs:621-645 -/
def CallSignal.ofJson (j : Json) : Option CallSignal := do
  let fields ← j.fields?
  match ← Json.required fields "kind" Json.text? with
  | "invite" => (Json.required fields "video" Json.flag?).map .invite
  | "accept" => some .accept
  | "offer" => (Json.required fields "sdp" Json.text?).map .offer
  | "answer" => (Json.required fields "sdp" Json.text?).map .answer
  | "ice_candidate" => do
    let candidate ← Json.required fields "candidate" Json.text?
    let sdpMid ← Json.optional fields "sdp_mid" Json.text?
    let sdpMlineIndex ← Json.optional fields "sdp_mline_index" (Json.unsigned? 16)
    some (.iceCandidate candidate sdpMid sdpMlineIndex)
  | "participants" =>
    (Json.required fields "user_ids" (Json.listOf (readUuid reader))).map .participants
  | "reject" => some .reject
  | "busy" => some .busy
  | "hangup" => some .hangup
  | _ => none

/-! ### What the server sends -/

/-- mirrors crates/domain/src/sync.rs:24-30 -/
structure ReceivedEvent where
  id : Uuid
  cursor : Nat
  kind : EventKind
  payload : Json
  createdAt : DateTime

def ApiErrorCode.name : ApiErrorCode → String
  | .validation => "validation"
  | .authenticationRequired => "authentication_required"
  | .authenticationFailed => "authentication_failed"
  | .forbidden => "forbidden"
  | .notFound => "not_found"
  | .conflict => "conflict"
  | .rateLimited => "rate_limited"
  | .payloadTooLarge => "payload_too_large"
  | .unsupportedMediaType => "unsupported_media_type"
  | .protocolMismatch => "protocol_mismatch"
  | .syncRequired => "sync_required"
  | .internal => "internal"
  | .serviceUnavailable => "service_unavailable"

def ApiErrorCode.names : List (ApiErrorCode × String) :=
  [.validation, .authenticationRequired, .authenticationFailed, .forbidden, .notFound, .conflict,
    .rateLimited, .payloadTooLarge, .unsupportedMediaType, .protocolMismatch, .syncRequired,
    .internal, .serviceUnavailable].map fun c => (c, c.name)

/-- mirrors crates/protocol/src/lib.rs:33-40 -/
structure ApiError where
  code : ApiErrorCode
  messageKey : String
  field : Option String
  correlationId : Uuid
  retryable : Bool

/-- A frame as the client has it: the payload of an event is a value.
mirrors crates/protocol/src/lib.rs:688-728 -/
inductive ReceivedFrame where
  | welcome (protocolVersion : Nat) (userId : UserId) (serverTime : DateTime)
    (latestCursor : Nat)
  | pong (nonce : Uuid)
  | ack (requestId : Uuid) (ack : MessageAck)
  | event (event : ReceivedEvent)
  | typing (conversationId : ConversationId) (userId : UserId) (active : Bool)
    (expiresAt : DateTime)
  | callSignal (conversationId : ConversationId) (callId : Uuid) (fromUserId : UserId)
    (signal : CallSignal)
  | error (requestId : Option Uuid) (error : ApiError)
  | close (code : Nat) (reason : String)

def ReceivedEvent.ofJson (j : Json) : Option ReceivedEvent := do
  let fields ← j.fields?
  let id ← Json.required fields "id" (readUuid reader)
  let cursor ← Json.required fields "cursor" (Json.unsigned? 64)
  let kind ← Json.required fields "kind" (readName EventKind.names)
  let payload ← Json.required fields "payload" some
  let createdAt ← Json.required fields "created_at" (readTime reader)
  some ⟨id, cursor, kind, payload, createdAt⟩

/-- mirrors crates/protocol/src/lib.rs:567-573 -/
def MessageAck.ofJson (j : Json) : Option MessageAck := do
  let fields ← j.fields?
  let clientMessageId ← Json.required fields "client_message_id" (readUuid reader)
  let messageId ← Json.required fields "message_id" (readUuid reader)
  let sequence ← Json.required fields "sequence" (Json.unsigned? 64)
  let serverTime ← Json.required fields "server_time" (readTime reader)
  some ⟨clientMessageId, messageId, sequence, serverTime⟩

def ApiError.ofJson (j : Json) : Option ApiError := do
  let fields ← j.fields?
  let code ← Json.required fields "code" (readName ApiErrorCode.names)
  let messageKey ← Json.required fields "message_key" Json.text?
  let field ← Json.optional fields "field" Json.text?
  let correlationId ← Json.required fields "correlation_id" (readUuid reader)
  let retryable ← Json.required fields "retryable" Json.flag?
  some ⟨code, messageKey, field, correlationId, retryable⟩

def ReceivedFrame.ofJson (j : Json) : Option ReceivedFrame := do
  let fields ← j.fields?
  match ← Json.required fields "type" Json.text? with
  | "welcome" => do
    let protocolVersion ← Json.required fields "protocol_version" (Json.unsigned? 16)
    let userId ← Json.required fields "user_id" (readUuid reader)
    let serverTime ← Json.required fields "server_time" (readTime reader)
    let latestCursor ← Json.required fields "latest_cursor" (Json.unsigned? 64)
    some (.welcome protocolVersion userId serverTime latestCursor)
  | "pong" => (Json.required fields "nonce" (readUuid reader)).map .pong
  | "ack" => do
    let requestId ← Json.required fields "request_id" (readUuid reader)
    let ack ← Json.required fields "ack" (MessageAck.ofJson reader)
    some (.ack requestId ack)
  | "event" => (Json.required fields "event" (ReceivedEvent.ofJson reader)).map .event
  | "typing" => do
    let conversationId ← Json.required fields "conversation_id" (readUuid reader)
    let userId ← Json.required fields "user_id" (readUuid reader)
    let active ← Json.required fields "active" Json.flag?
    let expiresAt ← Json.required fields "expires_at" (readTime reader)
    some (.typing conversationId userId active expiresAt)
  | "call_signal" => do
    let conversationId ← Json.required fields "conversation_id" (readUuid reader)
    let callId ← Json.required fields "call_id" (readUuid reader)
    let fromUserId ← Json.required fields "from_user_id" (readUuid reader)
    let signal ← Json.required fields "signal" (CallSignal.ofJson reader)
    some (.callSignal conversationId callId fromUserId signal)
  | "error" => do
    let requestId ← Json.optional fields "request_id" (readUuid reader)
    let error ← Json.required fields "error" (ApiError.ofJson reader)
    some (.error requestId error)
  | "close" => do
    let code ← Json.required fields "code" (Json.unsigned? 16)
    let reason ← Json.required fields "reason" Json.text?
    some (.close code reason)
  | _ => none

/-- `serde_json::from_str::<ServerFrame>` -/
def ReceivedFrame.parse (text : String) : Option ReceivedFrame :=
  (Json.read recursionLimit text).bind (ReceivedFrame.ofJson reader)

/-- The message the client takes from an event.
mirrors apps/desktop/src/ui.rs:3052-3060 -/
def ReceivedEvent.message? (event : ReceivedEvent) : Option Message :=
  match event.kind with
  | .messageCreated | .messageUpdated =>
    match (event.payload.fields?.getD []).find? (·.1 == "message") with
    | some (_, value) => Message.ofJson reader value
    | none => none
  | _ => none

/-! ### What the client sends -/

/-- mirrors crates/protocol/src/lib.rs:445-455 -/
def SendMessageRequest.ofJson (j : Json) : Option SendMessageRequest := do
  let fields ← j.fields?
  let clientMessageId ← Json.required fields "client_message_id" (readUuid reader)
  let content ← Json.required fields "content" (readContent reader)
  let replyTo ← Json.optional fields "reply_to" (readUuid reader)
  let mentions ← Json.defaulted fields "mentions" [] (Json.listOf (readUuid reader))
  let mentionAll ← Json.defaulted fields "mention_all" false Json.flag?
  let expiresInSeconds ← Json.optional fields "expires_in_seconds" (Json.unsigned? 32)
  some ⟨clientMessageId, content, replyTo, mentions, mentionAll, expiresInSeconds⟩

/-- mirrors crates/protocol/src/lib.rs:653-687 -/
def ClientFrame.ofJson (j : Json) : Option ClientFrame := do
  let fields ← j.fields?
  match ← Json.required fields "type" Json.text? with
  | "hello" => do
    let protocolVersion ← Json.required fields "protocol_version" (Json.unsigned? 16)
    let clientVersion ← Json.required fields "client_version" Json.text?
    let accessToken ← Json.required fields "access_token" Json.text?
    let lastCursor ← Json.required fields "last_cursor" (Json.unsigned? 64)
    some (.hello protocolVersion clientVersion accessToken lastCursor)
  | "ping" => (Json.required fields "nonce" (readUuid reader)).map .ping
  | "send_message" => do
    let requestId ← Json.required fields "request_id" (readUuid reader)
    let conversationId ← Json.required fields "conversation_id" (readUuid reader)
    let message ← Json.required fields "message" (SendMessageRequest.ofJson reader)
    some (.sendMessage requestId conversationId message)
  | "mark_read" => do
    let requestId ← Json.required fields "request_id" (readUuid reader)
    let conversationId ← Json.required fields "conversation_id" (readUuid reader)
    let throughSequence ← Json.required fields "through_sequence" (Json.unsigned? 64)
    some (.markRead requestId conversationId throughSequence)
  | "typing" => do
    let conversationId ← Json.required fields "conversation_id" (readUuid reader)
    let active ← Json.required fields "active" Json.flag?
    some (.typing conversationId active)
  | "call_signal" => do
    let conversationId ← Json.required fields "conversation_id" (readUuid reader)
    let callId ← Json.required fields "call_id" (readUuid reader)
    let target ← Json.optional fields "target_user_id" (readUuid reader)
    let signal ← Json.required fields "signal" (CallSignal.ofJson reader)
    some (.callSignal conversationId callId target signal)
  | _ => none

/-- `serde_json::from_str::<ClientFrame>` -/
def ClientFrame.parse (text : String) : Option ClientFrame :=
  (Json.read recursionLimit text).bind (ClientFrame.ofJson reader)

end

/-! ## Writers -/

section
variable (chrono : Chrono)

def ErrorCode.api : ErrorCode → ApiErrorCode
  | .validation => .validation
  | .protocolMismatch => .protocolMismatch

def MessageAck.json (ack : MessageAck) : Json := .object
  [("client_message_id", jsonUuid ack.clientMessageId),
    ("message_id", jsonUuid ack.messageId),
    ("sequence", jsonNat ack.sequence),
    ("server_time", jsonTime chrono ack.serverTime)]

/-- `correlationId` is drawn for the frame of an error.
mirrors crates/protocol/src/lib.rs:688-728, apps/server/src/websocket.rs:222-235 -/
def ServerFrame.json (correlationId : Uuid) : ServerFrame → Json
  | .welcome protocolVersion userId serverTime latestCursor => .object
      [("type", .string "welcome"), ("protocol_version", jsonNat protocolVersion),
        ("user_id", jsonUuid userId), ("server_time", jsonTime chrono serverTime),
        ("latest_cursor", jsonNat latestCursor)]
  | .pong nonce => .object [("type", .string "pong"), ("nonce", jsonUuid nonce)]
  | .ack requestId a => .object
      [("type", .string "ack"), ("request_id", jsonUuid requestId), ("ack", a.json chrono)]
  | .event e => .object [("type", .string "event"), ("event", e.json chrono)]
  | .typing signal => .object
      [("type", .string "typing"), ("conversation_id", jsonUuid signal.conversationId),
        ("user_id", jsonUuid signal.userId), ("active", .bool signal.active),
        ("expires_at", jsonTime chrono signal.expiresAt)]
  | .callSignal d => .object
      [("type", .string "call_signal"), ("conversation_id", jsonUuid d.conversationId),
        ("call_id", jsonUuid d.callId), ("from_user_id", jsonUuid d.fromUserId),
        ("signal", d.signal.json)]
  | .error requestId code messageKey => .object
      [("type", .string "error"), ("request_id", jsonOption jsonUuid requestId),
        ("error", .object
          [("code", .string code.api.name), ("message_key", .string messageKey), ("field", .null),
            ("correlation_id", jsonUuid correlationId), ("retryable", .bool false)])]

/-- mirrors apps/server/src/websocket.rs:211-220 -/
def ServerFrame.text (correlationId : Uuid) (frame : ServerFrame) : String :=
  Json.write (frame.json chrono correlationId)

/-- What the client is to make of the frame. -/
def ServerFrame.received (correlationId : Uuid) : ServerFrame → ReceivedFrame
  | .welcome protocolVersion userId serverTime latestCursor =>
    .welcome protocolVersion userId serverTime latestCursor
  | .pong nonce => .pong nonce
  | .ack requestId a => .ack requestId a
  | .event e => .event ⟨e.id, e.cursor, e.kind, e.payload.json chrono, e.createdAt⟩
  | .typing signal =>
    .typing signal.conversationId signal.userId signal.active signal.expiresAt
  | .callSignal d => .callSignal d.conversationId d.callId d.fromUserId d.signal
  | .error requestId code messageKey =>
    .error requestId ⟨code.api, messageKey, none, correlationId, false⟩

def SendMessageRequest.json (request : SendMessageRequest) : Json := .object
  [("client_message_id", jsonUuid request.clientMessageId),
    ("content", request.content.json chrono),
    ("reply_to", jsonOption jsonUuid request.replyTo),
    ("mentions", jsonUuids request.mentions),
    ("mention_all", .bool request.mentionAll),
    ("expires_in_seconds", jsonOption jsonNat request.expiresInSeconds)]

def ClientFrame.json : ClientFrame → Json
  | .hello protocolVersion clientVersion accessToken lastCursor => .object
      [("type", .string "hello"), ("protocol_version", jsonNat protocolVersion),
        ("client_version", .string clientVersion), ("access_token", .string accessToken),
        ("last_cursor", jsonNat lastCursor)]
  | .ping nonce => .object [("type", .string "ping"), ("nonce", jsonUuid nonce)]
  | .sendMessage requestId conversationId message => .object
      [("type", .string "send_message"), ("request_id", jsonUuid requestId),
        ("conversation_id", jsonUuid conversationId), ("message", message.json chrono)]
  | .markRead requestId conversationId throughSequence => .object
      [("type", .string "mark_read"), ("request_id", jsonUuid requestId),
        ("conversation_id", jsonUuid conversationId),
        ("through_sequence", jsonNat throughSequence)]
  | .typing conversationId active => .object
      [("type", .string "typing"), ("conversation_id", jsonUuid conversationId),
        ("active", .bool active)]
  | .callSignal conversationId callId target signal => .object
      [("type", .string "call_signal"), ("conversation_id", jsonUuid conversationId),
        ("call_id", jsonUuid callId), ("target_user_id", jsonOption jsonUuid target),
        ("signal", signal.json)]

/-- mirrors apps/desktop/src/realtime.rs:373-383 -/
def ClientFrame.text (frame : ClientFrame) : String := Json.write (frame.json chrono)

end

/-! ## Typed values -/

/-- An identifier is of 128 bits. -/
def IsUuid (u : Uuid) : Prop := u < 2 ^ 128

def Attachment.Typed (a : Attachment) : Prop := IsUuid a.id ∧ a.byteSize < 2 ^ 64

mutual

def MessageContent.Typed : MessageContent → Prop
  | .text _ | .system _ => True
  | .image attachment | .file attachment | .sticker attachment _ => attachment.Typed
  | .audio attachment durationMs => attachment.Typed ∧ durationMs < 2 ^ 32
  | .forwardBundle _ messages => forwardedTyped messages

def forwardedTyped : List ForwardedMessage → Prop
  | [] => True
  | m :: messages => IsUuid m.senderId ∧ m.content.Typed ∧ forwardedTyped messages

end

structure Message.Typed (m : Message) : Prop where
  id : IsUuid m.id
  clientMessageId : IsUuid m.clientMessageId
  conversationId : IsUuid m.conversationId
  senderId : IsUuid m.senderId
  sequence : ∀ n ∈ m.sequence, n < 2 ^ 64
  content : m.content.Typed
  replyTo : ∀ u ∈ m.replyTo, IsUuid u
  mentions : ∀ u ∈ m.mentions, IsUuid u

def CallSignal.Typed : CallSignal → Prop
  | .iceCandidate _ _ sdpMlineIndex => ∀ n ∈ sdpMlineIndex, n < 2 ^ 16
  | .participants userIds => ∀ u ∈ userIds, IsUuid u
  | _ => True

/-- Of a payload only its numbers count, and the message in it. -/
structure SyncEvent.Typed (chrono : Chrono) (e : SyncEvent) : Prop where
  id : IsUuid e.id
  cursor : e.cursor < 2 ^ 64
  payload : (e.payload.json chrono).fits = true
  message : ∀ m, e.payload.version = some m → m.Typed

def ServerFrame.Typed (chrono : Chrono) : ServerFrame → Prop
  | .welcome protocolVersion userId _ latestCursor =>
    protocolVersion < 2 ^ 16 ∧ IsUuid userId ∧ latestCursor < 2 ^ 64
  | .pong nonce => IsUuid nonce
  | .ack requestId a => IsUuid requestId ∧ IsUuid a.clientMessageId ∧ IsUuid a.messageId ∧
    a.sequence < 2 ^ 64
  | .event e => e.Typed chrono
  | .typing signal => IsUuid signal.conversationId ∧ IsUuid signal.userId
  | .callSignal d =>
    IsUuid d.conversationId ∧ IsUuid d.callId ∧ IsUuid d.fromUserId ∧ d.signal.Typed
  | .error requestId _ _ => ∀ u ∈ requestId, IsUuid u

structure SendMessageRequest.Typed (request : SendMessageRequest) : Prop where
  clientMessageId : IsUuid request.clientMessageId
  content : request.content.Typed
  replyTo : ∀ u ∈ request.replyTo, IsUuid u
  mentions : ∀ u ∈ request.mentions, IsUuid u
  expiresInSeconds : ∀ n ∈ request.expiresInSeconds, n < 2 ^ 32

def ClientFrame.Typed : ClientFrame → Prop
  | .hello protocolVersion _ _ lastCursor => protocolVersion < 2 ^ 16 ∧ lastCursor < 2 ^ 64
  | .ping nonce => IsUuid nonce
  | .sendMessage requestId conversationId message =>
    IsUuid requestId ∧ IsUuid conversationId ∧ message.Typed
  | .markRead requestId conversationId throughSequence =>
    IsUuid requestId ∧ IsUuid conversationId ∧ throughSequence < 2 ^ 64
  | .typing conversationId _ => IsUuid conversationId
  | .callSignal conversationId callId target signal =>
    IsUuid conversationId ∧ IsUuid callId ∧ (∀ u ∈ target, IsUuid u) ∧ signal.Typed

/-! ## What is written is read back -/

section
variable {reader : TextReader} {chrono : Chrono} (hreads : reader.Reads chrono)

include hreads

theorem readUuid_json {u : Uuid} (h : IsUuid u) : readUuid reader (jsonUuid u) = some u :=
  hreads.uuid u h

theorem readTime_json (t : DateTime) : readTime reader (jsonTime chrono t) = some t :=
  hreads.dateTime t

theorem listOf_uuids {ids : List Uuid} (h : ∀ u ∈ ids, IsUuid u) :
    Json.listOf (readUuid reader) (jsonUuids ids) = some ids :=
  Json.listOf_map fun u hu => readUuid_json hreads (h u hu)

end

theorem nullable_json {α : Type} {decode : Json → Option α} {f : α → Json} {o : Option α}
    (hnull : ∀ a, f a ≠ .null) (h : ∀ a ∈ o, decode (f a) = some a) :
    Json.nullable decode (jsonOption f o) = some o := by
  cases o with
  | none => rfl
  | some a => exact Json.nullable_of (hnull a) (h a rfl)

theorem nullable_text (o : Option String) :
    Json.nullable Json.text? (jsonOption .string o) = some o :=
  nullable_json (by simp) (fun _ _ => rfl)

theorem unsigned_json {bits n : Nat} (h : n < 2 ^ bits) :
    Json.unsigned? bits (jsonNat n) = some n := Json.unsigned_nat h

section
variable {reader : TextReader} {chrono : Chrono} (hreads : reader.Reads chrono)

include hreads

theorem nullable_uuid {o : Option Uuid} (h : ∀ u ∈ o, IsUuid u) :
    Json.nullable (readUuid reader) (jsonOption jsonUuid o) = some o :=
  nullable_json (by simp [jsonUuid]) fun u hu => readUuid_json hreads (h u hu)

theorem nullable_time (o : Option DateTime) :
    Json.nullable (readTime reader) (jsonOption (jsonTime chrono) o) = some o :=
  nullable_json (by simp [jsonTime]) fun t _ => readTime_json hreads t

theorem attachment_read {a : Attachment} (h : a.Typed) :
    Attachment.ofJson reader a.json = some a := by
  have hkeys : a.json.Distinct := by simp [Attachment.json, Json.Distinct]
  have hkind : readName AttachmentKind.names (.string a.kind.name) = some a.kind := by
    cases a.kind <;> decide
  unfold Attachment.ofJson Attachment.json
  refine Json.object_bind ?_
  refine Json.required_bind hkeys 2 rfl (readUuid_json hreads h.1) ?_
  refine Json.required_bind hkeys 3 rfl hkind ?_
  refine Json.required_bind hkeys 1 rfl rfl ?_
  refine Json.required_bind hkeys 4 rfl rfl ?_
  refine Json.required_bind hkeys 0 rfl (unsigned_json h.2) ?_
  refine Json.optional_bind hkeys 5 rfl (nullable_text _) ?_
  refine Json.required_bind hkeys 6 rfl rfl ?_
  exact Json.optional_bind hkeys 7 rfl (nullable_text _) rfl

omit hreads in
theorem ofJson_contentJson (fuel : Nat) (type : String) (data : List (String × Json)) :
    MessageContent.ofJson reader (fuel + 1) (contentJson type data) =
      readData reader (readForwarded reader (MessageContent.ofJson reader fuel)) type data := by
  simp only [MessageContent.ofJson, contentJson, Json.fields?, Json.required, Json.pick,
    List.filter_cons, beq_iff_eq, String.reduceEq, reduceIte, List.filter_nil,
    Option.bind_eq_bind, Option.bind_some, Json.text?]

omit hreads in
theorem depth_contentJson (type : String) (data : List (String × Json)) :
    (contentJson type data).depth = Json.depthFields data + 2 := by
  simp [contentJson, Json.depth, Json.depthFields]

theorem forwarded_read {m : ForwardedMessage} {content : Json → Option MessageContent}
    (hsender : IsUuid m.senderId) (hcontent : content (m.content.json chrono) = some m.content) :
    readForwarded reader content (.object [("content", m.content.json chrono),
      ("created_at", jsonTime chrono m.createdAt), ("sender_id", jsonUuid m.senderId),
      ("sender_name", .string m.senderName)]) = some m := by
  simp only [readForwarded, Json.fields?, Json.required, Json.pick, List.filter_cons, beq_iff_eq,
    String.reduceEq, reduceIte, List.filter_nil, Option.bind_eq_bind, Option.bind_some,
    Json.text?, readUuid_json hreads hsender, readTime_json hreads, hcontent]

mutual

theorem content_read : ∀ (content : MessageContent) {fuel : Nat}, content.Typed →
    (content.json chrono).depth ≤ fuel →
    MessageContent.ofJson reader fuel (content.json chrono) = some content
  | content, 0, _, hfuel => by
    cases content <;> exact absurd hfuel (Nat.not_succ_le_zero _)
  | .text text, fuel + 1, _, _ | .system text, fuel + 1, _, _ => by
    simp [MessageContent.json, ofJson_contentJson, readData, Json.required, Json.pick, Json.text?]
  | .image attachment, fuel + 1, h, _ | .file attachment, fuel + 1, h, _ => by
    simp [MessageContent.json, ofJson_contentJson, readData, Json.required, Json.pick,
      attachment_read hreads h]
  | .audio attachment durationMs, fuel + 1, h, _ => by
    simp [MessageContent.json, ofJson_contentJson, readData, Json.required, Json.pick,
      attachment_read hreads h.1, unsigned_json h.2]
  | .sticker attachment name, fuel + 1, h, _ => by
    simp [MessageContent.json, ofJson_contentJson, readData, Json.required, Json.pick, Json.text?,
      attachment_read hreads h]
  | .forwardBundle title messages, fuel + 1, h, hfuel => by
    have hdepth : Json.depthItems (jsonForwarded chrono messages) ≤ fuel := by
      rw [MessageContent.json, depth_contentJson, Json.depthFields, Json.depth] at hfuel
      omega
    simp [MessageContent.json, ofJson_contentJson, readData, Json.required, Json.pick, Json.text?,
      listOf_forwarded messages h hdepth]

theorem listOf_forwarded : ∀ (messages : List ForwardedMessage) {fuel : Nat},
    forwardedTyped messages → Json.depthItems (jsonForwarded chrono messages) ≤ fuel →
    Json.listOf (readForwarded reader (MessageContent.ofJson reader fuel))
      (.array (jsonForwarded chrono messages)) = some messages
  | [], _, _, _ => rfl
  | m :: messages, fuel, h, hfuel => by
    rw [jsonForwarded, Json.depthItems, Json.depth, Json.depthFields] at hfuel
    exact Json.listOf_cons (forwarded_read hreads h.1 (content_read m.content h.2.1 (by omega)))
      (listOf_forwarded messages h.2.2 (by omega))

end

theorem message_read {m : Message} (h : m.Typed)
    (hdepth : (m.content.json chrono).depth ≤ recursionLimit) :
    Message.ofJson reader (m.json chrono) = some m := by
  have hkeys : (m.json chrono).Distinct := by simp [Message.json, Json.Distinct]
  have hstatus : readName MessageStatus.names (.string m.status.name) = some m.status := by
    cases m.status <;> decide
  have hsequence : Json.nullable (Json.unsigned? 64) (jsonOption jsonNat m.sequence) =
      some m.sequence :=
    nullable_json (by simp [jsonNat]) fun n hn => unsigned_json (h.sequence n hn)
  unfold Message.ofJson Message.json
  refine Json.object_bind ?_
  refine Json.required_bind hkeys 5 rfl (readUuid_json hreads h.id) ?_
  refine Json.required_bind hkeys 0 rfl (readUuid_json hreads h.clientMessageId) ?_
  refine Json.required_bind hkeys 2 rfl (readUuid_json hreads h.conversationId) ?_
  refine Json.required_bind hkeys 9 rfl (readUuid_json hreads h.senderId) ?_
  refine Json.optional_bind hkeys 10 rfl hsequence ?_
  refine Json.required_bind hkeys 1 rfl (content_read hreads m.content h.content hdepth) ?_
  refine Json.required_bind hkeys 12 rfl hstatus ?_
  refine Json.optional_bind hkeys 8 rfl (nullable_uuid hreads h.replyTo) ?_
  refine Json.defaulted_bind hkeys 7 rfl (listOf_uuids hreads h.mentions) ?_
  refine Json.defaulted_bind hkeys 6 rfl rfl ?_
  refine Json.required_bind hkeys 3 rfl (readTime_json hreads _) ?_
  refine Json.optional_bind hkeys 11 rfl (nullable_time hreads _) ?_
  exact Json.optional_bind hkeys 4 rfl (nullable_time hreads _) rfl

theorem signal_read {signal : CallSignal} (h : signal.Typed) :
    CallSignal.ofJson reader signal.json = some signal := by
  have hkeys : signal.json.Distinct := by
    cases signal <;> simp [CallSignal.json, Json.Distinct]
  unfold CallSignal.ofJson
  cases signal <;> refine Json.object_bind (Json.required_bind hkeys 0 rfl rfl ?_)
  case iceCandidate candidate sdpMid sdpMlineIndex =>
    have hindex : Json.nullable (Json.unsigned? 16) (jsonOption jsonNat sdpMlineIndex) =
        some sdpMlineIndex :=
      nullable_json (by simp [jsonNat]) fun n hn => unsigned_json (h n hn)
    refine Json.required_bind hkeys 1 rfl rfl ?_
    refine Json.optional_bind hkeys 2 rfl (nullable_text _) ?_
    exact Json.optional_bind hkeys 3 rfl hindex rfl
  case participants userIds => exact Json.required_map hkeys 1 rfl (listOf_uuids hreads h)
  case invite video => exact Json.required_map hkeys 1 rfl rfl
  case offer sdp => exact Json.required_map hkeys 1 rfl rfl
  case answer sdp => exact Json.required_map hkeys 1 rfl rfl
  all_goals rfl

theorem ack_read {a : MessageAck} (h : IsUuid a.clientMessageId ∧ IsUuid a.messageId ∧
    a.sequence < 2 ^ 64) : MessageAck.ofJson reader (a.json chrono) = some a := by
  have hkeys : (a.json chrono).Distinct := by simp [MessageAck.json, Json.Distinct]
  unfold MessageAck.ofJson MessageAck.json
  refine Json.object_bind ?_
  refine Json.required_bind hkeys 0 rfl (readUuid_json hreads h.1) ?_
  refine Json.required_bind hkeys 1 rfl (readUuid_json hreads h.2.1) ?_
  refine Json.required_bind hkeys 2 rfl (unsigned_json h.2.2) ?_
  exact Json.required_bind hkeys 3 rfl (readTime_json hreads _) rfl

theorem event_read {e : SyncEvent} (h : e.Typed chrono) :
    ReceivedEvent.ofJson reader (e.json chrono) =
      some ⟨e.id, e.cursor, e.kind, e.payload.json chrono, e.createdAt⟩ := by
  have hkeys : (e.json chrono).Distinct := by simp [SyncEvent.json, Json.Distinct]
  have hkind : readName EventKind.names (.string e.kind.name) = some e.kind := by
    cases e.kind <;> decide
  unfold ReceivedEvent.ofJson SyncEvent.json
  refine Json.object_bind ?_
  refine Json.required_bind hkeys 0 rfl (readUuid_json hreads h.id) ?_
  refine Json.required_bind hkeys 1 rfl (unsigned_json h.cursor) ?_
  refine Json.required_bind hkeys 2 rfl hkind ?_
  refine Json.required_bind hkeys 3 rfl rfl ?_
  exact Json.required_bind hkeys 4 rfl (readTime_json hreads _) rfl

theorem error_read {code : ErrorCode} {messageKey : String} {correlationId : Uuid}
    (hid : IsUuid correlationId) : ApiError.ofJson reader
      (.object [("code", .string code.api.name), ("message_key", .string messageKey),
        ("field", .null), ("correlation_id", jsonUuid correlationId), ("retryable", .bool false)]) =
      some ⟨code.api, messageKey, none, correlationId, false⟩ := by
  have hkeys : ∀ a b c d e : Json, (Json.object [("code", a), ("message_key", b), ("field", c),
      ("correlation_id", d), ("retryable", e)]).Distinct := by simp [Json.Distinct]
  have hcode : readName ApiErrorCode.names (.string code.api.name) = some code.api := by
    cases code <;> decide
  unfold ApiError.ofJson
  refine Json.object_bind ?_
  refine Json.required_bind (hkeys ..) 0 rfl hcode ?_
  refine Json.required_bind (hkeys ..) 1 rfl rfl ?_
  refine Json.optional_bind (hkeys ..) 2 rfl rfl ?_
  refine Json.required_bind (hkeys ..) 3 rfl (readUuid_json hreads hid) ?_
  exact Json.required_bind (hkeys ..) 4 rfl rfl rfl

/-- The values of a frame of the server are those the client has. -/
theorem serverFrame_read {frame : ServerFrame} {correlationId : Uuid} (h : frame.Typed chrono)
    (hid : IsUuid correlationId) : ReceivedFrame.ofJson reader (frame.json chrono correlationId) =
      some (frame.received chrono correlationId) := by
  have hkeys : (frame.json chrono correlationId).Distinct := by
    cases frame <;> simp [ServerFrame.json, Json.Distinct]
  unfold ReceivedFrame.ofJson
  cases frame <;> refine Json.object_bind (Json.required_bind hkeys 0 rfl rfl ?_)
  case welcome protocolVersion userId serverTime latestCursor =>
    refine Json.required_bind hkeys 1 rfl (unsigned_json h.1) ?_
    refine Json.required_bind hkeys 2 rfl (readUuid_json hreads h.2.1) ?_
    refine Json.required_bind hkeys 3 rfl (readTime_json hreads _) ?_
    exact Json.required_bind hkeys 4 rfl (unsigned_json h.2.2) rfl
  case pong nonce => exact Json.required_map hkeys 1 rfl (readUuid_json hreads h)
  case ack requestId a =>
    refine Json.required_bind hkeys 1 rfl (readUuid_json hreads h.1) ?_
    exact Json.required_bind hkeys 2 rfl (ack_read hreads h.2) rfl
  case event e => exact Json.required_map hkeys 1 rfl (event_read hreads h)
  case typing signal =>
    refine Json.required_bind hkeys 1 rfl (readUuid_json hreads h.1) ?_
    refine Json.required_bind hkeys 2 rfl (readUuid_json hreads h.2) ?_
    refine Json.required_bind hkeys 3 rfl rfl ?_
    exact Json.required_bind hkeys 4 rfl (readTime_json hreads _) rfl
  case callSignal d =>
    refine Json.required_bind hkeys 1 rfl (readUuid_json hreads h.1) ?_
    refine Json.required_bind hkeys 2 rfl (readUuid_json hreads h.2.1) ?_
    refine Json.required_bind hkeys 3 rfl (readUuid_json hreads h.2.2.1) ?_
    exact Json.required_bind hkeys 4 rfl (signal_read hreads h.2.2.2) rfl
  case error requestId code messageKey =>
    refine Json.optional_bind hkeys 1 rfl (nullable_uuid hreads h) ?_
    exact Json.required_bind hkeys 2 rfl (error_read hreads hid) rfl

theorem request_read {request : SendMessageRequest} (h : request.Typed)
    (hdepth : (request.content.json chrono).depth ≤ recursionLimit) :
    SendMessageRequest.ofJson reader (request.json chrono) = some request := by
  have hkeys : (request.json chrono).Distinct := by simp [SendMessageRequest.json, Json.Distinct]
  have hexpires : Json.nullable (Json.unsigned? 32) (jsonOption jsonNat request.expiresInSeconds) =
      some request.expiresInSeconds :=
    nullable_json (by simp [jsonNat]) fun n hn => unsigned_json (h.expiresInSeconds n hn)
  unfold SendMessageRequest.ofJson SendMessageRequest.json
  refine Json.object_bind ?_
  refine Json.required_bind hkeys 0 rfl (readUuid_json hreads h.clientMessageId) ?_
  refine Json.required_bind hkeys 1 rfl
    (content_read hreads request.content h.content hdepth) ?_
  refine Json.optional_bind hkeys 2 rfl (nullable_uuid hreads h.replyTo) ?_
  refine Json.defaulted_bind hkeys 3 rfl (listOf_uuids hreads h.mentions) ?_
  refine Json.defaulted_bind hkeys 4 rfl rfl ?_
  exact Json.optional_bind hkeys 5 rfl hexpires rfl

/-- The values of a frame of the client are those the server has. -/
theorem clientFrame_read {frame : ClientFrame} (h : frame.Typed)
    (hdepth : (frame.json chrono).depth ≤ recursionLimit) :
    ClientFrame.ofJson reader (frame.json chrono) = some frame := by
  have hkeys : (frame.json chrono).Distinct := by
    cases frame <;> simp [ClientFrame.json, Json.Distinct]
  unfold ClientFrame.ofJson
  cases frame <;> refine Json.object_bind (Json.required_bind hkeys 0 rfl rfl ?_)
  case hello protocolVersion clientVersion accessToken lastCursor =>
    refine Json.required_bind hkeys 1 rfl (unsigned_json h.1) ?_
    refine Json.required_bind hkeys 2 rfl rfl ?_
    refine Json.required_bind hkeys 3 rfl rfl ?_
    exact Json.required_bind hkeys 4 rfl (unsigned_json h.2) rfl
  case ping nonce => exact Json.required_map hkeys 1 rfl (readUuid_json hreads h)
  case sendMessage requestId conversationId message =>
    have hcontent : (message.content.json chrono).depth ≤ recursionLimit := by
      simp only [ClientFrame.json, SendMessageRequest.json, Json.depth, Json.depthFields] at hdepth
      omega
    refine Json.required_bind hkeys 1 rfl (readUuid_json hreads h.1) ?_
    refine Json.required_bind hkeys 2 rfl (readUuid_json hreads h.2.1) ?_
    exact Json.required_bind hkeys 3 rfl (request_read hreads h.2.2 hcontent) rfl
  case markRead requestId conversationId throughSequence =>
    refine Json.required_bind hkeys 1 rfl (readUuid_json hreads h.1) ?_
    refine Json.required_bind hkeys 2 rfl (readUuid_json hreads h.2.1) ?_
    exact Json.required_bind hkeys 3 rfl (unsigned_json h.2.2) rfl
  case typing conversationId active =>
    refine Json.required_bind hkeys 1 rfl (readUuid_json hreads h) ?_
    exact Json.required_bind hkeys 2 rfl rfl rfl
  case callSignal conversationId callId target signal =>
    refine Json.required_bind hkeys 1 rfl (readUuid_json hreads h.1) ?_
    refine Json.required_bind hkeys 2 rfl (readUuid_json hreads h.2.1) ?_
    refine Json.optional_bind hkeys 3 rfl (nullable_uuid hreads h.2.2.1) ?_
    exact Json.required_bind hkeys 4 rfl (signal_read hreads h.2.2.2) rfl

end

end IamRust
