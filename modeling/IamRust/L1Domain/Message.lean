import IamRust.L1Domain.Validation

/-!
# Messages

mirrors crates/domain/src/message.rs. A forward bundle holds messages whose
contents may again be any content; `validate` looks one level deep.
-/
namespace IamRust

open Core

inductive AttachmentKind where
  | image | file | audio | video
  deriving DecidableEq, Repr

structure Attachment where
  id : AttachmentId
  kind : AttachmentKind
  fileName : String
  mimeType : String
  byteSize : Nat
  sha256 : Option String
  storageKey : String
  thumbnailKey : Option String
  deriving DecidableEq, Repr

/-- `ForwardedMessage`, with the type of its content still open. -/
structure ForwardedOf (γ : Type) where
  senderId : UserId
  senderName : String
  content : γ
  createdAt : DateTime

inductive MessageContent where
  | text (text : String)
  | image (attachment : Attachment)
  | file (attachment : Attachment)
  | audio (attachment : Attachment) (durationMs : Nat)
  | sticker (attachment : Attachment) (name : String)
  | forwardBundle (title : String) (messages : List (ForwardedOf MessageContent))
  | system (text : String)

abbrev ForwardedMessage := ForwardedOf MessageContent

namespace MessageContent

/-- `matches!(content, MessageContent::System { .. })`. -/
def isSystem : MessageContent → Bool
  | .system _ => true
  | _ => false

/-- `matches!(content, MessageContent::ForwardBundle { .. })`. -/
def isForwardBundle : MessageContent → Bool
  | .forwardBundle _ _ => true
  | _ => false

/-- `matches!(content, MessageContent::Text { .. })`. -/
def isText : MessageContent → Bool
  | .text _ => true
  | _ => false

/-- `Image`, `File`, `Audio` or `Sticker`: the contents with an attachment. -/
def attachment? : MessageContent → Option Attachment
  | .image a => some a
  | .file a => some a
  | .audio a _ => some a
  | .sticker a _ => some a
  | _ => none

/-- The check of a bundle's title and entries.
mirrors crates/domain/src/message.rs:70-82 -/
def invalidBundle (title : String) (messages : List ForwardedMessage) : Bool :=
  Text.isBlank title || decide (title.length > 80) ||
    !decide (2 ≤ messages.length ∧ messages.length ≤ 100) ||
    messages.any fun m => Text.isBlank m.senderName || decide (m.senderName.length > 80) ||
      m.content.isSystem || m.content.isForwardBundle

def emptyFile : DomainError := .validation "attachment" "empty_file"

/-- mirrors crates/domain/src/message.rs:64-107 -/
def validate : MessageContent → Except DomainError Unit
  | .text s => validateMessageText s
  | .system s => if Text.isBlank s then .error .emptyMessage else .ok ()
  | .forwardBundle title messages =>
    if invalidBundle title messages then .error (.validation "forward_bundle" "invalid_bundle")
    else .ok ()
  | .image a => if a.byteSize = 0 then .error emptyFile else .ok ()
  | .file a => if a.byteSize = 0 then .error emptyFile else .ok ()
  | .audio a _ => if a.byteSize = 0 then .error emptyFile else .ok ()
  | .sticker a name =>
    if a.byteSize = 0 then .error emptyFile
    else if Text.isBlank name ∨ name.length > 48 then
      .error (.validation "sticker_name" "invalid_length")
    else .ok ()

end MessageContent

inductive MessageStatus where
  | pending | sent | delivered | read | failed | recalled
  deriving DecidableEq, Repr

structure Message where
  id : MessageId
  clientMessageId : MessageId
  conversationId : ConversationId
  senderId : UserId
  sequence : Option Nat
  content : MessageContent
  status : MessageStatus
  replyTo : Option MessageId
  mentions : List UserId
  mentionAll : Bool
  createdAt : DateTime
  serverCreatedAt : Option DateTime
  editedAt : Option DateTime

namespace Message

/-- `id` is the identifier drawn for it.
mirrors crates/domain/src/message.rs:142-167 -/
def pending (id clientMessageId : MessageId) (conversationId : ConversationId)
    (senderId : UserId) (content : MessageContent) (now : DateTime) :
    Except DomainError Message :=
  (content.validate).map fun _ => {
    id := id
    clientMessageId := clientMessageId
    conversationId := conversationId
    senderId := senderId
    sequence := none
    content := content
    status := .pending
    replyTo := none
    mentions := []
    mentionAll := false
    createdAt := now
    serverCreatedAt := none
    editedAt := none }

/-- mirrors crates/domain/src/message.rs:169-184 -/
def markSent (m : Message) (sequence : Nat) (serverTime : DateTime) : Except DomainError Message :=
  if m.status ≠ .pending ∧ m.status ≠ .failed then .error (.invalidTransition "final" "sent")
  else .ok { m with sequence := some sequence, serverCreatedAt := some serverTime, status := .sent }

end Message

end IamRust
