import IamRust.L3Service.Sessions

/-!
# Attachments and stickers

An attachment is authorised, then completed (or quarantined) by its owner;
only a completed one is available. Expired authorisations are collected.
-/
namespace IamRust

open Core
open Core.Tx (failIf okOr ofExcept whenTrue whenSome forEach mapEach)

structure AttachmentAuthorization where
  attachment : Attachment
  expiresAt : DateTime

structure CreateStickerRequest where
  attachmentId : AttachmentId
  name : String
  shortcut : Option String

/-- A trimmed file name without path separators, not `.` or `..`. -/
def safeFileName (fileName : String) : Bool :=
  !fileName.isEmpty && decide (fileName.length ≤ 255) &&
    !fileName.toList.any (fun c => c.toNat == 0x2F || c.toNat == 0x5C || c.toNat == 0) &&
    fileName != "." && fileName != ".."

/-- mirrors crates/application/src/service.rs:4375-4424 -/
def validateAttachmentMetadata (fileName mimeType : String) (byteSize : Nat)
    (sha256 : Option String) : Except DomainError Unit :=
  let mimeType := Text.toAsciiLowercase (Text.trim mimeType)
  let maximum :=
    if Text.startsWith mimeType "image/" ∨ Text.startsWith mimeType "audio/" then 25 * 1024 * 1024
    else 100 * 1024 * 1024
  if safeFileName (Text.trim fileName) = false then .error (.validation "file_name" "unsafe_name")
  else if byteSize = 0 ∨ byteSize > maximum then .error (.validation "byte_size" "invalid_range")
  else if Text.byteLen mimeType > 127 ∨ mimeType.toList.contains '/' = false ∨
      mimeType.toList.any Text.isWhitespace then .error (.validation "mime_type" "invalid_value")
  else if sha256.any (fun hash => Text.byteLen hash != 64 ||
      !hash.toList.all Text.isAsciiHexdigit) then .error (.validation "sha256" "invalid_value")
  else .ok ()

/-- mirrors crates/application/src/service.rs:4426-4436 -/
def attachmentKindForMime (mimeType : String) : AttachmentKind :=
  if Text.startsWith mimeType "image/" then .image
  else if Text.startsWith mimeType "audio/" then .audio
  else if Text.startsWith mimeType "video/" then .video
  else .file

section
variable (env : Env)

/-- The kind is read off the media type as given, before trimming and lowering.
mirrors crates/application/src/service.rs:1573-1614 -/
def authorizeAttachment (actor : UserId) (fileName mimeType : String) (byteSize : Nat)
    (sha256 : Option String) (now : DateTime) : Service AttachmentAuthorization := do
  check (validateAttachmentMetadata fileName mimeType byteSize sha256)
  let id ← newUuid env
  let attachment : Attachment := {
    id := id
    kind := attachmentKindForMime mimeType
    fileName := Text.trim fileName
    mimeType := Text.toAsciiLowercase (Text.trim mimeType)
    byteSize := byteSize
    sha256 := sha256.map Text.toAsciiLowercase
    storageKey := "uploads/" ++ Uuid.toString actor ++ "/" ++ Uuid.toString id
    thumbnailKey := none }
  let expiresAt := now + Duration.minutes 10
  update .attachments fun w =>
    w.attachments.insert id ⟨attachment, actor, expiresAt, false, false⟩
  pure ⟨attachment, expiresAt⟩

/-- mirrors crates/application/src/service.rs:1616-1638 -/
def completeAttachment (actor : UserId) (attachmentId : AttachmentId) (now : DateTime) :
    Service Attachment := do
  let w ← get
  let pending ← okOr ((w.attachments.get attachmentId).filter fun p => p.ownerId == actor)
    .notFound
  failIf (pending.expiresAt ≤ now) .conflict
  failIf pending.quarantined forbidden
  update .attachments fun w =>
    w.attachments.insert attachmentId { pending with available := true }
  pure pending.attachment

/-- mirrors crates/application/src/service.rs:1640-1657 -/
def quarantineAttachment (actor : UserId) (attachmentId : AttachmentId) (now : DateTime) :
    Service Unit := do
  let w ← get
  let pending ← okOr ((w.attachments.get attachmentId).filter fun p =>
    p.ownerId == actor && !p.available) .notFound
  update .attachments fun w => w.attachments.insert attachmentId
    { pending with quarantined := true, expiresAt := now + Duration.days 7 }

/-- The attachment a sticker may be made of. -/
def PendingAttachment.stickerOf (pending : PendingAttachment) (actor : UserId) : Bool :=
  pending.ownerId == actor && pending.available && pending.attachment.kind == .image &&
    decide (pending.attachment.byteSize ≤ 10 * 1024 * 1024)

/-- mirrors crates/application/src/service.rs:1691-1744 -/
def createSticker (actor : UserId) (request : CreateStickerRequest) (now : DateTime) :
    Service Sticker := do
  let name := Text.trim request.name
  let shortcut := normalizeOptional request.shortcut
  failIf (name.isEmpty ∨ name.length > 48 ∨ shortcut.any fun value =>
    decide (value.length > 32) || value.toList.any Text.isWhitespace)
    (invalid "sticker" "invalid_metadata")
  let w ← get
  failIf ((w.stickers.values.filter fun sticker => sticker.ownerId == actor).length ≥ 100)
    .conflict
  let pending ← okOr ((w.attachments.get request.attachmentId).filter (·.stickerOf actor))
    .notFound
  let id ← newUuid env
  let sticker : Sticker := ⟨id, actor, pending.attachment, name, shortcut, now⟩
  update .stickers fun w => w.stickers.insert id sticker
  pure sticker

/-- mirrors crates/application/src/service.rs:1746-1763 -/
def deleteSticker (actor : UserId) (stickerId : Uuid) : Service Unit := do
  let w ← get
  failIf ((w.stickers.get stickerId).all fun sticker => sticker.ownerId != actor) .notFound
  update .stickers fun w => w.stickers.remove stickerId

/-- mirrors crates/application/src/service.rs:1804-1821 -/
def cleanupExpiredAttachments (now : DateTime) : Service (List String) := do
  let w ← get
  let expired := w.attachments.values.filter fun p => !p.available && decide (p.expiresAt ≤ now)
  update .attachments fun w => w.attachments.retain fun _ p =>
    p.available || decide (p.expiresAt > now)
  pure (expired.map (·.attachment.storageKey))

end

/-! ## Footprints -/

set_option synthInstance.maxSize 1000000000000

section
variable {env : Env} {R : World → World → Prop} [IsPreorder World R]

instance keeps_completeAttachment [Ignores R .attachments] {actor : UserId} {id : AttachmentId}
    {now : DateTime} : Tx.Keeps R (completeAttachment actor id now) := by
  unfold completeAttachment; infer_instance

instance keeps_quarantineAttachment [Ignores R .attachments] {actor : UserId}
    {id : AttachmentId} {now : DateTime} : Tx.Keeps R (quarantineAttachment actor id now) := by
  unfold quarantineAttachment; infer_instance

instance keeps_deleteSticker [Ignores R .stickers] {actor : UserId} {id : Uuid} :
    Tx.Keeps R (deleteSticker actor id) := by
  unfold deleteSticker; infer_instance

instance keeps_cleanupExpiredAttachments [Ignores R .attachments] {now : DateTime} :
    Tx.Keeps R (cleanupExpiredAttachments now) := by
  unfold cleanupExpiredAttachments; infer_instance

variable [Drawing env R]

instance keeps_authorizeAttachment [Ignores R .attachments] {actor : UserId}
    {fileName mimeType : String} {byteSize : Nat} {sha256 : Option String} {now : DateTime} :
    Tx.Keeps R (authorizeAttachment env actor fileName mimeType byteSize sha256 now) := by
  unfold authorizeAttachment; infer_instance

instance keeps_createSticker [Ignores R .stickers] {actor : UserId}
    {request : CreateStickerRequest} {now : DateTime} :
    Tx.Keeps R (createSticker env actor request now) := by
  unfold createSticker; infer_instance

end

end IamRust
