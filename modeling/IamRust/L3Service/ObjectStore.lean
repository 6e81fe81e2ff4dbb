import IamRust.L3Service.Attachments

/-!
# The object store

What the server asks of the object store: a presigned PUT for an upload, and the
checks of the object when it is completed. A presigned request is taken for what
it allows; how it is signed is left out. An object is what the last PUT brought.
-/
namespace IamRust

open Core

/-- The bytes and the headers of the last PUT. `sha256`: `x-amz-meta-sha256`. -/
structure StoredObject where
  bytes : List UInt8
  contentType : String
  sha256 : Option String
  deriving DecidableEq

abbrev Objects := Map String StoredObject

/-- A PUT that is signed for a key and the headers, until it expires. -/
structure PresignedPut where
  key : String
  contentType : String
  sha256 : Option String
  expiresAt : DateTime

/-- What a PUT of the bytes stores. -/
def PresignedPut.object (put : PresignedPut) (bytes : List UInt8) : StoredObject :=
  ⟨bytes, put.contentType, put.sha256⟩

/-- `!key.is_empty() && !key.contains("..")`. -/
def safeKey (key : String) : Bool :=
  !key.isEmpty && !(key.toList.zip key.toList.tail).any fun pair => pair.1 == '.' && pair.2 == '.'

/-- mirrors apps/server/src/object_store.rs:67-79, 205 -/
def presignPut (key mimeType : String) (sha256 : Option String) (now : DateTime) :
    Option PresignedPut :=
  if safeKey key = false then none
  else some ⟨key, mimeType, sha256, now + Duration.seconds 600⟩

/-- A header as text: visible ASCII. -/
def headerText (value : String) : Option String :=
  if value.toList.all fun c => (0x20 ≤ c.toNat && c.toNat < 0x7F) || c.toNat == 0x9 then some value
  else none

/-- `value.split(';').next().unwrap_or(value).trim()`. -/
def mediaType (value : String) : String :=
  Text.trim (String.ofList ((Text.split ';' value.toList).headD value.toList))

/-- `eq_ignore_ascii_case`. -/
def eqIgnoreAsciiCase (s t : String) : Bool := Text.toAsciiLowercase s == Text.toAsciiLowercase t

/-- What `verify_object` reads off the HEAD.
mirrors apps/server/src/object_store.rs:93-132 -/
def verifyHead (object : Option StoredObject) (expectedMime : String) (expectedSize : Nat)
    (expectedSha256 : Option String) : Bool :=
  object.any fun o =>
    o.bytes.length == expectedSize &&
      (headerText o.contentType).any (fun value =>
        eqIgnoreAsciiCase (mediaType value) expectedMime) &&
      expectedSha256.all fun expected =>
        (o.sha256.bind headerText).any fun actual => eqIgnoreAsciiCase actual expected

/-- mirrors apps/server/src/object_store.rs:352-359 -/
def isExecutable (bytes : List UInt8) : Bool :=
  [[0x4D, 0x5A], [0x7F, 0x45, 0x4C, 0x46], [0xFE, 0xED, 0xFA, 0xCE], [0xFE, 0xED, 0xFA, 0xCF],
    [0xCF, 0xFA, 0xED, 0xFE], [0xCE, 0xFA, 0xED, 0xFE]].any (·.isPrefixOf bytes)

/-- `bytes.get(from..from + value.len()).is_some_and(|part| part == value)`. -/
def hasAt (offset : Nat) (value bytes : List UInt8) : Bool := value.isPrefixOf (bytes.drop offset)

/-- mirrors apps/server/src/object_store.rs:322-350 -/
def validateMagic (mimeType : String) (bytes : List UInt8) : Bool :=
  match Text.toAsciiLowercase mimeType with
  | "image/png" => hasAt 0 [0x89, 0x50, 0x4E, 0x47, 0x0D, 0x0A, 0x1A, 0x0A] bytes
  | "image/jpeg" => hasAt 0 [0xFF, 0xD8, 0xFF] bytes
  | "image/gif" => hasAt 0 [0x47, 0x49, 0x46, 0x38, 0x37, 0x61] bytes ||
      hasAt 0 [0x47, 0x49, 0x46, 0x38, 0x39, 0x61] bytes
  | "image/webp" => hasAt 0 [0x52, 0x49, 0x46, 0x46] bytes && hasAt 8 [0x57, 0x45, 0x42, 0x50] bytes
  | "audio/ogg" | "video/ogg" => hasAt 0 [0x4F, 0x67, 0x67, 0x53] bytes
  | "audio/wav" | "audio/x-wav" =>
      hasAt 0 [0x52, 0x49, 0x46, 0x46] bytes && hasAt 8 [0x57, 0x41, 0x56, 0x45] bytes
  | "audio/mpeg" => hasAt 0 [0x49, 0x44, 0x33] bytes ||
      match bytes with
      | first :: second :: _ => first == 0xFF && second &&& 0xE0 == 0xE0
      | _ => false
  | "video/mp4" => hasAt 4 [0x66, 0x74, 0x79, 0x70] bytes
  | "video/webm" | "audio/webm" => hasAt 0 [0x1A, 0x45, 0xDF, 0xA3] bytes
  | "application/pdf" => hasAt 0 [0x25, 0x50, 0x44, 0x46, 0x2D] bytes
  | _ => !isExecutable bytes

/-- The range `bytes=0-511` and what `verify_object` makes of it.
mirrors apps/server/src/object_store.rs:134-150 -/
def inspectPrefix (object : Option StoredObject) (expectedMime : String) : Bool :=
  object.any fun o => validateMagic expectedMime (o.bytes.take 512)

/-- mirrors apps/server/src/object_store.rs:168-193 -/
def readObject (object : Option StoredObject) (maximumBytes : Nat) : Option (List UInt8) :=
  (object.filter fun o => decide (o.bytes.length ≤ maximumBytes)).map (·.bytes)

/-- mirrors apps/server/src/malware.rs:10-14 -/
inductive ScanVerdict where
  | clean
  | infected (signature : String)

/-- The attachment a call of `complete_upload` is about.
mirrors crates/application/src/service.rs:1659-1675 -/
def pendingAttachment (s : Store) (actor : UserId) (attachmentId : AttachmentId) (now : DateTime) :
    Except ApplicationError Attachment :=
  match (s.attachments.get attachmentId).filter fun pending =>
      pending.ownerId == actor && decide (pending.expiresAt > now) && !pending.quarantined with
  | none => .error .notFound
  | some pending => .ok pending.attachment

section
variable {object : Option StoredObject} {mime : String} {size : Nat} {sha256 : Option String}

/-- The size is checked against the bytes, the hash against a header only. -/
theorem verifyHead_length (h : verifyHead object mime size sha256 = true) :
    ∃ o, object = some o ∧ o.bytes.length = size := by
  obtain ⟨o, ho, h⟩ := (Option.any_eq_true ..).mp h
  simp only [Bool.and_eq_true, beq_iff_eq] at h
  exact ⟨o, ho, h.1.1⟩

theorem readObject_some {maximum : Nat} {bytes : List UInt8}
    (h : readObject object maximum = some bytes) : ∃ o, object = some o ∧ o.bytes = bytes := by
  obtain ⟨o, ho, hbytes⟩ := Option.map_eq_some_iff.mp h
  exact ⟨o, (Option.filter_eq_some_iff.mp ho).1, hbytes⟩

theorem pendingAttachment_ok {s : Store} {actor : UserId} {id : AttachmentId} {now : DateTime}
    {a : Attachment} (h : pendingAttachment s actor id now = .ok a) :
    ∃ p, s.attachments.get id = some p ∧ p.attachment = a := by
  unfold pendingAttachment at h
  split at h
  · cases h
  · rename_i p hget
    cases h
    exact ⟨p, (Option.filter_eq_some_iff.mp hget).1, rfl⟩

end

end IamRust
