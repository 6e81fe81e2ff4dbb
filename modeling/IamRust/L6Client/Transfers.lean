import IamRust.L4Properties.GroupSize
import IamRust.L4Properties.SecondFactor
import IamRust.L5Concurrency.Uploads

/-!
# Transfers

`upload_file` has the size and the SHA-256 of what it read put down with the attachment.
`download_attachment` writes what it receives to a temporary file next to the destination,
which gets its name when size and hash are those of the attachment. The bytes may come in any
pieces, and from an object store that serves anything.

* `transfers_exact`: whatever downloads run side by side, a file that was there stays as it
  was, there is nothing new but what was saved and the temporary files of running downloads,
  and what was saved has the size of the attachment and the hash of what was uploaded.
-/
namespace IamRust

open Core

/-! ## Uploading -/

/-- The errors of a transfer.
mirrors apps/desktop/src/api.rs:82-101 -/
inductive ClientError where
  | offline
  | invalidResponse
  | localFile (message : String)
  | request (status : Nat) (code messageKey : String) (retryable : Bool)

/-- A file that was chosen. `metadata`: whether it is a file, and its size. What cannot be read is
`none`, and so is a name or an extension that is not UTF-8. -/
structure LocalFile where
  metadata : Option (Bool × Nat)
  fileName : Option String
  extension : Option String
  bytes : Option (List UInt8)

/-- The request for an authorization, and the bytes it is about. -/
structure FileUpload where
  fileName : String
  mimeType : String
  byteSize : Nat
  sha256 : Option String
  bytes : List UInt8

/-- mirrors apps/desktop/src/api.rs:1224-1236 -/
def imageMimeType (bytes : List UInt8) : Option String :=
  if hasAt 0 [0x89, 0x50, 0x4E, 0x47, 0x0D, 0x0A, 0x1A, 0x0A] bytes then some "image/png"
  else if hasAt 0 [0xFF, 0xD8, 0xFF] bytes then some "image/jpeg"
  else if hasAt 0 [0x47, 0x49, 0x46, 0x38, 0x37, 0x61] bytes ||
    hasAt 0 [0x47, 0x49, 0x46, 0x38, 0x39, 0x61] bytes then some "image/gif"
  else if hasAt 0 [0x52, 0x49, 0x46, 0x46] bytes && hasAt 8 [0x57, 0x45, 0x42, 0x50] bytes then
    some "image/webp"
  else none

/-- mirrors apps/desktop/src/api.rs:1238-1257 -/
def mimeTypeFromPath (extension : Option String) : String :=
  match extension.map Text.toAsciiLowercase with
  | some "txt" | some "log" | some "md" => "text/plain"
  | some "json" => "application/json"
  | some "csv" => "text/csv"
  | some "pdf" => "application/pdf"
  | some "zip" => "application/zip"
  | some "mp3" => "audio/mpeg"
  | some "wav" => "audio/wav"
  | some "m4a" => "audio/mp4"
  | some "mp4" => "video/mp4"
  | some "webm" => "video/webm"
  | _ => "application/octet-stream"

/-- mirrors apps/desktop/src/api.rs:40-41 -/
def maxTransferBytes : Nat := 100 * 1024 * 1024

/-- What `upload_file` asks for, of a file that is read after its metadata.
mirrors apps/desktop/src/api.rs:342-372 -/
def uploadRequest (env : Env) (file : LocalFile) (imageOnly : Bool) :
    Except ClientError FileUpload :=
  match file.metadata with
  | none => .error (.localFile "无法读取所选文件")
  | some (isFile, size) =>
    if isFile = false ∨ size = 0 ∨ maxTransferBytes < size then
      .error (.localFile "文件必须介于 1 B 与 100 MiB 之间")
    else
      match (file.fileName.map Text.trim).filter fun name =>
          !name.isEmpty && decide (name.length ≤ 255) with
      | none => .error (.localFile "文件名无效")
      | some fileName =>
        match file.bytes with
        | none => .error (.localFile "无法读取所选文件")
        | some bytes =>
          if imageOnly = true ∧ imageMimeType bytes = none then
            .error (.localFile "请选择 PNG、JPEG、GIF 或 WebP 图片")
          else if imageOnly = true ∧ 25 * 1024 * 1024 < bytes.length then
            .error (.localFile "图片不能超过 25 MiB")
          else
            .ok {
              fileName := fileName
              mimeType := (imageMimeType bytes).getD (mimeTypeFromPath file.extension)
              byteSize := size
              sha256 := some (Text.toHex (env.sha256 bytes))
              bytes := bytes }

/-! ## Downloading -/

/-- Where a download goes. `parent`: the directory, as `canonicalize` gives it if it is there. -/
structure Destination where
  fileName : Option String
  parent : Option (Option String)

/-- The directory and the path.
mirrors apps/desktop/src/api.rs:424-434 -/
def Destination.resolve (d : Destination) : Except ClientError (String × String) :=
  match d.fileName.filter fun name => !(Text.trim name).isEmpty with
  | none => .error (.localFile "保存文件名无效")
  | some fileName =>
    match d.parent with
    | none => .error (.localFile "保存目录无效")
    | some none => .error (.localFile "保存目录不可用")
    | some (some directory) => .ok (directory, directory ++ "/" ++ fileName)

/-- The files, by path. -/
abbrev Files := Map String (List UInt8)

/-- `sent`: what was read for an upload, and for which attachment; `saved`: what was downloaded,
and where to. No step looks at the two. -/
structure Desk where
  world : World
  files : Files
  sent : List (AttachmentId × List UInt8)
  saved : List (String × AttachmentId)

/-- A download that is authorized: what was asked for, and what was granted. -/
structure Download where
  asked : Attachment
  granted : Attachment
  directory : String
  path : String

inductive TransferTask where
  | idle
  | uploading (id : AttachmentId) (size : Nat)
  | uploaded (id : AttachmentId) (size : Nat)
  | asking (attachment : Attachment) (directory path : String)
  | fetching (d : Download)
  | receiving (d : Download) (temporary : String) (received : List UInt8)
  | finished
  | failed (error : ClientError)

/-- `fail`: the network, the server or the disk does; a process that is killed is left out. -/
inductive TransferStep where
  | transaction (op : Op)
  | upload (actor : UserId) (file : LocalFile) (imageOnly : Bool) (now : DateTime)
  | put
  | complete (actor : UserId) (now : DateTime)
  | download (attachment : Attachment) (destination : Destination)
  | authorize (actor : UserId)
  | respond (contentLength : Option Nat) (temporary : String)
  | read (chunk : List UInt8)
  | finish
  | fail (error : ClientError)

section
variable (env : Env)

/-- A temporary file is a new one, and is removed when the download fails.
mirrors apps/desktop/src/api.rs:337-512, apps/server/src/api.rs:1917-1967, 2072-2109 -/
def Desk.step (g : Desk) : TransferTask → TransferStep → Option (Desk × TransferTask)
  | .idle, .transaction op =>
    match op.run env g.world with
    | .error _ => none
    | .ok (_, world) => some ({ g with world := world }, .idle)
  | .idle, .upload actor file imageOnly now =>
    match uploadRequest env file imageOnly with
    | .error error => some (g, .failed error)
    | .ok request =>
      match authorizeAttachment env actor request.fileName request.mimeType request.byteSize
        request.sha256 now g.world with
      | .error _ => none
      | .ok (authorization, world) =>
        some ({ g with
          world := world
          sent := g.sent ++ [(authorization.attachment.id, request.bytes)] },
          .uploading authorization.attachment.id request.byteSize)
  | .uploading id size, .put => some (g, .uploaded id size)
  | .uploaded id size, .complete actor now =>
    match completeAttachment actor id now g.world with
    | .error _ => none
    | .ok (attachment, world) =>
      if attachment.id ≠ id ∨ attachment.byteSize ≠ size then
        some ({ g with world := world }, .failed .invalidResponse)
      else some ({ g with world := world }, .finished)
  | .idle, .download attachment destination =>
    if attachment.byteSize = 0 ∨ maxTransferBytes < attachment.byteSize then
      some (g, .failed .invalidResponse)
    else
      match destination.resolve with
      | .error error => some (g, .failed error)
      | .ok (directory, path) =>
        if (g.files.get path).isSome then
          some (g, .failed (.localFile "目标文件已存在，请选择其他名称"))
        else some (g, .asking attachment directory path)
  | .asking attachment directory path, .authorize actor =>
    match attachmentForDownload g.world.toStore actor attachment.id with
    | .error _ => none
    | .ok granted =>
      if granted.id ≠ attachment.id ∨ granted.byteSize ≠ attachment.byteSize then
        some (g, .failed .invalidResponse)
      else some (g, .fetching ⟨attachment, granted, directory, path⟩)
  | .fetching d, .respond contentLength temporary =>
    if contentLength.any (· != d.asked.byteSize) then some (g, .failed .invalidResponse)
    else if (g.files.get (d.directory ++ "/" ++ temporary)).isSome then none
    else
      some ({ g with files := g.files.insert (d.directory ++ "/" ++ temporary) [] },
        .receiving d (d.directory ++ "/" ++ temporary) [])
  | .receiving d temporary received, .read chunk =>
    if chunk = [] ∨ 64 * 1024 < chunk.length then none
    else if d.asked.byteSize < received.length + chunk.length ∨
        maxTransferBytes < received.length + chunk.length then
      some ({ g with files := g.files.remove temporary }, .failed .invalidResponse)
    else
      some ({ g with
        files := g.files.insert temporary ((g.files.get temporary).getD [] ++ chunk) },
        .receiving d temporary (received ++ chunk))
  | .receiving d temporary received, .finish =>
    if received.length ≠ d.asked.byteSize ∨ d.granted.sha256.any (fun expected =>
        !eqIgnoreAsciiCase (Text.toHex (env.sha256 received)) expected) then
      some ({ g with files := g.files.remove temporary }, .failed .invalidResponse)
    else if (g.files.get d.path).isSome then
      some ({ g with files := g.files.remove temporary },
        .failed (.localFile "无法保存文件，目标可能已存在"))
    else
      some ({ g with
        files := (g.files.remove temporary).insert d.path ((g.files.get temporary).getD [])
        saved := g.saved ++ [(d.path, d.granted.id)] }, .finished)
  | .receiving _ temporary _, .fail error =>
    some ({ g with files := g.files.remove temporary }, .failed error)
  | _, .fail error => some (g, .failed error)
  | _, _ => none

end

/-- A server, and transfers of its clients on one desk. -/
def transfers (ι : Type) (env : Env) (files : Files) :
    Threads ι Desk TransferTask TransferStep where
  init g tasks := g = ⟨World.init, files, [], []⟩ ∧ ∀ i, tasks i = .idle
  step _ := Desk.step env

/-! ## What a step does -/

/-- The temporary file of a download. -/
def TransferTask.temporary : TransferTask → Option (String × List UInt8)
  | .receiving _ temporary received => some (temporary, received)
  | _ => none

/-- A download that was granted. -/
def TransferTask.download : TransferTask → Option Download
  | .fetching d => some d
  | .receiving d _ _ => some d
  | _ => none

/-- The steps, by what they change. -/
inductive Transferring (env : Env) (g : Desk) :
    TransferTask → Desk → TransferTask → Prop where
  | rested {t t'} (ht : t.temporary = none) (ht' : t'.temporary = none)
    (hdownload : t'.download = none) : Transferring env g t g t'
  | ran {t w' t'} (op : Op) (hrun : (op.run env).Runs g.world () w') (ht : t.temporary = none)
    (ht' : t'.temporary = none) (hdownload : t'.download = none) :
    Transferring env g t { g with world := w' } t'
  | sent {t fileName mimeType byteSize now a w' bytes} {actor : UserId} (ht : t.temporary = none)
    (hrun : (authorizeAttachment env actor fileName mimeType byteSize
      (some (Text.toHex (env.sha256 bytes))) now).Runs g.world a w') :
    Transferring env g t
      { g with world := w', sent := g.sent ++ [(a.attachment.id, bytes)] }
      (.uploading a.attachment.id byteSize)
  | granted {a granted directory path} {actor : UserId}
    (h : attachmentForDownload g.world.toStore actor a.id = .ok granted)
    (hsame : granted.byteSize = a.byteSize) :
    Transferring env g (.asking a directory path) g (.fetching ⟨a, granted, directory, path⟩)
  | opened {d temporary} (hfree : g.files.get temporary = none) :
    Transferring env g (.fetching d) { g with files := g.files.insert temporary [] }
      (.receiving d temporary [])
  | received {d temporary received chunk} :
    Transferring env g (.receiving d temporary received)
      { g with files := g.files.insert temporary ((g.files.get temporary).getD [] ++ chunk) }
      (.receiving d temporary (received ++ chunk))
  | removed {d temporary received error} :
    Transferring env g (.receiving d temporary received)
      { g with files := g.files.remove temporary } (.failed error)
  | saved {d temporary received} (hsize : received.length = d.asked.byteSize)
    (hhash : ∀ expected, d.granted.sha256 = some expected →
      eqIgnoreAsciiCase (Text.toHex (env.sha256 received)) expected = true)
    (hfree : g.files.get d.path = none) :
    Transferring env g (.receiving d temporary received)
      { g with
        files := (g.files.remove temporary).insert d.path ((g.files.get temporary).getD [])
        saved := g.saved ++ [(d.path, d.granted.id)] } .finished

/-- The hash that is sent is the one of the bytes that were read. -/
theorem uploadRequest_sha256 {env : Env} {file : LocalFile} {imageOnly : Bool} {r : FileUpload}
    (h : uploadRequest env file imageOnly = .ok r) :
    r.sha256 = some (Text.toHex (env.sha256 r.bytes)) := by
  unfold uploadRequest at h
  repeat' split at h
  all_goals cases h
  rfl

theorem Desk.step_cases {env : Env} {g g' : Desk} {t t' : TransferTask} {l : TransferStep}
    (h : Desk.step env g t l = some (g', t')) : Transferring env g t g' t' := by
  unfold Desk.step at h
  split at h
  case h_1 op =>
    split at h <;> cases h
    exact .ran op ‹_› rfl rfl rfl
  case h_2 =>
    split at h
    · cases h
      exact .rested rfl rfl rfl
    · rename_i hrequest
      split at h <;> cases h
      rename_i hrun
      rw [uploadRequest_sha256 hrequest] at hrun
      exact .sent rfl hrun
  case h_3 =>
    cases h
    exact .rested rfl rfl rfl
  case h_4 id size actor now =>
    split at h
    · cases h
    rename_i hrun
    have hrun : ((Op.completeAttachment actor id now).run env).Runs g.world () _ :=
      Tx.runs_void.mpr ⟨_, hrun⟩
    split at h <;> cases h <;> exact .ran _ hrun rfl rfl rfl
  case h_5 =>
    split at h
    · cases h
      exact .rested rfl rfl rfl
    · split at h
      · cases h
        exact .rested rfl rfl rfl
      · split at h <;> cases h <;> exact .rested rfl rfl rfl
  case h_6 =>
    split at h
    · cases h
    split at h
    · cases h
      exact .rested rfl rfl rfl
    · rename_i hok hsame
      cases h
      exact .granted hok (not_not.mp (not_or.mp hsame).2)
  case h_7 =>
    split at h
    · cases h
      exact .rested rfl rfl rfl
    · split at h <;> cases h
      rename_i hfree
      exact .opened (Option.not_isSome_iff_eq_none.mp hfree)
  case h_8 =>
    split at h
    · cases h
    split at h <;> cases h
    · exact .removed
    · exact .received
  case h_9 =>
    split at h
    · cases h
      exact .removed
    rename_i hok
    split at h <;> cases h
    · exact .removed
    rename_i hfree
    obtain ⟨hsize, hhash⟩ := not_or.mp hok
    refine .saved (not_not.mp hsize) ?_ (Option.not_isSome_iff_eq_none.mp hfree)
    intro expected hexpected
    rw [hexpected, Option.any_some, Bool.not_eq_true, Bool.not_eq_false'] at hhash
    exact hhash
  case h_10 =>
    cases h
    exact .removed
  case h_11 hnot =>
    cases h
    refine .rested ?_ rfl rfl
    cases t with
    | receiving d temporary received => exact absurd rfl (hnot d temporary received)
    | idle | uploading | uploaded | asking | fetching | finished | failed => rfl
  case h_12 => cases h

/-! ## The attachments -/

/-- The hash of these bytes is put down with the attachment. -/
def Attachment.Declares (env : Env) (a : Attachment) (bytes : List UInt8) : Prop :=
  a.sha256 = some (Text.toHex (env.sha256 bytes))

/-- What is known of an attachment that was granted. -/
structure Desk.Knows (env : Env) (g : Desk) (a : Attachment) : Prop where
  drawn : ∃ k < g.world.nextUuid, a.id = env.uuid k
  current : ∀ p, g.world.attachments.get a.id = some p → p.attachment = a
  sent : ∀ bytes, (a.id, bytes) ∈ g.sent → a.Declares env bytes

/-- What was sent is put down with an attachment of its own. -/
structure Desk.Recorded (env : Env) (g : Desk) : Prop where
  filed : AllFiled env g.world
  drawn : ∀ id bytes, (id, bytes) ∈ g.sent → ∃ k < g.world.nextUuid, id = env.uuid k
  declared : ∀ id bytes, (id, bytes) ∈ g.sent → ∀ p, g.world.attachments.get id = some p →
    p.attachment.Declares env bytes

/-- What a step leaves as it is. -/
structure Desk.Leaves (env : Env) (g g' : Desk) : Prop where
  uuids : g.world.nextUuid ≤ g'.world.nextUuid
  attachments : ∀ k p', k < g.world.nextUuid →
    g'.world.attachments.get (env.uuid k) = some p' →
    ∃ p, g.world.attachments.get (env.uuid k) = some p ∧ p.attachment = p'.attachment
  sent : ∀ k bytes, k < g.world.nextUuid → (env.uuid k, bytes) ∈ g'.sent →
    (env.uuid k, bytes) ∈ g.sent

theorem lowercase_toHex (bytes : List UInt8) :
    Text.toAsciiLowercase (Text.toHex bytes) = Text.toHex bytes :=
  lowercase_of_lower fun c hc => (toHex_digits c hc).2

/-- Hexadecimal texts are the same up to case only if the bytes are. -/
theorem toHex_of_ignoreCase {bytes bytes' : List UInt8}
    (h : eqIgnoreAsciiCase (Text.toHex bytes) (Text.toHex bytes') = true) : bytes = bytes' := by
  rw [eqIgnoreAsciiCase, lowercase_toHex, lowercase_toHex] at h
  exact Text.toHex_injective (beq_iff_eq.mp h)

section
variable {env : Env} {g g' : Desk} {t t' : TransferTask} {a : Attachment}

/-- An authorization puts the hash down, under an id of its own. -/
theorem authorizeAttachment_runs {actor : UserId} {fileName mimeType : String} {byteSize : Nat}
    {sha256 : Option String} {now : DateTime} {w w' : World} {a : AttachmentAuthorization}
    (h : (authorizeAttachment env actor fileName mimeType byteSize sha256 now).Runs w a w') :
    a.attachment.id = env.uuid w.nextUuid ∧ w.nextUuid < w'.nextUuid ∧
      a.attachment.sha256 = sha256.map Text.toAsciiLowercase ∧
      ∃ p, w'.attachments.get (env.uuid w.nextUuid) = some p ∧ p.attachment = a.attachment := by
  simp only [IamRust.authorizeAttachment, check_bind_runs, Tx.runs_bind (t := newUuid env),
    newUuid_runs, update_bind_runs, Tx.runs_pure] at h
  obtain ⟨-, id, w₁, ⟨rfl, rfl⟩, rfl, rfl⟩ := h
  exact ⟨rfl, Nat.lt_succ_self _, rfl, _, Map.get_insert_self .., rfl⟩

/-- The server has no part in it. -/
theorem Desk.Leaves.local (hworld : g'.world = g.world) (hsent : g'.sent = g.sent) :
    g.Leaves env g' := by
  refine ⟨Nat.le_of_eq (by rw [hworld]), fun k p' _ hget => ⟨p', ?_, rfl⟩, fun k bytes _ h => ?_⟩
  · rw [← hworld, hget]
  · rw [← hsent]
    exact h

theorem Desk.Leaves.ran {op : Op} {w' : World} (hu : Function.Injective env.uuid)
    (hrun : (op.run env).Runs g.world () w') : g.Leaves env { g with world := w' } :=
  ⟨((op.evolves env).runs hrun).uuids, fun _ _ hk hget => (Op.attached hrun).before hu hk hget,
    fun _ _ _ h => h⟩

theorem Transferring.leaves (hu : Function.Injective env.uuid)
    (h : Transferring env g t g' t') : g.Leaves env g' := by
  cases h with
  | rested => exact .local rfl rfl
  | ran op hrun => exact .ran hu hrun
  | @sent _ fileName mimeType byteSize now a w' bytes actor _ hrun =>
    have hop : ((Op.authorizeAttachment actor fileName mimeType byteSize _ now).run env).Runs
      g.world () _ := Tx.runs_void.mpr ⟨_, hrun⟩
    have hleaves := Desk.Leaves.ran hu hop
    refine ⟨hleaves.uuids, hleaves.attachments, fun k bytes' hk hsent => ?_⟩
    rcases List.mem_append.mp hsent with hsent | hsent
    · exact hsent
    · have hid := (Prod.mk.inj (List.mem_singleton.mp hsent)).1
      rw [(authorizeAttachment_runs hrun).1] at hid
      exact absurd (hu hid) (Nat.ne_of_lt hk)
  | granted => exact .local rfl rfl
  | opened => exact .local rfl rfl
  | received => exact .local rfl rfl
  | removed => exact .local rfl rfl
  | saved => exact .local rfl rfl

theorem Desk.Knows.mono (h : g.Knows env a) (hg : g.Leaves env g') : g'.Knows env a := by
  obtain ⟨k, hk, hid⟩ := h.drawn
  refine ⟨⟨k, hk.trans_le hg.uuids, hid⟩, fun p' hget' => ?_, fun bytes hsent => ?_⟩
  · obtain ⟨p, hget, hsame⟩ := hg.attachments k p' hk (hid ▸ hget')
    exact hsame.symm.trans (h.current p (hid ▸ hget))
  · exact h.sent bytes (hid ▸ hg.sent k bytes hk (hid ▸ hsent))

/-- What is granted is on file. -/
theorem attachmentForDownload_ok {s : Store} {actor : UserId} {id : AttachmentId}
    (h : attachmentForDownload s actor id = .ok a) :
    ∃ p, s.attachments.get id = some p ∧ p.attachment = a := by
  unfold attachmentForDownload at h
  split at h
  · cases h
  · rename_i p hget
    refine ⟨p, (Option.filter_eq_some_iff.mp hget).1, ?_⟩
    repeat' split at h
    all_goals cases h
    all_goals rfl

theorem Desk.Recorded.knows (h : g.Recorded env) {actor : UserId} {id : AttachmentId}
    (hok : attachmentForDownload g.world.toStore actor id = .ok a) : g.Knows env a := by
  obtain ⟨p, hget, rfl⟩ := attachmentForDownload_ok hok
  obtain ⟨hdrawn, hid, -, -⟩ := h.filed id p hget
  refine ⟨hid ▸ hdrawn, fun p' hget' => ?_, fun bytes hsent => ?_⟩
  · rw [hid] at hget'
    cases hget.symm.trans hget'
    rfl
  · exact h.declared id bytes (hid ▸ hsent) p hget

theorem Desk.Recorded.mono (h : g.Recorded env) (hg : g.Leaves env g')
    (hfiled : AllFiled env g'.world) (hsent : g'.sent = g.sent) : g'.Recorded env := by
  refine ⟨hfiled, fun id bytes hmem => ?_, fun id bytes hmem p' hget' => ?_⟩
  · obtain ⟨k, hk, hid⟩ := h.drawn id bytes (hsent ▸ hmem)
    exact ⟨k, hk.trans_le hg.uuids, hid⟩
  · obtain ⟨k, hk, rfl⟩ := h.drawn id bytes (hsent ▸ hmem)
    obtain ⟨p, hget, hsame⟩ := hg.attachments k p' hk hget'
    exact hsame ▸ h.declared _ bytes (hsent ▸ hmem) p hget

theorem Transferring.recorded (h : Transferring env g t g' t') (hu : Function.Injective env.uuid)
    (hg : g.Recorded env) : g'.Recorded env := by
  have hleaves := h.leaves hu
  cases h with
  | rested => exact hg
  | ran op hrun =>
    exact hg.mono hleaves ((Op.attached hrun).filed hg.filed hleaves.uuids) rfl
  | @sent _ fileName mimeType byteSize now a w' bytes actor _ hrun =>
    have hop : ((Op.authorizeAttachment actor fileName mimeType byteSize _ now).run env).Runs
      g.world () _ := Tx.runs_void.mpr ⟨_, hrun⟩
    obtain ⟨hid, hlt, hhash, p, hget, hsame⟩ := authorizeAttachment_runs hrun
    have hran := hg.mono (Desk.Leaves.ran hu hop)
      ((Op.attached hop).filed hg.filed hleaves.uuids) rfl
    refine ⟨hran.filed, fun id bytes' hmem => ?_, fun id bytes' hmem p' hget' => ?_⟩
    · rcases List.mem_append.mp hmem with hmem | hmem
      · exact hran.drawn id bytes' hmem
      · cases List.mem_singleton.mp hmem
        exact ⟨_, hlt, hid⟩
    · rcases List.mem_append.mp hmem with hmem | hmem
      · exact hran.declared id bytes' hmem p' hget'
      · cases List.mem_singleton.mp hmem
        rw [hid] at hget'
        cases hget.symm.trans hget'
        rw [Attachment.Declares, hsame, hhash, Option.map_some, lowercase_toHex]
  | granted => exact hg
  | opened => exact ⟨hg.filed, hg.drawn, hg.declared⟩
  | received => exact ⟨hg.filed, hg.drawn, hg.declared⟩
  | removed => exact ⟨hg.filed, hg.drawn, hg.declared⟩
  | saved => exact ⟨hg.filed, hg.drawn, hg.declared⟩

end

/-! ## The files -/

section
variable {env : Env} {g g' : Desk} {t t' : TransferTask} {path : String}

/-- Of the files that are there a step changes its own temporary file only. -/
theorem Transferring.files_kept (h : Transferring env g t g' t') {bytes : List UInt8}
    (hget : g.files.get path = some bytes) (hown : ∀ bytes, t.temporary ≠ some (path, bytes)) :
    g'.files.get path = some bytes := by
  have htemporary : ∀ {d temporary received}, t = .receiving d temporary received →
      path ≠ temporary := by
    rintro d temporary received rfl rfl
    exact hown received rfl
  cases h with
  | rested => exact hget
  | ran => exact hget
  | sent => exact hget
  | granted => exact hget
  | @opened d temporary hfree =>
    refine (Map.get_insert_ne ?_).trans hget
    rintro rfl
    cases hget.symm.trans hfree
  | received => exact (Map.get_insert_ne (htemporary rfl)).trans hget
  | removed => exact (Map.get_remove_ne (htemporary rfl)).trans hget
  | @saved d temporary received _ _ hfree =>
    refine (Map.get_insert_ne ?_).trans ((Map.get_remove_ne (htemporary rfl)).trans hget)
    rintro rfl
    cases hget.symm.trans hfree

/-- The temporary file of the task holds what was received. -/
theorem Transferring.temporary (h : Transferring env g t g' t')
    (hown : ∀ path bytes, t.temporary = some (path, bytes) → g.files.get path = some bytes)
    {bytes : List UInt8} (ht' : t'.temporary = some (path, bytes)) :
    g'.files.get path = some bytes ∧
      (g.files.get path = none ∨ ∃ bytes, t.temporary = some (path, bytes)) := by
  cases h with
  | rested _ hnone => cases ht'.symm.trans hnone
  | ran _ _ _ hnone => cases ht'.symm.trans hnone
  | sent => cases ht'
  | granted => cases ht'
  | opened hfree =>
    cases ht'
    exact ⟨Map.get_insert_self .., .inl hfree⟩
  | @received d temporary received chunk =>
    cases ht'
    rw [hown _ _ rfl]
    exact ⟨Map.get_insert_self .., .inr ⟨received, rfl⟩⟩
  | removed => cases ht'
  | saved => cases ht'

/-- What is there after a file was removed is another one. -/
theorem Files.of_remove {files : Files} {temporary : String}
    (h : ((files.remove temporary).get path).isSome) :
    path ≠ temporary ∧ (files.get path).isSome := by
  have hpath : path ≠ temporary := by
    rintro rfl
    rw [Map.get_remove_self] at h
    cases h
  rw [Map.get_remove_ne hpath] at h
  exact ⟨hpath, h⟩

/-- A file that is there is the task's own, was saved, or was there and is not the one the task
gave up. -/
theorem Transferring.files_new (h : Transferring env g t g' t')
    (hsome : (g'.files.get path).isSome) : (∃ bytes, t'.temporary = some (path, bytes)) ∨
      (∃ id, (path, id) ∈ g'.saved) ∨
      (g.files.get path).isSome ∧ ∀ bytes, t.temporary ≠ some (path, bytes) := by
  cases h with
  | rested hnone => exact .inr (.inr ⟨hsome, fun bytes h => nomatch hnone.symm.trans h⟩)
  | ran _ _ hnone => exact .inr (.inr ⟨hsome, fun bytes h => nomatch hnone.symm.trans h⟩)
  | sent hnone => exact .inr (.inr ⟨hsome, fun bytes h => nomatch hnone.symm.trans h⟩)
  | granted => exact .inr (.inr ⟨hsome, fun bytes h => nomatch h⟩)
  | @opened d temporary hfree =>
    by_cases hpath : path = temporary
    · exact .inl ⟨[], by rw [hpath]; rfl⟩
    · dsimp only at hsome
      rw [Map.get_insert_ne hpath] at hsome
      exact .inr (.inr ⟨hsome, fun bytes h => nomatch h⟩)
  | @received d temporary received chunk =>
    by_cases hpath : path = temporary
    · exact .inl ⟨received ++ chunk, by rw [hpath]; rfl⟩
    · dsimp only at hsome
      rw [Map.get_insert_ne hpath] at hsome
      refine .inr (.inr ⟨hsome, fun bytes h => ?_⟩)
      cases h
      exact hpath rfl
  | @removed d temporary received error =>
    obtain ⟨hpath, hsome⟩ := Files.of_remove hsome
    refine .inr (.inr ⟨hsome, fun bytes h => ?_⟩)
    cases h
    exact hpath rfl
  | @saved d temporary received _ _ hfree =>
    by_cases hsaved : path = d.path
    · exact .inr (.inl ⟨d.granted.id, List.mem_append_right _ (by rw [hsaved]; simp)⟩)
    · dsimp only at hsome
      rw [Map.get_insert_ne hsaved] at hsome
      obtain ⟨hpath, hsome⟩ := Files.of_remove hsome
      refine .inr (.inr ⟨hsome, fun bytes h => ?_⟩)
      cases h
      exact hpath rfl

/-- What a download that is saved has passed. -/
structure Saves (env : Env) (g : Desk) (t : TransferTask) (g' : Desk) (path : String)
    (id : AttachmentId) : Prop where
  free : g.files.get path = none
  download : ∃ d temporary received, t = .receiving d temporary received ∧ id = d.granted.id ∧
    received.length = d.asked.byteSize ∧
    (∀ expected, d.granted.sha256 = some expected →
      eqIgnoreAsciiCase (Text.toHex (env.sha256 received)) expected = true) ∧
    g'.files.get path = some ((g.files.get temporary).getD [])

theorem Transferring.saved_new (h : Transferring env g t g' t') {id : AttachmentId}
    (hsaved : (path, id) ∈ g'.saved) : (path, id) ∈ g.saved ∨ Saves env g t g' path id := by
  cases h with
  | rested => exact .inl hsaved
  | ran => exact .inl hsaved
  | sent => exact .inl hsaved
  | granted => exact .inl hsaved
  | opened => exact .inl hsaved
  | received => exact .inl hsaved
  | removed => exact .inl hsaved
  | @saved d temporary received hsize hhash hfree =>
    rcases List.mem_append.mp hsaved with hsaved | hsaved
    · exact .inl hsaved
    · cases List.mem_singleton.mp hsaved
      exact .inr ⟨hfree, d, temporary, received, rfl, rfl, hsize, hhash, Map.get_insert_self ..⟩

theorem Transferring.saved_mono (h : Transferring env g t g' t') : g.saved ⊆ g'.saved := by
  cases h with
  | saved => exact List.subset_append_left _ _
  | rested => exact List.Subset.refl _
  | ran => exact List.Subset.refl _
  | sent => exact List.Subset.refl _
  | granted => exact List.Subset.refl _
  | opened => exact List.Subset.refl _
  | received => exact List.Subset.refl _
  | removed => exact List.Subset.refl _

/-- A task that saves has no temporary file any more. -/
theorem Transferring.saved_same (h : Transferring env g t g' t') {bytes : List UInt8}
    (ht' : t'.temporary = some (path, bytes)) : g'.saved = g.saved := by
  cases h with
  | saved => cases ht'
  | rested => rfl
  | ran => rfl
  | sent => rfl
  | granted => rfl
  | opened => rfl
  | received => rfl
  | removed => rfl

/-- A download is granted once, and stays what it is. -/
theorem Transferring.download (h : Transferring env g t g' t') {d : Download}
    (hd : t'.download = some d) : t.download = some d ∨
      d.granted.byteSize = d.asked.byteSize ∧
        ∃ actor, attachmentForDownload g.world.toStore actor d.asked.id = .ok d.granted := by
  cases h with
  | rested _ _ hnone => cases hd.symm.trans hnone
  | ran _ _ _ _ hnone => cases hd.symm.trans hnone
  | sent => cases hd
  | granted hok hsame =>
    cases hd
    exact .inr ⟨hsame, _, hok⟩
  | opened =>
    cases hd
    exact .inl rfl
  | received =>
    cases hd
    exact .inl rfl
  | removed => cases hd
  | saved => cases hd

end

/-! ## The invariant -/

/-- What is known of a file that was saved: it is the attachment. -/
structure Desk.Holds (env : Env) (g : Desk) (path : String) (a : Attachment) : Prop where
  knows : g.Knows env a
  content : ∃ bytes, g.files.get path = some bytes ∧ bytes.length = a.byteSize ∧
    ∀ expected, a.sha256 = some expected →
      eqIgnoreAsciiCase (Text.toHex (env.sha256 bytes)) expected = true

/-- `files`: what was there in the beginning. -/
structure Transferred {ι : Type} (env : Env) (files : Files) (x : Desk × (ι → TransferTask)) :
    Prop where
  recorded : x.1.Recorded env
  downloads : ∀ i d, (x.2 i).download = some d →
    x.1.Knows env d.granted ∧ d.granted.byteSize = d.asked.byteSize
  kept : ∀ path bytes, files.get path = some bytes → x.1.files.get path = some bytes
  temporary : ∀ i path bytes, (x.2 i).temporary = some (path, bytes) →
    x.1.files.get path = some bytes ∧ files.get path = none ∧ ∀ id, (path, id) ∉ x.1.saved
  apart : ∀ i j path bytes bytes', (x.2 i).temporary = some (path, bytes) →
    (x.2 j).temporary = some (path, bytes') → i = j
  only : ∀ path, (x.1.files.get path).isSome → (files.get path).isSome ∨
    (∃ id, (path, id) ∈ x.1.saved) ∨ ∃ i bytes, (x.2 i).temporary = some (path, bytes)
  saved : ∀ path id, (path, id) ∈ x.1.saved → files.get path = none ∧
    ∃ a, a.id = id ∧ x.1.Holds env path a

section
variable {ι : Type} {env : Env} {files : Files} {x : Desk × (ι → TransferTask)}
  {g' : Desk} {i : ι} {t' : TransferTask} {path : String} {id : AttachmentId}

/-- A file that was saved is no temporary file. -/
theorem Transferred.saved_kept (hx : Transferred env files x)
    (h : Transferring env x.1 (x.2 i) g' t') (hsaved : (path, id) ∈ x.1.saved)
    {bytes : List UInt8} (hget : x.1.files.get path = some bytes) :
    g'.files.get path = some bytes :=
  h.files_kept hget fun bytes htemporary => (hx.temporary i path bytes htemporary).2.2 id hsaved

theorem Transferred.holds (hx : Transferred env files x) (hu : Function.Injective env.uuid)
    (h : Transferring env x.1 (x.2 i) g' t') (hsaved : (path, id) ∈ g'.saved) :
    files.get path = none ∧ ∃ a, a.id = id ∧ g'.Holds env path a := by
  rcases h.saved_new hsaved with hold | hnew
  · obtain ⟨hnone, a, hid, hknows, bytes, hget, hcontent⟩ := hx.saved path id hold
    exact ⟨hnone, a, hid, hknows.mono (h.leaves hu), bytes, hx.saved_kept h hold hget, hcontent⟩
  · obtain ⟨hfree, d, temporary, received, ht, rfl, hsize, hhash, hget⟩ := hnew
    obtain ⟨hknows, hsame⟩ := hx.downloads i d (by rw [ht]; rfl)
    have htemporary := (hx.temporary i temporary received (by rw [ht]; rfl)).1
    rw [htemporary, Option.getD_some] at hget
    refine ⟨?_, d.granted, rfl, hknows.mono (h.leaves hu), received, hget, hsize.trans hsame.symm,
      hhash⟩
    cases hfile : files.get path with
    | none => rfl
    | some bytes => cases hfree.symm.trans (hx.kept path bytes hfile)

variable [DecidableEq ι]

theorem Transferred.step (hx : Transferred env files x) (hu : Function.Injective env.uuid)
    (h : Transferring env x.1 (x.2 i) g' t') :
    Transferred env files (g', Function.update x.2 i t') where
  recorded := h.recorded hu hx.recorded
  downloads j d hd := by
    dsimp only at hd ⊢
    by_cases hj : j = i
    · subst hj
      rw [Function.update_self] at hd
      rcases h.download hd with hold | ⟨hsame, actor, hok⟩
      · obtain ⟨hknows, hsame⟩ := hx.downloads j d hold
        exact ⟨hknows.mono (h.leaves hu), hsame⟩
      · exact ⟨(hx.recorded.knows hok).mono (h.leaves hu), hsame⟩
    · rw [Function.update_of_ne hj] at hd
      obtain ⟨hknows, hsame⟩ := hx.downloads j d hd
      exact ⟨hknows.mono (h.leaves hu), hsame⟩
  kept path bytes hget := by
    refine h.files_kept (hx.kept path bytes hget) fun bytes htemporary => ?_
    cases hget.symm.trans (hx.temporary i path bytes htemporary).2.1
  temporary j path bytes ht := by
    dsimp only at ht ⊢
    by_cases hj : j = i
    · subst hj
      rw [Function.update_self] at ht
      obtain ⟨hget, hown⟩ :=
        h.temporary (fun path bytes ht => (hx.temporary j path bytes ht).1) ht
      have hnone : files.get path = none ∧ ∀ id, (path, id) ∉ x.1.saved := by
        rcases hown with hfree | ⟨bytes, hbytes⟩
        · refine ⟨?_, fun id hsaved => ?_⟩
          · cases hfile : files.get path with
            | none => rfl
            | some bytes => cases hfree.symm.trans (hx.kept path bytes hfile)
          · obtain ⟨-, a, -, -, bytes, hget, -⟩ := hx.saved path id hsaved
            cases hfree.symm.trans hget
        · exact (hx.temporary j path bytes hbytes).2
      rw [h.saved_same ht]
      exact ⟨hget, hnone⟩
    · rw [Function.update_of_ne hj] at ht
      obtain ⟨hget, hnone, hsaved⟩ := hx.temporary j path bytes ht
      refine ⟨h.files_kept hget fun bytes' hown => hj (hx.apart j i path bytes bytes' ht hown),
        hnone, fun id hmem => ?_⟩
      rcases h.saved_new hmem with hold | hnew
      · exact hsaved id hold
      · cases hnew.free.symm.trans hget
  apart j k path bytes bytes' htj htk := by
    dsimp only at htj htk
    have hown : ∀ {l bytes bytes'}, l ≠ i → t'.temporary = some (path, bytes) →
        (x.2 l).temporary ≠ some (path, bytes') := by
      intro l bytes bytes' hl ht htl
      rcases (h.temporary (fun path bytes ht => (hx.temporary i path bytes ht).1) ht).2 with
        hfree | ⟨bytes, hbytes⟩
      · cases hfree.symm.trans (hx.temporary l path bytes' htl).1
      · exact hl (hx.apart l i path bytes' bytes htl hbytes)
    by_cases hj : j = i
    · by_cases hk : k = i
      · rw [hj, hk]
      · rw [hj, Function.update_self] at htj
        rw [Function.update_of_ne hk] at htk
        exact absurd htk (hown hk htj)
    · rw [Function.update_of_ne hj] at htj
      by_cases hk : k = i
      · rw [hk, Function.update_self] at htk
        exact absurd htj (hown hj htk)
      · rw [Function.update_of_ne hk] at htk
        exact hx.apart j k path bytes bytes' htj htk
  only path hsome := by
    dsimp only at hsome ⊢
    rcases h.files_new hsome with ⟨bytes, ht⟩ | hsaved | ⟨hold, hown⟩
    · exact .inr (.inr ⟨i, bytes, by rw [Function.update_self, ht]⟩)
    · exact .inr (.inl hsaved)
    · rcases hx.only path hold with hfile | ⟨id, hsaved⟩ | ⟨j, bytes, ht⟩
      · exact .inl hfile
      · exact .inr (.inl ⟨id, h.saved_mono hsaved⟩)
      · have hj : j ≠ i := by
          rintro rfl
          exact hown bytes ht
        exact .inr (.inr ⟨j, bytes, by rw [Function.update_of_ne hj, ht]⟩)
  saved path id hsaved := hx.holds hu h hsaved

theorem transferred_inductive (hu : Function.Injective env.uuid) :
    (transfers ι env files).lts.Inductive (Transferred env files) where
  init x hx := by
    obtain ⟨g, tasks⟩ := x
    obtain ⟨rfl, hidle⟩ := hx
    have htask : ∀ i, tasks i = .idle := hidle
    refine ⟨⟨fun _ _ h => (nomatch h), fun _ _ h => (nomatch h), fun _ _ h => (nomatch h)⟩,
      fun i d hd => ?_, fun _ _ h => h, fun i path bytes ht => ?_,
      fun i j path bytes bytes' ht _ => ?_, fun path hsome => .inl hsome,
      fun _ _ h => (nomatch h)⟩
    · dsimp only at hd
      rw [htask i] at hd
      cases hd
    · dsimp only at ht
      rw [htask i] at ht
      cases ht
    · dsimp only at ht
      rw [htask i] at ht
      cases ht
  step x l x' hx hs := by
    obtain ⟨t', hstep, ht'⟩ := hs
    obtain ⟨g', tasks'⟩ := x'
    dsimp only at hstep ht'
    subst ht'
    exact hx.step hu (Desk.step_cases hstep)

end

/-- **Transfers are exact.** In every run of uploads and downloads side by side, over whatever the
object store serves: a file that was there stays as it was; a file that is new was saved, or is
the temporary one of a running download, with what it received so far; and what was saved has the
size of its attachment, and the hash of what was uploaded for it. -/
theorem transfers_exact {ι : Type} [DecidableEq ι] (env : Env)
    (hu : Function.Injective env.uuid) (files : Files) (x : Desk × (ι → TransferTask))
    (hx : (transfers ι env files).lts.Reachable x) :
    (∀ path bytes, files.get path = some bytes → x.1.files.get path = some bytes) ∧
    (∀ path bytes, files.get path = none → x.1.files.get path = some bytes →
      (∃ id, (path, id) ∈ x.1.saved) ∨ ∃ i d, x.2 i = .receiving d path bytes) ∧
    ∀ path id, (path, id) ∈ x.1.saved → files.get path = none ∧
      ∃ bytes, x.1.files.get path = some bytes ∧
        (∀ p, x.1.world.attachments.get id = some p → p.attachment.byteSize = bytes.length) ∧
        ∀ sent, (id, sent) ∈ x.1.sent → env.sha256 bytes = env.sha256 sent := by
  have h := (transferred_inductive hu).reachable hx
  refine ⟨h.kept, fun path bytes hnone hget => ?_, fun path id hsaved => ?_⟩
  · rcases h.only path (Option.isSome_of_eq_some hget) with hfile | hsaved | ⟨i, content, ht⟩
    · rw [hnone] at hfile
      cases hfile
    · exact .inl hsaved
    · have hcontent := (h.temporary i path content ht).1
      cases hcontent.symm.trans hget
      cases htask : x.2 i with
      | receiving d temporary received =>
        rw [htask] at ht
        cases ht
        exact .inr ⟨i, d, htask⟩
      | _ =>
        rw [htask] at ht
        cases ht
  · obtain ⟨hnone, a, rfl, hknows, bytes, hget, hlength, hhash⟩ := h.saved path id hsaved
    refine ⟨hnone, bytes, hget, fun p hp => ?_, fun sent hsent => ?_⟩
    · rw [hknows.current p hp, hlength]
    · exact toHex_of_ignoreCase (hhash _ (hknows.sent sent hsent))

/-- The picture, as it is chosen. -/
def pictureFile : LocalFile where
  metadata := some (true, 32)
  fileName := some "cat.png"
  extension := some "png"
  bytes := some pictureBytes

/-- Alice uploads the picture, and downloads it again in two pieces. -/
def pictureDownloaded : List (Bool × TransferStep) :=
  [(true, .transaction (.register alice 0)), (true, .upload 1 pictureFile true 0), (true, .put),
    (true, .complete 1 0),
    (false, .download { alicePicture with id := 4, byteSize := 32 }
      ⟨some "cat.png", some (some "/home/alice")⟩),
    (false, .authorize 1), (false, .respond (some 32) ".tmp"),
    (false, .read (pictureBytes.take 20)), (false, .read (pictureBytes.drop 20)), (false, .finish)]

/-- She has what she sent. -/
theorem transfers_exact_picture : ∃ x, (transfers Bool Env.numbered .empty).lts.Reachable x ∧
    x.1.files.get "/home/alice/cat.png" = some pictureBytes := by
  obtain ⟨x, hx, hp⟩ := Threads.reaches (transfers Bool Env.numbered .empty)
    (⟨World.init, .empty, [], []⟩, fun _ => .idle) ⟨rfl, fun _ => rfl⟩ pictureDownloaded
    (fun x => decide (x.1.saved = [("/home/alice/cat.png", 4)]) &&
      decide (x.1.sent = [(4, pictureBytes)])) (by decide +kernel)
  obtain ⟨hsaved, hsent⟩ := Bool.and_eq_true_iff.mp hp
  have hsaved : x.1.saved = [("/home/alice/cat.png", 4)] := of_decide_eq_true hsaved
  have hsent : x.1.sent = [(4, pictureBytes)] := of_decide_eq_true hsent
  obtain ⟨-, -, hexact⟩ :=
    transfers_exact Env.numbered Env.numbered_injective .empty x hx
  obtain ⟨-, bytes, hget, -, hhash⟩ :=
    hexact "/home/alice/cat.png" 4 (by rw [hsaved]; exact List.mem_singleton_self _)
  have hbytes : bytes = pictureBytes :=
    hhash pictureBytes (by rw [hsent]; exact List.mem_singleton_self _)
  exact ⟨x, hx, hbytes ▸ hget⟩

end IamRust
