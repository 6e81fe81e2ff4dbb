import IamRust.L0Core.Interleave
import IamRust.L3Service.ObjectStore
import IamRust.L4Properties.References

/-!
# Uploads

An uploader has a presigned PUT and uses it as often as they like until it expires.
`complete_upload` asks the object store for the headers, for a prefix and for all
of the object, one request after the other, and then makes the attachment
available: what was checked is not asked for again.

* `available_is_verified`: an available attachment has the bytes that were judged, of
  the size and the hash declared, if nobody replaces the bytes from the HEAD on, and
  the uploader declares the hash of the bytes that are there.
* `replaced_after_scan`: the presigned PUT still works when the attachment is available.
-/
namespace IamRust

open Core

/-! ## The tasks -/

/-- A call of `complete_upload`, with what `pending_attachment` returned. -/
structure Completion where
  actor : UserId
  attachmentId : AttachmentId
  pending : Attachment
  now : DateTime

/-- What the tasks share. `judged`: what the scanner found clean, and for which attachment. -/
structure Uploads where
  world : World
  objects : Objects
  grants : List PresignedPut
  judged : List (AttachmentId × List UInt8)

/-- Where a task is: a request, or the collection with the keys it goes through. -/
inductive UploadTask where
  | idle
  | authorized (attachment : Attachment)
  | verifying (c : Completion)
  | inspecting (c : Completion)
  | reading (c : Completion)
  | scanning (c : Completion) (bytes : List UInt8)
  | quarantining (c : Completion)
  | completing (c : Completion)
  | deleting (keys : List String)

/-- `drop`: the task fails, or the process stops. -/
inductive UploadStep where
  | transaction (op : Op)
  | authorize (actor : UserId) (fileName mimeType : String) (byteSize : Nat)
    (sha256 : Option String) (now : DateTime)
  | presign (now : DateTime)
  | put (grant : Nat) (bytes : List UInt8) (now : DateTime)
  | complete (actor : UserId) (attachmentId : AttachmentId) (now : DateTime)
  | head
  | inspect
  | read
  | judge (verdict : ScanVerdict)
  | quarantine
  | finish
  | collect (now : DateTime)
  | delete
  | skip
  | drop

/-- After the inspection the object is read, if there is a scanner. -/
def afterInspection (scanner : Bool) (c : Completion) : UploadTask :=
  if scanner then .reading c else .completing c

section
variable (env : Env) (scanner : Bool)

/-- Whatever else the service does leaves the attachments as they are.
mirrors apps/server/src/api.rs:1917-2070, apps/server/src/main.rs:96-113 -/
def Uploads.step (g : Uploads) : UploadTask → UploadStep → Option (Uploads × UploadTask)
  | _, .drop => some (g, .idle)
  | .idle, .transaction op =>
    if Field.attachments ∈ op.touches then none
    else
      match op.run env g.world with
      | .error _ => none
      | .ok (_, world) => some ({ g with world := world }, .idle)
  | .idle, .authorize actor fileName mimeType byteSize sha256 now =>
    match authorizeAttachment env actor fileName mimeType byteSize sha256 now g.world with
    | .error _ => none
    | .ok (authorization, world) =>
      some ({ g with world := world }, .authorized authorization.attachment)
  | .authorized a, .presign now =>
    (presignPut a.storageKey a.mimeType a.sha256 now).map fun put =>
      ({ g with grants := g.grants ++ [put] }, .idle)
  | .idle, .put grant bytes now =>
    match g.grants[grant]? with
    | none => none
    | some put =>
      if now < put.expiresAt then
        some ({ g with objects := g.objects.insert put.key (put.object bytes) }, .idle)
      else none
  | .idle, .complete actor id now =>
    match pendingAttachment g.world.toStore actor id now with
    | .error _ => none
    | .ok pending => some (g, .verifying ⟨actor, id, pending, now⟩)
  | .verifying c, .head =>
    if verifyHead (g.objects.get c.pending.storageKey) c.pending.mimeType c.pending.byteSize
      c.pending.sha256 then some (g, .inspecting c) else none
  | .inspecting c, .inspect =>
    if inspectPrefix (g.objects.get c.pending.storageKey) c.pending.mimeType then
      some (g, afterInspection scanner c)
    else none
  | .reading c, .read =>
    (readObject (g.objects.get c.pending.storageKey) c.pending.byteSize).map fun bytes =>
      (g, .scanning c bytes)
  | .scanning c bytes, .judge .clean =>
    some ({ g with judged := g.judged ++ [(c.attachmentId, bytes)] }, .completing c)
  | .scanning c _, .judge (.infected _) => some (g, .quarantining c)
  | .quarantining c, .quarantine =>
    match quarantineAttachment c.actor c.attachmentId c.now g.world with
    | .error _ => none
    | .ok (_, world) => some ({ g with world := world }, .idle)
  | .completing c, .finish =>
    match completeAttachment c.actor c.attachmentId c.now g.world with
    | .error _ => none
    | .ok (_, world) => some ({ g with world := world }, .idle)
  | .idle, .collect now =>
    match cleanupExpiredAttachments now g.world with
    | .error _ => none
    | .ok (keys, world) => some ({ g with world := world }, .deleting keys)
  | .deleting (key :: keys), .delete =>
    some ({ g with objects := g.objects.remove key }, .deleting keys)
  | .deleting (_ :: keys), .skip => some (g, .deleting keys)
  | _, _ => none

end

/-- The server with its object store, and uploaders. -/
def uploads (ι : Type) (env : Env) (scanner : Bool) : Threads ι Uploads UploadTask UploadStep where
  init g tasks := g = ⟨World.init, .empty, [], []⟩ ∧ ∀ i, tasks i = .idle
  step _ := Uploads.step env scanner

/-! ## What a step does -/

/-- The completion has passed the HEAD. -/
def UploadTask.verified : UploadTask → Option Completion
  | .inspecting c | .reading c | .scanning c _ | .completing c => some c
  | _ => none

/-- The steps, by what they change. -/
inductive Uploading (env : Env) (scanner : Bool) (g : Uploads) :
    UploadTask → UploadStep → Uploads → UploadTask → Prop where
  | dropped {t l} : Uploading env scanner g t l g .idle
  | ran {t l w' t'} (op : Op) (hrun : (op.run env).Runs g.world () w')
    (hop : ∀ actor id now, op ≠ .completeAttachment actor id now)
    (ht : t' = .idle ∨ ∃ a, t' = .authorized a) :
    Uploading env scanner g t l { g with world := w' } t'
  | presigned {a now put} : Uploading env scanner g (.authorized a) (.presign now)
    { g with grants := g.grants ++ [put] } .idle
  | put {i bytes now grant} (hgrant : g.grants[i]? = some grant) :
    Uploading env scanner g .idle (.put i bytes now)
      { g with objects := g.objects.insert grant.key (grant.object bytes) } .idle
  | began {actor id now pending} (h : pendingAttachment g.world.toStore actor id now = .ok pending) :
    Uploading env scanner g .idle (.complete actor id now) g (.verifying ⟨actor, id, pending, now⟩)
  | verified {c} (h : verifyHead (g.objects.get c.pending.storageKey) c.pending.mimeType
      c.pending.byteSize c.pending.sha256 = true) :
    Uploading env scanner g (.verifying c) .head g (.inspecting c)
  | inspected {c} : Uploading env scanner g (.inspecting c) .inspect g (afterInspection scanner c)
  | read {c bytes} (h : readObject (g.objects.get c.pending.storageKey) c.pending.byteSize =
      some bytes) : Uploading env scanner g (.reading c) .read g (.scanning c bytes)
  | judged {c bytes} : Uploading env scanner g (.scanning c bytes) (.judge .clean)
    { g with judged := g.judged ++ [(c.attachmentId, bytes)] } (.completing c)
  | infected {c bytes signature} :
    Uploading env scanner g (.scanning c bytes) (.judge (.infected signature)) g (.quarantining c)
  | finished {c w'}
    (hrun : ((Op.completeAttachment c.actor c.attachmentId c.now).run env).Runs g.world () w') :
    Uploading env scanner g (.completing c) .finish { g with world := w' } .idle
  | collected {now keys w'} (hrun : (cleanupExpiredAttachments now).Runs g.world keys w') :
    Uploading env scanner g .idle (.collect now) { g with world := w' } (.deleting keys)
  | deleted {key keys} : Uploading env scanner g (.deleting (key :: keys)) .delete
    { g with objects := g.objects.remove key } (.deleting keys)
  | skipped {key keys} : Uploading env scanner g (.deleting (key :: keys)) .skip g (.deleting keys)

theorem Uploads.step_cases {env : Env} {scanner : Bool} {g g' : Uploads} {t t' : UploadTask}
    {l : UploadStep} (h : Uploads.step env scanner g t l = some (g', t')) :
    Uploading env scanner g t l g' t' := by
  unfold Uploads.step at h
  split at h
  case h_1 =>
    cases h
    exact .dropped
  case h_2 op =>
    split at h
    · cases h
    rename_i htouches
    split at h <;> cases h
    refine .ran op ‹_› (fun actor id now hop => htouches ?_) (.inl rfl)
    subst hop
    dsimp only [Op.touches]
    decide
  case h_3 actor fileName mimeType byteSize sha256 now =>
    split at h <;> cases h
    exact .ran (.authorizeAttachment actor fileName mimeType byteSize sha256 now)
      (Tx.runs_void.mpr ⟨_, ‹_›⟩) (fun _ _ _ => nofun) (.inr ⟨_, rfl⟩)
  case h_4 =>
    obtain ⟨put, -, he⟩ := Option.map_eq_some_iff.mp h
    cases he
    exact .presigned
  case h_5 =>
    split at h
    · cases h
    rename_i grant hgrant
    split at h <;> cases h
    exact .put hgrant
  case h_6 =>
    split at h <;> cases h
    exact .began ‹_›
  case h_7 =>
    split at h <;> cases h
    exact .verified ‹_›
  case h_8 =>
    split at h <;> cases h
    exact .inspected
  case h_9 =>
    obtain ⟨bytes, hbytes, he⟩ := Option.map_eq_some_iff.mp h
    cases he
    exact .read hbytes
  case h_10 =>
    cases h
    exact .judged
  case h_11 =>
    cases h
    exact .infected
  case h_12 c =>
    split at h <;> cases h
    exact .ran (.quarantineAttachment c.actor c.attachmentId c.now)
      (Tx.runs_void.mpr ⟨_, ‹_›⟩) (fun _ _ _ => nofun) (.inl rfl)
  case h_13 =>
    split at h <;> cases h
    exact .finished (Tx.runs_void.mpr ⟨_, ‹_›⟩)
  case h_14 =>
    split at h <;> cases h
    exact .collected ‹_›
  case h_15 =>
    cases h
    exact .deleted
  case h_16 =>
    cases h
    exact .skipped
  case h_17 => cases h

theorem uploads_cases {ι : Type} {i : ι} {env : Env} {scanner : Bool} {g g' : Uploads}
    {t t' : UploadTask} {l : UploadStep}
    (h : (uploads ι env scanner).step i g t l = some (g', t')) :
    Uploading env scanner g t l g' t' := by
  unfold uploads at h
  exact Uploads.step_cases h

/-- A presigned PUT works until it expires, whatever became of the attachment. -/
theorem Uploads.step_put {env : Env} {scanner : Bool} {g : Uploads} {i : Nat} {bytes : List UInt8}
    {now : DateTime} {grant : PresignedPut} (hgrant : g.grants[i]? = some grant)
    (hlive : now < grant.expiresAt) : Uploads.step env scanner g .idle (.put i bytes now) =
      some ({ g with objects := g.objects.insert grant.key (grant.object bytes) }, .idle) := by
  show (match g.grants[i]? with
    | none => none
    | some put => if now < put.expiresAt then
        some ({ g with objects := g.objects.insert put.key (put.object bytes) }, UploadTask.idle)
      else none) = _
  rw [hgrant]
  exact if_pos hlive

/-! ## What the tasks rely on -/

/-- The object has the size and the hash declared. -/
def StoredObject.Meets (env : Env) (o : StoredObject) (a : Attachment) : Prop :=
  o.bytes.length = a.byteSize ∧
    ∀ hash, a.sha256 = some hash → Text.toHex (env.sha256 o.bytes) = hash

/-- The object of the attachment is as declared, and `Q` holds of its bytes. -/
def Uploads.Has (env : Env) (g : Uploads) (a : Attachment) (Q : List UInt8 → Prop) : Prop :=
  ∃ o, g.objects.get a.storageKey = some o ∧ o.Meets env a ∧ Q o.bytes

def Uploads.bytesAt (g : Uploads) (key : String) : Option (List UInt8) :=
  (g.objects.get key).map (·.bytes)

/-- The attachment is still the one the call is about, and then `Q`. -/
structure Completion.Follows (env : Env) (g : Uploads) (c : Completion) (Q : Prop) : Prop where
  drawn : ∃ k < g.world.nextUuid, c.attachmentId = env.uuid k
  current : ∀ p, g.world.attachments.get c.attachmentId = some p → p.attachment = c.pending ∧ Q

/-- What a task takes for granted. -/
def UploadTask.Assumes (env : Env) (scanner : Bool) (g : Uploads) : UploadTask → Prop
  | .idle | .authorized _ => True
  | .verifying c | .quarantining c => c.Follows env g True
  | .inspecting c | .reading c => c.Follows env g (g.Has env c.pending fun _ => True)
  | .scanning c bytes => c.Follows env g (g.Has env c.pending (· = bytes))
  | .completing c => c.Follows env g
      (g.Has env c.pending fun bytes => scanner = true → (c.attachmentId, bytes) ∈ g.judged)
  | .deleting keys => ∀ key ∈ keys, ∃ id, ∃ p : PendingAttachment, p.Filed env g.world id ∧
      p.attachment.storageKey = key ∧ g.world.attachments.get id = none

/-- What is available is what was verified. -/
structure Uploads.Sound (env : Env) (scanner : Bool) (g : Uploads) : Prop where
  filed : AllFiled env g.world
  available : ∀ id p, g.world.attachments.get id = some p → p.available = true →
    g.Has env p.attachment fun bytes => scanner = true → (id, bytes) ∈ g.judged

/-- What a step leaves as it is: attachments get no other metadata, and verdicts stay. -/
structure Uploads.Leaves (env : Env) (g g' : Uploads) : Prop where
  uuids : g.world.nextUuid ≤ g'.world.nextUuid
  attachments : ∀ k p', k < g.world.nextUuid →
    g'.world.attachments.get (env.uuid k) = some p' →
    ∃ p, g.world.attachments.get (env.uuid k) = some p ∧ p.attachment = p'.attachment
  judged : g.judged ⊆ g'.judged

section
variable {env : Env} {scanner : Bool} {g g' : Uploads} {t t' : UploadTask} {l : UploadStep}
  {c : Completion} {a : Attachment} {Q Q' : List UInt8 → Prop}

theorem Uploads.Has.mono (h : g.Has env a Q)
    (hbytes : g'.bytesAt a.storageKey = g.bytesAt a.storageKey)
    (hQ : ∀ bytes, Q bytes → Q' bytes) : g'.Has env a Q' := by
  obtain ⟨o, hget, hmeets, hq⟩ := h
  unfold Uploads.bytesAt at hbytes
  rw [hget, Option.map_some, Option.map_eq_some_iff] at hbytes
  obtain ⟨o', hget', hsame⟩ := hbytes
  refine ⟨o', hget', ?_, ?_⟩
  · unfold StoredObject.Meets
    rw [hsame]
    exact hmeets
  · rw [hsame]
    exact hQ o.bytes hq

theorem Completion.Follows.mono {P P' : Prop} (h : c.Follows env g P) (hg : g.Leaves env g')
    (hP : (∃ p, g.world.attachments.get c.attachmentId = some p ∧ p.attachment = c.pending) →
      P → P') : c.Follows env g' P' := by
  obtain ⟨k, hk, hid⟩ := h.drawn
  refine ⟨⟨k, hk.trans_le hg.uuids, hid⟩, fun p' hget' => ?_⟩
  obtain ⟨p, hget, hsame⟩ := hg.attachments k p' hk (hid ▸ hget')
  rw [← hid] at hget
  obtain ⟨hpending, hp⟩ := h.current p hget
  exact ⟨hsame.symm.trans hpending, hP ⟨p, hget, hpending⟩ hp⟩

/-- A step that leaves the bytes of the task's object leaves the task what it relies on. -/
theorem UploadTask.Assumes.mono (h : t.Assumes env scanner g) (hg : g.Leaves env g')
    (hbytes : ∀ c, t.verified = some c →
      (∃ p, g.world.attachments.get c.attachmentId = some p ∧ p.attachment = c.pending) →
      g'.bytesAt c.pending.storageKey = g.bytesAt c.pending.storageKey) :
    t.Assumes env scanner g' := by
  cases t with
  | idle => trivial
  | authorized => trivial
  | verifying c => exact Completion.Follows.mono h hg fun _ _ => trivial
  | quarantining c => exact Completion.Follows.mono h hg fun _ _ => trivial
  | inspecting c =>
    exact Completion.Follows.mono h hg fun hlive hhas => hhas.mono (hbytes c rfl hlive) fun _ h => h
  | reading c =>
    exact Completion.Follows.mono h hg fun hlive hhas => hhas.mono (hbytes c rfl hlive) fun _ h => h
  | scanning c bytes =>
    exact Completion.Follows.mono h hg fun hlive hhas => hhas.mono (hbytes c rfl hlive) fun _ h => h
  | completing c =>
    exact Completion.Follows.mono h hg fun hlive hhas =>
      hhas.mono (hbytes c rfl hlive) fun _ h hscanner => hg.judged (h hscanner)
  | deleting keys =>
    intro key hkey
    obtain ⟨id, p, hfiled, hp, hnone⟩ := h key hkey
    refine ⟨id, p, hfiled.mono hg.uuids, hp, Option.eq_none_iff_forall_not_mem.mpr ?_⟩
    intro p' hget'
    obtain ⟨k, hk, rfl⟩ := hfiled.drawn
    obtain ⟨p₀, hget, -⟩ := hg.attachments k p' hk hget'
    cases hnone.symm.trans hget

/-- No transaction gives an attachment other metadata. -/
theorem Attached.before {w w' : World} {op : Op} (h : Attached env w w' op)
    (hu : Function.Injective env.uuid) {k : Nat} (hk : k < w.nextUuid) {p' : PendingAttachment}
    (hget : w'.attachments.get (env.uuid k) = some p') :
    ∃ p, w.attachments.get (env.uuid k) = some p ∧ p.attachment = p'.attachment := by
  cases h with
  | same h => exact ⟨p', h ▸ hget, rfl⟩
  | authorized _ _ _ _ h =>
    rw [h, Map.get_insert_ne (hu.ne (Nat.ne_of_lt hk))] at hget
    exact ⟨p', hget, rfl⟩
  | completed hold _ h =>
    rw [h, Map.get_insert] at hget
    split at hget
    · rename_i hid
      cases hget
      rw [hid]
      exact ⟨_, hold, rfl⟩
    · exact ⟨p', hget, rfl⟩
  | quarantined hold _ h =>
    rw [h, Map.get_insert] at hget
    split at hget
    · rename_i hid
      cases hget
      rw [hid]
      exact ⟨_, hold, rfl⟩
    · exact ⟨p', hget, rfl⟩
  | collected h => exact ⟨p', Map.get_of_retain (h ▸ hget), rfl⟩

theorem Uploading.leaves (hu : Function.Injective env.uuid)
    (h : Uploading env scanner g t l g' t') : g.Leaves env g' := by
  have hstay : g.Leaves env g := ⟨Nat.le_refl _, fun _ p' _ h => ⟨p', h, rfl⟩, fun _ h => h⟩
  have hworld : ∀ {op : Op} {w'}, (op.run env).Runs g.world () w' →
      g.Leaves env { g with world := w' } := fun {op _} hrun =>
    ⟨((op.evolves env).runs hrun).uuids, fun _ _ hk hget => (Op.attached hrun).before hu hk hget,
      fun _ h => h⟩
  cases h with
  | ran op hrun => exact hworld hrun
  | finished hrun => exact hworld hrun
  | @collected now _ _ hrun =>
    have hrun : ((Op.cleanupExpiredAttachments now).run env).Runs g.world () _ :=
      Tx.runs_void.mpr ⟨_, hrun⟩
    exact hworld hrun
  | judged => exact ⟨Nat.le_refl _, hstay.attachments, fun _ h => List.mem_append_left _ h⟩
  | presigned | put | deleted => exact ⟨Nat.le_refl _, hstay.attachments, fun _ h => h⟩
  | dropped | began | verified | inspected | read | infected | skipped => exact hstay

end

/-! ## The condition -/

/-- The attachment of the key is available, or a completion of it has passed the HEAD. -/
def Uploads.InUse {ι : Type} (g : Uploads) (tasks : ι → UploadTask) (key : String) : Prop :=
  (∃ id p, g.world.attachments.get id = some p ∧ p.available = true ∧
    p.attachment.storageKey = key) ∨
  ∃ i c, (tasks i).verified = some c ∧ c.pending.storageKey = key

/-- A PUT to a key in use repeats the bytes that are there; and the bytes there at a HEAD have the
hash that was declared. -/
def Settled {ι : Type} (env : Env) (x : Uploads × (ι → UploadTask)) (l : ι × UploadStep) : Prop :=
  match l.2 with
  | .put i bytes _ => ∀ grant, x.1.grants[i]? = some grant → x.1.InUse x.2 grant.key →
    x.1.bytesAt grant.key = some bytes
  | .head => ∀ c o hash, x.2 l.1 = .verifying c → x.1.objects.get c.pending.storageKey = some o →
    c.pending.sha256 = some hash → Text.toHex (env.sha256 o.bytes) = hash
  | _ => True

section
variable {ι : Type} {env : Env} {scanner : Bool} {g g' : Uploads} {t t' : UploadTask}
  {l : UploadStep} {c : Completion} {tasks : ι → UploadTask} {i : ι}

/-- A PUT leaves the bytes under the keys in use. -/
theorem bytesAt_put {key : String} {grant : PresignedPut} {bytes : List UInt8}
    (h : g.InUse tasks grant.key → g.bytesAt grant.key = some bytes) (hkey : g.InUse tasks key) :
    Uploads.bytesAt { g with objects := g.objects.insert grant.key (grant.object bytes) } key =
      g.bytesAt key := by
  unfold Uploads.bytesAt at *
  rw [Map.get_insert]
  split
  · subst_vars
    exact (h hkey).symm
  · rfl

/-- The collection forgets the attachments whose objects it is about to delete. -/
theorem cleanup_forgets {now : DateTime} {keys : List String} {w w' : World}
    (h : (cleanupExpiredAttachments now).Runs w keys w') {key : String} (hkey : key ∈ keys) :
    ∃ id p, w.attachments.get id = some p ∧ p.attachment.storageKey = key ∧
      w'.attachments.get id = none := by
  simp only [cleanupExpiredAttachments, Tx.runs_get_bind, update_bind_runs, Tx.runs_pure] at h
  obtain ⟨rfl, rfl⟩ := h
  obtain ⟨p, hp, rfl⟩ := List.mem_map.mp hkey
  obtain ⟨hvalue, hexpired⟩ := List.mem_filter.mp hp
  obtain ⟨id, hget⟩ := Map.mem_values.mp hvalue
  refine ⟨id, p, hget, rfl, ?_⟩
  simp only [World.set, Map.get_retain, hget, Option.filter_some]
  refine if_neg ?_
  simp_all

/-- A key to be deleted is that of no attachment. -/
theorem deleting_unused (hfits : ∀ k < g.world.nextUuid, env.uuid k < 2 ^ 128)
    (hfiled : AllFiled env g.world) {key : String} {keys : List String}
    (ht : (UploadTask.deleting (key :: keys)).Assumes env scanner g) {id : AttachmentId}
    {p : PendingAttachment} (hget : g.world.attachments.get id = some p) :
    p.attachment.storageKey ≠ key := by
  obtain ⟨id', p', hfiled', hkey, hnone⟩ := ht key List.mem_cons_self
  intro hsame
  obtain rfl := (hfiled id p hget).key_inj hfits hfiled' (hsame.trans hkey.symm)
  cases hnone.symm.trans hget

theorem bytesAt_remove {key key' : String} (h : key' ≠ key) :
    Uploads.bytesAt { g with objects := g.objects.remove key } key' = g.bytesAt key' := by
  unfold Uploads.bytesAt
  rw [Map.get_remove_ne h]

/-- **Own step.** -/
theorem Uploading.own (hu : Function.Injective env.uuid)
    (hfits : ∀ k < g.world.nextUuid, env.uuid k < 2 ^ 128)
    (h : Uploading env scanner g t l g' t') (htask : tasks i = t)
    (hok : Settled env (g, tasks) (i, l)) (hg : g.Sound env scanner)
    (ht : t.Assumes env scanner g) : g'.Sound env scanner ∧ t'.Assumes env scanner g' := by
  have hleaves := h.leaves hu
  cases h with
  | dropped => exact ⟨hg, trivial⟩
  | presigned => exact ⟨⟨hg.filed, hg.available⟩, trivial⟩
  | infected => exact ⟨hg, Completion.Follows.mono ht hleaves fun _ _ => trivial⟩
  | skipped => exact ⟨hg, fun key hkey => ht key (List.mem_cons_of_mem _ hkey)⟩
  | ran op hrun hop hidle =>
    have hattached := Op.attached hrun
    refine ⟨⟨hattached.filed hg.filed hleaves.uuids, fun id p hget havailable => ?_⟩, ?_⟩
    · rcases hattached.available hget havailable with hold | ⟨_, _, -, rfl⟩
      · exact hg.available id p hold havailable
      · exact absurd rfl (hop _ _ _)
    · rcases hidle with rfl | ⟨a, rfl⟩ <;> trivial
  | put hgrant =>
    refine ⟨⟨hg.filed, fun id p hget havailable => ?_⟩, trivial⟩
    exact (hg.available id p hget havailable).mono
      (bytesAt_put (hok _ hgrant) (.inl ⟨id, p, hget, havailable, rfl⟩)) fun _ h => h
  | began hpending =>
    obtain ⟨p, hget, rfl⟩ := pendingAttachment_ok hpending
    refine ⟨hg, (hg.filed _ p hget).drawn, fun p' hget' => ?_⟩
    cases hget.symm.trans hget'
    exact ⟨rfl, trivial⟩
  | @verified c hhead =>
    obtain ⟨o, hget, hlength⟩ := verifyHead_length hhead
    refine ⟨hg, ht.drawn, fun p hp => ⟨(ht.current p hp).1, o, hget, ⟨hlength, ?_⟩, trivial⟩⟩
    exact fun hash hdeclared => hok c o hash htask hget hdeclared
  | @inspected c =>
    refine ⟨hg, ?_⟩
    unfold afterInspection
    split
    · exact ht
    · exact Completion.Follows.mono ht hleaves fun _ hhas => hhas.mono rfl fun _ _ hscanner =>
        absurd hscanner ‹_›
  | @read c bytes hread =>
    refine ⟨hg, Completion.Follows.mono ht hleaves fun _ hhas => ?_⟩
    obtain ⟨o, hget, hmeets, -⟩ := hhas
    obtain ⟨o', hget', hbytes⟩ := readObject_some hread
    cases hget.symm.trans hget'
    exact ⟨o, hget, hmeets, hbytes⟩
  | @judged c bytes =>
    refine ⟨⟨hg.filed, fun id p hget havailable => ?_⟩, ?_⟩
    · exact (hg.available id p hget havailable).mono rfl fun _ h hscanner =>
        List.mem_append_left _ (h hscanner)
    · refine Completion.Follows.mono ht hleaves fun _ hhas => hhas.mono rfl fun _ hbytes _ => ?_
      rw [hbytes]
      exact List.mem_append_right _ (List.mem_singleton_self _)
  | @finished c w' hrun =>
    have hattached := Op.attached hrun
    refine ⟨⟨hattached.filed hg.filed hleaves.uuids, fun id p hget havailable => ?_⟩, trivial⟩
    rcases hattached.available hget havailable with hold | ⟨old, now, hold, hop⟩
    · exact hg.available id p hold havailable
    · injection hop with _ hid
      subst hid
      obtain ⟨k, hk, hid⟩ := ht.drawn
      obtain ⟨p₀, hget₀, hsame⟩ := hattached.before hu hk (hid ▸ hget)
      rw [← hid] at hget₀
      obtain ⟨hpending, hhas⟩ := ht.current p₀ hget₀
      rw [← hsame, hpending]
      exact hhas.mono rfl fun _ h => h
  | @collected now keys w' hrun =>
    have hop : ((Op.cleanupExpiredAttachments now).run env).Runs g.world () w' :=
      Tx.runs_void.mpr ⟨_, hrun⟩
    have hattached := Op.attached hop
    refine ⟨⟨hattached.filed hg.filed hleaves.uuids, fun id p hget havailable => ?_⟩,
      fun key hkey => ?_⟩
    · rcases hattached.available hget havailable with hold | ⟨_, _, -, hop⟩
      · exact hg.available id p hold havailable
      · cases hop
    · obtain ⟨id, p, hget, hsame, hnone⟩ := cleanup_forgets hrun hkey
      exact ⟨id, p, (hg.filed id p hget).mono hleaves.uuids, hsame, hnone⟩
  | @deleted key keys =>
    refine ⟨⟨hg.filed, fun id p hget havailable => ?_⟩, fun key hkey =>
      ht key (List.mem_cons_of_mem _ hkey)⟩
    exact (hg.available id p hget havailable).mono
      (bytesAt_remove (deleting_unused hfits hg.filed ht hget)) fun _ h => h

/-- **A step of another task.** -/
theorem Uploading.other (hu : Function.Injective env.uuid)
    (hfits : ∀ k < g.world.nextUuid, env.uuid k < 2 ^ 128)
    (h : Uploading env scanner g t l g' t') (hok : Settled env (g, tasks) (i, l))
    (hg : g.Sound env scanner) (ht : t.Assumes env scanner g) {j : ι}
    (hj : (tasks j).Assumes env scanner g) : (tasks j).Assumes env scanner g' := by
  refine hj.mono (h.leaves hu) fun c hverified hlive => ?_
  cases h with
  | put hgrant => exact bytesAt_put (hok _ hgrant) (.inr ⟨j, c, hverified, rfl⟩)
  | deleted =>
    obtain ⟨p, hget, hpending⟩ := hlive
    rw [← hpending]
    exact bytesAt_remove (deleting_unused hfits hg.filed ht hget)
  | dropped | ran | presigned | began | verified | inspected | read | judged | infected | finished
  | collected | skipped => rfl

end

/-! ## Every interleaving -/

theorem sound_inductive {ι : Type} [DecidableEq ι] {env : Env} {scanner : Bool}
    (hu : Function.Injective env.uuid) {n : Nat} (hfits : ∀ k < n, env.uuid k < 2 ^ 128) :
    ((uploads ι env scanner).lts.restrict (Settled env)).Inductive
      (Threads.Holds (fun g => g.world.nextUuid ≤ n → g.Sound env scanner)
        (fun g t => g.world.nextUuid ≤ n → t.Assumes env scanner g) fun _ _ => True) := by
  refine Threads.holds_inductive ?_ (fun _ _ _ => trivial) ?_ ?_
  · rintro ⟨g, tasks⟩ ⟨rfl, hidle⟩
    refine ⟨fun _ => ⟨fun _ _ h => (nomatch h), fun _ _ h => (nomatch h)⟩, fun i _ => ?_,
      fun _ _ _ => trivial⟩
    rw [hidle i]
    trivial
  · rintro ⟨g, tasks⟩ i l g' t' hok hg ht hstep
    have hcases := uploads_cases hstep
    have hown : g'.world.nextUuid ≤ n → g'.Sound env scanner ∧ t'.Assumes env scanner g' := by
      intro h
      have hle : g.world.nextUuid ≤ n := (hcases.leaves hu).uuids.trans h
      have hbelow : ∀ k < g.world.nextUuid, env.uuid k < 2 ^ 128 :=
        fun k hk => hfits k (hk.trans_le hle)
      exact hcases.own hu hbelow rfl hok (hg hle) (ht hle)
    exact ⟨fun h => (hown h).1, fun h => (hown h).2⟩
  · rintro ⟨g, tasks⟩ i l g' t' j hok - hg ht hj - hstep
    have hcases := uploads_cases hstep
    refine ⟨fun h => ?_, trivial⟩
    have hle : g.world.nextUuid ≤ n := (hcases.leaves hu).uuids.trans h
    have hbelow : ∀ k < g.world.nextUuid, env.uuid k < 2 ^ 128 :=
      fun k hk => hfits k (hk.trans_le hle)
    exact hcases.other hu hbelow hok (hg hle) (ht hle) (hj hle)

/-- **An available attachment is what was verified.** In every interleaving in which a PUT to the
key of an available attachment, or of one whose completion has passed the HEAD, repeats the bytes
that are there, and the bytes there at a HEAD have the hash declared: the object of an available
attachment has the size and the hash declared, and the scanner judged its bytes clean. -/
theorem available_is_verified (ι : Type) [DecidableEq ι] (env : Env) (scanner : Bool)
    (hu : Function.Injective env.uuid) (x : Uploads × (ι → UploadTask))
    (hfits : ∀ k < x.1.world.nextUuid, env.uuid k < 2 ^ 128)
    (hx : ((uploads ι env scanner).lts.restrict (Settled env)).Reachable x) (id : AttachmentId)
    (p : PendingAttachment) (hget : x.1.world.attachments.get id = some p)
    (havailable : p.available = true) :
    ∃ o, x.1.objects.get p.attachment.storageKey = some o ∧
      o.bytes.length = p.attachment.byteSize ∧
      (∀ hash, p.attachment.sha256 = some hash → Text.toHex (env.sha256 o.bytes) = hash) ∧
      (scanner = true → (id, o.bytes) ∈ x.1.judged) := by
  have hsound := ((sound_inductive hu hfits).reachable hx).shared (Nat.le_refl _)
  obtain ⟨o, ho, ⟨hlength, hhash⟩, hjudged⟩ := hsound.available id p hget havailable
  exact ⟨o, ho, hlength, hhash, hjudged⟩

/-! ## Two runs -/

/-- A picture of 32 bytes. -/
def pictureBytes : List UInt8 :=
  [0x89, 0x50, 0x4E, 0x47, 0x0D, 0x0A, 0x1A, 0x0A] ++ List.replicate 24 0

/-- Alice uploads the picture, and it is found clean. -/
def pictureUploaded : List (Unit × UploadStep) :=
  [.transaction (.register alice 0),
    .authorize 1 "cat.png" "image/png" 32 (some (Text.toHex pictureBytes)) 0, .presign 0,
    .put 0 pictureBytes 0, .complete 1 4 0, .head, .inspect, .read, .judge .clean, .finish].map
    fun l => ((), l)

def nothingUploaded : Uploads × (Unit → UploadTask) :=
  (⟨World.init, .empty, [], []⟩, fun _ => .idle)

/-- The condition for one task, decided. -/
def settled (env : Env) (x : Uploads × (Unit → UploadTask)) (l : Unit × UploadStep) : Bool :=
  match l.2 with
  | .put i bytes _ => (x.1.grants[i]?).all fun grant =>
    decide (x.1.bytesAt grant.key = some bytes) ||
      (x.1.world.attachments.values.all (fun p => !p.available) && (x.2 ()).verified.isNone)
  | .head =>
    match x.2 () with
    | .verifying c => (x.1.objects.get c.pending.storageKey).all fun o =>
      c.pending.sha256.all fun hash => Text.toHex (env.sha256 o.bytes) == hash
    | _ => true
  | _ => true

theorem settled_of_check (env : Env) (x : Uploads × (Unit → UploadTask)) (l : Unit × UploadStep)
    (h : settled env x l = true) : Settled env x l := by
  unfold settled Settled at *
  split at h
  · intro grant hgrant hused
    rw [hgrant, Option.all_some, Bool.or_eq_true] at h
    rcases h with hsame | hfree
    · exact of_decide_eq_true hsame
    · obtain ⟨hnone, hverified⟩ := Bool.and_eq_true_iff.mp hfree
      rcases hused with ⟨id, p, hget, havailable, -⟩ | ⟨_, c, hc, -⟩
      · have hp := List.all_eq_true.mp hnone p (Map.mem_values.mpr ⟨id, hget⟩)
        rw [havailable] at hp
        cases hp
      · rw [hc] at hverified
        cases hverified
  · intro c o hash htask hget hdeclared
    rw [htask] at h
    simpa [hget, hdeclared] using h
  · trivial

/-- The picture is available, and its presigned PUT has not expired. -/
structure PictureAvailable (x : Uploads × (Unit → UploadTask)) (p : PendingAttachment)
    (grant : PresignedPut) : Prop where
  small : x.1.world.nextUuid < 2 ^ 64
  idle : x.2 () = .idle
  get : x.1.world.attachments.get 4 = some p
  available : p.available = true
  granted : x.1.grants[0]? = some grant
  key : grant.key = p.attachment.storageKey
  live : 1 < grant.expiresAt
  byteSize : p.attachment.byteSize = 32
  sha256 : p.attachment.sha256 = some (Text.toHex pictureBytes)
  judged : x.1.judged = [(4, pictureBytes)]

def UploadTask.isIdle : UploadTask → Bool
  | .idle => true
  | _ => false

theorem pictureUploaded_available : ∃ x p grant,
    ((uploads Unit Env.numbered true).lts.restrict (Settled Env.numbered)).Reachable x ∧
    PictureAvailable x p grant := by
  obtain ⟨x, hx, hp⟩ := Threads.reaches_checked (uploads Unit Env.numbered true)
    (settled_of_check Env.numbered) nothingUploaded ⟨rfl, fun _ => rfl⟩ pictureUploaded
    (fun x => decide (x.1.world.nextUuid < 2 ^ 64) && (x.2 ()).isIdle &&
      (x.1.world.attachments.get 4).any fun (p : PendingAttachment) => p.available &&
        (x.1.grants[0]?).any fun (grant : PresignedPut) =>
          decide (grant.key = p.attachment.storageKey) && decide (1 < grant.expiresAt) &&
          decide (p.attachment.byteSize = 32) &&
          decide (p.attachment.sha256 = some (Text.toHex pictureBytes)) &&
          decide (x.1.judged = [(4, pictureBytes)])) (by decide +kernel)
  simp only [Bool.and_eq_true, decide_eq_true_eq, Option.any_eq_true] at hp
  obtain ⟨⟨hsmall, hidle⟩, p, hget, havailable, grant, hgrant, ⟨⟨⟨hkey, hlive⟩, hsize⟩, hhash⟩,
    hjudged⟩ := hp
  refine ⟨x, p, grant, hx, hsmall, ?_, hget, havailable, hgrant, hkey, hlive, hsize, hhash, hjudged⟩
  cases ht : x.2 () <;> simp [ht, UploadTask.isIdle] at hidle
  rfl

/-- The picture stays what the scanner judged. -/
theorem available_is_verified_picture : ∃ x p o,
    ((uploads Unit Env.numbered true).lts.restrict (Settled Env.numbered)).Reachable x ∧
    x.1.world.attachments.get 4 = some p ∧ p.available = true ∧
    x.1.objects.get p.attachment.storageKey = some o ∧ (4, o.bytes) ∈ x.1.judged := by
  obtain ⟨x, p, grant, hx, h⟩ := pictureUploaded_available
  have hfits : ∀ k < x.1.world.nextUuid, Env.numbered.uuid k < 2 ^ 128 := fun k hk => by
    have := h.small
    show k + 1 < 2 ^ 128
    omega
  obtain ⟨o, ho, -, -, hjudged⟩ := available_is_verified Unit Env.numbered true
    Env.numbered_injective x hfits hx 4 p h.get h.available
  exact ⟨x, p, o, hx, h.get, h.available, ho, hjudged rfl⟩

/-- Alice puts a program in its place, with the same presigned PUT: the attachment is available,
and its object has neither the size nor the hash, and was never judged. -/
theorem replaced_after_scan : ∃ x p o, (uploads Unit Env.numbered true).lts.Reachable x ∧
    x.1.world.attachments.get 4 = some p ∧ p.available = true ∧
    x.1.objects.get p.attachment.storageKey = some o ∧ isExecutable o.bytes = true ∧
    o.bytes.length ≠ p.attachment.byteSize ∧
    p.attachment.sha256 ≠ some (Text.toHex (Env.numbered.sha256 o.bytes)) ∧
    ∀ id, (id, o.bytes) ∉ x.1.judged := by
  obtain ⟨x, p, grant, hx, h⟩ := pictureUploaded_available
  have hput : (uploads Unit Env.numbered true).lts.step x ((), .put 0 [0x4D, 0x5A] 1)
      ({ x.1 with objects := x.1.objects.insert grant.key (grant.object [0x4D, 0x5A]) }, x.2) := by
    refine ⟨.idle, ?_, ?_⟩
    · show Uploads.step Env.numbered true x.1 (x.2 ()) (.put 0 [0x4D, 0x5A] 1) = _
      rw [h.idle]
      exact Uploads.step_put h.granted h.live
    · rw [← h.idle, Function.update_eq_self]
  have hnew : ∀ id, (id, [0x4D, 0x5A]) ∉ x.1.judged := fun id hmem => by
    rw [h.judged] at hmem
    exact absurd (Prod.mk.inj (List.mem_singleton.mp hmem)).2 (by decide)
  refine ⟨_, p, grant.object [0x4D, 0x5A], hx.of_restrict.step hput, h.get, h.available,
    by rw [← h.key, Map.get_insert_self], (by decide : isExecutable [0x4D, 0x5A] = true), ?_, ?_,
    hnew⟩
  · rw [h.byteSize]
    exact (by decide : ([0x4D, 0x5A] : List UInt8).length ≠ 32)
  · rw [h.sha256]
    intro hsame
    have hbytes : pictureBytes = [0x4D, 0x5A] := Text.toHex_injective (Option.some.inj hsame)
    exact absurd hbytes (by decide)

end IamRust
