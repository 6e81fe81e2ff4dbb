import IamRust.L0Core.Chunked
import IamRust.L5Concurrency.Uploads
import IamRust.L6Client.Protection

/-!
# Asking the malware scanner

`MalwareScanner::scan_inner`: the bytes are sent to clamd in chunks over one
connection, and the verdict is read off the line it answers. Failures of the
connection and the timeout are left out; they are errors.

* `Daemon`: a clamd, by the protocol it documents for `zINSTREAM`.
* `scan_faithful`: the verdict is the daemon's, about all the bytes.
* `available_is_scanned`: nothing becomes available unless the daemon found
  the bytes clean that were read of its object.
-/
namespace IamRust

open Core Core.Chunked

/-! ## The request -/

/-- `b"zINSTREAM\0"`. -/
def instream : List UInt8 := Text.bytes "zINSTREAM\x00"

/-- A chunk behind its length.
mirrors apps/server/src/malware.rs:51-55 -/
def scanChunk (chunk : List UInt8) : Except String (List UInt8) :=
  if 2 ^ 32 ≤ chunk.length then .error "scan chunk is too large" else .ok (writeChunk chunk)

/-- All that is written before the connection is shut down.
mirrors apps/server/src/malware.rs:50-57 -/
def scanRequest (bytes : List UInt8) : Except String (List UInt8) :=
  ((chunks (64 * 1024) bytes).mapM scanChunk).map fun written =>
    instream ++ written.flatten ++ lengthBytes 0

/-! ## The answer -/

/-- `s.trim_matches(p)`. -/
def trimMatches (p : Char → Bool) (s : List Char) : List Char :=
  ((s.dropWhile p).reverse.dropWhile p).reverse

/-- `['\0', '\r', '\n']`. -/
def endsReply (c : Char) : Bool := c == '\x00' || c == '\r' || c == '\n'

/-- `value.split_once(':').map_or(value, |(_, signature)| signature)`. -/
def behindColon (value : List Char) : List Char :=
  match value.dropWhile (· != ':') with
  | [] => value
  | _ :: signature => signature

/-- mirrors apps/server/src/malware.rs:59-74 -/
def readVerdict (response : List UInt8) : Except String ScanVerdict :=
  match fromUtf8 (response.take 4096) with
  | none => .error "clamd returned invalid UTF-8"
  | some text =>
    let response := trimMatches endsReply text.toList
    if " OK".toList.isSuffixOf response then .ok .clean
    else if " FOUND".toList.isSuffixOf response then
      let value := response.take (response.length - " FOUND".toList.length)
      .ok (.infected (Text.trim (String.ofList (behindColon value))))
    else .error "clamd returned an unknown response"

/-- `answer`: what comes back on the connection for all that was written.
mirrors apps/server/src/malware.rs:46-76 -/
def scan (answer : List UInt8 → List UInt8) (bytes : List UInt8) : Except String ScanVerdict :=
  match scanRequest bytes with
  | .error e => .error e
  | .ok request => readVerdict (answer request)

/-! ## The daemon -/

/-- The line clamd answers. -/
def reply : Option String → List UInt8
  | none => Text.bytes "stream: OK\x00"
  | some signature => Text.bytes ("stream: " ++ signature ++ " FOUND\x00")

/-- A clamd: what it makes of some bytes, the signature found if any, and what it answers to a
command that brings them in chunks. -/
structure Daemon where
  judge : List UInt8 → Option String
  answer : List UInt8 → List UInt8
  answers : ∀ content fuel stream, readChunked fuel stream = some (content, []) →
    answer (instream ++ stream) = reply (judge content)
  signature : ∀ content s, judge content = some s → Text.trim s = s ∧ Text.byteLen s ≤ 4000

def verdict : Option String → ScanVerdict
  | none => .clean
  | some signature => .infected signature

/-! ## What the daemon is sent -/

theorem scanChunk_mapM {cs : List (List UInt8)} (hcs : ∀ c ∈ cs, c.length < 2 ^ 32) :
    cs.mapM scanChunk = .ok (cs.map writeChunk) := by
  induction cs with
  | nil => rfl
  | cons c cs ih =>
    have hc : scanChunk c = .ok (writeChunk c) :=
      if_neg (Nat.not_le.mpr (hcs c List.mem_cons_self))
    rw [List.mapM_cons, hc, ih fun d hd => hcs d (List.mem_cons_of_mem c hd)]
    rfl

/-- **All bytes arrive, in order.** -/
theorem scanRequest_read (bytes : List UInt8) :
    ∃ stream, scanRequest bytes = .ok (instream ++ stream) ∧
    ∃ fuel, readChunked fuel stream = some (bytes, []) := by
  obtain ⟨hflat, hall⟩ := chunks_spec (show 0 < 64 * 1024 by decide) bytes
  have hshort : ∀ c ∈ chunks (64 * 1024) bytes, c ≠ [] ∧ c.length < 2 ^ 32 := fun c hc =>
    ⟨(hall c hc).1, Nat.lt_of_le_of_lt (hall c hc).2 (by decide)⟩
  refine ⟨(chunks (64 * 1024) bytes).flatMap writeChunk ++ lengthBytes 0, ?_,
    (chunks (64 * 1024) bytes).length + 1, ?_⟩
  · rw [scanRequest, scanChunk_mapM fun c hc => (hshort c hc).2]
    simp [Except.map, List.flatMap_def, List.append_assoc]
  · have hread := readChunked_writeChunked hshort (Nat.lt_succ_self _) []
    rwa [List.append_nil, hflat] at hread

/-! ## What is read of its answer -/

/-- What ends the reply is cut off, and nothing else. -/
theorem trimMatches_append {p : Char → Bool} {a z : Char} {core tail : List Char}
    (ha : p a = false) (hz : p z = false) (htail : ∀ c ∈ tail, p c = true) :
    trimMatches p (a :: (core ++ [z] ++ tail)) = a :: (core ++ [z]) := by
  unfold trimMatches
  rw [List.dropWhile_cons_of_neg (by simp [ha])]
  have hrev : (a :: (core ++ [z] ++ tail)).reverse =
      tail.reverse ++ (z :: (core.reverse ++ [a])) := by
    simp
  rw [hrev, List.dropWhile_append_of_pos (by simpa using htail),
    List.dropWhile_cons_of_neg (by simp [hz])]
  simp

theorem trim_space (s : List Char) :
    Text.trim (String.ofList (' ' :: s)) = Text.trim (String.ofList s) := by
  unfold Text.trim
  rw [String.toList_ofList, String.toList_ofList, List.dropWhile_cons_of_pos (by decide)]

/-- A short answer is read as text, without what ends it. -/
theorem readVerdict_bytes {text : String} {response : List Char} (hlen : Text.byteLen text ≤ 4096)
    (hresponse : trimMatches endsReply text.toList = response) :
    readVerdict (Text.bytes text) =
      if " OK".toList.isSuffixOf response then .ok .clean
      else if " FOUND".toList.isSuffixOf response then
        .ok (.infected (Text.trim (String.ofList
          (behindColon (response.take (response.length - " FOUND".toList.length))))))
      else .error "clamd returned an unknown response" := by
  unfold readVerdict
  rw [List.take_of_length_le (by rwa [Text.length_bytes]), fromUtf8_bytes]
  dsimp only
  rw [hresponse]

theorem readVerdict_reply {found : Option String}
    (h : ∀ s, found = some s → Text.trim s = s ∧ Text.byteLen s ≤ 4000) :
    readVerdict (reply found) = .ok (verdict found) := by
  cases found with
  | none =>
    have htrimmed : trimMatches endsReply "stream: OK\x00".toList = "stream: OK".toList := by decide
    rw [reply, readVerdict_bytes (by decide) htrimmed]
    exact if_pos (by decide)
  | some s =>
    obtain ⟨htrim, hshort⟩ := h s rfl
    have hlen : Text.byteLen ("stream: " ++ s ++ " FOUND\x00") ≤ 4096 := by
      unfold Text.byteLen at hshort ⊢
      rw [String.utf8ByteSize_append, String.utf8ByteSize_append]
      have h₁ : "stream: ".utf8ByteSize = 8 := by decide
      have h₂ : " FOUND\x00".utf8ByteSize = 7 := by decide
      omega
    have htext : trimMatches endsReply ("stream: " ++ s ++ " FOUND\x00").toList =
        ("stream: ".toList ++ s.toList) ++ " FOUND".toList := by
      have hsplit : ("stream: " ++ s ++ " FOUND\x00").toList =
          's' :: (("tream: ".toList ++ s.toList ++ " FOUN".toList) ++ ['D'] ++ ['\x00']) := by
        simp [String.toList_append]
      have htail : ∀ c ∈ ['\x00'], endsReply c = true := List.forall_mem_singleton.mpr rfl
      rw [hsplit, trimMatches_append (by decide) (by decide) htail]
      simp
    have hclean : " OK".toList.isSuffixOf (("stream: ".toList ++ s.toList) ++ " FOUND".toList) =
        false := by
      rw [Bool.eq_false_iff, ne_eq, List.isSuffixOf_iff_suffix]
      intro hsuffix
      have hinner : " OK".toList <:+ " FOUND".toList :=
        List.suffix_of_suffix_length_le hsuffix (List.suffix_append ..) (by decide)
      exact absurd hinner (by decide)
    have hfound : " FOUND".toList.isSuffixOf (("stream: ".toList ++ s.toList) ++ " FOUND".toList) =
        true := List.isSuffixOf_iff_suffix.mpr (List.suffix_append ..)
    have hvalue : behindColon ("stream: ".toList ++ s.toList) = ' ' :: s.toList := by
      simp [behindColon]
    rw [reply, readVerdict_bytes hlen htext, hclean, if_neg Bool.false_ne_true, hfound, if_pos rfl,
      List.length_append, Nat.add_sub_cancel, List.take_left, hvalue, trim_space,
      String.ofList_toList, htrim]
    rfl

/-- **The verdict is the daemon's.** Whatever the bytes, the scan gives what the daemon makes of
exactly these bytes. -/
theorem scan_faithful (d : Daemon) (bytes : List UInt8) :
    scan d.answer bytes = .ok (verdict (d.judge bytes)) := by
  obtain ⟨stream, hrequest, fuel, hread⟩ := scanRequest_read bytes
  unfold scan
  rw [hrequest]
  dsimp only
  rw [d.answers bytes fuel stream hread]
  exact readVerdict_reply fun s hs => d.signature bytes s hs

/-! ## Uploads under a daemon -/

/-- The verdicts are those of the scan. -/
def ByDaemon {ι : Type} (answer : List UInt8 → List UInt8) (x : Uploads × (ι → UploadTask))
    (l : ι × UploadStep) : Prop :=
  ∀ c bytes v, x.2 l.1 = .scanning c bytes → l.2 = .judge v → scan answer bytes = .ok v

/-- An available attachment has had bytes judged, and what was judged clean is. -/
structure Uploads.Scanned (d : Daemon) (g : Uploads) : Prop where
  available : ∀ id p, g.world.attachments.get id = some p → p.available = true →
    ∃ bytes, (id, bytes) ∈ g.judged
  clean : ∀ id bytes, (id, bytes) ∈ g.judged → d.judge bytes = none

/-- A call that is about to complete has had bytes judged. -/
def UploadTask.Scanned (g : Uploads) : UploadTask → Prop
  | .completing c => ∃ bytes, (c.attachmentId, bytes) ∈ g.judged
  | _ => True

section
variable {env : Env} {g g' : Uploads} {t t' : UploadTask} {l : UploadStep} {d : Daemon}

theorem Uploading.judged_subset {scanner : Bool} (h : Uploading env scanner g t l g' t') :
    g.judged ⊆ g'.judged := by
  cases h with
  | judged => exact List.subset_append_left _ _
  | _ => exact fun _ he => he

theorem Uploads.Scanned.ran (h : g.Scanned d) {op : Op} {w : World}
    (hrun : (op.run env).Runs g.world () w)
    (hnew : ∀ actor id now, op = .completeAttachment actor id now →
      ∃ bytes, (id, bytes) ∈ g.judged) :
    Uploads.Scanned d { g with world := w } where
  available id p hget havailable := by
    rcases (Op.attached hrun).available hget havailable with hold | ⟨_, _, -, hop⟩
    · exact h.available id p hold havailable
    · exact hnew _ _ _ hop
  clean := h.clean

/-- A step of a task that only judges by the daemon. -/
theorem Uploading.scanned (h : Uploading env true g t l g' t')
    (hjudge : ∀ c bytes v, t = .scanning c bytes → l = .judge v → scan d.answer bytes = .ok v)
    (hg : g.Scanned d) (ht : t.Scanned g) : g'.Scanned d ∧ t'.Scanned g' := by
  cases h with
  | ran op hrun hop hidle =>
    refine ⟨hg.ran hrun fun actor id now heq => absurd heq (hop actor id now), ?_⟩
    rcases hidle with rfl | ⟨a, rfl⟩ <;> trivial
  | @judged c bytes =>
    have hverdict := (hjudge c bytes .clean rfl rfl).symm.trans (scan_faithful d bytes)
    have hclean : d.judge bytes = none := by
      cases hfound : d.judge bytes with
      | none => rfl
      | some s =>
        rw [hfound] at hverdict
        cases hverdict
    refine ⟨⟨fun id p hget havailable => ?_, fun id bytes' hmem => ?_⟩,
      bytes, List.mem_append_right _ (List.mem_singleton_self _)⟩
    · obtain ⟨bytes', hmem⟩ := hg.available id p hget havailable
      exact ⟨bytes', List.mem_append_left _ hmem⟩
    · rcases List.mem_append.mp hmem with hmem | hmem
      · exact hg.clean id bytes' hmem
      · rw [(Prod.mk.inj (List.mem_singleton.mp hmem)).2]
        exact hclean
  | @finished c w hrun =>
    refine ⟨hg.ran hrun fun actor id now heq => ?_, trivial⟩
    injection heq with _ hid
    rw [← hid]
    exact ht
  | @collected now keys w hrun =>
    have hop : ((Op.cleanupExpiredAttachments now).run env).Runs g.world () w :=
      Tx.runs_void.mpr ⟨_, hrun⟩
    exact ⟨hg.ran hop (by intro actor id now heq; cases heq), trivial⟩
  | put | deleted | presigned => exact ⟨⟨hg.available, hg.clean⟩, trivial⟩
  | _ => exact ⟨hg, trivial⟩

end

/-- **Nothing the daemon finds infected becomes available.** In every interleaving of uploads,
completions and collections in which the scan's verdicts are followed, every available attachment
had bytes read of its object that the daemon found clean, whoever replaces the object at whatever
time. -/
theorem available_is_scanned (ι : Type) [DecidableEq ι] (env : Env) (d : Daemon)
    {x : Uploads × (ι → UploadTask)}
    (hx : ((uploads ι env true).lts.restrict (ByDaemon d.answer)).Reachable x) {id : AttachmentId}
    {p : PendingAttachment} (hget : x.1.world.attachments.get id = some p)
    (havailable : p.available = true) :
    ∃ bytes, (id, bytes) ∈ x.1.judged ∧ d.judge bytes = none := by
  have hinv : ((uploads ι env true).lts.restrict (ByDaemon d.answer)).Inductive
      (Threads.Holds (Uploads.Scanned d) (fun g t => t.Scanned g) fun _ _ => True) := by
    refine Threads.holds_inductive ?_ (fun _ _ _ => trivial) ?_ ?_
    · rintro ⟨g, tasks⟩ ⟨rfl, hidle⟩
      refine ⟨⟨?_, ?_⟩, fun i => ?_, fun _ _ _ => trivial⟩
      · intro id p hget
        cases hget
      · intro id bytes hmem
        cases hmem
      · rw [hidle i]
        trivial
    · rintro ⟨g, tasks⟩ i l g' t' hok hg ht hstep
      exact (uploads_cases hstep).scanned (fun c bytes v => hok c bytes v) hg ht
    · rintro ⟨g, tasks⟩ i l g' t' j - - - - hj - hstep
      have hsubset := (uploads_cases hstep).judged_subset
      refine ⟨?_, trivial⟩
      dsimp only at hj ⊢
      cases hjt : tasks j with
      | completing c =>
        rw [hjt] at hj
        obtain ⟨bytes, hmem⟩ := hj
        exact ⟨bytes, hsubset hmem⟩
      | _ => trivial
  have h := (hinv.reachable hx).shared
  obtain ⟨bytes, hmem⟩ := h.available id p hget havailable
  exact ⟨bytes, hmem, h.clean id bytes hmem⟩

/-! ## A daemon -/

/-- What clamd finds in bytes that start like the EICAR test file. -/
def eicarJudge (content : List UInt8) : Option String :=
  if (Text.bytes "X5O!P").isPrefixOf content then some "Eicar-Test-Signature" else none

/-- It knows one signature. -/
def eicarDaemon : Daemon where
  judge := eicarJudge
  answer request :=
    let stream := request.drop instream.length
    match readChunked (stream.length + 1) stream with
    | some (content, []) => reply (eicarJudge content)
    | _ => Text.bytes "INSTREAM size limit exceeded. ERROR\x00"
  answers content fuel stream h := by
    dsimp only
    rw [List.drop_left, readChunked_enough h (Nat.lt_succ_self _)]
  signature content s h := by
    unfold eicarJudge at h
    split at h
    · cases h
      decide
    · cases h

/-- The condition for one task and this daemon, decided. -/
def byEicar (x : Uploads × (Unit → UploadTask)) (l : Unit × UploadStep) : Bool :=
  match l.2, x.2 () with
  | .judge .clean, .scanning _ bytes => (eicarJudge bytes).isNone
  | .judge _, .scanning _ _ => false
  | _, _ => true

theorem byDaemon_of_byEicar (x : Uploads × (Unit → UploadTask)) (l : Unit × UploadStep)
    (h : byEicar x l = true) : ByDaemon eicarDaemon.answer x l := by
  intro c bytes v htask hl
  have htask : x.2 () = .scanning c bytes := htask
  unfold byEicar at h
  rw [hl, htask] at h
  cases v with
  | clean =>
    have hnone : eicarDaemon.judge bytes = none := Option.isNone_iff_eq_none.mp h
    rw [scan_faithful, hnone]
    rfl
  | infected signature => cases h

/-- Alice's picture is scanned and becomes available. -/
theorem available_is_scanned_picture : ∃ x p bytes,
    ((uploads Unit Env.numbered true).lts.restrict (ByDaemon eicarDaemon.answer)).Reachable x ∧
    x.1.world.attachments.get 4 = some p ∧ p.available = true ∧ (4, bytes) ∈ x.1.judged ∧
    eicarDaemon.judge bytes = none := by
  obtain ⟨x, hx, hp⟩ := Threads.reaches_checked (uploads Unit Env.numbered true)
    byDaemon_of_byEicar nothingUploaded ⟨rfl, fun _ => rfl⟩ pictureUploaded
    (fun x => (x.1.world.attachments.get 4).any (·.available)) (by decide +kernel)
  obtain ⟨p, hget, havailable⟩ := (Option.any_eq_true ..).mp hp
  obtain ⟨bytes, hmem, hclean⟩ :=
    available_is_scanned Unit Env.numbered eicarDaemon hx hget havailable
  exact ⟨x, p, bytes, hx, hget, havailable, hmem, hclean⟩

end IamRust
