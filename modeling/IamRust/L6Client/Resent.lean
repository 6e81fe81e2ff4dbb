import IamRust.L6Client.Copies

/-!
# A message known to be sent

The call that sends a composed message and the flushes that send it again write
the same row of the cache. The call writes from the copy it began with: if it
fails last, a failed copy takes the place of the sent one, and the entry of the
outbox is gone.

* `SenderTask`, `FlushTask`: what a call relies on at each of its steps.
  `CopiesStand`: what a step leaves to the other calls.
* `sent_copy_stays`: in every run in which no failed copy takes the place of a
  sent one and the cache takes the copies of the flushes, a sent copy stays and
  a failed one has its entry.
* `failed_over_sent`: the call that fails last.
-/
namespace IamRust

open Core

/-! ## What a call relies on -/

/-- Nothing of the message can be written. -/
def Unwritable (s : Cache) (p : Message) : Prop :=
  s.conversations.containsKey p.conversationId = false

/-- Behind the enqueueing there is an entry, or a flush was answered. -/
def Covered (s : Cache) (p : Message) : Prop :=
  s.outbox.containsKey p.clientMessageId = true ∨ (∃ id sequence, HoldsSent s p id sequence) ∨
    Unwritable s p

/-- The call works on `p`. -/
def OutboxItem.OwnedBy (item : OutboxItem) (p : Message) : Prop :=
  item.own = some p ∧ item.clientMessageId = p.clientMessageId

/-- The call that sends `p`: until it caches a failed copy there is none. -/
def SenderTask (user : UserId) (p : Message) (s : OutboxState) : OutboxTask → Prop
  | .idle => ¬ HasCopy s.cache p
  | .enqueueing q => q = p ∧ ¬ HoldsFailed s.cache p ∧ (HasCopy s.cache p ∨ Unwritable s.cache p)
  | .posting item _ _ | .answered item _ _ =>
    item.OwnedBy p ∧ ¬ HoldsFailed s.cache p ∧ Covered s.cache p
  | .marking item copy => item.OwnedBy p ∧ ¬ HoldsFailed s.cache p ∧ CopyOf user p s.world copy ∧
      copy.status = .sent
  | .acknowledging item => item.OwnedBy p ∧ ¬ HoldsFailed s.cache p
  | .failing item copy => item.OwnedBy p ∧ ¬ HoldsFailed s.cache p ∧ Covered s.cache p ∧
      copy = { p with status := .failed }
  | .counting item | .rescheduling item _ => item.OwnedBy p
  | .done => True

section
variable {ι : Type} (pending : ι → Message)

/-- The entries are of messages with a copy. -/
def HaveCopies (s : Cache) (rest : List OutboxEntry) : Prop :=
  ∀ e ∈ rest, ∀ i, e.1 = (pending i).clientMessageId → HasCopy s (pending i)

/-- A flush: it removes an entry when there is a sent copy. -/
def FlushTask (user : UserId) (s : OutboxState) : OutboxTask → Prop
  | .idle | .done => True
  | .enqueueing _ | .failing _ _ => False
  | .posting item c _ | .answered item c _ => item.own = none ∧
      HaveCopies pending s.cache item.rest ∧
      ∃ i, item.clientMessageId = (pending i).clientMessageId ∧
        c = (pending i).conversationId ∧ HasCopy s.cache (pending i)
  | .marking item copy => item.own = none ∧ HaveCopies pending s.cache item.rest ∧
      ∃ i, item.clientMessageId = (pending i).clientMessageId ∧ HasCopy s.cache (pending i) ∧
        CopyOf user (pending i) s.world copy ∧ copy.status = .sent
  | .acknowledging item => item.own = none ∧ HaveCopies pending s.cache item.rest ∧
      ∀ i, item.clientMessageId = (pending i).clientMessageId →
        ∃ id sequence, HoldsSent s.cache (pending i) id sequence
  | .counting item | .rescheduling item _ => item.own = none ∧
      HaveCopies pending s.cache item.rest

/-- An entry has a copy, and a failed copy has an entry. -/
structure CacheShared (user : UserId) (s : OutboxState) : Prop where
  cache : CacheOf user pending s.world s.cache
  writable : ∀ i, HasCopy s.cache (pending i) → ¬ Unwritable s.cache (pending i)
  entry : ∀ i, s.cache.outbox.containsKey (pending i).clientMessageId = true →
    HasCopy s.cache (pending i)
  failed : ∀ i, HoldsFailed s.cache (pending i) →
    s.cache.outbox.containsKey (pending i).clientMessageId = true

/-- What the calls that send other messages than `mine`, and the flushes, can rely on. -/
structure CopiesStand (user : UserId) (mine : ι → Prop) (s s' : OutboxState) : Prop where
  has : ∀ i, HasCopy s.cache (pending i) → HasCopy s'.cache (pending i)
  new : ∀ i, ¬ mine i → HasCopy s'.cache (pending i) → HasCopy s.cache (pending i)
  sent : ∀ i id sequence, HoldsSent s.cache (pending i) id sequence →
    HoldsSent s'.cache (pending i) id sequence
  failed : ∀ i, ¬ mine i → HoldsFailed s'.cache (pending i) → HoldsFailed s.cache (pending i)
  entry : ∀ i, ¬ mine i → s.cache.outbox.containsKey (pending i).clientMessageId = true →
    s'.cache.outbox.containsKey (pending i).clientMessageId = true ∨
      ∃ id sequence, HoldsSent s'.cache (pending i) id sequence
  conversations : s'.cache.conversations = s.cache.conversations
  stored : ∀ p id sequence, StoredFor user p id sequence s.world →
    StoredFor user p id sequence s'.world

end

section
variable {ι : Type} {env : Env} {user : UserId} {pending : ι → Message} {w : World}
  {rfc3339 : DateTime → String} {keyed : Bool} {mine : ι → Prop} {s s' : OutboxState}
  {t t' : OutboxTask} {i : ι} {m copy : Message}

theorem CopiesStand.covered (h : CopiesStand pending user mine s s') (hi : ¬ mine i)
    (hc : Covered s.cache (pending i)) : Covered s'.cache (pending i) := by
  rcases hc with hentry | ⟨id, sequence, hsent⟩ | hun
  · exact (h.entry i hi hentry).imp_right .inl
  · exact .inr (.inl ⟨id, sequence, h.sent i id sequence hsent⟩)
  · refine .inr (.inr ?_)
    rw [Unwritable, h.conversations]
    exact hun

theorem HaveCopies.mono {rest : List OutboxEntry} (h : CopiesStand pending user mine s s')
    (hr : HaveCopies pending s.cache rest) : HaveCopies pending s'.cache rest :=
  fun e he i hi => h.has i (hr e he i hi)

/-- A call that sends a message relies on the others. -/
theorem SenderTask.mono (h : CopiesStand pending user mine s s') (hi : ¬ mine i)
    (ht : SenderTask user (pending i) s t) : SenderTask user (pending i) s' t := by
  have hfailed : ¬ HoldsFailed s.cache (pending i) → ¬ HoldsFailed s'.cache (pending i) :=
    fun hn hf => hn (h.failed i hi hf)
  cases t with
  | idle => exact fun hn => ht (h.new i hi hn)
  | enqueueing q =>
    obtain ⟨rfl, hn, hcopy⟩ := ht
    refine ⟨rfl, hfailed hn, hcopy.imp (h.has i) fun hun => ?_⟩
    rw [Unwritable, h.conversations]
    exact hun
  | posting | answered => exact ⟨ht.1, hfailed ht.2.1, h.covered hi ht.2.2⟩
  | marking => exact ⟨ht.1, hfailed ht.2.1, ht.2.2.1.mono h.stored, ht.2.2.2⟩
  | acknowledging => exact ⟨ht.1, hfailed ht.2⟩
  | failing => exact ⟨ht.1, hfailed ht.2.1, h.covered hi ht.2.2.1, ht.2.2.2⟩
  | counting | rescheduling | done => exact ht

/-- So does a flush. -/
theorem FlushTask.mono (h : CopiesStand pending user mine s s')
    (ht : FlushTask pending user s t) : FlushTask pending user s' t := by
  cases t with
  | posting | answered =>
    obtain ⟨hown, hrest, i, hi, hconv, hhas⟩ := ht
    exact ⟨hown, hrest.mono h, i, hi, hconv, h.has i hhas⟩
  | marking =>
    obtain ⟨hown, hrest, i, hi, hhas, hcopy, hstatus⟩ := ht
    exact ⟨hown, hrest.mono h, i, hi, h.has i hhas, hcopy.mono h.stored, hstatus⟩
  | acknowledging =>
    refine ⟨ht.1, ht.2.1.mono h, fun i hi => ?_⟩
    obtain ⟨id, sequence, hsent⟩ := ht.2.2 i hi
    exact ⟨id, sequence, h.sent i id sequence hsent⟩
  | counting | rescheduling => exact ⟨ht.1, ht.2.mono h⟩
  | idle | done => exact trivial
  | enqueueing | failing => exact ht

/-! ## Steps that cache nothing -/

theorem holdsCopy_same (hm : s'.cache.messages = s.cache.messages) {p : Message} {id : MessageId}
    {m : Message} : HoldsCopy s'.cache p id m ↔ HoldsCopy s.cache p id m := by
  unfold HoldsCopy
  rw [hm]

/-- The messages and conversations stay as they are; entries that go leave a sent copy, entries
that come have a copy. -/
theorem stand_same (mine : ι → Prop) (hs : CacheShared pending user s)
    (hm : s'.cache.messages = s.cache.messages)
    (hc : s'.cache.conversations = s.cache.conversations)
    (hstored : ∀ p id sequence, StoredFor user p id sequence s.world →
      StoredFor user p id sequence s'.world)
    (hcome : ∀ i, s'.cache.outbox.containsKey (pending i).clientMessageId = true →
      HasCopy s.cache (pending i))
    (hgo : ∀ i, s.cache.outbox.containsKey (pending i).clientMessageId = true →
      s'.cache.outbox.containsKey (pending i).clientMessageId = true ∨
        ¬ HoldsFailed s.cache (pending i) ∧
          (mine i ∨ ∃ id sequence, HoldsSent s.cache (pending i) id sequence)) :
    CacheShared pending user s' ∧ CopiesStand pending user mine s s' := by
  have hcopy : ∀ {p id m}, HoldsCopy s'.cache p id m ↔ HoldsCopy s.cache p id m :=
    holdsCopy_same hm
  have hhas : ∀ p, HasCopy s'.cache p ↔ HasCopy s.cache p := fun p => by simp only [HasCopy, hcopy]
  have hsent : ∀ p id sequence,
      HoldsSent s'.cache p id sequence ↔ HoldsSent s.cache p id sequence :=
    fun p id sequence => by simp only [HoldsSent, hcopy]
  have hfailed : ∀ p, HoldsFailed s'.cache p ↔ HoldsFailed s.cache p := fun p => by
    simp only [HoldsFailed, hcopy]
  refine ⟨⟨?_, ?_, ?_, ?_⟩, ⟨fun i => (hhas _).mpr, fun i _ => (hhas _).mp,
    fun i id sequence => (hsent ..).mpr, fun i _ => (hfailed _).mp, fun i hi h => ?_, hc, hstored⟩⟩
  · refine CacheOf.mono ⟨fun id row hrow => ?_, fun i id id' m m' hmi hmi' => ?_⟩ hstored
    · rw [hm] at hrow
      exact hs.cache.rows id row hrow
    · exact hs.cache.single i id id' m m' (hcopy.mp hmi) (hcopy.mp hmi')
  · intro i h
    rw [Unwritable, hc]
    exact hs.writable i ((hhas _).mp h)
  · exact fun i h => (hhas _).mpr (hcome i h)
  · intro i h
    have h := (hfailed _).mp h
    exact (hgo i (hs.failed i h)).resolve_right fun hn => hn.1 h
  · refine (hgo i h).imp_right fun hn => ?_
    obtain ⟨id, sequence, hh⟩ := hn.2.resolve_left hi
    exact ⟨id, sequence, (hsent ..).mpr hh⟩

/-- No entry comes or goes. -/
theorem stand_kept (mine : ι → Prop) (hs : CacheShared pending user s)
    (hm : s'.cache.messages = s.cache.messages)
    (hc : s'.cache.conversations = s.cache.conversations)
    (ho : ∀ id, s'.cache.outbox.containsKey id = s.cache.outbox.containsKey id)
    (hstored : ∀ p id sequence, StoredFor user p id sequence s.world →
      StoredFor user p id sequence s'.world) :
    CacheShared pending user s' ∧ CopiesStand pending user mine s s' :=
  stand_same mine hs hm hc hstored (fun i h => hs.entry i ((ho _).symm.trans h))
    fun _ h => .inl ((ho _).trans h)

/-- What the server does. -/
theorem stand_served (mine : ι → Prop) (hs : CacheShared pending user s)
    (late : List (ConversationId × SendMessageRequest))
    (hstored : ∀ p id sequence, StoredFor user p id sequence s.world →
      StoredFor user p id sequence w) :
    CacheShared pending user ⟨w, s.cache, late⟩ ∧
      CopiesStand pending user mine s ⟨w, s.cache, late⟩ :=
  stand_kept mine hs rfl rfl (fun _ => rfl) hstored

/-- A sent copy is no failed one. -/
theorem CacheShared.not_failed (hs : CacheShared pending user s) {id : MessageId} {sequence : Nat}
    (h : HoldsSent s.cache (pending i) id sequence) : ¬ HoldsFailed s.cache (pending i) := by
  rintro ⟨id', m', hm', hfailed⟩
  obtain ⟨m, hm, -, -, hsent⟩ := h
  obtain rfl := hs.cache.single i id id' m m' hm hm'
  obtain ⟨row, hrow, -, -, rfl⟩ := hm
  obtain ⟨row', hrow', -, -, rfl⟩ := hm'
  cases hrow.symm.trans hrow'
  rw [hsent] at hfailed
  cases hfailed

/-! ## Writes -/

theorem CopyOf.stored (h : CopyOf user (pending i) w copy) (hs : copy.status = .sent) :
    ∃ sequence, copy.sequence = some sequence ∧ StoredFor user (pending i) copy.id sequence w := by
  rcases h.state with ⟨-, -, hp | hf⟩ | ⟨-, hstored⟩
  · rw [hs] at hp
    cases hp
  · rw [hs] at hf
    cases hf
  · exact hstored

/-- One stored message has one id and one sequence. -/
theorem StoredFor.eq (hsole : Sole user pending w) {id id' : MessageId} {sequence sequence' : Nat}
    (h : StoredFor user (pending i) id sequence w)
    (h' : StoredFor user (pending i) id' sequence' w) :
    id = id' ∧ sequence = sequence' := by
  obtain ⟨c, j, m, hat, hof, rfl, hseq⟩ := h
  obtain ⟨c', j', m', hat', hof', rfl, hseq'⟩ := h'
  obtain ⟨rfl, rfl⟩ := hsole.once i c j c' j' m m' hat hat' hof hof'
  cases hat.symm.trans hat'
  exact ⟨rfl, Option.some.inj (hseq.symm.trans hseq')⟩

/-- A copy that the cache refuses. -/
theorem commit_refused (h : ¬ s.cache.Accepts copy) :
    s.commit true (cacheMessages rfc3339 keyed [copy]) = s := by
  rw [OutboxState.commit, if_pos rfl, cacheMessages_commit, if_neg h]

theorem commit_accepted (h : s.cache.Accepts copy) :
    s.commit true (cacheMessages rfc3339 keyed [copy]) =
      { s with cache := s.cache.cached rfc3339 keyed copy copy } := by
  rw [OutboxState.commit, if_pos rfl, cacheMessages_commit, if_pos h]

theorem stand_refl (mine : ι → Prop) (hs : CacheShared pending user s) :
    CacheShared pending user s ∧ CopiesStand pending user mine s s :=
  stand_kept mine hs rfl rfl (fun _ => rfl) fun _ _ _ h => h

/-- The copy is cached, if the cache takes it. -/
theorem holdsCopy_written (hc : Composed env pending) (ht : Timelines env s.world)
    (hs : CacheShared pending user s) (hcopy : CopyOf user (pending i) s.world copy)
    (haccepts : s.cache.Accepts copy) :
    HoldsCopy (s.commit true (cacheMessages rfc3339 keyed [copy])).cache (pending i) copy.id
      copy := by
  rw [commit_accepted haccepts]
  exact (holdsCopy_cached rfc3339 keyed hc ht hs.cache hcopy).mpr (.inl ⟨rfl, rfl, rfl⟩)

/-- A failed copy is the one written or was there. -/
theorem holdsFailed_written (rfc3339 : DateTime → String) (keyed : Bool)
    (hc : Composed env pending) (ht : Timelines env s.world)
    (hs : CacheShared pending user s) (hcopy : CopyOf user (pending i) s.world copy) (j : ι)
    (h : HoldsFailed (s.commit true (cacheMessages rfc3339 keyed [copy])).cache (pending j)) :
    j = i ∧ copy.status = .failed ∨ HoldsFailed s.cache (pending j) := by
  by_cases haccepts : s.cache.Accepts copy
  · rw [commit_accepted haccepts] at h
    obtain ⟨id, m, hm, hstatus⟩ := h
    rcases (holdsCopy_cached rfc3339 keyed hc ht hs.cache hcopy).mp hm with ⟨hj, -, rfl⟩ | ⟨-, hm⟩
    · exact .inl ⟨hj, hstatus⟩
    · exact .inr ⟨id, m, hm, hstatus⟩
  · rw [commit_refused haccepts] at h
    exact .inr h

/-- A copy without a sequence is refused only if nothing of the message can be written. -/
theorem accepts_unsent {s : Cache} (hseq : copy.sequence = none)
    (hw : s.conversations.containsKey copy.conversationId = true) : s.Accepts copy := by
  have hw : (s.supersede copy).conversations.containsKey copy.conversationId = true := hw
  exact ⟨by simp [hseq], by simp [LocalStore.rejects, hseq, hw]⟩

/-- **A write.** A call of its own writes what it likes over no sent copy, a flush a sent copy; a
failed one has its entry. -/
theorem stand_write (mine : ι → Prop) (rfc3339 : DateTime → String) (keyed : Bool)
    (hu : Function.Injective env.uuid) (hc : Composed env pending)
    (hshared : OutboxShared pending env user s) (hs : CacheShared pending user s)
    (hcopy : CopyOf user (pending i) s.world copy)
    (hsent : copy.status = .sent ∨ ∀ id sequence, ¬ HoldsSent s.cache (pending i) id sequence)
    (hmine : ¬ mine i → HasCopy s.cache (pending i) ∧ copy.status ≠ .failed)
    (hfailed : copy.status = .failed → ¬ Unwritable s.cache (pending i) →
      s.cache.outbox.containsKey (pending i).clientMessageId = true) :
    CacheShared pending user (s.commit true (cacheMessages rfc3339 keyed [copy])) ∧
      CopiesStand pending user mine s (s.commit true (cacheMessages rfc3339 keyed [copy])) := by
  by_cases haccepts : s.cache.Accepts copy
  swap
  · rw [commit_refused haccepts]
    exact stand_refl mine hs
  have ht := reachable_timelines hu hshared.reachable
  have hwritable : ¬ Unwritable s.cache (pending i) := by
    intro hun
    have hrejects := haccepts.2
    -- a row of the copy would be one of the message
    cases hrow : (s.cache.supersede copy).messages.get copy.id with
    | some row =>
      obtain ⟨j, hsj, hkj, -, hidj, hj⟩ := hs.cache.rows copy.id row (Map.get_of_retain hrow)
      obtain rfl : j = i := hj.index hc ht hcopy hidj
      exact hs.writable j ⟨_, _, row, Map.get_of_retain hrow, hsj, hkj, rfl⟩ hun
    | none =>
      have hmissing : (s.cache.supersede copy).messages.containsKey copy.id = false :=
        Map.containsKey_eq_false.mpr hrow
      have hun :
          (s.cache.supersede copy).conversations.containsKey copy.conversationId = false := by
        rw [hcopy.conversationId]
        exact hun
      simp [LocalStore.rejects, hmissing, hun] at hrejects
  rw [commit_accepted haccepts]
  have hiff : ∀ {j id m}, HoldsCopy (s.cache.cached rfc3339 keyed copy copy) (pending j) id m ↔
      j = i ∧ id = copy.id ∧ m = copy ∨ j ≠ i ∧ HoldsCopy s.cache (pending j) id m :=
    holdsCopy_cached rfc3339 keyed hc ht hs.cache hcopy
  have hnew : HasCopy (s.cache.cached rfc3339 keyed copy copy) (pending i) :=
    ⟨copy.id, copy, hiff.mpr (.inl ⟨rfl, rfl, rfl⟩)⟩
  have hhas : ∀ j, HasCopy s.cache (pending j) →
      HasCopy (s.cache.cached rfc3339 keyed copy copy) (pending j) := by
    rintro j ⟨id, m, hm⟩
    by_cases hj : j = i
    · rw [hj]
      exact hnew
    · exact ⟨id, m, hiff.mpr (.inr ⟨hj, hm⟩)⟩
  have hf : ∀ j, HoldsFailed (s.cache.cached rfc3339 keyed copy copy) (pending j) →
      j = i ∧ copy.status = .failed ∨ HoldsFailed s.cache (pending j) := fun j h => by
    have h' := holdsFailed_written rfc3339 keyed hc ht hs hcopy j
    rw [commit_accepted haccepts] at h'
    exact h' h
  refine ⟨⟨hs.cache.cached rfc3339 keyed hc ht hcopy, ?_, fun j h => hhas j (hs.entry j h), ?_⟩,
    ⟨hhas, ?_, ?_, ?_, fun j _ h => .inl h, rfl, fun _ _ _ h => h⟩⟩
  · rintro j ⟨id, m, hm⟩
    rcases hiff.mp hm with ⟨rfl, -, -⟩ | ⟨-, hm⟩
    · exact hwritable
    · exact hs.writable j ⟨id, m, hm⟩
  · intro j h
    rcases hf j h with ⟨rfl, hstatus⟩ | h
    · exact hfailed hstatus hwritable
    · exact hs.failed j h
  · rintro j hj ⟨id, m, hm⟩
    rcases hiff.mp hm with ⟨rfl, -, -⟩ | ⟨-, hm⟩
    · exact (hmine hj).1
    · exact ⟨id, m, hm⟩
  · rintro j id sequence ⟨m, hm, hid, hseq, hstatus⟩
    by_cases hj : j = i
    · subst hj
      have hcs := hsent.resolve_right fun hn => hn id sequence ⟨m, hm, hid, hseq, hstatus⟩
      obtain ⟨sequence₁, hseq₁, hstored₁⟩ := ((hs.cache.copyOf hc hm).2).stored hstatus
      obtain ⟨sequence₂, hseq₂, hstored₂⟩ := hcopy.stored hcs
      obtain ⟨hid₂, rfl⟩ := hstored₁.eq hshared.sole hstored₂
      cases hseq.symm.trans hseq₁
      have hid' : id = copy.id := hid.symm.trans hid₂
      exact ⟨copy, hiff.mpr (.inl ⟨rfl, hid', rfl⟩), hid'.symm, hseq₂, hcs⟩
    · exact ⟨m, hiff.mpr (.inr ⟨hj, hm⟩), hid, hseq, hstatus⟩
  · intro j hj h
    rcases hf j h with ⟨rfl, hstatus⟩ | h
    · exact absurd hstatus (hmine hj).2
    · exact h

/-! ## Steps of a call -/

/-- An entry is written unless it is a new one of an unknown conversation. -/
theorem enqueueOutbox_commit {s : Cache} {id : MessageId} {c : ConversationId}
    {payload : Option SendMessageRequest} {now : DateTime} :
    ((enqueueOutbox rfc3339 id c payload now).commit s).2 =
      if !s.outbox.containsKey id && !s.conversations.containsKey c then s
      else { s with outbox := s.outbox.insert id (s.enqueued rfc3339 id c payload now) } := by
  split
  · rename_i h
    unfold Tx.commit
    split
    · rename_i s' hs'
      exact absurd h (enqueueOutbox_runs.mp hs').1
    · rfl
  · rename_i h
    exact congrArg Prod.snd (Tx.commit_of_runs (a := ()) (enqueueOutbox_runs.mpr ⟨h, rfl⟩))

theorem mem_loadMessages {s : Cache} {c : ConversationId} {m : Message} :
    m ∈ loadMessages s c ↔ ∃ id row, s.messages.get id = some row ∧ row.conversationId = c ∧
      row.payload = m := by
  unfold loadMessages
  simp only [List.mem_map, List.mem_insertionSort, List.mem_filter, Map.mem_values, beq_iff_eq]
  constructor
  · rintro ⟨row, ⟨⟨id, hrow⟩, hc⟩, rfl⟩
    exact ⟨id, row, hrow, hc, rfl⟩
  · rintro ⟨id, row, hrow, hc, rfl⟩
    exact ⟨row, ⟨⟨id, hrow⟩, hc⟩, rfl⟩

/-- The copy with the server's id and sequence. -/
theorem CopyOf.marked (h : CopyOf user (pending i) w m) {ack : MessageAck}
    (hstored : StoredFor user (pending i) ack.messageId ack.sequence w)
    (hcopy : ({ m with id := ack.messageId }).markSent ack.sequence ack.serverTime = .ok copy) :
    CopyOf user (pending i) w copy ∧ copy.status = .sent := by
  obtain ⟨rfl, -⟩ := Message.markSent_ok hcopy
  exact ⟨⟨h.senderId, h.clientMessageId, h.conversationId, .inr ⟨rfl, _, rfl, hstored⟩⟩, rfl⟩

theorem Composed.copyOf (hc : Composed env pending) (i : ι) :
    CopyOf user (pending i) w (pending i) where
  senderId := rfl
  clientMessageId := rfl
  conversationId := rfl
  state := .inl ⟨rfl, hc.sequence i, .inl (hc.status i)⟩

theorem Composed.failedCopy (hc : Composed env pending) (i : ι) :
    CopyOf user (pending i) w { pending i with status := .failed } where
  senderId := rfl
  clientMessageId := rfl
  conversationId := rfl
  state := .inl ⟨rfl, hc.sequence i, .inr rfl⟩

/-- An entry is removed: by the call that sends the message, or when there is a sent copy. -/
theorem stand_acknowledge (mine : ι → Prop) (hs : CacheShared pending user s) {id : MessageId}
    (hgone : ∀ j, (pending j).clientMessageId = id → ¬ HoldsFailed s.cache (pending j) ∧
      (mine j ∨ ∃ id sequence, HoldsSent s.cache (pending j) id sequence)) :
    CacheShared pending user (s.commit true (acknowledgeOutbox id)) ∧
      CopiesStand pending user mine s (s.commit true (acknowledgeOutbox id)) := by
  refine stand_same mine hs rfl rfl (fun _ _ _ h => h) (fun j h => ?_) fun j h => ?_
  · exact hs.entry j (Map.containsKey_remove.mp h).2
  · by_cases hj : (pending j).clientMessageId = id
    · exact .inr (hgone j hj)
    · exact .inl (Map.containsKey_remove.mpr ⟨hj, h⟩)

/-- An attempt is counted. -/
theorem stand_reschedule (mine : ι → Prop) (hs : CacheShared pending user s) {id : MessageId}
    {code : String} {attempts random : Nat} {now : DateTime} :
    CacheShared pending user
        (s.commit true (rescheduleOutbox rfc3339 id code attempts random now)) ∧
      CopiesStand pending user mine s
        (s.commit true (rescheduleOutbox rfc3339 id code attempts random now)) :=
  stand_kept mine hs rfl rfl (fun _ => Map.containsKey_modify) fun _ _ _ h => h

/-- The copy of a call that failed. -/
theorem markFailed_pending {p : Message} (h : p.status = .pending) :
    p.markFailed.toOption.getD p = { p with status := .failed } := by
  simp [Message.markFailed, h, Except.toOption]

/-- The steps of the two calls and of the server: the local database works, nothing is cut off,
discarded or cleared, and nobody else writes to the cache. -/
def OutboxStep.Plain : OutboxStep → Prop
  | .next ok _ _ => ok = true
  | .restart | .discard _ | .clear | .write _ => False
  | _ => True

/-- **The call that sends a message**, as long as its failed copy takes the place of no sent one. -/
theorem sender_step (hu : Function.Injective env.uuid) (hc : Composed env pending)
    (hshared : OutboxShared pending env user s) (hs : CacheShared pending user s)
    {l : OutboxStep} (hl : l.Plain) (hsound : t.Sound pending user s.world)
    (ht : SenderTask user (pending i) s t)
    (hfail : ∀ item copy, t = .failing item copy →
      ∀ id sequence, ¬ HoldsSent s.cache (pending i) id sequence)
    (hstored : ∀ p id sequence, StoredFor user p id sequence s.world →
      StoredFor user p id sequence s'.world)
    (h : t.step env user rfc3339 keyed (some (pending i)) s l = some (s', t')) :
    CacheShared pending user s' ∧ CopiesStand pending user (· = i) s s' ∧
      SenderTask user (pending i) s' t' := by
  have htimes := reachable_timelines hu hshared.reachable
  have hmine : ∀ {P : Prop}, ¬ i = i → P := fun hn => absurd rfl hn
  cases l with
  | next ok random now =>
    obtain rfl : ok = true := hl
    cases t with
    | idle =>
      cases h
      have hcopy : CopyOf user (pending i) s.world (pending i) := hc.copyOf i
      have hnot : (pending i).status ≠ .failed := by
        rw [hc.status i]
        decide
      obtain ⟨hs', hun⟩ := stand_write (· = i) rfc3339 keyed hu hc hshared hs hcopy
        (.inr fun id sequence ⟨m, hm, _⟩ => ht ⟨id, m, hm⟩) hmine fun hf => absurd hf hnot
      refine ⟨hs', hun, rfl, fun hf => ?_, ?_⟩
      · rcases holdsFailed_written rfc3339 keyed hc htimes hs hcopy i hf with
            ⟨-, hf⟩ | ⟨id, m, hm, -⟩
        · exact hnot hf
        · exact ht ⟨id, m, hm⟩
      · by_cases hw : s.cache.conversations.containsKey (pending i).conversationId = true
        · have haccepts := accepts_unsent (hc.sequence i) hw
          exact .inl ⟨_, _, holdsCopy_written hc htimes hs hcopy haccepts⟩
        · refine .inr ?_
          rw [Unwritable, hun.conversations]
          exact Bool.eq_false_iff.mpr hw
    | enqueueing q =>
      obtain ⟨rfl, hnot, hcopy⟩ := ht
      cases h
      rw [OutboxState.commit, if_pos rfl, enqueueOutbox_commit]
      split
      · rename_i hrejected
        obtain ⟨hs', hun⟩ := stand_refl (· = i) hs
        exact ⟨hs', hun, ⟨rfl, rfl⟩, hnot, .inr (.inr (by simp_all [Unwritable]))⟩
      · rename_i haccepted
        obtain ⟨hs', hun⟩ : CacheShared pending user { s with cache := { s.cache with
              outbox := s.cache.outbox.insert (pending i).clientMessageId
                (s.cache.enqueued rfc3339 (pending i).clientMessageId (pending i).conversationId
                  (some (pending i).sendRequest) now) } } ∧
            CopiesStand pending user (· = i) s _ := by
          refine stand_same _ hs rfl rfl (fun _ _ _ h => h) (fun j h => ?_) fun j h => ?_
          · rcases Map.containsKey_insert.mp h with hj | h
            · obtain rfl : j = i := hc.injective hj
              refine hcopy.resolve_right fun hun => haccepted ?_
              have hnone : s.cache.outbox.containsKey (pending j).clientMessageId = false := by
                by_contra hsome
                exact hs.writable j (hs.entry j (by simpa using hsome)) hun
              rw [Unwritable] at hun
              simp [hnone, hun]
            · exact hs.entry j h
          · exact .inl (Map.containsKey_insert.mpr (.inr h))
        exact ⟨hs', hun, ⟨rfl, rfl⟩, hnot, .inl (Map.containsKey_insert.mpr (.inl rfl))⟩
    | posting => cases h
    | answered item c ack =>
      obtain ⟨⟨hown, hid⟩, hnot, hcov⟩ := ht
      obtain ⟨-, j, hj, hack⟩ := hsound
      obtain rfl : i = j := hc.injective (hid.symm.trans hj)
      obtain ⟨hs', hun⟩ := stand_refl (· = i) hs
      cases h
      refine ⟨hs', hun, ?_⟩
      unfold OutboxItem.marked
      simp only [hown]
      split
      · obtain ⟨hcopy, hsent⟩ := (hc.copyOf i).marked hack ‹_›
        exact ⟨⟨hown, hid⟩, hnot, hcopy, hsent⟩
      · exact trivial
    | marking item copy =>
      obtain ⟨hown, hnot, hcopy, hsent⟩ := ht
      cases h
      have hstatus : copy.status ≠ .failed := by
        rw [hsent]
        decide
      obtain ⟨hs', hun⟩ := stand_write (· = i) rfc3339 keyed hu hc hshared hs hcopy
        (.inl hsent) hmine fun hf => absurd hf hstatus
      refine ⟨hs', hun, hown, fun hf => ?_⟩
      rcases holdsFailed_written rfc3339 keyed hc htimes hs hcopy i hf with ⟨-, hf⟩ | hf
      · exact hstatus hf
      · exact hnot hf
    | acknowledging item =>
      obtain ⟨⟨hown, hid⟩, hnot⟩ := ht
      cases h
      obtain ⟨hs', hun⟩ := stand_acknowledge (· = i) hs fun j hj => by
          obtain rfl : j = i := hc.injective (hj.trans hid)
          exact ⟨hnot, .inl rfl⟩
      refine ⟨hs', hun, ?_⟩
      simp only [OutboxItem.after, hown]
      exact trivial
    | failing item copy =>
      obtain ⟨hown, hnot, hcov, rfl⟩ := ht
      cases h
      have hnosent := hfail item _ rfl
      obtain ⟨hs', hun⟩ := stand_write (· = i) rfc3339 keyed hu hc hshared hs (hc.failedCopy i)
        (.inr hnosent) hmine fun _ hw => by
          rcases hcov with hentry | ⟨id, sequence, hsent⟩ | hun
          · exact hentry
          · exact absurd hsent (hnosent id sequence)
          · exact absurd hun hw
      exact ⟨hs', hun, hown⟩
    | counting item =>
      simp only [OutboxTask.step, OutboxTask.next] at h
      obtain ⟨hs', hun⟩ := stand_refl (· = i) hs
      split at h <;> cases h
      · exact ⟨hs', hun, ht⟩
      · refine ⟨hs', hun, ?_⟩
        simp only [OutboxItem.after, ht.1]
        exact trivial
    | rescheduling item attempts =>
      cases h
      obtain ⟨hs', hun⟩ := stand_reschedule (· = i) hs
      refine ⟨hs', hun, ?_⟩
      simp only [OutboxItem.after, ht.1]
      exact trivial
    | done => cases h
  | answer now =>
    cases t with
    | posting item c request =>
      obtain ⟨⟨hown, hid⟩, hnot, hcov⟩ := ht
      cases h
      obtain ⟨hs', hun⟩ := stand_served (· = i) hs s.late hstored
      refine ⟨hs', hun, ?_⟩
      split
      · exact ⟨⟨hown, hid⟩, hnot, hcov⟩
      · have hfailed := markFailed_pending (hc.status i)
        simp only [OutboxItem.failed, hown]
        exact ⟨⟨hown, hid⟩, hnot, hcov, hfailed⟩
    | _ => cases h
  | lose =>
    have hfailed := markFailed_pending (hc.status i)
    cases t with
    | posting item c request =>
      obtain ⟨⟨hown, hid⟩, hnot, hcov⟩ := ht
      cases h
      obtain ⟨hs', hun⟩ := stand_served (· = i) hs ((c, request) :: s.late) hstored
      refine ⟨hs', hun, ?_⟩
      simp only [OutboxItem.failed, hown]
      exact ⟨⟨hown, hid⟩, hnot, hcov, hfailed⟩
    | answered item c ack =>
      obtain ⟨⟨hown, hid⟩, hnot, hcov⟩ := ht
      cases h
      obtain ⟨hs', hun⟩ := stand_refl (· = i) hs
      refine ⟨hs', hun, ?_⟩
      simp only [OutboxItem.failed, hown]
      exact ⟨⟨hown, hid⟩, hnot, hcov, hfailed⟩
    | _ => cases h
  | restart => exact hl.elim
  | _ => cases h

/-- A flush turns to the next entry. -/
theorem flush_begin {rest : List OutboxEntry} (hg : ∀ e ∈ rest, Genuine pending e)
    (hr : HaveCopies pending s.cache rest) : FlushTask pending user s (.begin rest) := by
  cases rest with
  | nil => exact trivial
  | cons e rest =>
    obtain ⟨id, row⟩ := e
    obtain ⟨i, hid, hconv, hp⟩ := hg _ List.mem_cons_self
    dsimp only at hid hconv hp
    have hkey : (pending i).sendRequest.clientMessageId = id := hid.symm
    simp only [OutboxTask.begin, hp, hkey, if_true]
    exact ⟨rfl, fun e he => hr e (List.mem_cons_of_mem _ he), i, hid, hconv,
      hr _ List.mem_cons_self i hid⟩

theorem flush_after {item : OutboxItem} (hown : item.own = none)
    (hg : ∀ e ∈ item.rest, Genuine pending e) (hr : HaveCopies pending s.cache item.rest) :
    FlushTask pending user s item.after := by
  simp only [OutboxItem.after, hown]
  exact flush_begin hg hr

/-- The copy a flush looks up is there, and its own or a sent one. -/
theorem flush_marked (hc : Composed env pending) (hs : CacheShared pending user s)
    {item : OutboxItem} {c : ConversationId} {ack : MessageAck}
    (ht : FlushTask pending user s (.answered item c ack))
    (hsound : (OutboxTask.answered item c ack).Sound pending user s.world) :
    FlushTask pending user s (item.marked s.cache c ack true) := by
  obtain ⟨hown, hrest, i, hid, rfl, hhas⟩ := ht
  obtain ⟨-, j, hj, hack⟩ := hsound
  obtain rfl : i = j := hc.injective (hid.symm.trans hj)
  simp only [OutboxItem.marked, hown]
  cases hfind : (loadMessages s.cache (pending i).conversationId).find?
      (·.clientMessageId == item.clientMessageId) with
  | none =>
    -- the copy that is held would be found
    obtain ⟨id, m, hm⟩ := hhas
    obtain ⟨-, hcopy⟩ := hs.cache.copyOf hc hm
    obtain ⟨row, hrow, -, hk, rfl⟩ := hm
    obtain ⟨j, -, hkj, hconv, -, -⟩ := hs.cache.rows id row hrow
    obtain rfl : i = j := hc.injective (hk.symm.trans hkj)
    have hnot := List.find?_eq_none.mp hfind row.payload
      (mem_loadMessages.mpr ⟨id, row, hrow, hconv, rfl⟩)
    simp [hcopy.clientMessageId, hid] at hnot
  | some found =>
    have hk : found.clientMessageId = (pending i).clientMessageId := by
      have := List.find?_some hfind
      simp only [beq_iff_eq] at this
      exact this.trans hid
    obtain ⟨id, row, hrow, -, rfl⟩ := mem_loadMessages.mp (List.mem_of_find?_eq_some hfind)
    obtain ⟨j, hsj, hkj, -, hidj, hcopy⟩ := hs.cache.rows id row hrow
    obtain rfl : j = i := hc.injective (hcopy.clientMessageId.symm.trans hk)
    dsimp only
    split
    · obtain ⟨hmarked, hsent⟩ := hcopy.marked hack ‹_›
      exact ⟨hown, hrest, j, hid, hhas, hmarked, hsent⟩
    · -- the copy is final: it was marked by another call
      rename_i hrefused
      refine ⟨hown, hrest, fun k hk' => ?_⟩
      obtain rfl : j = k := hc.injective (hid.symm.trans hk')
      have hsent : row.payload.status = .sent := by
        rcases hcopy.state with ⟨-, -, hp⟩ | ⟨hsent, -⟩
        · rcases hp with hp | hp <;> simp [Message.markSent, hp] at hrefused
        · exact hsent
      obtain ⟨sequence, hseq, -⟩ := hcopy.stored hsent
      exact ⟨id, sequence, row.payload, ⟨row, hrow, hsj, hkj, rfl⟩, hidj, hseq, hsent⟩

/-- **A flush**, as long as the cache takes its copies. -/
theorem flush_step (hu : Function.Injective env.uuid) (hc : Composed env pending)
    (hshared : OutboxShared pending env user s) (hs : CacheShared pending user s)
    {l : OutboxStep} (hl : l.Plain) (hsound : t.Sound pending user s.world)
    (ht : FlushTask pending user s t)
    (haccepts : ∀ item copy, t = .marking item copy → s.cache.Accepts copy)
    (hstored : ∀ p id sequence, StoredFor user p id sequence s.world →
      StoredFor user p id sequence s'.world)
    (h : t.step env user rfc3339 keyed none s l = some (s', t')) :
    CacheShared pending user s' ∧ CopiesStand pending user (fun _ => False) s s' ∧
      FlushTask pending user s' t' := by
  have htimes := reachable_timelines hu hshared.reachable
  obtain ⟨hrefl, hrefl'⟩ := stand_refl (fun _ => False) hs
  cases l with
  | next ok random now =>
    obtain rfl : ok = true := hl
    cases t with
    | idle =>
      cases h
      refine ⟨hrefl, hrefl', ?_⟩
      have hready : ∀ e ∈ readyOutbox rfc3339 s.cache now, s.cache.outbox.get e.1 = some e.2 := by
        intro e he
        have he := List.mem_of_mem_take he
        rw [List.mem_insertionSort] at he
        exact Map.mem_entries.mp (List.mem_of_mem_filter he)
      refine flush_begin (fun e he => hshared.genuine _ _ (hready e he)) fun e he i hi =>
        hs.entry i ?_
      rw [← hi]
      exact Map.containsKey_iff.mpr ⟨e.2, hready e he⟩
    | enqueueing => exact ht.elim
    | posting => cases h
    | answered item c ack =>
      cases h
      exact ⟨hrefl, hrefl', flush_marked hc hs ht hsound⟩
    | marking item copy =>
      obtain ⟨hown, hrest, i, hid, hhas, hcopy, hsent⟩ := ht
      cases h
      have hstatus : copy.status ≠ .failed := by
        rw [hsent]
        decide
      obtain ⟨hs', hun⟩ := stand_write (fun _ => False) rfc3339 keyed hu hc hshared hs hcopy
        (.inl hsent) (fun _ => ⟨hhas, hstatus⟩) fun hf => absurd hf hstatus
      refine ⟨hs', hun, hown, hrest.mono hun, fun j hj => ?_⟩
      obtain rfl : i = j := hc.injective (hid.symm.trans hj)
      obtain ⟨sequence, hseq, -⟩ := hcopy.stored hsent
      exact ⟨copy.id, sequence, copy, holdsCopy_written hc htimes hs hcopy (haccepts item copy rfl),
        rfl, hseq, hsent⟩
    | acknowledging item =>
      obtain ⟨hown, hrest, hsent⟩ := ht
      cases h
      obtain ⟨hs', hun⟩ := stand_acknowledge (fun _ => False) hs fun j hj => by
        obtain ⟨id, sequence, hj⟩ := hsent j hj.symm
        exact ⟨hs.not_failed hj, .inr ⟨id, sequence, hj⟩⟩
      exact ⟨hs', hun, flush_after hown hsound.1 (hrest.mono hun)⟩
    | failing => exact ht.elim
    | counting item =>
      simp only [OutboxTask.step, OutboxTask.next] at h
      split at h <;> cases h
      · exact ⟨hrefl, hrefl', ht⟩
      · exact ⟨hrefl, hrefl', flush_after ht.1 hsound ht.2⟩
    | rescheduling item attempts =>
      cases h
      obtain ⟨hs', hun⟩ := stand_reschedule (fun _ => False) hs
      exact ⟨hs', hun, flush_after ht.1 hsound (ht.2.mono hun)⟩
    | done => cases h
  | answer now =>
    cases t with
    | posting item c request =>
      obtain ⟨hown, hrest, hi⟩ := ht
      cases h
      obtain ⟨hs', hun⟩ := stand_served (fun _ => False) hs s.late hstored
      refine ⟨hs', hun, ?_⟩
      split
      · exact ⟨hown, hrest, hi⟩
      · simp only [OutboxItem.failed, hown]
        exact ⟨hown, hrest⟩
    | _ => cases h
  | lose =>
    cases t with
    | posting item c request =>
      obtain ⟨hown, hrest, hi⟩ := ht
      cases h
      obtain ⟨hs', hun⟩ := stand_served (fun _ => False) hs ((c, request) :: s.late) hstored
      refine ⟨hs', hun, ?_⟩
      simp only [OutboxItem.failed, hown]
      exact ⟨hown, hrest⟩
    | answered item c ack =>
      cases h
      refine ⟨hrefl, hrefl', ?_⟩
      simp only [OutboxItem.failed, ht.1]
      exact ⟨ht.1, ht.2.1⟩
    | _ => cases h
  | restart => exact hl.elim
  | _ => cases h

/-- The others: the server, or a retry that is asked for. -/
theorem others_step {l : OutboxStep} (hl : l.Plain) (hs : CacheShared pending user s)
    (hstored : ∀ p id sequence, StoredFor user p id sequence s.world →
      StoredFor user p id sequence s'.world)
    (h : s.others env user rfc3339 l = some s') :
    CacheShared pending user s' ∧ CopiesStand pending user (fun _ => False) s s' := by
  cases l with
  | server op =>
    cases h
    exact stand_served _ hs s.late hstored
  | late j now =>
    simp only [OutboxState.others] at h
    split at h <;> cases h
    exact stand_served _ hs _ hstored
  | retry id now =>
    cases h
    have hkept : ∀ s' : Cache, (retryOutboxNow rfc3339 id now).Runs s.cache () s' →
        s' = { s.cache with outbox := s.cache.outbox.modify id fun row =>
          { row with nextAttemptAt := rfc3339 now, lastErrorCode := none } } := fun s' hr => by
      unfold retryOutboxNow at hr
      rw [Tx.runs_get_bind, Tx.runs_failIf_bind, Tx.runs_modify] at hr
      exact hr.2
    unfold OutboxState.commit Tx.commit
    rw [if_pos rfl]
    split
    · rename_i s₁ hr
      rw [hkept s₁ hr]
      exact stand_kept _ hs rfl rfl (fun _ => Map.containsKey_modify) fun _ _ _ h => h
    · exact stand_refl _ hs
  | discard | clear | write => exact hl.elim
  | _ => cases h

end

/-! ## Runs -/

section
variable {ι φ : Type} [DecidableEq ι] [DecidableEq φ] (env : Env) (user : UserId)
  (rfc3339 : DateTime → String) (keyed : Bool) (pending : ι → Message)

/-- The two calls and the server, from a cache without messages. -/
def resending : LTS (OutboxState × (OutboxParty ι φ → OutboxTask)) (OutboxParty ι φ × OutboxStep) :=
  LTS.restrict
    { init := fun x => (sendingOutbox (φ := φ) env user rfc3339 keyed pending).init x.1 x.2 ∧
        x.1.cache.messages = .empty
      step := (sendingOutbox env user rfc3339 keyed pending).lts.step }
    fun x l => ApartStep user pending x l ∧ l.2.Plain

/-- The condition: a failed copy takes the place of no sent one, and the cache takes the copy of a
flush. -/
def SentStays (x : OutboxState × (OutboxParty ι φ → OutboxTask))
    (l : OutboxParty ι φ × OutboxStep) : Prop :=
  (∀ i item copy, l.1 = .sender i → x.2 l.1 = .failing item copy →
    ∀ id sequence, ¬ HoldsSent x.1.cache (pending i) id sequence) ∧
  ∀ f item copy, l.1 = .flush f → x.2 l.1 = .marking item copy → x.1.cache.Accepts copy

end

section
variable {ι φ : Type} [DecidableEq ι] [DecidableEq φ] {env : Env} {user : UserId}
  {rfc3339 : DateTime → String} {keyed : Bool} {pending : ι → Message}
  {x x' : OutboxState × (OutboxParty ι φ → OutboxTask)} {l : OutboxParty ι φ × OutboxStep}

/-- What holds between the steps. -/
structure Resending (env : Env) (user : UserId) (pending : ι → Message)
    (x : OutboxState × (OutboxParty ι φ → OutboxTask)) : Prop where
  holds : Threads.Holds (OutboxShared pending env user)
    (fun s t => t.Sound pending user s.world) (fun _ _ => True) x
  shared : CacheShared pending user x.1
  sender : ∀ i, SenderTask user (pending i) x.1 (x.2 (.sender i))
  flush : ∀ f, FlushTask pending user x.1 (x.2 (.flush f))

theorem Resending.step (hu : Function.Injective env.uuid) (hc : Composed env pending)
    (h : Resending env user pending x)
    (hstep : ((resending env user rfc3339 keyed pending).restrict
      (SentStays pending)).step x l x') :
    Resending env user pending x' ∧ ∃ mine, CopiesStand pending user mine x.1 x'.1 := by
  obtain ⟨hok, ⟨hapart, hplain⟩, hstep⟩ := hstep
  have hholds := (outbox_inductive user rfc3339 keyed hc.toDrawnFor).step x l x' h.holds
    ⟨hapart, hstep⟩
  obtain ⟨s, f⟩ := x
  obtain ⟨p, l⟩ := l
  obtain ⟨s', f'⟩ := x'
  obtain ⟨t', hstep, hf⟩ := hstep
  dsimp only at hstep hf
  subst hf
  have hmoves := party_moves hc.toDrawnFor hapart h.holds.shared (h.holds.thread p) hstep
  have hstored := hmoves.1.stored
  cases p with
  | sender i =>
    obtain ⟨hs', hun, ht'⟩ := sender_step hu hc h.holds.shared h.shared hplain (h.holds.thread _)
      (h.sender i) (hok.1 i · · rfl) hstored hstep
    refine ⟨⟨hholds, hs', fun j => ?_, fun g => ?_⟩, _, hun⟩
    · by_cases hj : j = i
      · subst hj
        simpa using ht'
      · have := (h.sender j).mono hun hj
        simpa [hj] using this
    · simpa using (h.flush g).mono hun
  | flush g =>
    obtain ⟨hs', hun, ht'⟩ := flush_step hu hc h.holds.shared h.shared hplain (h.holds.thread _)
      (h.flush g) (hok.2 g · · rfl) hstored hstep
    refine ⟨⟨hholds, hs', fun j => ?_, fun g' => ?_⟩, _, hun⟩
    · simpa using (h.sender j).mono hun id
    · by_cases hg : g' = g
      · subst hg
        simpa using ht'
      · simpa [hg] using (h.flush g').mono hun
  | others =>
    obtain ⟨s₁, hs₁, he⟩ := Option.map_eq_some_iff.mp hstep
    cases he
    obtain ⟨hs', hun⟩ := others_step hplain h.shared hstored hs₁
    refine ⟨⟨hholds, hs', fun j => ?_, fun g => ?_⟩, _, hun⟩
    · simpa using (h.sender j).mono hun id
    · simpa using (h.flush g).mono hun

theorem resending_inductive (hu : Function.Injective env.uuid) (hc : Composed env pending) :
    ((resending (φ := φ) env user rfc3339 keyed pending).restrict (SentStays pending)).Inductive
      (Resending env user pending) where
  init := by
    rintro x ⟨hinit, hmessages⟩
    have hnone : ∀ {p id m}, ¬ HoldsCopy x.1.cache p id m := by
      rintro p id m ⟨row, hrow, -⟩
      rw [hmessages, Map.get_empty] at hrow
      cases hrow
    have hholds := (outbox_inductive user rfc3339 keyed hc.toDrawnFor).init x hinit
    refine ⟨hholds, ⟨⟨?_, ?_⟩, ?_, ?_, ?_⟩, ?_, ?_⟩
    · intro id row hrow
      rw [hmessages, Map.get_empty] at hrow
      cases hrow
    · exact fun i id id' m m' hm _ => absurd hm hnone
    · exact fun i ⟨_, _, hm⟩ => absurd hm hnone
    · intro i hi
      rw [hinit.2.1, Map.containsKey_iff] at hi
      obtain ⟨row, hrow⟩ := hi
      rw [Map.get_empty] at hrow
      cases hrow
    · exact fun i ⟨_, _, hm, _⟩ => absurd hm hnone
    · intro i
      rw [hinit.2.2.2]
      exact fun ⟨_, _, hm⟩ => hnone hm
    · intro f
      rw [hinit.2.2.2]
      exact trivial
  step x l x' h hstep := (h.step hu hc hstep).1

/-- **A message known to be sent stays sent**, in every run in which no failed copy takes the place
of a sent one and the cache takes the copies of the flushes; and a failed copy has its entry. -/
theorem sent_copy_stays (hu : Function.Injective env.uuid) (hc : Composed env pending)
    (hx : ((resending env user rfc3339 keyed pending).restrict (SentStays pending)).Reachable x) :
    (∀ i, HoldsFailed x.1.cache (pending i) →
      x.1.cache.outbox.containsKey (pending i).clientMessageId = true) ∧
    ∀ ls x', ((resending env user rfc3339 keyed pending).restrict (SentStays pending)).Run x ls x' →
      ∀ i id sequence, HoldsSent x.1.cache (pending i) id sequence →
        HoldsSent x'.1.cache (pending i) id sequence := by
  have hI := (resending_inductive hu hc).reachable hx
  refine ⟨hI.shared.failed, fun ls x' hrun i id sequence hsent => ?_⟩
  have hkept : Resending env user pending x' ∧ HoldsSent x'.1.cache (pending i) id sequence :=
    hrun.preserves (I := fun y => Resending env user pending y ∧
        HoldsSent y.1.cache (pending i) id sequence) (fun y l y' hy hstep => by
      obtain ⟨hnext, mine, hun⟩ := hy.1.step hu hc hstep
      exact ⟨hnext, hun.sent i id sequence hy.2⟩) ⟨hI, hsent⟩
  exact hkept.2

end

/-! ## The call that fails last -/

theorem hiToBob_composed : Composed Env.numbered fun _ : Unit => hiToBob where
  toDrawnFor := hiToBob_drawn
  idInjective _ _ _ := rfl
  idApart _ _ h := by cases h
  status _ := rfl
  sequence _ := rfl

def hiResending : LTS (OutboxState × (OutboxParty Unit Unit → OutboxTask))
    (OutboxParty Unit Unit × OutboxStep) :=
  resending Env.numbered 1 (fun _ => "") false fun _ => hiToBob

/-- The steps of the two calls and of a server that nobody else sends to. -/
def OutboxStep.isPlain : OutboxStep → Bool
  | .next ok _ _ => ok
  | .server (.sendMessageRequest _ _ _ _) => false
  | .restart | .discard _ | .clear | .write _ => false
  | _ => true

theorem OutboxStep.plain_of {l : OutboxStep} (h : l.isPlain = true) : l.Plain := by
  cases l with
  | next ok random now => exact h
  | restart | discard | clear | write => cases h
  | _ => exact trivial

def plainNext (x : OutboxState × (OutboxParty Unit Unit → OutboxTask))
    (l : OutboxParty Unit Unit × OutboxStep) :
    Option (OutboxState × (OutboxParty Unit Unit → OutboxTask)) :=
  if l.2.isPlain then hiSending.next x l else none

theorem step_of_plainNext {x x' : OutboxState × (OutboxParty Unit Unit → OutboxTask)}
    {l : OutboxParty Unit Unit × OutboxStep} (h : plainNext x l = some x') :
    hiResending.step x l x' := by
  unfold plainNext at h
  split at h
  · rename_i hplain
    refine ⟨⟨fun op hop => ?_, OutboxStep.plain_of hplain⟩, Threads.step_of_next h⟩
    rw [hop] at hplain
    cases op with
    | sendMessageRequest => cases hplain
    | _ => exact trivial
  · cases h

/-- The condition for the one message, decided. -/
def sentStays (x : OutboxState × (OutboxParty Unit Unit → OutboxTask))
    (l : OutboxParty Unit Unit × OutboxStep) : Bool :=
  match x.2 l.1 with
  | .failing _ _ => x.1.cache.messages.entries.all fun e => e.2.payload.status != .sent
  | .marking _ copy => decide (x.1.cache.Accepts copy)
  | _ => true

theorem sentStays_of {x : OutboxState × (OutboxParty Unit Unit → OutboxTask)}
    {l : OutboxParty Unit Unit × OutboxStep} (h : sentStays x l = true) :
    SentStays (fun _ => hiToBob) x l := by
  constructor
  · rintro i item copy - ht id sequence ⟨m, ⟨row, hrow, -, -, rfl⟩, -, -, hsent⟩
    simp only [sentStays, ht, List.all_eq_true] at h
    have := h (id, row) (Map.mem_entries.mpr hrow)
    simp [hsent] at this
  · intro f item copy _ ht
    simpa [sentStays, ht] using h

/-- The text is cached and enqueued. -/
def hiEnqueued : List (OutboxParty Unit Unit × OutboxStep) :=
  aliceAndBob.map (fun op => (.others, .server op)) ++
    [(.sender (), .next true 0 0), (.sender (), .next true 0 0)]

/-- The request of the call is lost. -/
def hiFails : List (OutboxParty Unit Unit × OutboxStep) :=
  [(.sender (), .lose), (.sender (), .next true 0 0), (.sender (), .next true 0 0)]

/-- A flush is answered and caches the sent copy. -/
def hiFlushed : List (OutboxParty Unit Unit × OutboxStep) :=
  [(.flush (), .next true 0 0), (.flush (), .answer 5), (.flush (), .next true 0 0),
    (.flush (), .next true 0 0)]

/-- The copy under the id. -/
def shows (x : OutboxState × (OutboxParty Unit Unit → OutboxTask)) (id : MessageId)
    (status : MessageStatus) (sequence : Option Nat) : Bool :=
  (x.1.cache.messages.get id).any fun row => row.senderId == 1 && row.clientMessageId == 0 &&
    (row.payload.id == id && row.payload.status == status && row.payload.sequence == sequence)

theorem holdsCopy_of_shows {x : OutboxState × (OutboxParty Unit Unit → OutboxTask)}
    {id : MessageId} {status : MessageStatus} {sequence : Option Nat}
    (h : shows x id status sequence = true) : ∃ m, HoldsCopy x.1.cache hiToBob id m ∧ m.id = id ∧
      m.sequence = sequence ∧ m.status = status := by
  obtain ⟨row, hrow, hp⟩ := (Option.any_eq_true ..).mp h
  simp only [Bool.and_eq_true, beq_iff_eq] at hp
  obtain ⟨⟨hs, hk⟩, ⟨hid, hstatus⟩, hseq⟩ := hp
  exact ⟨row.payload, ⟨row, hrow, hs, hk, rfl⟩, hid, hseq, hstatus⟩

/-- The call fails first: its failed copy has an entry; then a flush marks it, removes the entry,
and the sent copy stays. -/
theorem sent_copy_stays_behind_failure : ∃ x x',
    (hiResending.restrict (SentStays fun _ => hiToBob)).Reachable x ∧
    (hiResending.restrict (SentStays fun _ => hiToBob)).Reachable x' ∧
    HoldsFailed x.1.cache hiToBob ∧ x.1.cache.outbox.containsKey 0 = true ∧
    ∃ x'', (hiResending.restrict (SentStays fun _ => hiToBob)).Run x'
        [(.flush (), .next true 0 0)] x'' ∧
      HoldsSent x''.1.cache hiToBob 14 1 ∧ x''.1.cache.outbox.containsKey 0 = false := by
  have hnext : ∀ ls : List (OutboxParty Unit Unit × OutboxStep),
      ∀ y, ∀ l ∈ ls, ∀ y', (if sentStays y l then plainNext y l else none) = some y' →
        (hiResending.restrict (SentStays fun _ => hiToBob)).step y l y' := by
    intro ls y l _ y' h
    split at h
    · exact ⟨sentStays_of ‹_›, step_of_plainNext h⟩
    · cases h
  obtain ⟨x, hx, hp⟩ := LTS.reaches_of_exec (M := hiResending.restrict (SentStays fun _ => hiToBob))
    (s := (emptyOutbox, fun _ => .idle)) ⟨⟨rfl, rfl, rfl, fun _ => rfl⟩, rfl⟩
    (hiEnqueued ++ hiFails) (hnext _) (fun x => shows x 0 .failed none) (by decide +kernel)
  obtain ⟨x', hx', hp'⟩ := LTS.reaches_of_exec
    (M := hiResending.restrict (SentStays fun _ => hiToBob))
    (s := (emptyOutbox, fun _ => .idle)) ⟨⟨rfl, rfl, rfl, fun _ => rfl⟩, rfl⟩
    (hiEnqueued ++ hiFails ++ hiFlushed) (hnext _)
    (fun x => shows x 14 .sent (some 1) &&
      ((if sentStays x (.flush (), .next true 0 0) then plainNext x (.flush (), .next true 0 0)
        else none).any fun x' => !x'.1.cache.outbox.containsKey 0)) (by decide +kernel)
  obtain ⟨m, hm, -, -, hfailed⟩ := holdsCopy_of_shows hp
  have hf : HoldsFailed x.1.cache hiToBob := ⟨0, m, hm, hfailed⟩
  simp only [Bool.and_eq_true] at hp'
  obtain ⟨hsent, hlast⟩ := hp'
  obtain ⟨x'', hx'', hgone⟩ := (Option.any_eq_true ..).mp hlast
  have hrun := LTS.Run.cons (hnext [_] x' _ List.mem_cons_self x'' hx'') (.nil x'')
  obtain ⟨hentry, -⟩ := sent_copy_stays Env.numbered_injective hiToBob_composed hx
  obtain ⟨-, hstays⟩ := sent_copy_stays Env.numbered_injective hiToBob_composed hx'
  exact ⟨x, x', hx, hx', hf, hentry () hf, x'', hrun,
    hstays _ x'' hrun () 14 1 (holdsCopy_of_shows hsent), by simpa using hgone⟩

/-- No call is in progress. -/
def finished (x : OutboxState × (OutboxParty Unit Unit → OutboxTask)) : Bool :=
  (x.2 (.sender ()) matches .done) && (x.2 (.flush ()) matches .idle)

/-- A flush sends the text and removes its entry; then the request of the call that sent it first is
lost, and its failed copy takes the place of the sent one. -/
theorem failed_over_sent : ∃ x ls x', hiResending.Reachable x ∧ hiResending.Run x ls x' ∧
    finished x' = true ∧ HoldsSent x.1.cache hiToBob 14 1 ∧
    ¬ HoldsSent x'.1.cache hiToBob 14 1 ∧ HoldsFailed x'.1.cache hiToBob ∧
    x'.1.cache.outbox.containsKey 0 = false := by
  obtain ⟨x, hx, hp⟩ := LTS.reaches_of_exec (M := hiResending)
    (s := (emptyOutbox, fun _ => .idle)) ⟨⟨rfl, rfl, rfl, fun _ => rfl⟩, rfl⟩
    (hiEnqueued ++ hiFlushed) (fun _ _ _ _ h => step_of_plainNext h)
    (fun x => shows x 14 .sent (some 1) &&
      (LTS.exec plainNext ((.flush (), .next true 0 0) :: hiFails) x).any fun x' =>
        finished x' && shows x' 0 .failed none && (x'.1.cache.messages.get 14).isNone &&
          !x'.1.cache.outbox.containsKey 0) (by decide +kernel)
  simp only [Bool.and_eq_true] at hp
  obtain ⟨hsent, hrest⟩ := hp
  obtain ⟨x', hx', hp'⟩ := (Option.any_eq_true ..).mp hrest
  simp only [Bool.and_eq_true, Bool.not_eq_true'] at hp'
  obtain ⟨⟨⟨hfinished, hfailed⟩, hnone⟩, hgone⟩ := hp'
  obtain ⟨m, hm, -, -, hstatus⟩ := holdsCopy_of_shows hfailed
  refine ⟨x, _, x', hx, LTS.run_of_exec (fun _ _ _ _ h => step_of_plainNext h) hx', hfinished,
    holdsCopy_of_shows hsent, ?_, ⟨0, m, hm, hstatus⟩, hgone⟩
  rintro ⟨m', ⟨row, hrow, -⟩, -⟩
  rw [hrow] at hnone
  cases hnone

end IamRust
