import IamRust.L4Properties.ClientIds
import IamRust.L6Client.Outbox

/-!
# Once delivered

The server's record of client ids makes a repeated request harmless, and the
outbox keeps an entry until one has been answered. Client ids are UUIDs: those
of the composed messages are drawn nowhere else (`DrawnFor`, `Op.Apart`).

* `Sole`: on the server at most one message of the user has the client id of a
  composed message; it has that message's conversation and content, or is
  recalled.
* `OutboxTask.Sound`: what a call works on is composed, and stored once the
  server has answered.
* `outbox_delivers`: `Sole` in every run, and an entry of the outbox disappears
  only when the message is stored, is discarded or the cache is cleared.
-/
namespace IamRust

open Core

/-! ## The server's side -/

/-- The client ids of the composed messages are drawn for them and nothing else. -/
structure DrawnFor {ι : Type} (env : Env) (pending : ι → Message) : Prop where
  injective : Function.Injective fun i => (pending i).clientMessageId
  apart : ∀ i n, (pending i).clientMessageId ≠ env.uuid n

/-- What the user sends by other means has another client id. -/
def Op.Apart {ι : Type} (user : UserId) (pending : ι → Message) : Op → Prop
  | .sendMessageRequest actor _ request _ =>
    actor = user → ∀ i, request.clientMessageId ≠ (pending i).clientMessageId
  | _ => True

/-- The condition on the others. -/
def ApartStep {ι φ : Type} (user : UserId) (pending : ι → Message)
    (_ : OutboxState × (OutboxParty ι φ → OutboxTask)) (l : OutboxParty ι φ × OutboxStep) : Prop :=
  ∀ op, l.2 = .server op → op.Apart user pending

/-- `m` is the user's under the client id of the composed message. -/
def Message.IsOf (m : Message) (user : UserId) (pending : Message) : Prop :=
  m.senderId = user ∧ m.clientMessageId = pending.clientMessageId

/-- It has the conversation of the composed message, and its content unless it is recalled. -/
def Message.Carries (m pending : Message) : Prop :=
  m.conversationId = pending.conversationId ∧
    (m.content = pending.content ∨ m.status = .recalled)

/-- The server has stored the composed message, under this id and sequence. -/
def StoredFor (user : UserId) (pending : Message) (id : MessageId) (sequence : Nat) (w : World) :
    Prop :=
  ∃ c j m, w.messageAt c j = some m ∧ m.IsOf user pending ∧ m.id = id ∧
    m.sequence = some sequence

/-- A composed message is stored once, as it is, and is on record. -/
structure Sole {ι : Type} (user : UserId) (pending : ι → Message) (w : World) : Prop where
  carries : ∀ i c j m, w.messageAt c j = some m → m.IsOf user (pending i) → m.Carries (pending i)
  recorded : ∀ i c j m, w.messageAt c j = some m → m.IsOf user (pending i) →
    (w.messageDedup.get (user, (pending i).clientMessageId)).isSome = true
  once : ∀ i c j c' j' m m', w.messageAt c j = some m → w.messageAt c' j' = some m' →
    m.IsOf user (pending i) → m'.IsOf user (pending i) → c = c' ∧ j = j'

section
variable {ι : Type} {env : Env} {user : UserId} {pending : ι → Message} {w w' : World}
  {m m' p : Message} {id : MessageId} {sequence : Nat}

theorem Message.IsOf.before (h : m'.IsOf user p) (ha : m.Amends m') : m.IsOf user p :=
  ⟨ha.senderId_eq ▸ h.1, ha.clientMessageId_eq ▸ h.2⟩

theorem Message.IsOf.after (h : m.IsOf user p) (ha : m.Amends m') : m'.IsOf user p :=
  ⟨ha.senderId_eq.trans h.1, ha.clientMessageId_eq.trans h.2⟩

theorem Message.Carries.amends (h : m.Carries p) (ha : m.Amends m') : m'.Carries p := by
  refine ⟨ha.conversationId_eq.trans h.1, ?_⟩
  rcases ha with rfl | ⟨now, rfl⟩
  · exact h.2
  · exact .inr rfl

theorem Sole.same (h : Sole user pending w) (hm : Same .messages w w')
    (hd : Same .messageDedup w w') : Sole user pending w' := by
  have hd : w'.messageDedup = w.messageDedup := hd
  constructor
  · intro i c j m hat
    exact h.carries i c j m (Store.messageAt_eq hm c j ▸ hat)
  · intro i c j m hat
    rw [hd]
    exact h.recorded i c j m (Store.messageAt_eq hm c j ▸ hat)
  · intro i c j c' j' m m' hat hat'
    exact h.once i c j c' j' m m' (Store.messageAt_eq hm c j ▸ hat)
      (Store.messageAt_eq hm c' j' ▸ hat')

theorem Sole.amended (h : Sole user pending w) (ha : Amended w w')
    (hd : Same .messageDedup w w') : Sole user pending w' := by
  have hd : w'.messageDedup = w.messageDedup := hd
  constructor
  · intro i c j m hat hof
    obtain ⟨m₀, hat₀, he⟩ := ha.before hat
    exact (h.carries i c j m₀ hat₀ (hof.before he)).amends he
  · intro i c j m hat hof
    obtain ⟨m₀, hat₀, he⟩ := ha.before hat
    rw [hd]
    exact h.recorded i c j m₀ hat₀ (hof.before he)
  · intro i c j c' j' m m' hat hat' hof hof'
    obtain ⟨m₀, hat₀, he⟩ := ha.before hat
    obtain ⟨m₁, hat₁, he'⟩ := ha.before hat'
    exact h.once i c j c' j' m₀ m₁ hat₀ hat₁ (hof.before he) (hof'.before he')

/-- A new message of the user under such a client id is the first, carries the composed one and is
recorded. -/
theorem Sole.posted (h : Sole user pending w) (hp : Posted env w m w')
    (hd : ∀ key, (w.messageDedup.get key).isSome = true → (w'.messageDedup.get key).isSome = true)
    (hm : ∀ i, m.IsOf user (pending i) → m.Carries (pending i) ∧
      w.messageDedup.get (user, (pending i).clientMessageId) = none ∧
      (w'.messageDedup.get (user, (pending i).clientMessageId)).isSome = true) :
    Sole user pending w' := by
  have hnew : ∀ i c j m', w.messageAt c j = some m' → m'.IsOf user (pending i) →
      ¬ m.IsOf user (pending i) := by
    intro i c j m' hat hof hofm
    have hsome := h.recorded i c j m' hat hof
    rw [(hm i hofm).2.1] at hsome
    cases hsome
  constructor
  · intro i c j m' hat hof
    rcases hp.messageAt.mp hat with hat | ⟨-, -, rfl⟩
    · exact h.carries i c j m' hat hof
    · exact (hm i hof).1
  · intro i c j m' hat hof
    rcases hp.messageAt.mp hat with hat | ⟨-, -, rfl⟩
    · exact hd _ (h.recorded i c j m' hat hof)
    · exact (hm i hof).2.2
  · intro i c j c' j' m₁ m₂ h₁ h₂ hof₁ hof₂
    rcases hp.messageAt.mp h₁ with h₁ | ⟨rfl, rfl, rfl⟩ <;>
      rcases hp.messageAt.mp h₂ with h₂ | ⟨rfl, rfl, rfl⟩
    · exact h.once i c j c' j' m₁ m₂ h₁ h₂ hof₁ hof₂
    · exact absurd hof₂ (hnew i c j m₁ h₁ hof₁)
    · exact absurd hof₁ (hnew i c' j' m₂ h₂ hof₂)
    · exact ⟨rfl, rfl⟩

theorem Sole.recorded_new (h : Sole user pending w) (hr : Recorded env w m w')
    (hm : ∀ i, m.IsOf user (pending i) → m.Carries (pending i) ∧
      w.messageDedup.get (user, (pending i).clientMessageId) = none) : Sole user pending w' := by
  obtain ⟨s, -, hd⟩ := hr.dedup
  refine h.posted hr.toPosted (fun key hkey => ?_) fun i hof => ⟨(hm i hof).1, (hm i hof).2, ?_⟩
  · rw [hd, Map.get_insert]
    split
    · rfl
    · exact hkey
  · rw [hd, hof.1, hof.2, Map.get_insert_self]
    rfl

theorem sole_storage (hdrawn : DrawnFor env pending) : Storage env (Sole user pending) where
  same h hm hd _ := h.same hm hd
  amended h ha hd _ := h.amended ha hd
  noticed h hn := h.posted hn.toPosted (fun key hkey => by rw [hn.dedup]; exact hkey)
    fun i hof => absurd (hof.2.symm.trans hn.clientId) (hdrawn.apart i _)
  forwarded h hr hm := h.recorded_new hr fun i hof =>
    absurd (hof.2.symm.trans hm) (hdrawn.apart i _)

/-- **Step of the server.** What the user sends under the client id of a composed message is that
message. -/
theorem Sole.step (hdrawn : DrawnFor env pending) {op : Op} (hs : (op.run env).Runs w () w')
    (hop : ∀ c request now, op = .sendMessageRequest user c request now →
      ∀ i, request.clientMessageId = (pending i).clientMessageId →
        c = (pending i).conversationId ∧ request.content = (pending i).content)
    (h : Sole user pending w) : Sole user pending w' := by
  by_cases hsend : ∃ actor c request now, op = .sendMessageRequest actor c request now
  · obtain ⟨actor, c, request, now, rfl⟩ := hsend
    obtain ⟨⟨m, ack⟩, hr⟩ := Tx.runs_void.mp hs
    rcases sendMessageRequest_cases hr with ⟨-, -, -, -, rfl⟩ | ⟨hnone, hrec, -, hsender, hc,
      hclient, hcontent⟩
    · exact h
    · refine h.recorded_new hrec fun i hof => ?_
      obtain rfl : actor = user := hsender.symm.trans hof.1
      have hkey : request.clientMessageId = (pending i).clientMessageId := hclient.symm.trans hof.2
      obtain ⟨hci, hconti⟩ := hop c request now rfl i hkey
      exact ⟨⟨hc.trans hci, .inl (hcontent.trans hconti)⟩, hkey ▸ hnone⟩
  · have : Storage env (Sole user pending) := sole_storage hdrawn
    exact Storage.step hs (fun he _ _ _ _ _ => absurd ⟨_, _, _, _, he⟩ hsend) h

theorem storedFor_storage (env : Env) (user : UserId) (p : Message) (id : MessageId)
    (sequence : Nat) : Storage env (StoredFor user p id sequence) where
  same := by
    rintro w w' ⟨c, j, m, hat, h⟩ hm - -
    exact ⟨c, j, m, (Store.messageAt_eq hm c j).trans hat, h⟩
  amended := by
    rintro w w' ⟨c, j, m, hat, hof, hid, hseq⟩ ha - -
    obtain ⟨m', hat', he⟩ := ha.after hat
    exact ⟨c, j, m', hat', hof.after he, he.id_eq.trans hid, he.sequence_eq.trans hseq⟩
  noticed := by
    rintro w m' w' ⟨c, j, m, hat, h⟩ hn
    exact ⟨c, j, m, hn.messageAt_mono hat, h⟩
  forwarded := by
    rintro w m' w' ⟨c, j, m, hat, h⟩ hr -
    exact ⟨c, j, m, hr.messageAt_mono hat, h⟩

/-- A stored message stays. -/
theorem StoredFor.step {op : Op} (h : StoredFor user p id sequence w)
    (hs : (op.run env).Runs w () w') : StoredFor user p id sequence w' := by
  have := storedFor_storage env user p id sequence
  refine Storage.step hs (fun _ _ hrec _ _ h => ?_) h
  obtain ⟨c, j, m, hat, h⟩ := h
  exact ⟨c, j, m, hrec.messageAt_mono hat, h⟩

/-- What is acknowledged is stored. -/
theorem storedFor_of_send {c : ConversationId} {request : SendMessageRequest} {now : DateTime}
    {ack : MessageAck} (hd : Deduped w) (hk : request.clientMessageId = p.clientMessageId)
    (h : (sendMessageRequest env user c request now).Runs w (m, ack) w') :
    StoredFor user p ack.messageId ack.sequence w' := by
  rcases sendMessageRequest_cases h with ⟨e, he, -, rfl, rfl⟩ | ⟨-, hrec, hack, hsender, -,
    hclient, -⟩
  · obtain ⟨c', j, m', hat, hmatch⟩ := hd _ e he
    exact ⟨c', j, m', hat, ⟨hmatch.senderId, hmatch.clientMessageId.trans hk⟩, hmatch.id,
      hmatch.sequence⟩
  · exact ⟨_, _, m, hrec.messageAt_new, ⟨hsender, hclient.trans hk⟩, hack.messageId.symm,
      hack.sequence⟩

end

/-! ## The client's side -/

section
variable {ι : Type} (pending : ι → Message)

/-- The entry is a composed message's. -/
def Genuine (e : OutboxEntry) : Prop :=
  ∃ i, e.1 = (pending i).clientMessageId ∧ e.2.conversationId = (pending i).conversationId ∧
    e.2.payload = some (pending i).sendRequest

/-- The entries stay, and stay genuine. -/
structure Retains (s s' : Cache) : Prop where
  entries : ∀ id, s.outbox.containsKey id = true → s'.outbox.containsKey id = true
  genuine : (∀ id row, s.outbox.get id = some row → Genuine pending (id, row)) →
    ∀ id row, s'.outbox.get id = some row → Genuine pending (id, row)

/-- What a call holds: entries of composed messages, and of the message it works on that it is
composed, or stored. -/
def OutboxTask.Sound (user : UserId) (w : World) : OutboxTask → Prop
  | .idle | .done => True
  | .enqueueing p => ∃ i, p = pending i
  | .posting item c request => (∀ e ∈ item.rest, Genuine pending e) ∧
      ∃ i, item.clientMessageId = (pending i).clientMessageId ∧
        c = (pending i).conversationId ∧ request = (pending i).sendRequest
  | .answered item _ ack => (∀ e ∈ item.rest, Genuine pending e) ∧
      ∃ i, item.clientMessageId = (pending i).clientMessageId ∧
        StoredFor user (pending i) ack.messageId ack.sequence w
  | .marking item copy => (∀ e ∈ item.rest, Genuine pending e) ∧
      ∃ i, item.clientMessageId = (pending i).clientMessageId ∧
        ∃ sequence, copy.sequence = some sequence ∧
          StoredFor user (pending i) copy.id sequence w
  | .acknowledging item => (∀ e ∈ item.rest, Genuine pending e) ∧
      ∃ i, item.clientMessageId = (pending i).clientMessageId ∧
        ∃ id sequence, StoredFor user (pending i) id sequence w
  | .failing item _ | .counting item | .rescheduling item _ => ∀ e ∈ item.rest, Genuine pending e

/-- The server, reached and with each composed message once; the entries and the late requests are
of composed messages. -/
structure OutboxShared (env : Env) (user : UserId) (s : OutboxState) : Prop where
  reachable : (service env).Reachable s.world
  sole : Sole user pending s.world
  genuine : ∀ id row, s.cache.outbox.get id = some row → Genuine pending (id, row)
  late : ∀ r ∈ s.late, ∃ i, r = ((pending i).conversationId, (pending i).sendRequest)

end

section
variable {ι : Type} {pending : ι → Message} {rfc3339 : DateTime → String} {keyed : Bool}
  {env : Env} {user : UserId} {s s' : OutboxState} {w w' : World} {t t' : OutboxTask}
  {item : OutboxItem}

instance : IsPreorder Cache (Retains pending) where
  refl _ := ⟨fun _ h => h, fun h => h⟩
  trans _ _ _ h₁ h₂ := ⟨fun id h => h₂.entries id (h₁.entries id h),
    fun h => h₂.genuine (h₁.genuine h)⟩

theorem Retains.of_eq {s s' : Cache} (h : s'.outbox = s.outbox) : Retains pending s s' :=
  ⟨fun _ => by rw [h]; exact id, fun hs => by rw [h]; exact hs⟩

theorem retains_cacheMessages (message : Message) (s : Cache) :
    Retains pending s ((cacheMessages rfc3339 keyed [message]).commit s).2 := by
  rw [cacheMessages_commit]
  split
  · exact .of_eq rfl
  · exact refl s

theorem retains_modify {s : Cache} {id : MessageId}
    {f : OutboxRow (Option SendMessageRequest) → OutboxRow (Option SendMessageRequest)}
    (hf : ∀ row, (f row).conversationId = row.conversationId ∧ (f row).payload = row.payload) :
    Retains pending s { s with outbox := s.outbox.modify id f } where
  entries _ h := Map.containsKey_modify.trans h
  genuine h := by
    intro id' row hrow
    rw [Map.get_modify] at hrow
    split at hrow
    · obtain ⟨old, hold, rfl⟩ := Option.map_eq_some_iff.mp hrow
      obtain ⟨i, hid, hc, hp⟩ := h id' old hold
      exact ⟨i, hid, (hf old).1.trans hc, (hf old).2.trans hp⟩
    · exact h id' row hrow

instance retains_reschedule {id : MessageId} {code : String} {attempts random : Nat}
    {now : DateTime} : Tx.Keeps (Retains pending)
      (rescheduleOutbox rfc3339 id code attempts random now : Tx String Cache Unit) :=
  Tx.keeps_modify fun _ => retains_modify fun _ => ⟨rfl, rfl⟩

instance retains_retry {id : MessageId} {now : DateTime} : Tx.Keeps (Retains pending)
    (retryOutboxNow rfc3339 id now : Tx String Cache Unit) where
  runs {s u s'} h := by
    simp only [retryOutboxNow, Tx.runs_get_bind, Tx.runs_failIf_bind, Tx.runs_modify] at h
    obtain ⟨-, rfl⟩ := h
    exact retains_modify fun _ => ⟨rfl, rfl⟩

/-- A composed message is enqueued: its entry is new, or was its own. -/
theorem retains_enqueue (hdrawn : Function.Injective fun i => (pending i).clientMessageId) {i : ι}
    {now : DateTime} : Tx.Keeps (Retains pending)
      (enqueueOutbox rfc3339 (pending i).clientMessageId (pending i).conversationId
        (some (pending i).sendRequest) now : Tx String Cache Unit) where
  runs {s u s'} h := by
    obtain ⟨-, rfl⟩ := enqueueOutbox_runs.mp h
    refine ⟨fun id hid => ?_, fun hs id row hrow => ?_⟩
    · exact Map.containsKey_insert.mpr (.inr hid)
    · rw [Map.get_insert] at hrow
      split at hrow
      · cases hrow
        subst_vars
        refine ⟨i, rfl, ?_, ?_⟩
        · unfold LocalStore.enqueued
          split
          · rename_i old hold
            obtain ⟨j, hj, hc, -⟩ := hs _ old hold
            rw [hdrawn hj]
            exact hc
          · rfl
        · unfold LocalStore.enqueued
          split <;> rfl
      · exact hs id row hrow

/-! ## Calls -/

theorem OutboxTask.Sound.mono (h : t.Sound pending user w)
    (hw : ∀ p id sequence, StoredFor user p id sequence w → StoredFor user p id sequence w') :
    t.Sound pending user w' := by
  cases t with
  | answered =>
    obtain ⟨hrest, i, hid, hstored⟩ := h
    exact ⟨hrest, i, hid, hw _ _ _ hstored⟩
  | marking =>
    obtain ⟨hrest, i, hid, sequence, hseq, hstored⟩ := h
    exact ⟨hrest, i, hid, sequence, hseq, hw _ _ _ hstored⟩
  | acknowledging =>
    obtain ⟨hrest, i, hid, id, sequence, hstored⟩ := h
    exact ⟨hrest, i, hid, id, sequence, hw _ _ _ hstored⟩
  | _ => exact h

theorem begin_sound {l : List OutboxEntry} (h : ∀ e ∈ l, Genuine pending e) :
    (OutboxTask.begin l).Sound pending user w := by
  cases l with
  | nil => exact trivial
  | cons e rest =>
    obtain ⟨id, row⟩ := e
    obtain ⟨i, hid, hc, hp⟩ := h _ List.mem_cons_self
    dsimp only at hid hc hp
    have hkey : (pending i).sendRequest.clientMessageId = id := hid.symm
    simp only [OutboxTask.begin, hp, hkey, if_true]
    exact ⟨fun e he => h e (List.mem_cons_of_mem _ he), i, hid, hc, rfl⟩

theorem after_sound (h : ∀ e ∈ item.rest, Genuine pending e) :
    item.after.Sound pending user w := by
  unfold OutboxItem.after
  split
  · exact trivial
  · exact begin_sound h

theorem failed_sound (h : ∀ e ∈ item.rest, Genuine pending e) :
    item.failed.Sound pending user w := by
  unfold OutboxItem.failed
  split <;> exact h

/-- A copy that was marked has the id and sequence it was marked with. -/
theorem Message.markSent_ok {m copy : Message} {sequence : Nat} {now : DateTime}
    (h : m.markSent sequence now = .ok copy) :
    copy = { m with sequence := some sequence, serverCreatedAt := some now, status := .sent } ∧
      (m.status = .pending ∨ m.status = .failed) := by
  unfold Message.markSent at h
  split at h
  · cases h
  · cases h
    exact ⟨rfl, by by_contra hc; simp_all⟩

theorem marked_sound {c : ConversationId} {ack : MessageAck} {cache : Cache} {ok : Bool}
    (h : (OutboxTask.answered item c ack).Sound pending user w) :
    (item.marked cache c ack ok).Sound pending user w := by
  obtain ⟨hrest, i, hid, hstored⟩ := h
  have hmarking : ∀ m copy : Message,
      ({ m with id := ack.messageId }).markSent ack.sequence ack.serverTime = .ok copy →
      (OutboxTask.marking item copy).Sound pending user w := by
    intro m copy hcopy
    obtain ⟨rfl, -⟩ := Message.markSent_ok hcopy
    exact ⟨hrest, i, hid, ack.sequence, rfl, hstored⟩
  have hacknowledging : (OutboxTask.acknowledging item).Sound pending user w :=
    ⟨hrest, i, hid, _, _, hstored⟩
  unfold OutboxItem.marked
  split
  · split
    · exact hmarking _ _ ‹_›
    · exact trivial
  · split
    · split
      · exact hmarking _ _ ‹_›
      · exact hacknowledging
    · exact hacknowledging

/-! ## Steps -/

variable (pending env user) in
/-- What a step does: the invariant of the shared state is kept, what is stored stays, and of the
entries only those that are `gone` disappear. -/
structure OutboxMoves (gone : MessageId → Prop) (s s' : OutboxState) : Prop where
  shared : OutboxShared pending env user s → OutboxShared pending env user s'
  stored : ∀ p id sequence, StoredFor user p id sequence s.world →
    StoredFor user p id sequence s'.world
  entries : ∀ id, s.cache.outbox.containsKey id = true →
    s'.cache.outbox.containsKey id = true ∨ gone id

section
variable {gone : MessageId → Prop}

theorem OutboxMoves.refl : OutboxMoves pending env user gone s s :=
  ⟨id, fun _ _ _ => id, fun _ => .inl⟩

theorem OutboxMoves.mono {gone' : MessageId → Prop} (h : OutboxMoves pending env user gone s s')
    (hgone : ∀ id, gone id → gone' id) : OutboxMoves pending env user gone' s s' :=
  ⟨h.shared, h.stored, fun id hid => (h.entries id hid).imp_right (hgone id)⟩

theorem moves_cache {cache : Cache} (h : Retains pending s.cache cache) :
    OutboxMoves pending env user gone s { s with cache := cache } where
  shared hs := ⟨hs.reachable, hs.sole, h.genuine hs.genuine, hs.late⟩
  stored _ _ _ := id
  entries id hid := .inl (h.entries id hid)

theorem moves_commit {t : Tx String Cache Unit} {ok : Bool}
    (h : Retains pending s.cache (t.commit s.cache).2) :
    OutboxMoves pending env user gone s (s.commit ok t) := by
  unfold OutboxState.commit
  split
  · exact moves_cache h
  · exact .refl

/-- An entry is removed. -/
theorem moves_removed {t : Tx String Cache Unit} {ok : Bool} {id : MessageId} {cache : Cache}
    (ht : t.Runs s.cache () cache) (ho : cache.outbox = s.cache.outbox.remove id)
    (hgone : gone id) : OutboxMoves pending env user gone s (s.commit ok t) := by
  unfold OutboxState.commit
  split
  · rw [Tx.commit_of_runs ht]
    refine ⟨fun hs => ⟨hs.reachable, hs.sole, fun id' row hrow => ?_, hs.late⟩, fun _ _ _ h => h,
      fun id' hid => ?_⟩
    · change cache.outbox.get id' = some row at hrow
      rw [ho] at hrow
      exact hs.genuine id' row (Map.get_of_remove hrow)
    · change cache.outbox.containsKey id' = true ∨ gone id'
      by_cases he : id' = id
      · exact .inr (he ▸ hgone)
      · rw [ho]
        exact .inl (Map.containsKey_remove.mpr ⟨he, hid⟩)
  · exact .refl

theorem moves_late {i : ι} : OutboxMoves pending env user gone s
    { s with late := ((pending i).conversationId, (pending i).sendRequest) :: s.late } where
  shared h := ⟨h.reachable, h.sole, h.genuine, fun r hr => by
    rcases List.mem_cons.mp hr with rfl | hr
    · exact ⟨i, rfl⟩
    · exact h.late r hr⟩
  stored _ _ _ := id
  entries _ := .inl

/-- The server takes an operation. -/
theorem moves_server (op : Op) (hdrawn : DrawnFor env pending) (hs : (op.run env).Runs s.world () w)
    (hop : ∀ c request now, op = .sendMessageRequest user c request now →
      ∀ i, request.clientMessageId = (pending i).clientMessageId →
        c = (pending i).conversationId ∧ request.content = (pending i).content) :
    OutboxMoves pending env user gone s { s with world := w } where
  shared h := ⟨h.reachable.step hs, h.sole.step hdrawn hs hop, h.genuine, h.late⟩
  stored _ _ _ h := h.step hs
  entries _ := .inl

/-- The server takes the request of a composed message, or refuses it. -/
theorem moves_send (hdrawn : DrawnFor env pending) (i : ι) (now : DateTime) :
    OutboxMoves pending env user gone s { s with world :=
      ((sendMessageRequest env user (pending i).conversationId (pending i).sendRequest
        now).commit s.world).2 } := by
  unfold Tx.commit
  split
  · rename_i r w hr
    refine moves_server (.sendMessageRequest user _ _ now) hdrawn
      (Tx.runs_void.mpr ⟨r, hr⟩) fun c request now' he j hj => ?_
    cases he
    obtain rfl : i = j := hdrawn.injective hj
    exact ⟨rfl, rfl⟩
  · exact .refl

/-- A call's own step. -/
theorem next_moves (hdrawn : DrawnFor env pending) {start : Option Message}
    (hstart : ∀ p, start = some p → ∃ i, p = pending i) {ok : Bool} {random : Nat} {now : DateTime}
    (hs : OutboxShared pending env user s) (ht : t.Sound pending user s.world)
    (h : t.next rfc3339 keyed start s ok random now = some (s', t')) :
    OutboxMoves pending env user
        (fun id => ∃ item, t = .acknowledging item ∧ item.clientMessageId = id) s s' ∧
      t'.Sound pending user s.world := by
  cases t with
  | idle =>
    simp only [OutboxTask.next] at h
    split at h
    · cases h
      exact ⟨moves_commit (retains_cacheMessages _ _), hstart _ rfl⟩
    · cases h
      refine ⟨.refl, ?_⟩
      split
      · refine begin_sound fun e he => ?_
        have he := List.mem_of_mem_take he
        rw [List.mem_insertionSort] at he
        exact hs.genuine e.1 e.2 (Map.mem_entries.mp (List.mem_of_mem_filter he))
      · exact trivial
  | enqueueing p =>
    obtain ⟨i, rfl⟩ := ht
    cases h
    exact ⟨moves_commit ((retains_enqueue hdrawn.injective).commit _),
      fun _ he => absurd he List.not_mem_nil, i, rfl, rfl, rfl⟩
  | posting => cases h
  | answered item c ack =>
    cases h
    exact ⟨.refl, marked_sound ht⟩
  | marking item copy =>
    cases h
    obtain ⟨hrest, i, hid, sequence, -, hstored⟩ := ht
    exact ⟨moves_commit (retains_cacheMessages _ _), hrest, i, hid, _, sequence, hstored⟩
  | acknowledging item =>
    cases h
    exact ⟨moves_removed (Tx.runs_modify.mpr rfl) rfl ⟨item, rfl, rfl⟩, after_sound ht.1⟩
  | failing item copy =>
    cases h
    exact ⟨moves_commit (retains_cacheMessages _ _), ht⟩
  | counting item =>
    simp only [OutboxTask.next] at h
    split at h <;> cases h
    · exact ⟨.refl, ht⟩
    · exact ⟨.refl, after_sound ht⟩
  | rescheduling item attempts =>
    cases h
    exact ⟨moves_commit (Tx.Keeps.commit retains_reschedule _), after_sound ht⟩
  | done => cases h

theorem answer_moves (hdrawn : DrawnFor env pending) {now : DateTime}
    (hs : OutboxShared pending env user s) (ht : t.Sound pending user s.world)
    (h : t.answer env user s now = some (s', t')) :
    OutboxMoves pending env user gone s s' ∧ t'.Sound pending user s'.world := by
  cases t with
  | posting item c request =>
    obtain ⟨hrest, i, hid, rfl, rfl⟩ := ht
    cases h
    refine ⟨moves_send hdrawn i now, ?_⟩
    dsimp only
    split
    · rename_i a ha
      unfold Tx.commit at ha ⊢
      split at ha
      · rename_i a' w hr
        cases ha
        exact ⟨hrest, i, hid, storedFor_of_send (reachable_deduped hs.reachable) rfl hr⟩
      · cases ha
    · exact failed_sound hrest
  | _ => cases h

theorem lose_moves (ht : t.Sound pending user s.world) (h : t.lose s = some (s', t')) :
    OutboxMoves pending env user gone s s' ∧ t'.Sound pending user s'.world := by
  cases t with
  | posting item c request =>
    obtain ⟨hrest, i, -, rfl, rfl⟩ := ht
    cases h
    exact ⟨moves_late, failed_sound hrest⟩
  | answered item c ack =>
    cases h
    exact ⟨.refl, failed_sound ht.1⟩
  | _ => cases h

theorem restart_moves {start : Option Message} (ht : t.Sound pending user s.world) :
    OutboxMoves pending env user gone s (t.restart start s).1 ∧
      (t.restart start s).2.Sound pending user w := by
  constructor
  · cases t with
    | posting item c request =>
      obtain ⟨hrest, i, -, rfl, rfl⟩ := ht
      exact moves_late
    | _ => exact .refl
  · unfold OutboxTask.restart
    dsimp only
    split <;> exact trivial

theorem task_moves (hdrawn : DrawnFor env pending) {start : Option Message}
    (hstart : ∀ p, start = some p → ∃ i, p = pending i) {l : OutboxStep}
    (hs : OutboxShared pending env user s) (ht : t.Sound pending user s.world)
    (h : t.step env user rfc3339 keyed start s l = some (s', t')) :
    OutboxMoves pending env user
        (fun id => ∃ item, t = .acknowledging item ∧ item.clientMessageId = id) s s' ∧
      t'.Sound pending user s'.world := by
  cases l with
  | next ok random now =>
    obtain ⟨hmoves, hsound⟩ := next_moves hdrawn hstart hs ht h
    exact ⟨hmoves, hsound.mono hmoves.stored⟩
  | answer now => exact answer_moves hdrawn hs ht h
  | lose => exact lose_moves ht h
  | restart =>
    cases h
    exact restart_moves ht
  | _ => cases h

/-- What the others do: the user discards a message or clears the cache. -/
theorem others_moves (hdrawn : DrawnFor env pending) {l : OutboxStep}
    (hop : ∀ op, l = .server op → op.Apart user pending) (hs : OutboxShared pending env user s)
    (h : s.others env user rfc3339 l = some s') :
    OutboxMoves pending env user (fun id => l = .discard id ∨ l = .clear) s s' := by
  cases l with
  | server op =>
    cases h
    unfold Tx.commit
    split
    · refine moves_server op hdrawn ‹_› fun c request now he i hi => ?_
      subst he
      exact absurd hi (hop _ rfl rfl i)
    · exact .refl
  | late j now =>
    simp only [OutboxState.others] at h
    split at h
    · cases h
    · rename_i c request hj
      cases h
      obtain ⟨i, hi⟩ := hs.late _ (List.mem_of_getElem? hj)
      cases hi
      have hsend : OutboxMoves pending env user (fun id => OutboxStep.late j now = .discard id ∨
          OutboxStep.late j now = .clear) s _ := moves_send hdrawn i now
      refine ⟨fun hs => ?_, hsend.stored, hsend.entries⟩
      have hs' := hsend.shared hs
      exact ⟨hs'.reachable, hs'.sole, hs'.genuine, fun r hr =>
        hs.late r (List.mem_of_mem_eraseIdx hr)⟩
  | retry id now =>
    cases h
    exact moves_commit (Tx.Keeps.commit retains_retry _)
  | discard id =>
    cases h
    exact moves_removed (Tx.runs_modify.mpr rfl) rfl (.inl rfl)
  | clear =>
    cases h
    refine ⟨fun hs => ⟨hs.reachable, hs.sole, fun id row hrow => ?_, hs.late⟩, fun _ _ _ => id,
      fun _ _ => .inr (.inr rfl)⟩
    change Map.empty.get id = some row at hrow
    rw [Map.get_empty] at hrow
    cases hrow
  | write f =>
    cases h
    exact moves_cache (.of_eq rfl)
  | _ => cases h

end

/-! ## Runs -/

variable {φ : Type}

/-- What a step of any party does. -/
theorem party_moves (hdrawn : DrawnFor env pending) {p : OutboxParty ι φ} {l : OutboxStep}
    (hop : ∀ op, l = .server op → op.Apart user pending) (hs : OutboxShared pending env user s)
    (ht : t.Sound pending user s.world)
    (h : (sendingOutbox (φ := φ) env user rfc3339 keyed pending).step p s t l = some (s', t')) :
    OutboxMoves pending env user (fun id => (∃ item, t = .acknowledging item ∧
        item.clientMessageId = id) ∨ l = .discard id ∨ l = .clear) s s' ∧
      t'.Sound pending user s'.world := by
  cases p with
  | sender i =>
    have hstart : ∀ p, some (pending i) = some p → ∃ i, p = pending i :=
      fun p hp => ⟨i, (Option.some.inj hp).symm⟩
    obtain ⟨hmoves, hsound⟩ := task_moves hdrawn hstart hs ht h
    exact ⟨hmoves.mono fun id => .inl, hsound⟩
  | flush f =>
    have hstart : ∀ p, (none : Option Message) = some p → ∃ i, p = pending i := fun p hp => by
      cases hp
    obtain ⟨hmoves, hsound⟩ := task_moves hdrawn hstart hs ht h
    exact ⟨hmoves.mono fun id => .inl, hsound⟩
  | others =>
    obtain ⟨s₁, hs₁, he⟩ := Option.map_eq_some_iff.mp h
    cases he
    have hmoves := others_moves hdrawn hop hs hs₁
    exact ⟨hmoves.mono fun id => .inr, ht.mono hmoves.stored⟩

variable [DecidableEq ι] [DecidableEq φ]

theorem outbox_inductive (user : UserId) (rfc3339 : DateTime → String) (keyed : Bool)
    (hdrawn : DrawnFor env pending) :
    ((sendingOutbox (φ := φ) env user rfc3339 keyed pending).lts.restrict
      (ApartStep user pending)).Inductive
      (Threads.Holds (OutboxShared pending env user) (fun s t => t.Sound pending user s.world)
        fun _ _ => True) := by
  refine Threads.holds_inductive ?_ (fun _ _ h => h) ?_ ?_
  · rintro ⟨s, f⟩ ⟨hworld, houtbox, hlate, hidle⟩
    refine ⟨⟨hworld ▸ .init rfl, ?_, ?_, ?_⟩, fun p => ?_, fun _ _ _ => trivial⟩
    · rw [hworld]
      exact ⟨fun _ _ _ _ h => absurd h not_messageAt_init,
        fun _ _ _ _ h => absurd h not_messageAt_init,
        fun _ _ _ _ _ _ _ h => absurd h not_messageAt_init⟩
    · intro id row hrow
      rw [houtbox, Map.get_empty] at hrow
      cases hrow
    · intro r hr
      rw [hlate] at hr
      cases hr
    · rw [hidle p]
      exact trivial
  · intro x p l s' t' hok hs ht hstep
    obtain ⟨hmoves, hsound⟩ := party_moves hdrawn hok hs ht hstep
    exact ⟨hmoves.shared hs, hsound⟩
  · intro x p l s' t' q hok _ hs ht hq _ hstep
    exact ⟨hq.mono (party_moves hdrawn hok hs ht hstep).1.stored, trivial⟩

/-- **The outbox delivers once and drops nothing.** In every run the server has at most one message
of the user under the client id of a composed message, and it carries it; and an entry disappears
only when it is discarded, the cache is cleared, or its message is stored. -/
theorem outbox_delivers (env : Env) (user : UserId) (pending : ι → Message)
    (hdrawn : DrawnFor env pending) (x : OutboxState × (OutboxParty ι φ → OutboxTask))
    (hx : ((sendingOutbox env user rfc3339 keyed pending).lts.restrict
      (ApartStep user pending)).Reachable x) :
    Sole user pending x.1.world ∧
    ∀ l x', ((sendingOutbox env user rfc3339 keyed pending).lts.restrict
        (ApartStep user pending)).step x l x' →
      ∀ id, x.1.cache.outbox.containsKey id = true → x'.1.cache.outbox.containsKey id = false →
        l.2 = .discard id ∨ l.2 = .clear ∨ ∃ i c j m, id = (pending i).clientMessageId ∧
          x'.1.world.messageAt c j = some m ∧ m.IsOf user (pending i) ∧ m.Carries (pending i) := by
  have hholds := (outbox_inductive user rfc3339 keyed hdrawn).reachable hx
  refine ⟨hholds.shared.sole, fun l x' hstep id hid hid' => ?_⟩
  have hholds' := (outbox_inductive user rfc3339 keyed hdrawn).reachable (hx.step hstep)
  obtain ⟨hok, t', hstep, hx'⟩ := hstep
  have ht := hholds.thread l.1
  obtain ⟨hmoves, -⟩ := party_moves hdrawn hok hholds.shared ht hstep
  rcases hmoves.entries id hid with hkept | ⟨item, hitem, rfl⟩ | hgone
  · rw [hid'] at hkept
    cases hkept
  · rw [hitem] at ht
    obtain ⟨-, i, hi, _, _, hstored⟩ := ht
    obtain ⟨c, j, m, hat, hof, -, -⟩ := hmoves.stored _ _ _ hstored
    exact .inr (.inr ⟨i, c, j, m, hi, hat, hof, hholds'.shared.sole.carries i c j m hat hof⟩)
  · exact hgone.imp_right .inl

end

/-! ## A lost answer -/

/-- Alice's text for Bob, under the client id 0, which `Env.numbered` does not draw. -/
def hiToBob : Message where
  id := 0
  clientMessageId := 0
  conversationId := 9
  senderId := 1
  sequence := none
  content := .text "hi"
  status := .pending
  replyTo := none
  mentions := []
  mentionAll := false
  createdAt := 0
  serverCreatedAt := none
  editedAt := none

theorem hiToBob_drawn : DrawnFor Env.numbered fun _ : Unit => hiToBob where
  injective _ _ _ := rfl
  apart _ _ h := by cases h

def emptyOutbox : OutboxState where
  world := World.init
  cache := { conversations := Map.empty.insert 9 () }
  late := []

def hiSending : Threads (OutboxParty Unit Unit) OutboxState OutboxTask OutboxStep :=
  sendingOutbox Env.numbered 1 (fun _ => "") false fun _ => hiToBob

/-- Nobody else sends. -/
def nobodySends (_ : OutboxState × (OutboxParty Unit Unit → OutboxTask))
    (l : OutboxParty Unit Unit × OutboxStep) : Bool :=
  match l.2 with
  | .server (.sendMessageRequest _ _ _ _) => false
  | _ => true

theorem nobodySends_apart (x : OutboxState × (OutboxParty Unit Unit → OutboxTask))
    (l : OutboxParty Unit Unit × OutboxStep) (h : nobodySends x l = true) :
    ApartStep 1 (fun _ => hiToBob) x l := by
  intro op hop
  cases op with
  | sendMessageRequest => simp [nobodySends, hop] at h
  | _ => exact trivial

/-- The server stores the text, its answer is lost and the client restarts; a flush sends it again,
is answered from the record, and removes the entry. -/
theorem outbox_delivers_after_restart : ∃ x x',
    (hiSending.lts.restrict (ApartStep 1 fun _ => hiToBob)).Reachable x ∧
    hiSending.lts.step x (.flush (), .next true 0 0) x' ∧
    x.1.cache.outbox.containsKey 0 = true ∧ x'.1.cache.outbox.containsKey 0 = false ∧
    Sole 1 (fun _ : Unit => hiToBob) x'.1.world ∧
    ∃ c j m, x'.1.world.messageAt c j = some m ∧ m.IsOf 1 hiToBob ∧ m.Carries hiToBob := by
  obtain ⟨x, hx, hp⟩ := Threads.reaches_checked hiSending nobodySends_apart
    (emptyOutbox, fun _ => .idle) ⟨rfl, rfl, rfl, fun _ => rfl⟩
    (aliceAndBob.map (fun op => (.others, .server op)) ++
      [(.sender (), .next true 0 0), (.sender (), .next true 0 0), (.sender (), .answer 0),
        (.sender (), .lose), (.sender (), .restart), (.flush (), .next true 0 0),
        (.flush (), .answer 5), (.flush (), .next true 0 0), (.flush (), .next true 0 0)])
    (fun x => x.1.cache.outbox.containsKey 0 &&
      (hiSending.next x (.flush (), .next true 0 0)).any fun x' =>
        !x'.1.cache.outbox.containsKey 0) (by decide +kernel)
  simp only [Bool.and_eq_true] at hp
  obtain ⟨hentry, hnext⟩ := hp
  obtain ⟨x', hx', hgone⟩ := (Option.any_eq_true ..).mp hnext
  have hgone : x'.1.cache.outbox.containsKey 0 = false := by simpa using hgone
  have hstep := Threads.step_of_next hx'
  have hok : ApartStep 1 (fun _ => hiToBob) x (.flush (), .next true 0 0) := fun op hop => by
    cases hop
  obtain ⟨-, hdisappears⟩ := outbox_delivers Env.numbered 1 _ hiToBob_drawn x hx
  obtain ⟨hsole, -⟩ := outbox_delivers Env.numbered 1 _ hiToBob_drawn x' (hx.step ⟨hok, hstep⟩)
  rcases hdisappears _ x' ⟨hok, hstep⟩ 0 hentry hgone with h | h | ⟨-, c, j, m, -, hat, hof, hm⟩
  · cases h
  · cases h
  · exact ⟨x, x', hx, hstep, hentry, hgone, hsole, c, j, m, hat, hof, hm⟩

end IamRust
