import IamRust.L6Client.Delivered

/-!
# Copies of a composed message

The cache holds at most one copy of a message for a sender and a client id: the
composed one, a failed one, or one with the id and sequence of the server.

* `HoldsCopy`: the copy of a composed message in the cache.
* `holdsCopy_cached`: behind a write it is what was written, and the copies of
  the other messages are what they were.
-/
namespace IamRust

open Core

/-- The composed messages, as `Message::pending` makes them; their ids are drawn for them. -/
structure Composed {ι : Type} (env : Env) (pending : ι → Message) : Prop
    extends DrawnFor env pending where
  idInjective : Function.Injective fun i => (pending i).id
  idApart : ∀ i n, (pending i).id ≠ env.uuid n
  status : ∀ i, (pending i).status = .pending
  sequence : ∀ i, (pending i).sequence = none

/-! ## Copies -/

/-- The cache holds `m` under `id` for the sender and client id of the composed message. -/
def HoldsCopy (s : Cache) (p : Message) (id : MessageId) (m : Message) : Prop :=
  ∃ row, s.messages.get id = some row ∧ row.senderId = p.senderId ∧
    row.clientMessageId = p.clientMessageId ∧ row.payload = m

/-- With the server's id and sequence. -/
def HoldsSent (s : Cache) (p : Message) (id : MessageId) (sequence : Nat) : Prop :=
  ∃ m, HoldsCopy s p id m ∧ m.id = id ∧ m.sequence = some sequence ∧ m.status = .sent

def HoldsFailed (s : Cache) (p : Message) : Prop :=
  ∃ id m, HoldsCopy s p id m ∧ m.status = .failed

def HasCopy (s : Cache) (p : Message) : Prop := ∃ id m, HoldsCopy s p id m

/-- A copy: as it was composed, or failed, or with the id and sequence the server has stored. -/
structure CopyOf (user : UserId) (p : Message) (w : World) (m : Message) : Prop where
  senderId : m.senderId = p.senderId
  clientMessageId : m.clientMessageId = p.clientMessageId
  conversationId : m.conversationId = p.conversationId
  state : m.id = p.id ∧ m.sequence = none ∧ (m.status = .pending ∨ m.status = .failed) ∨
    m.status = .sent ∧ ∃ sequence, m.sequence = some sequence ∧
      StoredFor user p m.id sequence w

/-- The cached messages are copies of composed messages, each of one. -/
structure CacheOf {ι : Type} (user : UserId) (pending : ι → Message) (w : World) (s : Cache) :
    Prop where
  rows : ∀ id row, s.messages.get id = some row → ∃ i, row.senderId = (pending i).senderId ∧
    row.clientMessageId = (pending i).clientMessageId ∧
    row.conversationId = (pending i).conversationId ∧ row.payload.id = id ∧
    CopyOf user (pending i) w row.payload
  single : ∀ i id id' m m', HoldsCopy s (pending i) id m → HoldsCopy s (pending i) id' m' →
    id = id'

section
variable {ι : Type} {env : Env} {user : UserId} {pending : ι → Message} {w w' : World}
  {s : Cache} {i j : ι} {id : MessageId} {m copy : Message}

/-- The id of a copy says whose it is. -/
theorem CopyOf.index (hc : Composed env pending) (ht : Timelines env w)
    (h : CopyOf user (pending i) w m) (h' : CopyOf user (pending j) w copy) (hid : m.id = copy.id) :
    i = j := by
  have hdrawn : ∀ {k k' : ι} {m : Message} {seq : Nat}, StoredFor user (pending k) m.id seq w →
      m.id ≠ (pending k').id := by
    rintro k k' m seq ⟨c, n, m', hat, -, hm', -⟩ he
    obtain ⟨d, -, hd⟩ := ht.drawn hat
    exact hc.idApart k' d (he.symm.trans (hm'.symm.trans hd))
  rcases h.state with ⟨hi, -, -⟩ | ⟨-, seq, -, hi⟩ <;>
    rcases h'.state with ⟨hj, -, -⟩ | ⟨-, seq', -, hj⟩
  · exact hc.idInjective (hi.symm.trans (hid.trans hj))
  · exact absurd (hid.symm.trans hi) (hdrawn hj)
  · exact absurd (hid.trans hj) (hdrawn hi)
  · -- one stored message, which has one client id
    obtain ⟨c, n, m₁, hat₁, hof₁, hid₁, -⟩ := hi
    obtain ⟨c', n', m₂, hat₂, hof₂, hid₂, -⟩ := hj
    obtain ⟨rfl, rfl⟩ := ht.unique hat₁ hat₂ (hid₁.trans (hid.trans hid₂.symm))
    cases hat₁.symm.trans hat₂
    exact hc.injective (hof₁.2.symm.trans hof₂.2)

theorem CopyOf.mono (h : CopyOf user (pending i) w m)
    (hw : ∀ p id sequence, StoredFor user p id sequence w → StoredFor user p id sequence w') :
    CopyOf user (pending i) w' m where
  senderId := h.senderId
  clientMessageId := h.clientMessageId
  conversationId := h.conversationId
  state := h.state.imp_right fun ⟨hs, sequence, hseq, hstored⟩ =>
    ⟨hs, sequence, hseq, hw _ _ _ hstored⟩

theorem CacheOf.mono (h : CacheOf user pending w s)
    (hw : ∀ p id sequence, StoredFor user p id sequence w → StoredFor user p id sequence w') :
    CacheOf user pending w' s where
  rows id row hrow := by
    obtain ⟨i, hs, hk, hc, hid, hcopy⟩ := h.rows id row hrow
    exact ⟨i, hs, hk, hc, hid, hcopy.mono hw⟩
  single := h.single

/-- What is held for a composed message is a copy of it. -/
theorem CacheOf.copyOf (hc : Composed env pending) (h : CacheOf user pending w s)
    (hm : HoldsCopy s (pending i) id m) : m.id = id ∧ CopyOf user (pending i) w m := by
  obtain ⟨row, hrow, -, hk, rfl⟩ := hm
  obtain ⟨j, -, hkj, -, hid, hcopy⟩ := h.rows id row hrow
  obtain rfl : i = j := hc.injective (hk.symm.trans hkj)
  exact ⟨hid, hcopy⟩

/-- The row a copy is written to. -/
theorem CacheOf.row (rfc3339 : DateTime → String) (hc : Composed env pending)
    (ht : Timelines env w) (h : CacheOf user pending w s)
    (hcopy : CopyOf user (pending i) w copy) :
    ((s.supersede copy).row rfc3339 copy copy).senderId = (pending i).senderId ∧
      ((s.supersede copy).row rfc3339 copy copy).clientMessageId = (pending i).clientMessageId ∧
      ((s.supersede copy).row rfc3339 copy copy).conversationId = (pending i).conversationId ∧
      ((s.supersede copy).row rfc3339 copy copy).payload = copy := by
  unfold LocalStore.row
  split
  · rename_i row hrow
    obtain ⟨j, hs, hk, hconv, hid, hj⟩ := h.rows copy.id row (Map.get_of_retain hrow)
    obtain rfl : j = i := hj.index hc ht hcopy hid
    exact ⟨hs, hk, hconv, rfl⟩
  · exact ⟨hcopy.senderId, hcopy.clientMessageId, hcopy.conversationId, rfl⟩

/-- **What a write does.** The copy is what is held of its message, and nothing changes for the
others. -/
theorem holdsCopy_cached (rfc3339 : DateTime → String) (keyed : Bool) (hc : Composed env pending)
    (ht : Timelines env w) (h : CacheOf user pending w s)
    (hcopy : CopyOf user (pending i) w copy) :
    HoldsCopy (s.cached rfc3339 keyed copy copy) (pending j) id m ↔
      j = i ∧ id = copy.id ∧ m = copy ∨ j ≠ i ∧ HoldsCopy s (pending j) id m := by
  obtain ⟨hrows, hrowk, -, hrowp⟩ := h.row rfc3339 hc ht hcopy
  have hget : ∀ id, (s.cached rfc3339 keyed copy copy).messages.get id =
      if id = copy.id then some ((s.supersede copy).row rfc3339 copy copy)
      else (s.supersede copy).messages.get id := fun id => Map.get_insert ..
  constructor
  · rintro ⟨row, hrow, hs, hk, rfl⟩
    rw [hget] at hrow
    split at hrow
    · cases hrow
      exact .inl ⟨hc.injective (hk.symm.trans hrowk), ‹_›, hrowp⟩
    · rename_i hne
      have hold : s.messages.get id = some row := Map.get_of_retain hrow
      refine .inr ⟨?_, row, hold, hs, hk, rfl⟩
      rintro rfl
      -- another row of the same message was superseded
      have hsuper : row.superseded copy id = true := by
        simp [CachedMessage.superseded, hs, hk, hcopy.senderId, hcopy.clientMessageId, hne]
      change (s.messages.retain _).get id = some row at hrow
      rw [Map.get_retain, hold] at hrow
      simp [hsuper] at hrow
  · rintro (⟨rfl, rfl, rfl⟩ | ⟨hne, row, hrow, hs, hk, rfl⟩)
    · exact ⟨_, (hget _).trans (if_pos rfl), hrows, hrowk, hrowp⟩
    · obtain ⟨hid, hj⟩ := h.copyOf hc ⟨row, hrow, hs, hk, rfl⟩
      have hid' : id ≠ copy.id := fun he => hne (hj.index hc ht hcopy (hid.trans he))
      have hkept : row.superseded copy id = false := by
        have hk' : row.clientMessageId ≠ copy.clientMessageId := by
          rw [hk, hcopy.clientMessageId]
          exact fun he => hne (hc.injective he)
        simp [CachedMessage.superseded, hk']
      refine ⟨row, ?_, hs, hk, rfl⟩
      rw [hget, if_neg hid']
      change (s.messages.retain _).get id = some row
      rw [Map.get_retain, hrow]
      simp [hkept]

theorem CacheOf.cached (rfc3339 : DateTime → String) (keyed : Bool) (hc : Composed env pending)
    (ht : Timelines env w) (h : CacheOf user pending w s)
    (hcopy : CopyOf user (pending i) w copy) :
    CacheOf user pending w (s.cached rfc3339 keyed copy copy) where
  rows id row hrow := by
    change ((s.supersede copy).messages.insert copy.id _).get id = some row at hrow
    rw [Map.get_insert] at hrow
    split at hrow
    · cases hrow
      obtain ⟨hs, hk, hconv, hp⟩ := h.row rfc3339 hc ht hcopy
      refine ⟨i, hs, hk, hconv, ?_, ?_⟩
      · rw [hp]
        exact Eq.symm ‹_›
      · rw [hp]
        exact hcopy
    · exact h.rows id row (Map.get_of_retain hrow)
  single j id id' m m' hm hm' := by
    rcases (holdsCopy_cached rfc3339 keyed hc ht h hcopy).mp hm with ⟨rfl, rfl, -⟩ | ⟨hne, hm⟩ <;>
      rcases (holdsCopy_cached rfc3339 keyed hc ht h hcopy).mp hm' with ⟨hi, rfl, -⟩ | ⟨hne', hm'⟩
    · rfl
    · exact absurd rfl hne'
    · exact absurd hi hne
    · exact h.single j id id' m m' hm hm'

end

end IamRust
