import IamRust.L0Core.Base64
import IamRust.L6Client.KeySwitch
import IamRust.L6Client.Rendered
import IamRust.L6Client.Versions

/-!
# The cache encrypted and decrypted

What `decrypt_existing_cache` makes of what `encrypt_existing_cache` made of a
cache that was written without a key. The columns that are left blank are read
from the payloads again, and the search index is built from the messages.

* `InClear`: the rows are those of the values their payloads are the JSON of.
* `encryption_undone_iff`: the cache is as it was exactly if no draft starts
  with the mark and none is so long that the table refuses its ciphertext.
* `marked_draft_locked`: a draft that keeps the cache from being decrypted.
-/
namespace IamRust

open Core
open Core.Tx (failIf forEach)

/-- The JSON of the value is read as the value, and does not start with the mark. -/
structure JsonText.Restores {α : Type} (text : JsonText α) (a : α) : Prop where
  parse : text.parse (text.print a) = some a
  clear : marked (text.print a) = false

/-- So is the JSON of everything that is written. -/
def Writing.Restores (json : JsonTexts) : Writing → Prop
  | .bootstrap value =>
      (∀ p ∈ value.profile :: value.friends, json.profile.Restores p) ∧
      (∀ c ∈ value.conversations, json.conversation.Restores c) ∧ json.bootstrap.Restores value
  | .messages sent => ∀ m ∈ sent, json.message.Restores m
  | .draft _ _ | .outbox _ _ _ _ => True

/-- A cache that is written without a key, from the empty one on. -/
def unencrypted {κ : Type} (cipher : Cipher κ) (json : JsonTexts) (rfc3339 : DateTime → String) :
    LTS Cells Writing where
  init s := s = {}
  step s w s' := ∃ draw, (w.run cipher json rfc3339 none draw).Runs s () s'

/-- As it was, the rows of the search index in any order. -/
structure Cells.Restored (s s' : Cells) : Prop where
  columns : s' = { s with search := s'.search }
  search : ∀ entry, entry ∈ s'.search ↔ entry ∈ s.search

/-! ## What is in the clear -/

/-- The row of a profile. -/
def UserProfile.inClear (profile : UserProfile) (payload : String) : CachedUser where
  username := profile.username
  nickname := profile.nickname
  avatarUrl := profile.avatarUrl
  signature := profile.signature
  presence := profile.presence
  lastSeenAt := profile.lastSeenAt
  payloadJson := payload

section
variable (json : JsonTexts)

/-- In the tables both stores have. -/
structure StoreInClear (s : LocalStore CachedConversation String String) : Prop where
  conversations : ∀ id row, s.conversations.get id = some row → ∃ c,
    json.conversation.Restores c ∧ row.displayName = c.name ∧
      row.payloadJson = json.conversation.print c
  messages : ∀ id row, s.messages.get id = some row → ∃ m,
    json.message.Restores m ∧ m.id = id ∧ row.payload = json.message.print m
  search : ∀ entry, entry ∈ s.search ↔ ∃ id row m, s.messages.get id = some row ∧
    json.message.parse row.payload = some m ∧ entry ∈ m.searchRows false
  outbox : ∀ id row, s.outbox.get id = some row → marked row.payload = false

/-- Every row is the one of the value its payload is the JSON of, and the index is the one of the
messages. -/
structure InClear (s : Cells) : Prop where
  store : StoreInClear json s.toLocalStore
  users : ∀ id row, s.users.get id = some row → ∃ p,
    json.profile.Restores p ∧ row = p.inClear (json.profile.print p)
  drafts : ∀ id body, s.drafts.get id = some body → body.length ≤ 8000
  snapshot : ∀ value, s.bootstrapSnapshot = some value → marked value = false
  flag : s.cacheEncryption = false

end

/-! ## The writers -/

section
variable {κ : Type} {cipher : Cipher κ} {json : JsonTexts} {rfc3339 : DateTime → String}
  {draw : Table → Nat → Nonce} {s s' : LocalStore CachedConversation String String}

/-- The message a payload is read as is the one of the row. -/
theorem StoreInClear.parsed (h : StoreInClear json s) {id : MessageId} {row : CachedMessage String}
    {m : Message} (hrow : s.messages.get id = some row)
    (hm : json.message.parse row.payload = some m) : m.id = id := by
  obtain ⟨m', hm', hid, hpayload⟩ := h.messages id row hrow
  rw [hpayload, hm'.parse] at hm
  cases hm
  exact hid

/-- A message is cached: its own entries of the index are new, those of the messages that stay are
kept. -/
theorem StoreInClear.cached (h : StoreInClear json s) {message : Message}
    (hm : json.message.Restores message) :
    StoreInClear json (s.cached rfc3339 false message (json.message.print message)) where
  conversations := h.conversations
  outbox := h.outbox
  messages id row hrow := by
    unfold LocalStore.cached at hrow
    rw [Map.get_insert] at hrow
    split at hrow
    · rename_i hid
      cases hrow
      exact ⟨message, hm, hid.symm, LocalStore.row_payload ..⟩
    · exact h.messages id row (Map.get_of_retain hrow)
  search entry := by
    -- a row of another message stays if the message does not take its place
    have hother : ∀ id row, id ≠ message.id →
        ((s.cached rfc3339 false message (json.message.print message)).messages.get id = some row ↔
          s.messages.get id = some row ∧ row.superseded message id = false) := by
      intro id row hid
      unfold LocalStore.cached LocalStore.supersede
      rw [Map.get_insert_ne hid, Map.get_retain, Option.filter_eq_some_iff]
      simp
    have hself : (s.cached rfc3339 false message (json.message.print message)).messages.get
        message.id = some ((s.supersede message).row rfc3339 message (json.message.print message)) :=
      Map.get_insert_self ..
    have hsearch : entry ∈
        (s.cached rfc3339 false message (json.message.print message)).search ↔
        (entry ∈ s.search ∧ (s.messages.get entry.messageId).any
            (·.superseded message entry.messageId) = false ∧ entry.messageId ≠ message.id) ∨
          entry ∈ message.searchRows false := by
      unfold LocalStore.cached LocalStore.supersede
      simp only [List.mem_append, List.mem_filter, Bool.not_eq_true', bne_iff_ne, ne_eq, and_assoc]
    rw [hsearch]
    constructor
    · rintro (⟨hentry, hstays, hid⟩ | hentry)
      · obtain ⟨id, row, m, hrow, hparse, he⟩ := (h.search entry).mp hentry
        have hmid := Message.searchRows_id entry he
        rw [h.parsed hrow hparse] at hmid
        subst hmid
        rw [hrow, Option.any_some] at hstays
        exact ⟨_, row, m, (hother _ row hid).mpr ⟨hrow, hstays⟩, hparse, he⟩
      · exact ⟨_, _, message, hself, by rw [LocalStore.row_payload, hm.parse], hentry⟩
    · rintro ⟨id, row, m, hrow, hparse, he⟩
      by_cases hid : id = message.id
      · subst hid
        rw [hself] at hrow
        cases hrow
        rw [LocalStore.row_payload, hm.parse] at hparse
        cases hparse
        exact .inr he
      · obtain ⟨hold, hstays⟩ := (hother id row hid).mp hrow
        have hmid := Message.searchRows_id entry he
        rw [h.parsed hold hparse] at hmid
        subst hmid
        refine .inl ⟨(h.search entry).mpr ⟨_, row, m, hold, hparse, he⟩, ?_, hid⟩
        rw [hold, Option.any_some]
        exact hstays

theorem StoreInClear.enqueued (h : StoreInClear json s) {clientMessageId : MessageId}
    {conversationId : ConversationId} {payload : String} {now : DateTime}
    (hp : marked payload = false) :
    StoreInClear json { s with
      outbox := s.outbox.insert clientMessageId
        (s.enqueued rfc3339 clientMessageId conversationId payload now) } where
  conversations := h.conversations
  messages := h.messages
  search := h.search
  outbox := by
    refine Map.forall_insert h.outbox ?_
    unfold LocalStore.enqueued
    split <;> exact hp

theorem inClear_onStore {t : Tx String (LocalStore CachedConversation String String) Unit}
    (ht : Tx.Keeps (Tx.Preserving (StoreInClear json)) t) :
    Tx.Keeps (Tx.Preserving (InClear json)) (Cells.onStore t) where
  runs {s u s'} hr h := by
    unfold Tx.Runs Cells.onStore at hr
    split at hr
    · rename_i a store hstore
      cases hr
      exact ⟨ht.runs hstore h.store, h.users, h.drafts, h.snapshot, h.flag⟩
    · cases hr

theorem inClear_cacheProfile {profile : UserProfile} {i : Nat}
    (hp : json.profile.Restores profile) :
    Tx.Keeps (Tx.Preserving (InClear json))
      (Cells.cacheProfile cipher json none draw profile i) := by
  unfold Cells.cacheProfile
  refine Tx.keeps_ofExcept_then fun payload hpayload => Tx.keeps_modify fun s h => ?_
  cases hpayload
  refine ⟨h.store, fun id row hrow => ?_, h.drafts, h.snapshot, h.flag⟩
  exact Map.forall_insert (P := fun row => ∃ p, json.profile.Restores p ∧
    row = p.inClear (json.profile.print p)) h.users ⟨profile, hp, rfl⟩ id row hrow

theorem inClear_cacheConversation {conversation : Conversation} {i : Nat}
    (hc : json.conversation.Restores conversation) :
    Tx.Keeps (Tx.Preserving (InClear json))
      (Cells.cacheConversation cipher json none draw conversation i) := by
  unfold Cells.cacheConversation
  refine Tx.keeps_ofExcept_then fun payload hpayload => Tx.keeps_modify fun s h => ?_
  cases hpayload
  refine ⟨⟨fun id row hrow => ?_, h.store.messages, h.store.search, h.store.outbox⟩, h.users,
    h.drafts, h.snapshot, h.flag⟩
  exact Map.forall_insert (P := fun row : CachedConversation => ∃ c,
    json.conversation.Restores c ∧ row.displayName = c.name ∧
      row.payloadJson = json.conversation.print c) h.store.conversations
    ⟨conversation, hc, rfl, rfl⟩ id row hrow

/-- A writer without a key keeps the cache in the clear. -/
theorem inClear_writing (hjson : ∀ text, json.isJson text = true → marked text = false)
    {w : Writing} (hw : w.Restores json) :
    Tx.Keeps (Tx.Preserving (InClear json)) (w.run cipher json rfc3339 none draw) := by
  cases w with
  | bootstrap value =>
    obtain ⟨hprofiles, hconversations, hsnapshot⟩ := hw
    refine Tx.keeps_then (Tx.keeps_forEach_mem fun entry he =>
      inClear_cacheProfile (hprofiles _ (List.fst_mem_of_mem_zipIdx he))) fun _ => ?_
    refine Tx.keeps_then (Tx.keeps_forEach_mem fun entry he =>
      inClear_cacheConversation (hconversations _ (List.fst_mem_of_mem_zipIdx he))) fun _ => ?_
    refine Tx.keeps_ofExcept_then fun snapshot hp => ?_
    cases hp
    refine Tx.keeps_then (Tx.keeps_modify fun s h => ?_) fun _ => Tx.keeps_modify fun s h => ?_
    · refine ⟨h.store, h.users, h.drafts, fun value hvalue => ?_, h.flag⟩
      cases hvalue
      exact hsnapshot.clear
    · exact ⟨⟨h.store.conversations, h.store.messages, h.store.search, h.store.outbox⟩, h.users,
        h.drafts, h.snapshot, h.flag⟩
  | messages sent =>
    refine inClear_onStore (Tx.keeps_forEach_mem fun entry he => ⟨fun {s u s'} hr h => ?_⟩)
    obtain ⟨payload, hpayload, -, rfl⟩ := cacheMessage_runs.mp hr
    cases hpayload
    exact h.cached (hw _ (List.fst_mem_of_mem_zipIdx he))
  | draft conversationId body =>
    refine Tx.keeps_failIf_then fun hshort => Tx.keeps_ofExcept_then fun text hp => ?_
    cases hp
    refine ⟨fun {s u s'} hr h => ?_⟩
    simp only [Tx.runs_get_bind, Tx.runs_failIf_bind, Tx.runs_modify] at hr
    obtain ⟨-, rfl⟩ := hr
    have hshort : body.length ≤ 8000 := by omega
    exact ⟨h.store, h.users, Map.forall_insert h.drafts hshort, h.snapshot, h.flag⟩
  | outbox clientMessageId conversationId payloadJson now =>
    refine Tx.keeps_failIf_then fun hvalid => Tx.keeps_ofExcept_then fun payload hp =>
      inClear_onStore ⟨fun {s u s'} hr h => ?_⟩
    cases hp
    obtain ⟨-, rfl⟩ := enqueueOutbox_runs.mp hr
    refine h.enqueued (hjson _ ?_)
    simpa using (not_or.mp hvalid).2

theorem inClear_inductive (hjson : ∀ text, json.isJson text = true → marked text = false) :
    ((unencrypted cipher json rfc3339).restrict fun _ w => w.Restores json).Inductive
      (InClear json) where
  init := by
    rintro s rfl
    exact ⟨⟨Map.forall_empty, Map.forall_empty, by simp, Map.forall_empty⟩, Map.forall_empty,
      Map.forall_empty, nofun, rfl⟩
  step := by
    rintro s w s' h ⟨hw, draw, hr⟩
    exact (inClear_writing hjson hw).runs hr h

end

/-! ## Both ways -/

section
variable {κ : Type} {cipher : Cipher κ} {json : JsonTexts} {rfc3339 : DateTime → String} {k : κ}
  {draw : Table → Nat → Nonce} {s s' : Cells} {u : Unit} {text text' : String} {nonce : Nonce}

/-- The tables of `s'` are those of `s` rewritten. -/
structure Cells.Rewritten (f : Cells.Rewriting) (s s' : Cells) : Prop where
  users : s.users.rewrite f.user = .ok s'.users
  conversations : s.conversations.rewrite f.conversation = .ok s'.conversations
  messages : s.messages.rewrite f.message = .ok s'.messages
  drafts : s.drafts.rewrite f.draft = .ok s'.drafts
  outbox : s.outbox.rewrite f.outbox = .ok s'.outbox
  snapshot : (match s.bootstrapSnapshot with
    | none => Except.ok none
    | some snapshot => (f.snapshot snapshot).map some) = .ok s'.bootstrapSnapshot
  rest : s'.syncCursor = s.syncCursor ∧ s'.seenEvents = s.seenEvents

theorem Cells.rewrite_runs {f : Cells.Rewriting} : (Cells.rewrite f).Runs s u s' ↔
    Rewritten f s s' ∧ s'.search = s.search ∧ s'.cacheEncryption = s.cacheEncryption := by
  unfold Cells.rewrite
  simp only [Tx.runs_get_bind, Tx.runs_ofExcept_bind, Tx.runs_modify]
  constructor
  · rintro ⟨_, hu, _, hc, _, hm, _, hd, _, ho, _, hs, rfl⟩
    exact ⟨⟨hu, hc, hm, hd, ho, hs, rfl, rfl⟩, rfl, rfl⟩
  · rintro ⟨h, hsearch, hflag⟩
    refine ⟨_, h.users, _, h.conversations, _, h.messages, _, h.drafts, _, h.outbox, _, h.snapshot,
      ?_⟩
    rw [← hsearch, ← hflag, ← h.rest.1, ← h.rest.2]

/-- The index and the flag are no part of it. -/
theorem Cells.Rewritten.of_same {f : Cells.Rewriting} {t : Cells} (h : Rewritten f s s')
    (ht : t = { s' with search := t.search, cacheEncryption := t.cacheEncryption }) :
    Rewritten f s t := by
  rw [ht]
  exact ⟨h.users, h.conversations, h.messages, h.drafts, h.outbox, h.snapshot, h.rest⟩

theorem Cells.encrypt_runs : (Cells.encryptExistingCache cipher k draw).Runs s u s' ↔
    Rewritten (encrypting cipher k draw) s s' ∧ s'.search = [] ∧ s'.cacheEncryption = true := by
  unfold Cells.encryptExistingCache
  rw [Tx.runs_bind]
  simp only [Tx.runs_modify_bind, Tx.runs_modify, Cells.rewrite_runs]
  constructor
  · rintro ⟨_, s₁, ⟨h, -, -⟩, rfl⟩
    exact ⟨h.of_same rfl, rfl, rfl⟩
  · rintro ⟨h, hsearch, hflag⟩
    refine ⟨(), { s' with search := s.search, cacheEncryption := s.cacheEncryption },
      ⟨h.of_same rfl, rfl, rfl⟩, ?_⟩
    rw [← hsearch, ← hflag]

theorem Cells.decrypt_runs : (Cells.decryptExistingCache cipher json k).Runs s u s' ↔
    Rewritten (decrypting cipher json k) s s' ∧
      s'.search = (s'.messages.values.flatMap fun row =>
        ((json.message.parse row.payload).map (Message.searchRows false)).getD []) ∧
      s'.cacheEncryption = false := by
  unfold Cells.decryptExistingCache
  rw [Tx.runs_bind]
  simp only [Tx.runs_modify_bind, Tx.runs_modify, Cells.rewrite_runs]
  constructor
  · rintro ⟨_, s₁, ⟨h, -, -⟩, rfl⟩
    exact ⟨h.of_same rfl, rfl, rfl⟩
  · rintro ⟨h, hsearch, hflag⟩
    refine ⟨(), { s' with search := s.search, cacheEncryption := s.cacheEncryption },
      ⟨h.of_same rfl, rfl, rfl⟩, ?_⟩
    rw [← hsearch, ← hflag]

/-- What `f` makes of a row, `g` makes the row of again. -/
structure Cells.Undoes (f g : Cells.Rewriting) (s : Cells) : Prop where
  user : ∀ id row, s.users.get id = some row → ∀ i, ∃ row',
    f.user i row = .ok row' ∧ ∀ j, g.user j row' = .ok row
  conversation : ∀ id row, s.conversations.get id = some row → ∀ i, ∃ row',
    f.conversation i row = .ok row' ∧ ∀ j, g.conversation j row' = .ok row
  message : ∀ id row, s.messages.get id = some row → ∀ i, ∃ row',
    f.message i row = .ok row' ∧ ∀ j, g.message j row' = .ok row
  draft : ∀ id body, s.drafts.get id = some body → ∀ i, ∃ body',
    f.draft i body = .ok body' ∧ ∀ j, g.draft j body' = .ok body
  outbox : ∀ id row, s.outbox.get id = some row → ∀ i, ∃ row',
    f.outbox i row = .ok row' ∧ ∀ j, g.outbox j row' = .ok row
  snapshot : ∀ value, s.bootstrapSnapshot = some value → ∃ value',
    f.snapshot value = .ok value' ∧ g.snapshot value' = .ok value

/-- Then it makes the tables of them again. -/
theorem Cells.Undoes.rewritten {f g : Cells.Rewriting} (h : Undoes f g s) :
    ∃ s₁, Rewritten f s s₁ ∧ Rewritten g s₁ s := by
  obtain ⟨users, hu, hu'⟩ := Map.rewrite_undone h.user
  obtain ⟨conversations, hc, hc'⟩ := Map.rewrite_undone h.conversation
  obtain ⟨messages, hm, hm'⟩ := Map.rewrite_undone h.message
  obtain ⟨drafts, hd, hd'⟩ := Map.rewrite_undone h.draft
  obtain ⟨outbox, ho, ho'⟩ := Map.rewrite_undone h.outbox
  obtain ⟨snapshot, hs, hs'⟩ : ∃ snapshot,
      (match s.bootstrapSnapshot with
        | none => Except.ok none
        | some value => (f.snapshot value).map some) = .ok snapshot ∧
      (match snapshot with
        | none => Except.ok none
        | some value => (g.snapshot value).map some) = .ok s.bootstrapSnapshot := by
    cases hvalue : s.bootstrapSnapshot with
    | none => exact ⟨none, rfl, rfl⟩
    | some value =>
      obtain ⟨value', hf, hg⟩ := h.snapshot value hvalue
      exact ⟨some value', map_eq_ok_iff.mpr ⟨_, hf, rfl⟩, map_eq_ok_iff.mpr ⟨_, hg, rfl⟩⟩
  exact ⟨{ s with
      users := users
      conversations := conversations
      messages := messages
      drafts := drafts
      outbox := outbox
      bootstrapSnapshot := snapshot },
    ⟨hu, hc, hm, hd, ho, hs, rfl, rfl⟩, ⟨hu', hc', hm', hd', ho', hs', rfl, rfl⟩⟩

/-! ### One text -/

/-- What an unmarked text becomes, and what is read from that. -/
theorem Cipher.protect_undone (cipher : Cipher κ) (k : κ) (nonce : Nonce)
    (hclear : marked text = false) (hlen : Text.byteLen text ≤ 2 ^ 36) :
    ∃ text', protect cipher text (some k) nonce = .ok text' ∧
      unprotect cipher text' (some k) = .ok text := by
  obtain ⟨c, -, hp⟩ := cipher.protect_some k nonce hclear hlen
  exact ⟨_, hp, cipher.unprotect_protect hclear hp⟩

/-- The mark, and in base64 the nonce, the text and the tag. -/
theorem Cipher.protect_length (hbase64 : ∀ b, (cipher.encode b).length = (4 * b.length + 2) / 3)
    (hclear : marked text = false) (h : protect cipher text (some k) nonce = .ok text') :
    text'.length = 7 + (4 * (28 + Text.byteLen text) + 2) / 3 := by
  simp only [protect, hclear, Bool.false_eq_true, if_false] at h
  split at h
  · cases h
  · rename_i c hc
    cases h
    have hlen := cipher.encrypt_length _ _ _ _ hc
    rw [Text.length_bytes] at hlen
    have hnonce := nonce.property
    rw [String.length_append, hbase64, List.length_append]
    change 7 + _ = _
    omega

/-- The table takes what an unmarked draft of at most 24542 bytes becomes. -/
theorem Cells.draft_encrypts (hbase64 : ∀ b, (cipher.encode b).length = (4 * b.length + 2) / 3)
    {i : Nat} (hclear : marked text = false) :
    (∃ text', (encrypting cipher k draw).draft i text = .ok text') ↔ Text.byteLen text ≤ 24542 := by
  constructor
  · rintro ⟨text', h⟩
    obtain ⟨hp, hlen⟩ := Cells.checkedDraft_ok.mp h
    rw [Cipher.protect_length hbase64 hclear hp] at hlen
    omega
  · intro hlen
    obtain ⟨text', hp, -⟩ := cipher.protect_undone k (draw .drafts i) hclear (by omega)
    refine ⟨text', Cells.checkedDraft_ok.mpr ⟨hp, ?_⟩⟩
    rw [Cipher.protect_length hbase64 hclear hp]
    omega

/-- A column that is not blanked. -/
theorem Cells.opened_of {α : Type} {value : JsonText α} {a : α} {error : String}
    (ha : value.Restores a) (h : unprotect cipher text (some k) = .ok (value.print a)) :
    Cells.opened cipher value k text error = .ok (value.print a, a) := by
  rw [Cells.opened, h]
  dsimp only
  rw [ha.parse]

/-! ### The whole cache -/

theorem InClear.undoes (h : InClear json s) (k : κ) (draw : Table → Nat → Nonce)
    (hbase64 : ∀ b, (cipher.encode b).length = (4 * b.length + 2) / 3)
    (hdrafts : ∀ id body, s.drafts.get id = some body →
      marked body = false ∧ Text.byteLen body ≤ 24542)
    (hlen : s.All fun text => Text.byteLen text ≤ 2 ^ 36) :
    Cells.Undoes (Cells.encrypting cipher k draw) (Cells.decrypting cipher json k) s where
  user id row hrow i := by
    have hl := hlen.users id row hrow
    obtain ⟨p, hp, rfl⟩ := h.users id row hrow
    obtain ⟨payload, hprotect, hback⟩ := cipher.protect_undone k (draw .users i) hp.clear hl
    exact ⟨_, map_eq_ok_iff.mpr ⟨payload, hprotect, rfl⟩, fun j =>
      map_eq_ok_iff.mpr ⟨_, Cells.opened_of hp hback, rfl⟩⟩
  conversation id row hrow i := by
    have hl := hlen.store.conversations id row hrow
    obtain ⟨c, hc, hname, hpayload⟩ := h.store.conversations id row hrow
    rw [hpayload] at hl
    obtain ⟨payload, hprotect, hback⟩ := cipher.protect_undone k (draw .conversations i) hc.clear hl
    refine ⟨_, map_eq_ok_iff.mpr ⟨payload, hpayload ▸ hprotect, rfl⟩, fun j =>
      map_eq_ok_iff.mpr ⟨_, Cells.opened_of hc hback, ?_⟩⟩
    rw [← hname, ← hpayload]
  message id row hrow i := by
    have hl := hlen.store.messages id row hrow
    obtain ⟨m, hm, -, hpayload⟩ := h.store.messages id row hrow
    rw [hpayload] at hl
    obtain ⟨payload, hprotect, hback⟩ := cipher.protect_undone k (draw .messages i) hm.clear hl
    refine ⟨_, map_eq_ok_iff.mpr ⟨payload, hpayload ▸ hprotect, rfl⟩, fun j =>
      map_eq_ok_iff.mpr ⟨_, Cells.opened_of hm hback, ?_⟩⟩
    rw [← hpayload]
  draft id body hbody i := by
    obtain ⟨hclear, hshort⟩ := hdrafts id body hbody
    obtain ⟨body', hbody'⟩ := (Cells.draft_encrypts hbase64 hclear).mpr hshort
    have hprotect := (Cells.checkedDraft_ok.mp hbody').1
    have h8000 := h.drafts id body hbody
    exact ⟨body', hbody', fun j => Cells.checkedDraft_ok.mpr
      ⟨cipher.unprotect_protect hclear hprotect, by omega⟩⟩
  outbox id row hrow i := by
    obtain ⟨payload, hprotect, hback⟩ := cipher.protect_undone k (draw .outbox i)
      (h.store.outbox id row hrow) (hlen.store.outbox id row hrow)
    exact ⟨_, map_eq_ok_iff.mpr ⟨payload, hprotect, rfl⟩, fun j =>
      map_eq_ok_iff.mpr ⟨_, hback, rfl⟩⟩
  snapshot value hvalue :=
    cipher.protect_undone k (draw .localMeta 0) (h.snapshot value hvalue)
      (hlen.snapshot value hvalue)

/-- The index that is built is the one there was. -/
theorem StoreInClear.rebuilt {s : LocalStore CachedConversation String String}
    (h : StoreInClear json s) (entry : SearchRow) :
    (entry ∈ s.messages.values.flatMap fun row =>
      ((json.message.parse row.payload).map (Message.searchRows false)).getD []) ↔
      entry ∈ s.search := by
  rw [h.search entry]
  simp only [List.mem_flatMap, Map.mem_values]
  constructor
  · rintro ⟨row, ⟨id, hrow⟩, he⟩
    obtain ⟨m, hm, -, hpayload⟩ := h.messages id row hrow
    rw [hpayload, hm.parse] at he
    exact ⟨id, row, m, hrow, by rw [hpayload, hm.parse], he⟩
  · rintro ⟨id, row, m, hrow, hparse, he⟩
    exact ⟨row, ⟨id, hrow⟩, by rw [hparse]; exact he⟩

/-- What is encrypted and decrypted again was short enough and, if it is a draft, unmarked. -/
theorem InClear.of_restored (h : InClear json s)
    (hbase64 : ∀ b, (cipher.encode b).length = (4 * b.length + 2) / 3) {s₁ s₂ : Cells}
    (henc : Cells.Rewritten (Cells.encrypting cipher k draw) s s₁)
    (hdec : Cells.Rewritten (Cells.decrypting cipher json k) s₁ s₂) (hs : s.Restored s₂) :
    (∀ id body, s.drafts.get id = some body → marked body = false ∧ Text.byteLen body ≤ 24542) ∧
      s.All fun text => Text.byteLen text ≤ 2 ^ 36 := by
  have hdec := hdec.of_same (t := s) (by rw [hs.columns])
  have hdrafts : ∀ id body, s.drafts.get id = some body →
      marked body = false ∧ Text.byteLen body ≤ 24542 := by
    intro id body hbody
    obtain ⟨i, j, body', hp, hback⟩ := Map.undone_of_rewrite henc.drafts hdec.drafts hbody
    have hclear : marked body = false := by
      by_contra hmarked
      have hmarked : marked body = true := by simpa using hmarked
      have hsame := (Cells.checkedDraft_ok.mp hp).1
      rw [cipher.protect_marked hmarked] at hsame
      cases hsame
      exact cipher.unprotect_marked hmarked (Cells.checkedDraft_ok.mp hback).1
    exact ⟨hclear, (Cells.draft_encrypts hbase64 hclear).mp ⟨body', hp⟩⟩
  refine ⟨hdrafts, ⟨⟨?_, ?_, ?_⟩, ?_, ?_, ?_⟩⟩
  · intro id row hrow
    obtain ⟨i, j, row', hr, -⟩ := Map.undone_of_rewrite henc.conversations hdec.conversations hrow
    obtain ⟨payload, hp, -⟩ := map_eq_ok_iff.mp hr
    obtain ⟨c, hc, -, hpayload⟩ := h.store.conversations id row hrow
    exact cipher.protect_fits (hpayload ▸ hc.clear) hp
  · intro id row hrow
    obtain ⟨i, j, row', hr, -⟩ := Map.undone_of_rewrite henc.messages hdec.messages hrow
    obtain ⟨payload, hp, -⟩ := map_eq_ok_iff.mp hr
    obtain ⟨m, hm, -, hpayload⟩ := h.store.messages id row hrow
    exact cipher.protect_fits (hpayload ▸ hm.clear) hp
  · intro id row hrow
    obtain ⟨i, j, row', hr, -⟩ := Map.undone_of_rewrite henc.outbox hdec.outbox hrow
    obtain ⟨payload, hp, -⟩ := map_eq_ok_iff.mp hr
    exact cipher.protect_fits (h.store.outbox id row hrow) hp
  · intro id row hrow
    obtain ⟨i, j, row', hr, -⟩ := Map.undone_of_rewrite henc.users hdec.users hrow
    obtain ⟨payload, hp, -⟩ := map_eq_ok_iff.mp hr
    obtain ⟨p, hp', rfl⟩ := h.users id row hrow
    exact cipher.protect_fits hp'.clear hp
  · intro id body hbody
    have hshort := (hdrafts id body hbody).2
    omega
  · intro value hvalue
    have hsnapshot := henc.snapshot
    rw [hvalue] at hsnapshot
    obtain ⟨value', hp, -⟩ := map_eq_ok_iff.mp hsnapshot
    exact cipher.protect_fits (h.snapshot value hvalue) hp

/-- **Encrypting and decrypting gives the cache back**, in every state it can have without a key,
exactly if every draft is unmarked and at most 24542 bytes long, and no text is too long for the
cipher. A call that fails changes nothing. -/
theorem encryption_undone_iff (hjson : ∀ text, json.isJson text = true → marked text = false)
    (hbase64 : ∀ b, (cipher.encode b).length = (4 * b.length + 2) / 3)
    (hs : ((unencrypted cipher json rfc3339).restrict fun _ w => w.Restores json).Reachable s)
    (k : κ) (draw : Table → Nat → Nonce) :
    ((∃ s₁ s₂, (Cells.encryptExistingCache cipher k draw).Runs s () s₁ ∧
        (Cells.decryptExistingCache cipher json k).Runs s₁ () s₂ ∧ s.Restored s₂) ↔
      (∀ id body, s.drafts.get id = some body →
        marked body = false ∧ Text.byteLen body ≤ 24542) ∧
      s.All fun text => Text.byteLen text ≤ 2 ^ 36) ∧
    (∀ s₁ e, Cells.encryptExistingCache cipher k draw s₁ = .error e →
      ((Cells.encryptExistingCache cipher k draw).commit s₁).2 = s₁) ∧
    ∀ s₁ e, Cells.decryptExistingCache cipher json k s₁ = .error e →
      ((Cells.decryptExistingCache cipher json k).commit s₁).2 = s₁ := by
  have h := (inClear_inductive hjson).reachable hs
  have hfails : ∀ (t : Tx String Cells Unit) s₁ e, t s₁ = .error e → (t.commit s₁).2 = s₁ := by
    intro t s₁ e he
    rw [Tx.commit, he]
  refine ⟨⟨?_, ?_⟩, hfails _, hfails _⟩
  · rintro ⟨s₁, s₂, henc, hdec, hrestored⟩
    exact h.of_restored hbase64 (Cells.encrypt_runs.mp henc).1 (Cells.decrypt_runs.mp hdec).1
      hrestored
  · rintro ⟨hdrafts, hlen⟩
    obtain ⟨s₁, henc, hdec⟩ := (h.undoes k draw hbase64 hdrafts hlen).rewritten
    refine ⟨{ s₁ with search := [], cacheEncryption := true },
      { s with search := s.messages.values.flatMap fun row =>
        ((json.message.parse row.payload).map (Message.searchRows false)).getD [] },
      Cells.encrypt_runs.mpr ⟨henc.of_same rfl, rfl, rfl⟩,
      Cells.decrypt_runs.mpr ⟨?_, rfl, h.flag⟩, rfl, h.store.rebuilt⟩
    have hdec : Cells.Rewritten (Cells.decrypting cipher json k)
        { s₁ with search := [], cacheEncryption := true } s :=
      ⟨hdec.users, hdec.conversations, hdec.messages, hdec.drafts, hdec.outbox, hdec.snapshot,
        hdec.rest⟩
    exact hdec.of_same rfl

end

/-! ## Alice's cache -/

/-- `Cipher.tagged` with base64. -/
noncomputable def Cipher.base64 : Cipher Nat :=
  { Cipher.tagged with
    encode := Base64.encode
    decode := Function.partialInv Base64.encode
    decode_encode := Function.partialInv_left Base64.encode_injective
    decode_length := fun s b h => by
      rw [← (Base64.encode_injective.isPartialInv b s).mp h]
      have hlen := Base64.encode_length b
      have hbytes := Text.length_le_byteLen (Base64.encode b)
      rw [String.length_toList] at hbytes
      omega }

theorem Cipher.base64_length (b : List UInt8) :
    (Cipher.base64.encode b).length = (4 * b.length + 2) / 3 :=
  Base64.encode_length b

/-- The JSON of one value. -/
def JsonText.literal {α : Type} (text : String) (a : α) : JsonText α where
  print _ := text
  parse s := if s = text then some a else none

theorem JsonText.literal_restores {α : Type} {text : String} {a : α}
    (hclear : marked text = false) : (JsonText.literal text a).Restores a :=
  ⟨if_pos rfl, hclear⟩

/-- An object with its values as JSON. -/
def jsonObject (fields : List (String × String)) : String :=
  "\x7b" ++ Text.join "," (fields.map fun field => "\"" ++ field.1 ++ "\":" ++ field.2) ++ "\x7d"

theorem jsonObject_clear (fields : List (String × String)) :
    marked (jsonObject fields) = false := by
  simp only [marked, Text.startsWith, jsonObject, String.toList_append, List.append_assoc]
  rfl

/-- The id with the last two digits. -/
def idText (digits : String) : String := "00000000-0000-0000-0000-0000000000" ++ digits

def jsonId (digits : String) : String := "\"" ++ idText digits ++ "\""

def jsonEpoch : String := "\"1970-01-01T00:00:00Z\""

def aliceJson : String :=
  jsonObject [("id", jsonId "01"), ("username", "\"alice\""), ("nickname", "\"Alice\""),
    ("avatar_url", "null"), ("avatar_attachment_id", "null"), ("signature", "\"\""),
    ("gender", "null"), ("birthday", "null"), ("region", "null"), ("presence", "\"online\""),
    ("last_seen_at", "null")]

/-- The conversation with Bob, as Alice is sent it. -/
def bobConversation : Conversation where
  id := 9
  kind := .direct 4
  name := "Bob"
  avatarUrl := none
  avatarAttachmentId := none
  members := (Map.empty.insert 1 (.joining 1 .member 0)).insert 4 (.joining 4 .member 0)
  muted := false
  pinned := false
  createdAt := 0
  updatedAt := 0

def memberJson (digits : String) : String :=
  jsonObject [("user_id", jsonId digits), ("role", "\"member\""), ("nickname", "null"),
    ("muted_until", "null"), ("joined_at", jsonEpoch)]

def bobConversationJson : String :=
  jsonObject [("id", jsonId "09"),
    ("kind", jsonObject [("kind", "\"direct\""), ("peer_user_id", jsonId "04")]),
    ("name", "\"Bob\""), ("avatar_url", "null"), ("avatar_attachment_id", "null"),
    ("members", jsonObject [(idText "01", memberJson "01"), (idText "04", memberJson "04")]),
    ("muted", "false"), ("pinned", "false"), ("created_at", jsonEpoch), ("updated_at", jsonEpoch)]

def hiMessageJson : String :=
  jsonObject [("id", jsonId "0e"), ("client_message_id", jsonId "00"),
    ("conversation_id", jsonId "09"), ("sender_id", jsonId "01"), ("sequence", "1"),
    ("content", jsonObject [("type", "\"text\""), ("data", jsonObject [("text", "\"hi\"")])]),
    ("status", "\"sent\""), ("reply_to", "null"), ("mentions", "[]"), ("mention_all", "false"),
    ("created_at", jsonEpoch), ("server_created_at", jsonEpoch), ("edited_at", "null")]

def aliceBootstrap : BootstrapResponse := { aliceAlone with conversations := [bobConversation] }

def aliceBootstrapJson : String :=
  jsonObject [("profile", aliceJson),
    ("profile_privacy", jsonObject [("gender_visibility", "\"friends\""),
      ("birthday_visibility", "\"friends\""), ("region_visibility", "\"friends\""),
      ("presence_visibility", "\"friends\""), ("read_receipts_enabled", "true")]),
    ("friends", "[]"), ("friend_settings", "[]"), ("friend_requests", "[]"),
    ("friend_request_profiles", "[]"), ("conversations", "[" ++ bobConversationJson ++ "]"),
    ("conversation_states", "[]"), ("cursor", "0"), ("server_features", jsonObject [])]

def aliceTexts : JsonTexts where
  profile := .literal aliceJson aliceAlone.profile
  conversation := .literal bobConversationJson bobConversation
  message := .literal hiMessageJson hiMessage
  bootstrap := .literal aliceBootstrapJson aliceBootstrap
  isJson s := decide (s = jsonObject [])

theorem aliceTexts_unmarked (text : String) (h : aliceTexts.isJson text = true) :
    marked text = false := by
  rw [of_decide_eq_true h]
  exact jsonObject_clear []

/-- Alice's client as it is filled without a key. -/
noncomputable def aliceUnencrypted : LTS Cells Writing :=
  (unencrypted Cipher.base64 aliceTexts (fun _ => "1970-01-01T00:00:00+00:00")).restrict
    fun _ w => w.Restores aliceTexts

def aliceWrites (draft : String) : List Writing :=
  [.bootstrap aliceBootstrap, .messages [hiMessage], .draft 9 draft, .outbox 14 9 (jsonObject []) 0]

theorem aliceWrites_restores (draft : String) : ∀ w ∈ aliceWrites draft, w.Restores aliceTexts := by
  have hprofile : (JsonText.literal aliceJson aliceAlone.profile).Restores aliceAlone.profile :=
    JsonText.literal_restores (jsonObject_clear _)
  have hconversation : (JsonText.literal bobConversationJson bobConversation).Restores
      bobConversation := JsonText.literal_restores (jsonObject_clear _)
  have hmessage : (JsonText.literal hiMessageJson hiMessage).Restores hiMessage :=
    JsonText.literal_restores (jsonObject_clear _)
  have hbootstrap : (JsonText.literal aliceBootstrapJson aliceBootstrap).Restores aliceBootstrap :=
    JsonText.literal_restores (jsonObject_clear _)
  intro w hw
  simp only [aliceWrites, List.mem_cons, List.not_mem_nil, or_false] at hw
  rcases hw with rfl | rfl | rfl | rfl
  · refine ⟨fun p hp => ?_, fun c hc => ?_, hbootstrap⟩
    · rw [List.mem_singleton.mp hp]
      exact hprofile
    · rw [List.mem_singleton.mp hc]
      exact hconversation
  · intro m hm
    rw [List.mem_singleton.mp hm]
    exact hmessage
  · trivial
  · trivial

/-- The cache behind Alice's writes. -/
theorem alice_reaches (draft : String) (p : Cells → Bool)
    (h : (LTS.exec (fun s w => ((w.run Cipher.base64 aliceTexts
      (fun _ => "1970-01-01T00:00:00+00:00") none zeroNonces) s).toOption.map (·.2))
      (aliceWrites draft) {}).any p = true) :
    ∃ s, aliceUnencrypted.Reachable s ∧ p s = true := by
  refine LTS.reaches_of_exec rfl (aliceWrites draft) (fun s w hw s' hs' => ?_) p h
  refine ⟨aliceWrites_restores draft w hw, zeroNonces, ?_⟩
  obtain ⟨r, hr, rfl⟩ := Option.map_eq_some_iff.mp hs'
  obtain ⟨⟨⟩, s'⟩ := r
  unfold Tx.Runs
  cases hrun : w.run Cipher.base64 aliceTexts (fun _ => "1970-01-01T00:00:00+00:00") none
      zeroNonces s with
  | error e =>
    rw [hrun] at hr
    cases hr
  | ok r =>
    rw [hrun] at hr
    cases hr
    rfl

/-- Every text has at most that many bytes. -/
def Cells.shortTexts (s : Cells) (n : Nat) : Bool :=
  s.conversations.values.all (fun row => decide (Text.byteLen row.payloadJson ≤ n)) &&
    s.messages.values.all (fun row => decide (Text.byteLen row.payload ≤ n)) &&
    s.outbox.values.all (fun row => decide (Text.byteLen row.payload ≤ n)) &&
    s.users.values.all (fun row => decide (Text.byteLen row.payloadJson ≤ n)) &&
    s.drafts.values.all (fun body => decide (Text.byteLen body ≤ n)) &&
    s.bootstrapSnapshot.all fun value => decide (Text.byteLen value ≤ n)

theorem Cells.all_of_shortTexts {s : Cells} {n : Nat} (h : s.shortTexts n = true) :
    s.All fun text => Text.byteLen text ≤ n := by
  have hrows : ∀ {κ υ : Type} [Ord κ] [Std.TransOrd κ] [Std.LawfulEqOrd κ] {m : Map κ υ}
      {f : υ → String}, m.values.all (fun row => decide (Text.byteLen (f row) ≤ n)) = true →
        ∀ k row, m.get k = some row → Text.byteLen (f row) ≤ n := fun h k row hrow =>
    of_decide_eq_true (List.all_eq_true.mp h row (Map.mem_values.mpr ⟨k, hrow⟩))
  simp only [Cells.shortTexts, Bool.and_eq_true] at h
  obtain ⟨⟨⟨⟨⟨hconversations, hmessages⟩, houtbox⟩, husers⟩, hdrafts⟩, hsnapshot⟩ := h
  refine ⟨⟨hrows hconversations, hrows hmessages, hrows houtbox⟩, hrows husers,
    hrows (f := id) hdrafts, fun value hvalue => ?_⟩
  rw [hvalue] at hsnapshot
  exact of_decide_eq_true hsnapshot

/-- Alice's cache, with a message, a draft and a text to be sent, is encrypted and decrypted. -/
theorem encryption_undone_alice : ∃ s s₁ s₂, aliceUnencrypted.Reachable s ∧
    s.drafts.get 9 = some "hi" ∧ s.search = [⟨14, 9, 1, "hi"⟩] ∧
    s.outbox.containsKey 14 = true ∧ s.users.containsKey 1 = true ∧
    (Cells.encryptExistingCache Cipher.base64 7 zeroNonces).Runs s () s₁ ∧
    (Cells.decryptExistingCache Cipher.base64 aliceTexts 7).Runs s₁ () s₂ ∧ s.Restored s₂ := by
  obtain ⟨s, hs, hp⟩ := alice_reaches "hi" (fun s =>
    s.drafts.get 9 == some "hi" && s.search == [⟨14, 9, 1, "hi"⟩] && s.outbox.containsKey 14 &&
      s.users.containsKey 1 && s.drafts.values.all (fun body => !marked body) &&
      s.shortTexts 2000)
    (by decide +kernel)
  simp only [Bool.and_eq_true, beq_iff_eq] at hp
  obtain ⟨⟨⟨⟨⟨hdraft, hsearch⟩, houtbox⟩, huser⟩, hclear⟩, hshort⟩ := hp
  have hall := Cells.all_of_shortTexts hshort
  obtain ⟨s₁, s₂, henc, hdec, hrestored⟩ :=
    (encryption_undone_iff aliceTexts_unmarked Cipher.base64_length hs 7 zeroNonces).1.mpr
      ⟨fun id body hbody => ⟨by
          simpa using List.all_eq_true.mp hclear body (Map.mem_values.mpr ⟨id, hbody⟩),
        Nat.le_trans (hall.drafts id body hbody) (by decide)⟩,
        hall.imp fun text htext => Nat.le_trans htext (by decide)⟩
  exact ⟨s, s₁, s₂, hs, hdraft, hsearch, houtbox, huser, henc, hdec, hrestored⟩

/-- The draft "enc:v1:", saved without a key, does not come back. -/
theorem marked_draft_locked : ∃ s, aliceUnencrypted.Reachable s ∧
    s.drafts.get 9 = some "enc:v1:" ∧
    ¬ ∃ s₁ s₂, (Cells.encryptExistingCache Cipher.base64 7 zeroNonces).Runs s () s₁ ∧
      (Cells.decryptExistingCache Cipher.base64 aliceTexts 7).Runs s₁ () s₂ ∧ s.Restored s₂ := by
  obtain ⟨s, hs, hp⟩ := alice_reaches "enc:v1:" (fun s => s.drafts.get 9 == some "enc:v1:")
    (by decide +kernel)
  have hdraft := eq_of_beq hp
  refine ⟨s, hs, hdraft, ?_⟩
  rintro ⟨s₁, s₂, henc, hdec, hrestored⟩
  have hclear := ((inClear_inductive aliceTexts_unmarked).reachable hs).of_restored
    Cipher.base64_length (Cells.encrypt_runs.mp henc).1 (Cells.decrypt_runs.mp hdec).1 hrestored
  exact absurd (hclear.1 9 _ hdraft).1 (by decide)

end IamRust
