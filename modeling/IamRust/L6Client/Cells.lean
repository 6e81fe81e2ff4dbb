import IamRust.L6Client.LocalStore
import IamRust.L6Client.Protection

/-!
# The texts of the local store

The same tables with the texts their columns hold, those of the profiles, the
drafts and the bootstrap besides. The protected columns are `payload_json` of
five tables, `body` of the drafts and the value of `bootstrap_snapshot`; while
there is a key, what else a row says of a profile's or a conversation's text is
left blank.

* `Cells.encryptExistingCache`, `Cells.decryptExistingCache`: every protected
  column rewritten, in one transaction.
* `Cells.All`: what holds of every protected column. `Cells.All.rewrite`: what
  a rewriting makes of it.
* `protection_round_trips`: what `protect` and `load_draft` give back.
-/
namespace Core

/-- The rows from the `i`-th on rewritten, one after the other. -/
def Map.rewriteFrom {κ υ ε : Type} [Ord κ] [Std.TransOrd κ] (f : Nat → υ → Except ε υ) :
    Nat → List (κ × υ) → Map κ υ → Except ε (Map κ υ)
  | _, [], m => .ok m
  | i, (k, v) :: rows, m =>
    match f i v with
    | .error e => .error e
    | .ok v' => rewriteFrom f (i + 1) rows (m.insert k v')

/-- Every row rewritten, or the first error. -/
def Map.rewrite {κ υ ε : Type} [Ord κ] [Std.TransOrd κ] (m : Map κ υ) (f : Nat → υ → Except ε υ) :
    Except ε (Map κ υ) :=
  rewriteFrom f 0 m.entries m

section
variable {κ υ ε : Type} [Ord κ] [Std.TransOrd κ] [Std.LawfulEqOrd κ] [DecidableEq κ]
  {f : Nat → υ → Except ε υ}

/-- A row of the result is an old one, or what a listed row was rewritten to. -/
theorem Map.get_of_rewriteFrom {i : Nat} {rows : List (κ × υ)} {m m' : Map κ υ}
    (h : Map.rewriteFrom f i rows m = .ok m') {k : κ} {v' : υ} (hk : m'.get k = some v') :
    (m.get k = some v' ∧ ∀ v, (k, v) ∉ rows) ∨ ∃ j v, (k, v) ∈ rows ∧ f j v = .ok v' := by
  induction rows generalizing i m with
  | nil =>
    cases h
    exact .inl ⟨hk, fun v => List.not_mem_nil⟩
  | cons entry rows ih =>
    obtain ⟨k₀, v₀⟩ := entry
    unfold Map.rewriteFrom at h
    split at h
    · cases h
    · rename_i v₁ hv₁
      rcases ih h with ⟨hget, hrest⟩ | ⟨j, v, hv, hf⟩
      · rw [Map.get_insert] at hget
        split at hget
        · rename_i hkk
          cases hget
          exact .inr ⟨i, v₀, by simp [hkk], hv₁⟩
        · rename_i hkk
          refine .inl ⟨hget, fun v hv => ?_⟩
          rcases List.mem_cons.mp hv with hv | hv
          · exact hkk (Prod.mk.inj hv).1
          · exact hrest v hv
      · exact .inr ⟨j, v, List.mem_cons_of_mem _ hv, hf⟩

/-- Every row of the result is what an old one was rewritten to. -/
theorem Map.get_of_rewrite {m m' : Map κ υ} (h : m.rewrite f = .ok m') {k : κ} {v' : υ}
    (hk : m'.get k = some v') : ∃ j v, m.get k = some v ∧ f j v = .ok v' := by
  rcases Map.get_of_rewriteFrom h hk with ⟨hget, hno⟩ | ⟨j, v, hv, hf⟩
  · exact absurd (Map.mem_entries.mpr hget) (hno v')
  · exact ⟨j, v, Map.mem_entries.mp hv, hf⟩

/-- Rows that can all be rewritten are, and none is added or lost. -/
theorem Map.rewriteFrom_ok {i : Nat} {rows : List (κ × υ)} {m : Map κ υ}
    (hrows : ∀ k v, (k, v) ∈ rows → m.containsKey k = true)
    (hf : ∀ k v, (k, v) ∈ rows → ∀ j, ∃ v', f j v = .ok v') :
    ∃ m', Map.rewriteFrom f i rows m = .ok m' ∧ ∀ k, m'.containsKey k = m.containsKey k := by
  induction rows generalizing i m with
  | nil => exact ⟨m, rfl, fun _ => rfl⟩
  | cons entry rows ih =>
    obtain ⟨k₀, v₀⟩ := entry
    obtain ⟨v₁, hv₁⟩ := hf k₀ v₀ List.mem_cons_self i
    have hk₀ := hrows k₀ v₀ List.mem_cons_self
    have hsame : ∀ k, (m.insert k₀ v₁).containsKey k = m.containsKey k := fun k => by
      rw [Bool.eq_iff_iff, Map.containsKey_insert]
      exact ⟨fun h => h.elim (fun hk => hk ▸ hk₀) id, .inr⟩
    obtain ⟨m', hm', hkeys⟩ := ih (i := i + 1) (m := m.insert k₀ v₁)
      (fun k v hv => (hsame k).trans (hrows k v (List.mem_cons_of_mem _ hv)))
      (fun k v hv => hf k v (List.mem_cons_of_mem _ hv))
    refine ⟨m', ?_, fun k => (hkeys k).trans (hsame k)⟩
    rw [Map.rewriteFrom, hv₁]
    exact hm'

/-- Rewritten with `f`, then with `g`: the map is as it was if every row is. -/
theorem Map.rewrite_undone {g : Nat → υ → Except ε υ} {m : Map κ υ}
    (h : ∀ k v, m.get k = some v → ∀ i, ∃ v', f i v = .ok v' ∧ ∀ j, g j v' = .ok v) :
    ∃ m', m.rewrite f = .ok m' ∧ m'.rewrite g = .ok m := by
  have hlisted : ∀ (m : Map κ υ) k v, (k, v) ∈ m.entries → m.containsKey k = true :=
    fun m k v hv => Map.containsKey_iff.mpr ⟨v, Map.mem_entries.mp hv⟩
  obtain ⟨m', hm', hkeys⟩ := Map.rewriteFrom_ok (i := 0) (hlisted m) fun k v hv j => by
    obtain ⟨v', hv', -⟩ := h k v (Map.mem_entries.mp hv) j
    exact ⟨v', hv'⟩
  have hback : ∀ k v', m'.get k = some v' → ∃ v, m.get k = some v ∧ ∀ j, g j v' = .ok v := by
    intro k v' hk
    obtain ⟨i, v, hv, hfv⟩ := Map.get_of_rewrite hm' hk
    obtain ⟨v'', hv'', hg⟩ := h k v hv i
    cases hfv.symm.trans hv''
    exact ⟨v, hv, hg⟩
  obtain ⟨m'', hm'', hkeys'⟩ := Map.rewriteFrom_ok (i := 0) (hlisted m') fun k v' hv' j => by
    obtain ⟨v, -, hg⟩ := hback k v' (Map.mem_entries.mp hv')
    exact ⟨v, hg j⟩
  have hm : m'' = m := by
    refine Map.ext fun k => ?_
    cases hk : m''.get k with
    | none => exact (Map.containsKey_eq_false.mp
        (((hkeys k).symm.trans (hkeys' k).symm).trans (Map.containsKey_eq_false.mpr hk))).symm
    | some v₂ =>
      obtain ⟨j, v', hv', hg₂⟩ := Map.get_of_rewrite hm'' hk
      obtain ⟨v, hv, hg⟩ := hback k v' hv'
      cases hg₂.symm.trans (hg j)
      exact hv.symm
  exact ⟨m', hm', hm ▸ hm''⟩

/-- And only then. -/
theorem Map.undone_of_rewrite {g : Nat → υ → Except ε υ} {m m' : Map κ υ}
    (hf : m.rewrite f = .ok m') (hg : m'.rewrite g = .ok m) {k : κ} {v : υ}
    (hk : m.get k = some v) : ∃ i j v', f i v = .ok v' ∧ g j v' = .ok v := by
  obtain ⟨j, v', hv', hgv⟩ := Map.get_of_rewrite hg hk
  obtain ⟨i, v₀, hv₀, hfv⟩ := Map.get_of_rewrite hf hv'
  cases hk.symm.trans hv₀
  exact ⟨i, j, v', hfv, hgv⟩

end

end Core

namespace IamRust

open Core
open Core.Tx (failIf forEach)

/-- A type's JSON (serde_json). -/
structure JsonText (α : Type) where
  print : α → String
  parse : String → Option α

/-- The JSON of what the columns hold; `isJson` says whether a text is any. -/
structure JsonTexts where
  profile : JsonText UserProfile
  conversation : JsonText Conversation
  message : JsonText Message
  bootstrap : JsonText BootstrapResponse
  isJson : String → Bool

/-! ## Tables -/

/-- mirrors crates/client-core/migrations/0001_local.sql:9-19 -/
structure CachedUser where
  username : String
  nickname : String
  avatarUrl : Option Url
  signature : String
  presence : Presence
  lastSeenAt : Option DateTime
  payloadJson : String

/-- mirrors crates/client-core/migrations/0001_local.sql:21-33 -/
structure CachedConversation where
  isGroup : Bool
  displayName : String
  pinned : Bool
  muted : Bool
  payloadJson : String

/-- `cacheEncryption`: `local_meta` has the row `cache_encryption`. -/
structure Cells extends LocalStore CachedConversation String String where
  users : Map UserId CachedUser := .empty
  drafts : Map ConversationId String := .empty
  bootstrapSnapshot : Option String := none
  cacheEncryption : Bool := false

/-- The tables with a protected column. -/
inductive Table where
  | users | conversations | messages | drafts | outbox | localMeta
  deriving DecidableEq, Repr

namespace Cells

/-- A transaction on the tables both stores have. -/
def onStore {α : Type} (t : Tx String (LocalStore CachedConversation String String) α) :
    Tx String Cells α := fun s =>
  match t s.toLocalStore with
  | .ok (a, store) => .ok (a, { s with toLocalStore := store })
  | .error e => .error e

section
variable {κ : Type} (cipher : Cipher κ) (json : JsonTexts) (rfc3339 : DateTime → String)

/-! ## Writing

`draw table i` is the nonce drawn for the `i`-th row of the table. -/

section
variable (key : Option κ) (draw : Table → Nat → Nonce)

/-- mirrors crates/client-core/src/lib.rs:763-802 -/
def cacheProfile (profile : UserProfile) (i : Nat) : Tx String Cells Unit := do
  let payload ← Tx.ofExcept (protect cipher (json.profile.print profile) key (draw .users i))
  modify fun s => { s with
    users := s.users.insert profile.id {
      username := if key.isSome then "" else profile.username
      nickname := if key.isSome then "" else profile.nickname
      avatarUrl := if key.isSome then none else profile.avatarUrl
      signature := if key.isSome then "" else profile.signature
      presence := profile.presence
      lastSeenAt := profile.lastSeenAt
      payloadJson := payload } }

/-- mirrors crates/client-core/src/lib.rs:804-849 -/
def cacheConversation (conversation : Conversation) (i : Nat) : Tx String Cells Unit := do
  let payload ← Tx.ofExcept
    (protect cipher (json.conversation.print conversation) key (draw .conversations i))
  modify fun s => { s with
    conversations := s.conversations.insert conversation.id {
      isGroup := conversation.isGroup
      displayName := if key.isSome then "" else conversation.name
      pinned := conversation.pinned
      muted := conversation.muted
      payloadJson := payload } }

/-- mirrors crates/client-core/src/lib.rs:178-213 -/
def cacheBootstrap (value : BootstrapResponse) : Tx String Cells Unit := do
  forEach (value.profile :: value.friends).zipIdx fun entry =>
    cacheProfile cipher json key draw entry.1 entry.2
  forEach value.conversations.zipIdx fun entry =>
    cacheConversation cipher json key draw entry.1 entry.2
  let snapshot ← Tx.ofExcept (protect cipher (json.bootstrap.print value) key (draw .localMeta 0))
  modify fun s => { s with bootstrapSnapshot := some snapshot }
  modify fun s => { s with syncCursor := some (Nat.repr value.cursor) }

/-- mirrors crates/client-core/src/lib.rs:230-327 -/
def cacheMessages (messages : List Message) : Tx String Cells Unit :=
  onStore (cacheMessagesWith rfc3339 key.isSome
    (fun i message => protect cipher (json.message.print message) key (draw .messages i)) messages)

/-- The check of the protected text is the `CHECK` of the table.
mirrors crates/client-core/src/lib.rs:383-402, crates/client-core/migrations -/
def saveDraft (conversationId : ConversationId) (body : String) : Tx String Cells Unit := do
  failIf (8000 < body.length) "draft is too large"
  let text ← Tx.ofExcept (protect cipher body key (draw .drafts 0))
  let s ← get
  failIf (!s.conversations.containsKey conversationId || decide (32768 < text.length))
    "failed to save draft"
  modify fun s => { s with drafts := s.drafts.insert conversationId text }

/-- mirrors crates/client-core/src/lib.rs:404-413 -/
def loadDraft (s : Cells) (conversationId : ConversationId) : Except String String :=
  match s.drafts.get conversationId with
  | none => .ok ""
  | some body => unprotect cipher body key

/-- mirrors crates/client-core/src/lib.rs:415-449 -/
def enqueueOutbox (clientMessageId : MessageId) (conversationId : ConversationId)
    (payloadJson : String) (now : DateTime) : Tx String Cells Unit := do
  failIf (1048576 < Text.byteLen payloadJson ∨ json.isJson payloadJson = false)
    "outbox payload is invalid"
  let payload ← Tx.ofExcept (protect cipher payloadJson key (draw .outbox 0))
  onStore (IamRust.enqueueOutbox rfc3339 clientMessageId conversationId payload now)

end

/-! ## Rewriting -/

/-- What is made of each protected row; the number is its place in the table. -/
structure Rewriting where
  user : Nat → CachedUser → Except String CachedUser
  conversation : Nat → CachedConversation → Except String CachedConversation
  message : Nat → CachedMessage String → Except String (CachedMessage String)
  draft : Nat → String → Except String String
  outbox : Nat → OutboxRow String → Except String (OutboxRow String)
  snapshot : String → Except String String

/-- Table by table. -/
def rewrite (f : Rewriting) : Tx String Cells Unit := do
  let s ← get
  let users ← Tx.ofExcept (s.users.rewrite f.user)
  let conversations ← Tx.ofExcept (s.conversations.rewrite f.conversation)
  let messages ← Tx.ofExcept (s.messages.rewrite f.message)
  let drafts ← Tx.ofExcept (s.drafts.rewrite f.draft)
  let outbox ← Tx.ofExcept (s.outbox.rewrite f.outbox)
  let bootstrapSnapshot ← Tx.ofExcept (match s.bootstrapSnapshot with
    | none => .ok none
    | some snapshot => (f.snapshot snapshot).map some)
  modify fun s => { s with
    users := users
    conversations := conversations
    messages := messages
    drafts := drafts
    outbox := outbox
    bootstrapSnapshot := bootstrapSnapshot }

/-- The `CHECK` of the drafts.
mirrors crates/client-core/migrations/0002_encrypted_cache.sql:5 -/
def checkedDraft (error : String) (text : String) : Except String String :=
  if 32768 < text.length then .error error else .ok text

/-- mirrors crates/client-core/src/lib.rs:857-933 -/
def encrypting (key : κ) (draw : Table → Nat → Nonce) : Rewriting where
  user i row := (protect cipher row.payloadJson (some key) (draw .users i)).map fun payload =>
    { row with
      username := ""
      nickname := ""
      avatarUrl := none
      signature := ""
      payloadJson := payload }
  conversation i row :=
    (protect cipher row.payloadJson (some key) (draw .conversations i)).map fun payload =>
      { row with displayName := "", payloadJson := payload }
  message i row := (protect cipher row.payload (some key) (draw .messages i)).map fun payload =>
    { row with payload := payload }
  draft i body := (protect cipher body (some key) (draw .drafts i)).bind
    (checkedDraft "failed to encrypt draft")
  outbox i row := (protect cipher row.payload (some key) (draw .outbox i)).map fun payload =>
    { row with payload := payload }
  snapshot value := protect cipher value (some key) (draw .localMeta 0)

/-- mirrors crates/client-core/src/lib.rs:851-950 -/
def encryptExistingCache (key : κ) (draw : Table → Nat → Nonce) : Tx String Cells Unit := do
  rewrite (encrypting cipher key draw)
  modify fun s => { s with search := [] }
  modify fun s => { s with cacheEncryption := true }

/-- The text behind a payload and what it is read as. -/
def opened {α : Type} (text : JsonText α) (key : κ) (payload error : String) :
    Except String (String × α) :=
  match unprotect cipher payload (some key) with
  | .error e => .error e
  | .ok value =>
    match text.parse value with
    | none => .error error
    | some a => .ok (value, a)

/-- mirrors crates/client-core/src/lib.rs:958-1063 -/
def decrypting (key : κ) : Rewriting where
  user _ row :=
    (opened cipher json.profile key row.payloadJson "encrypted profile cache is invalid").map
      fun entry => {
        username := entry.2.username
        nickname := entry.2.nickname
        avatarUrl := entry.2.avatarUrl
        signature := entry.2.signature
        presence := entry.2.presence
        lastSeenAt := entry.2.lastSeenAt
        payloadJson := entry.1 }
  conversation _ row :=
    (opened cipher json.conversation key row.payloadJson
      "encrypted conversation cache is invalid").map
      fun entry => { row with displayName := entry.2.name, payloadJson := entry.1 }
  message _ row :=
    (opened cipher json.message key row.payload "encrypted message cache is invalid").map
      fun entry => { row with payload := entry.1 }
  draft _ body := (unprotect cipher body (some key)).bind (checkedDraft "failed to decrypt draft")
  outbox _ row := (unprotect cipher row.payload (some key)).map fun payload =>
    { row with payload := payload }
  snapshot value := unprotect cipher value (some key)

/-- The search index is built again from the messages.
mirrors crates/client-core/src/lib.rs:952-1075 -/
def decryptExistingCache (key : κ) : Tx String Cells Unit := do
  rewrite (decrypting cipher json key)
  modify fun s => { s with search := s.messages.values.flatMap fun row =>
    ((json.message.parse row.payload).map (Message.searchRows false)).getD [] }
  modify fun s => { s with cacheEncryption := false }

end

/-! ## What holds of every protected column -/

/-- `P` of the protected columns of the tables both stores have. -/
structure StoreAll (P : String → Prop) (s : LocalStore CachedConversation String String) :
    Prop where
  conversations : ∀ id row, s.conversations.get id = some row → P row.payloadJson
  messages : ∀ id row, s.messages.get id = some row → P row.payload
  outbox : ∀ id row, s.outbox.get id = some row → P row.payload

/-- `P` of every protected column. -/
structure All (P : String → Prop) (s : Cells) : Prop where
  store : StoreAll P s.toLocalStore
  users : ∀ id row, s.users.get id = some row → P row.payloadJson
  drafts : ∀ id body, s.drafts.get id = some body → P body
  snapshot : ∀ value, s.bootstrapSnapshot = some value → P value

theorem checkedDraft_ok {error : String} {r : Except String String} {text : String} :
    r.bind (checkedDraft error) = .ok text ↔ r = .ok text ∧ text.length ≤ 32768 := by
  cases r with
  | error e => simp [Except.bind]
  | ok t =>
    simp only [Except.bind, checkedDraft, Except.ok.injEq]
    split
    · rename_i hlong
      refine iff_of_false nofun fun ⟨heq, hle⟩ => ?_
      subst heq
      exact Nat.not_le.mpr hlong hle
    · rename_i hshort
      rw [Except.ok.injEq]
      exact ⟨fun heq => ⟨heq, heq ▸ Nat.not_lt.mp hshort⟩, And.left⟩

theorem All.imp {P Q : String → Prop} {s : Cells} (h : s.All P) (hPQ : ∀ text, P text → Q text) :
    s.All Q where
  store := {
    conversations := fun id row hrow => hPQ _ (h.store.conversations id row hrow)
    messages := fun id row hrow => hPQ _ (h.store.messages id row hrow)
    outbox := fun id row hrow => hPQ _ (h.store.outbox id row hrow) }
  users id row hrow := hPQ _ (h.users id row hrow)
  drafts id body hbody := hPQ _ (h.drafts id body hbody)
  snapshot value hvalue := hPQ _ (h.snapshot value hvalue)

/-- What the rewriting makes of a column with `P` has `Q`. -/
structure Rewriting.Takes (f : Rewriting) (P Q : String → Prop) : Prop where
  user : ∀ i row row', P row.payloadJson → f.user i row = .ok row' → Q row'.payloadJson
  conversation : ∀ i row row', P row.payloadJson → f.conversation i row = .ok row' →
    Q row'.payloadJson
  message : ∀ i row row', P row.payload → f.message i row = .ok row' → Q row'.payload
  draft : ∀ i body body', P body → f.draft i body = .ok body' → Q body'
  outbox : ∀ i row row', P row.payload → f.outbox i row = .ok row' → Q row'.payload
  snapshot : ∀ value value', P value → f.snapshot value = .ok value' → Q value'

theorem All.rewrite {P Q : String → Prop} {f : Rewriting} {s s' : Cells} {u : Unit}
    (h : s.All P) (hf : f.Takes P Q) (hr : (Cells.rewrite f).Runs s u s') : s'.All Q := by
  unfold Cells.rewrite at hr
  simp only [Tx.runs_get_bind, Tx.runs_ofExcept_bind, Tx.runs_modify] at hr
  obtain ⟨users, husers, conversations, hconversations, messages, hmessages, drafts, hdrafts,
    outbox, houtbox, snapshot, hsnapshot, rfl⟩ := hr
  refine ⟨⟨?_, ?_, ?_⟩, ?_, ?_, ?_⟩
  · intro id row' hrow
    obtain ⟨j, row, hold, hrow⟩ := Map.get_of_rewrite hconversations hrow
    exact hf.conversation j row row' (h.store.conversations id row hold) hrow
  · intro id row' hrow
    obtain ⟨j, row, hold, hrow⟩ := Map.get_of_rewrite hmessages hrow
    exact hf.message j row row' (h.store.messages id row hold) hrow
  · intro id row' hrow
    obtain ⟨j, row, hold, hrow⟩ := Map.get_of_rewrite houtbox hrow
    exact hf.outbox j row row' (h.store.outbox id row hold) hrow
  · intro id row' hrow
    obtain ⟨j, row, hold, hrow⟩ := Map.get_of_rewrite husers hrow
    exact hf.user j row row' (h.users id row hold) hrow
  · intro id body' hbody
    obtain ⟨j, body, hold, hbody⟩ := Map.get_of_rewrite hdrafts hbody
    exact hf.draft j body body' (h.drafts id body hold) hbody
  · intro value' hvalue
    dsimp only at hvalue
    subst hvalue
    cases hold : s.bootstrapSnapshot with
    | none => simp [hold] at hsnapshot
    | some value =>
      simp only [hold] at hsnapshot
      obtain ⟨v, hv, hv'⟩ := map_eq_ok_iff.mp hsnapshot
      cases hv'
      exact hf.snapshot value _ (h.snapshot value hold) hv

end Cells

/-! ## Drafts -/

section
variable {κ : Type} (cipher : Cipher κ)

/-- A draft that is saved is the protected body. -/
theorem saveDraft_runs {key : Option κ} {draw : Table → Nat → Nonce} {c : ConversationId}
    {body : String} {s s' : Cells}
    (h : (Cells.saveDraft cipher key draw c body).Runs s () s') :
    ∃ text, protect cipher body key (draw .drafts 0) = .ok text ∧ s'.drafts.get c = some text := by
  unfold Cells.saveDraft at h
  rw [Tx.runs_failIf_bind, Tx.runs_ofExcept_bind] at h
  obtain ⟨-, text, htext, h⟩ := h
  rw [Tx.runs_get_bind, Tx.runs_failIf_bind, Tx.runs_modify] at h
  obtain ⟨-, rfl⟩ := h
  exact ⟨text, htext, Map.get_insert_self ..⟩

/-- **A text is protected and read back exactly if it does not start with the mark**, as long as
the cipher takes it, and so is a draft that was saved. -/
theorem protection_round_trips :
    (∀ v key nonce, Protects cipher v key nonce ↔
      marked v = false ∧ (key.isSome = true → Text.byteLen v ≤ 2 ^ 36)) ∧
    ∀ key draw c body s s', (Cells.saveDraft cipher key draw c body).Runs s () s' →
      (Cells.loadDraft cipher key s' c = .ok body ↔ marked body = false) := by
  refine ⟨cipher.protects_iff, fun key draw c body s s' h => ?_⟩
  obtain ⟨text, htext, hget⟩ := saveDraft_runs cipher h
  rw [Cells.loadDraft, hget]
  dsimp only
  constructor
  · intro hu
    by_contra hm
    have hm : marked body = true := by simpa using hm
    rw [cipher.protect_marked hm] at htext
    cases htext
    exact cipher.unprotect_marked hm hu
  · exact fun hclear => cipher.unprotect_protect hclear htext

end

/-- With one conversation. -/
def oneConversation : Cells where
  conversations := Map.empty.insert 9 ⟨false, "", false, false, "{}"⟩

def zeroNonce : Nonce := ⟨List.replicate 12 0, rfl⟩

/-- The draft "enc:v1:" is saved, with a key and without, and cannot be loaded; with a key
`protect` does not change it. -/
theorem marked_draft_lost :
    (∃ s', (Cells.saveDraft Cipher.tagged none (fun _ _ => zeroNonce) 9 "enc:v1:").Runs
        oneConversation () s' ∧
      Cells.loadDraft Cipher.tagged none s' 9 =
        .error "local cache is encrypted but its key is unavailable") ∧
    protect Cipher.tagged "enc:v1:" (some 7) zeroNonce = .ok "enc:v1:" ∧
    ∃ s', (Cells.saveDraft Cipher.tagged (some 7) (fun _ _ => zeroNonce) 9 "enc:v1:").Runs
        oneConversation () s' ∧
      Cells.loadDraft Cipher.tagged (some 7) s' 9 ≠ .ok "enc:v1:" := by
  have hmarked : marked "enc:v1:" = true := by decide
  refine ⟨⟨_, rfl, rfl⟩, rfl, ?_⟩
  obtain ⟨s', hs'⟩ : ∃ s', (Cells.saveDraft Cipher.tagged (some 7) (fun _ _ => zeroNonce) 9
      "enc:v1:").Runs oneConversation () s' := ⟨_, rfl⟩
  obtain ⟨text, htext, hget⟩ := saveDraft_runs Cipher.tagged hs'
  rw [Cipher.protect_marked Cipher.tagged hmarked] at htext
  cases htext
  refine ⟨s', hs', ?_⟩
  rw [Cells.loadDraft, hget]
  exact Cipher.unprotect_marked Cipher.tagged hmarked

end IamRust
