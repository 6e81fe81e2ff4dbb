import IamRust.L0Core.Simulation
import IamRust.L6Client.Restored
import IamRust.L6Client.Searching

/-!
# What encryption changes

The cache while it is encrypted, decrypted and written to, beside a cache that
never had a key and takes the same writes. The reads of the two are compared:
`load_bootstrap`, `load_messages`, `search_messages`, `load_draft`,
`ready_outbox`.

* `Shows`: which rows stand for which, column by column.
* `shadowed`: the calls on the one, with the writes that were committed done
  to the other.
* `encryption_transparent`: when no call is in progress the reads agree.
-/
namespace Core

section
variable {κ υ ω ε : Type} [Ord κ] [Std.TransOrd κ] [Std.LawfulEqOrd κ] [DecidableEq κ]
  {f : Nat → υ → Except ε υ} {m m' : Map κ υ}

/-- No row is added or lost. -/
theorem Map.rewriteFrom_keys {i : Nat} {rows : List (κ × υ)}
    (hrows : ∀ k v, (k, v) ∈ rows → m.containsKey k = true)
    (h : Map.rewriteFrom f i rows m = .ok m') (k : κ) : m'.containsKey k = m.containsKey k := by
  induction rows generalizing i m with
  | nil =>
    cases h
    rfl
  | cons entry rows ih =>
    obtain ⟨k₀, v₀⟩ := entry
    unfold Map.rewriteFrom at h
    split at h
    · cases h
    · rename_i v₁ hv₁
      have hk₀ := hrows k₀ v₀ List.mem_cons_self
      have hsame : ∀ a, (m.insert k₀ v₁).containsKey a = m.containsKey a := fun a => by
        rw [Bool.eq_iff_iff, Map.containsKey_insert]
        exact ⟨fun ha => ha.elim (fun hk => hk ▸ hk₀) id, .inr⟩
      rw [← hsame k]
      exact ih (fun a v hv => (hsame a).trans (hrows a v (List.mem_cons_of_mem _ hv))) h

/-- The values that match those of a map match what they are rewritten to. -/
theorem Map.Matches.rewritten {R S : υ → ω → Prop} {p : Map κ ω} (h : m.Matches R p)
    (hm : m.rewrite f = .ok m') (hf : ∀ j v v' w, R v w → f j v = .ok v' → S v' w) :
    m'.Matches S p := by
  intro k
  cases hk : m'.get k with
  | none =>
    have hgone : m.containsKey k = false := by
      rw [← Map.rewriteFrom_keys (fun a v ha => ?_) hm k]
      · exact Map.containsKey_eq_false.mpr hk
      · exact Map.containsKey_iff.mpr ⟨v, Map.mem_entries.mp ha⟩
    rw [h.containsKey] at hgone
    rw [Map.containsKey_eq_false.mp hgone]
    exact .none
  | some v' =>
    obtain ⟨j, v, hv, hfv⟩ := Map.get_of_rewrite hm hk
    obtain ⟨w, hw, hR⟩ := h.left hv
    rw [hw]
    exact .some (hf j v v' w hR hfv)

end

end Core

namespace IamRust

open Core
open Core.Tx (failIf forEach Simulated)

/-! ## Reading -/

section
variable {κ : Type} (cipher : Cipher κ) (json : JsonTexts) (rfc3339 : DateTime → String)
  (lowercase : String → String)

/-- A payload, opened and read as a value. -/
def JsonText.read {α : Type} (text : JsonText α) (error : String) (key : Option κ)
    (payload : String) : Except String α :=
  match unprotect cipher payload key with
  | .error e => .error e
  | .ok value =>
    match text.parse value with
    | none => .error error
    | some a => .ok a

/-- A row of the outbox as it is read.
mirrors crates/client-core/src/lib.rs:98-106 -/
structure Cells.OutboxItem where
  clientMessageId : MessageId
  conversationId : ConversationId
  payloadJson : String
  attemptCount : Nat
  nextAttemptAt : String
  lastErrorCode : Option String
  deriving DecidableEq

namespace Cells

variable (key : Option κ) (s : Cells)

/-- mirrors crates/client-core/src/lib.rs:215-228 -/
def loadBootstrap : Except String (Option BootstrapResponse) :=
  match s.bootstrapSnapshot with
  | none => .ok none
  | some value => (json.bootstrap.read cipher "local cache is invalid" key value).map some

/-- The first payload that cannot be read is the error.
mirrors crates/client-core/src/lib.rs:329-345 -/
def loadMessages (conversationId : ConversationId) : Except String (List Message) :=
  ((IamRust.loadMessages s.toLocalStore conversationId).map
    (json.message.read cipher "cached message is invalid" key)).mapM id

/-- Row by row, until `limit` are found.
mirrors crates/client-core/src/lib.rs:363-380 -/
def scan (query : String) (limit : Nat) :
    List Message → List (Except String Message) → Except String (List Message)
  | found, [] => .ok found
  | _, .error e :: _ => .error e
  | found, .ok message :: rows =>
    if message.matchesQuery lowercase query then
      if (found ++ [message]).length = limit then .ok (found ++ [message])
      else scan query limit (found ++ [message]) rows
    else scan query limit found rows

/-- mirrors crates/client-core/src/lib.rs:347-381 -/
def searchMessages (query : String) (limit : Nat) : Except String (List Message) :=
  let query := Text.trim query
  if query.isEmpty ∨ 200 < query.toList.length ∨ ¬ (1 ≤ limit ∧ limit ≤ 100) then
    .error "message search query is invalid"
  else
    let rows := ((s.messages.values.filter (·.searchable)).insertionSort
      CachedMessage.newer).take 10000
    scan lowercase (lowercase query) limit [] (rows.map fun row =>
      json.message.read cipher "cached message is invalid" key row.payload)

/-- mirrors crates/client-core/src/lib.rs:451-474 -/
def readyOutbox (now : DateTime) : Except String (List OutboxItem) :=
  ((IamRust.readyOutbox rfc3339 s.toLocalStore now).map fun entry =>
    (unprotect cipher entry.2.payload key).map fun payloadJson => {
      clientMessageId := entry.1
      conversationId := entry.2.conversationId
      payloadJson := payloadJson
      attemptCount := entry.2.attemptCount
      nextAttemptAt := entry.2.nextAttemptAt
      lastErrorCode := entry.2.lastErrorCode : OutboxItem }).mapM id

end Cells

/-- With the key, the reads of `s` are those of `p` without one. -/
structure ReadsAlike (key : Option κ) (s p : Cells) : Prop where
  bootstrap : s.loadBootstrap cipher json key = p.loadBootstrap cipher json none
  messages : ∀ c, s.loadMessages cipher json key c = p.loadMessages cipher json none c
  search : ∀ query limit, s.searchMessages cipher json lowercase key query limit =
    p.searchMessages cipher json lowercase none query limit
  draft : ∀ c, Cells.loadDraft cipher key s c = Cells.loadDraft cipher none p c
  outbox : ∀ now, s.readyOutbox cipher rfc3339 key now = p.readyOutbox cipher rfc3339 none now
  cursor : s.syncCursor = p.syncCursor

/-! ## The cache that never had a key -/

/-- What a step writes to it: what a writer wrote to the other. -/
def KeyTask.shadow (v : Vault κ) (p : Cells) : KeyTask κ → KeyStep κ → Cells
  | .writing w key, .next true draw =>
    match w.run cipher json rfc3339 key draw v.cells with
    | .ok _ => ((w.run cipher json rfc3339 none draw).commit p).2
    | .error _ => p
  | _, _ => p

/-- The orderly runs of the calls, from a cache in the clear, with a copy of it beside. -/
def shadowed (ι : Type) [DecidableEq ι] :
    LTS ((Vault κ × (ι → KeyTask κ)) × Cells) (ι × KeyStep κ) where
  init x := (keySwitching cipher json rfc3339 ι).init x.1.1 x.1.2 ∧
    x.1.1.cells.cacheEncryption = false ∧ x.2 = x.1.1.cells
  step x l x' :=
    ((keySwitching cipher json rfc3339 ι).lts.restrict (OrderlyStep json)).step x.1 l x'.1 ∧
      x'.2 = (x.1.2 l.1).shadow cipher json rfc3339 x.1.1 x.2 l.2

/-! ## Which stores stand for each other -/

/-- The text is read as the value, which is in the clear. -/
def Opens (key : Option κ) (text value : String) : Prop :=
  marked value = false ∧ unprotect cipher text key = .ok value

/-- The rows of the tables both stores have. -/
structure StoreShows (key : Option κ) (s p : LocalStore CachedConversation String String) :
    Prop where
  conversations : s.conversations.Matches
    (fun row row' => Opens cipher key row.payloadJson row'.payloadJson) p.conversations
  messages : s.messages.Matches (fun row row' => ∃ value,
    row' = { row with payload := value } ∧ Opens cipher key row.payload value) p.messages
  outbox : s.outbox.Matches (fun row row' => ∃ value,
    row' = { row with payload := value } ∧ Opens cipher key row.payload value) p.outbox
  cursor : s.syncCursor = p.syncCursor

/-- Every protected column of `s` is read as that of `p`. -/
structure Shows (key : Option κ) (s p : Cells) : Prop where
  store : StoreShows cipher key s.toLocalStore p.toLocalStore
  users : s.users.Matches
    (fun row row' => Opens cipher key row.payloadJson row'.payloadJson) p.users
  drafts : s.drafts.Matches (Opens cipher key) p.drafts
  snapshot : Option.Rel (Opens cipher key) s.bootstrapSnapshot p.bootstrapSnapshot

end

section
variable {κ : Type} {cipher : Cipher κ} {key : Option κ} {text value : String}

/-- What was written and can be read again. -/
theorem opens_protect {nonce : Nonce} (hclear : marked value = false)
    (hp : protect cipher value key nonce = .ok text) : Opens cipher key text value :=
  ⟨hclear, cipher.unprotect_protect hclear hp⟩

/-- Without a key the texts are the same. -/
theorem opens_none_iff : Opens cipher none text value ↔ text = value ∧ marked value = false := by
  constructor
  · rintro ⟨hclear, hu⟩
    unfold unprotect at hu
    split at hu
    · cases hu
      exact ⟨rfl, hclear⟩
    · cases hu
  · rintro ⟨rfl, hclear⟩
    exact ⟨hclear, cipher.unprotect_clear none hclear⟩

/-- A text in the clear is read whatever the key. -/
theorem Opens.of_none (h : Opens cipher none text value) (key : Option κ) :
    Opens cipher key text value := by
  obtain ⟨rfl, hclear⟩ := opens_none_iff.mp h
  exact ⟨hclear, cipher.unprotect_clear key hclear⟩

/-- Encrypted, it is read as before. -/
theorem Opens.protected {k : κ} {nonce : Nonce} {text' : String} (h : Opens cipher none text value)
    (hp : protect cipher text (some k) nonce = .ok text') : Opens cipher (some k) text' value := by
  obtain ⟨rfl, hclear⟩ := opens_none_iff.mp h
  exact opens_protect hclear hp

/-- Decrypted, it is what it was read as. -/
theorem Opens.unprotected {k : κ} {text' : String}
    (h : Opens cipher (some k) text value) (hu : unprotect cipher text (some k) = .ok text') :
    Opens cipher none text' value := by
  have heq := hu.symm.trans h.2
  cases heq
  exact opens_none_iff.mpr ⟨rfl, h.1⟩

end

/-! ## Stores that stand for each other are read alike -/

section
variable {κ : Type} {cipher : Cipher κ} {json : JsonTexts} {rfc3339 : DateTime → String}
  {lowercase : String → String} {key : Option κ} {s p : Cells}

theorem Opens.read {α : Type} {text value error : String} {as : JsonText α}
    (h : Opens cipher key text value) :
    as.read cipher error key text = as.read cipher error none value := by
  unfold JsonText.read
  rw [h.2, cipher.unprotect_clear none h.1]

theorem Shows.loadBootstrap (h : Shows cipher key s p) :
    s.loadBootstrap cipher json key = p.loadBootstrap cipher json none := by
  unfold Cells.loadBootstrap
  rcases rel_cases h.snapshot with ⟨hs, hp⟩ | ⟨text, value, hs, hp, hopens⟩
  · rw [hs, hp]
  · rw [hs, hp]
    dsimp only
    rw [hopens.read]

/-- The rows are listed in the same order, as far as the order goes by the other columns. -/
theorem Shows.rows (h : Shows cipher key s p) {keep : CachedMessage String → Bool}
    {before : CachedMessage String → CachedMessage String → Prop} [DecidableRel before]
    (hkeep : ∀ (row : CachedMessage String) value, keep { row with payload := value } = keep row)
    (hbefore : ∀ (a b : CachedMessage String) value value',
      before { a with payload := value } { b with payload := value' } ↔ before a b) :
    List.Forall₂ (fun row row' => ∃ value,
        row' = { row with payload := value } ∧ Opens cipher key row.payload value)
      ((s.messages.values.filter keep).insertionSort before)
      ((p.messages.values.filter keep).insertionSort before) := by
  refine forall₂_insertionSort (forall₂_filter h.store.messages.values ?_) ?_
  · rintro row row' ⟨value, rfl, -⟩
    exact (hkeep row value).symm
  · rintro a a' b b' ⟨value, rfl, -⟩ ⟨value', rfl, -⟩
    exact (hbefore a b value value').symm

theorem Shows.loadMessages (h : Shows cipher key s p) (c : ConversationId) :
    s.loadMessages cipher json key c = p.loadMessages cipher json none c := by
  unfold Cells.loadMessages IamRust.loadMessages
  rw [List.map_map, List.map_map]
  refine congrArg (List.mapM id) (map_eq_of_forall₂ (h.rows
    (fun _ _ => rfl) fun _ _ _ _ => Iff.rfl) ?_)
  rintro row row' ⟨value, rfl, hopens⟩
  exact hopens.read

theorem Shows.searchMessages (h : Shows cipher key s p) (query : String) (limit : Nat) :
    s.searchMessages cipher json lowercase key query limit =
      p.searchMessages cipher json lowercase none query limit := by
  unfold Cells.searchMessages
  dsimp only
  split
  · rfl
  · refine congrArg (Cells.scan lowercase _ limit []) (map_eq_of_forall₂
      (List.forall₂_take 10000 (h.rows (fun _ _ => rfl) fun _ _ _ _ => Iff.rfl)) ?_)
    rintro row row' ⟨value, rfl, hopens⟩
    exact hopens.read

theorem Shows.loadDraft (h : Shows cipher key s p) (c : ConversationId) :
    Cells.loadDraft cipher key s c = Cells.loadDraft cipher none p c := by
  unfold Cells.loadDraft
  rcases rel_cases (h.drafts c) with ⟨hs, hp⟩ | ⟨text, value, hs, hp, hopens⟩
  · rw [hs, hp]
  · rw [hs, hp]
    dsimp only
    rw [hopens.2, cipher.unprotect_clear none hopens.1]

theorem Shows.readyOutbox (h : Shows cipher key s p) (now : DateTime) :
    s.readyOutbox cipher rfc3339 key now = p.readyOutbox cipher rfc3339 none now := by
  unfold Cells.readyOutbox IamRust.readyOutbox
  refine congrArg (List.mapM id) (map_eq_of_forall₂ (List.forall₂_take 100
    (forall₂_insertionSort (forall₂_filter h.store.outbox.entries ?_) ?_)) ?_)
  · rintro ⟨id, row⟩ ⟨id', row'⟩ ⟨hid, value, hrow, -⟩
    dsimp only at hid hrow ⊢
    rw [hrow]
  · rintro ⟨id, a⟩ ⟨id', a'⟩ ⟨jd, b⟩ ⟨jd', b'⟩ ⟨-, value, ha, -⟩ ⟨-, value', hb, -⟩
    dsimp only at ha hb ⊢
    rw [ha, hb]
  · rintro ⟨id, row⟩ ⟨id', row'⟩ ⟨hid, value, hrow, hopens⟩
    dsimp only at hid hrow hopens ⊢
    subst hid
    subst hrow
    rw [hopens.2, cipher.unprotect_clear none hopens.1]

theorem Shows.readsAlike (h : Shows cipher key s p) :
    ReadsAlike cipher json rfc3339 lowercase key s p where
  bootstrap := h.loadBootstrap
  messages := h.loadMessages
  search := h.searchMessages
  draft := h.loadDraft
  outbox := h.readyOutbox
  cursor := h.store.cursor

/-- Stores in the clear that stand for each other do so whatever the key. -/
theorem Shows.of_none (h : Shows cipher none s p) (key : Option κ) : Shows cipher key s p := by
  have hone : ∀ text value, Opens cipher none text value → Opens cipher key text value :=
    fun text value hopens => hopens.of_none key
  refine ⟨⟨?_, ?_, ?_, h.store.cursor⟩, ?_, ?_, rel_imp h.snapshot hone⟩
  · exact h.store.conversations.imp fun row row' => hone _ _
  · refine h.store.messages.imp ?_
    rintro row row' ⟨value, hrow, hopens⟩
    exact ⟨value, hrow, hone _ _ hopens⟩
  · refine h.store.outbox.imp ?_
    rintro row row' ⟨value, hrow, hopens⟩
    exact ⟨value, hrow, hone _ _ hopens⟩
  · exact h.users.imp fun row row' => hone _ _
  · exact h.drafts.imp hone

end

/-! ## What the calls do to both -/

section
variable {κ : Type} {cipher : Cipher κ} {json : JsonTexts} {rfc3339 : DateTime → String}
  {key : Option κ} {draw : Table → Nat → Nonce}

theorem simulated_onStore {t t' : Tx String (LocalStore CachedConversation String String) Unit}
    (h : Simulated (StoreShows cipher key) t t') :
    Simulated (Shows cipher key) (Cells.onStore t) (Cells.onStore t') := by
  intro s a s₁ p hsp hr
  unfold Tx.Runs Cells.onStore at hr
  split at hr
  · rename_i a' store hstore
    cases hr
    obtain ⟨store', hrun, hstore'⟩ := h _ _ _ _ hsp.store hstore
    refine ⟨{ p with toLocalStore := store' }, ?_, ⟨hstore', hsp.users, hsp.drafts, hsp.snapshot⟩⟩
    unfold Tx.Runs at hrun ⊢
    unfold Cells.onStore
    rw [hrun]
  · cases hr

/-- A value that is protected is written as it is beside. -/
theorem simulated_protect {α : Type} {value : String} {nonce : Nonce}
    {f g : String → Tx String Cells α} (hclear : marked value = false)
    (h : ∀ text, Opens cipher key text value → Simulated (Shows cipher key) (f text) (g value)) :
    Simulated (Shows cipher key) (Tx.ofExcept (protect cipher value key nonce) >>= f)
      (Tx.ofExcept (protect cipher value none nonce) >>= g) :=
  Tx.simulated_ofExcept_then fun text htext =>
    ⟨value, rfl, h text (opens_protect hclear htext)⟩

theorem simulated_cacheProfile {profile : UserProfile} {i : Nat}
    (hp : marked (json.profile.print profile) = false) :
    Simulated (Shows cipher key) (Cells.cacheProfile cipher json key draw profile i)
      (Cells.cacheProfile cipher json none draw profile i) :=
  simulated_protect hp fun _ htext => Tx.simulated_modify fun _ _ h =>
    ⟨h.store, h.users.insert profile.id htext, h.drafts, h.snapshot⟩

theorem simulated_cacheConversation {conversation : Conversation} {i : Nat}
    (hp : marked (json.conversation.print conversation) = false) :
    Simulated (Shows cipher key) (Cells.cacheConversation cipher json key draw conversation i)
      (Cells.cacheConversation cipher json none draw conversation i) :=
  simulated_protect hp fun _ htext => Tx.simulated_modify fun _ _ h =>
    ⟨⟨h.store.conversations.insert conversation.id htext, h.store.messages, h.store.outbox,
      h.store.cursor⟩, h.users, h.drafts, h.snapshot⟩

section
variable {s p : LocalStore CachedConversation String String} {message : Message}

theorem StoreShows.supersede (h : StoreShows cipher key s p) :
    StoreShows cipher key (s.supersede message) (p.supersede message) where
  conversations := h.conversations
  messages := by
    refine h.messages.retain ?_
    rintro id row row' ⟨value, rfl, -⟩
    rfl
  outbox := h.outbox
  cursor := h.cursor

theorem StoreShows.rejects (h : StoreShows cipher key s p) :
    s.rejects message = p.rejects message := by
  have hother : ∀ conversationId : ConversationId,
      (s.messages.entries.any fun entry => entry.1 != message.id &&
        entry.2.sequence == message.sequence && entry.2.conversationId == conversationId) =
      p.messages.entries.any fun entry => entry.1 != message.id &&
        entry.2.sequence == message.sequence && entry.2.conversationId == conversationId := by
    intro conversationId
    refine any_eq_of_forall₂ h.messages.entries ?_
    rintro ⟨id, row⟩ ⟨id', row'⟩ ⟨hid, value, hrow, -⟩
    dsimp only at hid hrow ⊢
    rw [hid, hrow]
  unfold LocalStore.rejects
  rw [h.messages.containsKey, h.conversations.containsKey]
  rcases rel_cases (h.messages message.id) with ⟨hs, hp⟩ | ⟨row, row', hs, hp, value, rfl, -⟩ <;>
    rw [hs, hp] <;> dsimp only <;> rw [hother]

theorem StoreShows.row (h : StoreShows cipher key s p) {text value : String}
    (hopens : Opens cipher key text value) :
    p.row rfc3339 message value = { s.row rfc3339 message text with payload := value } ∧
      Opens cipher key (s.row rfc3339 message text).payload value := by
  rw [LocalStore.row_payload]
  refine ⟨?_, hopens⟩
  unfold LocalStore.row
  rcases rel_cases (h.messages message.id) with ⟨hs, hp⟩ | ⟨row, row', hs, hp, value', rfl, -⟩ <;>
    rw [hs, hp]

end

theorem simulated_cacheMessage {message : Message} {asText asValue : Message → Except String String}
    (hp : ∀ text, asText message = .ok text → ∃ value, asValue message = .ok value ∧
      Opens cipher key text value) :
    Simulated (StoreShows cipher key) (cacheMessage rfc3339 key.isSome asText message)
      (cacheMessage rfc3339 false asValue message) := by
  intro s a s₁ p h hr
  obtain ⟨text, htext, haccepts, rfl⟩ := cacheMessage_runs.mp hr
  obtain ⟨value, hvalue, hopens⟩ := hp text htext
  have hsupersede : StoreShows cipher key (s.supersede message) (p.supersede message) :=
    h.supersede
  refine ⟨p.cached rfc3339 false message value,
    cacheMessage_runs.mpr ⟨value, hvalue, ⟨haccepts.1, ?_⟩, rfl⟩, ?_⟩
  · rw [← hsupersede.rejects]
    exact haccepts.2
  · exact ⟨hsupersede.conversations,
      hsupersede.messages.insert message.id ⟨value, hsupersede.row hopens⟩, hsupersede.outbox,
      hsupersede.cursor⟩

theorem simulated_enqueue {clientMessageId : MessageId} {conversationId : ConversationId}
    {text value : String} {now : DateTime} (hopens : Opens cipher key text value) :
    Simulated (StoreShows cipher key)
      (enqueueOutbox rfc3339 clientMessageId conversationId text now)
      (enqueueOutbox rfc3339 clientMessageId conversationId value now) := by
  intro s a s₁ p h hr
  obtain ⟨hguard, rfl⟩ := enqueueOutbox_runs.mp hr
  rw [h.outbox.containsKey, h.conversations.containsKey] at hguard
  refine ⟨_, enqueueOutbox_runs.mpr ⟨hguard, rfl⟩, ?_⟩
  refine ⟨h.conversations, h.messages, h.outbox.insert clientMessageId ⟨value, ?_⟩, h.cursor⟩
  unfold LocalStore.enqueued
  rcases rel_cases (h.outbox clientMessageId) with
    ⟨hs, hp⟩ | ⟨row, row', hs, hp, value', rfl, -⟩ <;>
    rw [hs, hp] <;> exact ⟨rfl, hopens⟩

/-- What a writer writes under the key, it writes without one. -/
theorem simulated_writing {w : Writing} (hw : w.Unmarked json) :
    Simulated (Shows cipher key) (w.run cipher json rfc3339 key draw)
      (w.run cipher json rfc3339 none draw) := by
  cases w with
  | bootstrap value =>
    obtain ⟨hprofiles, hconversations, hsnapshot⟩ := hw
    refine (Tx.simulated_forEach fun entry he => ?_).bind fun _ =>
      (Tx.simulated_forEach fun entry he => ?_).bind fun _ => ?_
    · exact simulated_cacheProfile (hprofiles _ (List.fst_mem_of_mem_zipIdx he))
    · exact simulated_cacheConversation (hconversations _ (List.fst_mem_of_mem_zipIdx he))
    · refine simulated_protect hsnapshot fun text htext => ?_
      refine (Tx.simulated_modify fun s p h => ?_).bind fun _ =>
        Tx.simulated_modify fun s p h => ?_
      · exact ⟨h.store, h.users, h.drafts, .some htext⟩
      · exact ⟨⟨h.store.conversations, h.store.messages, h.store.outbox, rfl⟩, h.users, h.drafts,
          h.snapshot⟩
  | messages messages =>
    refine simulated_onStore (Tx.simulated_forEach fun entry he =>
      simulated_cacheMessage fun text htext => ?_)
    have hclear := hw _ (List.fst_mem_of_mem_zipIdx he)
    exact ⟨_, rfl, opens_protect hclear htext⟩
  | draft conversationId body =>
    refine Tx.simulated_failIf_then id fun hshort => simulated_protect hw fun text htext => ?_
    intro s a s₁ p h hr
    simp only [Tx.runs_get_bind, Tx.runs_failIf_bind, Tx.runs_modify] at hr
    obtain ⟨hguard, rfl⟩ := hr
    simp only [Bool.or_eq_true, not_or, decide_eq_true_eq] at hguard
    have hknown := hguard.1
    rw [h.store.conversations.containsKey] at hknown
    have hguard' : ¬ (!p.conversations.containsKey conversationId ||
        decide (32768 < body.length)) = true := by
      simp only [Bool.or_eq_true, not_or, decide_eq_true_eq]
      exact ⟨hknown, by omega⟩
    refine ⟨{ p with drafts := p.drafts.insert conversationId body }, ?_, h.store, h.users,
      h.drafts.insert conversationId htext, h.snapshot⟩
    simp only [Tx.runs_get_bind, Tx.runs_failIf_bind, Tx.runs_modify]
    exact ⟨hguard', trivial⟩
  | outbox clientMessageId conversationId payloadJson now =>
    exact Tx.simulated_failIf_then id fun _ => simulated_protect hw fun text htext =>
      simulated_onStore (simulated_enqueue htext)

end

/-! ## Encrypting and decrypting -/

section
variable {κ : Type} {cipher : Cipher κ} {json : JsonTexts} {k : κ} {s s' p : Cells}
  {f : Cells.Rewriting}

/-- A rewriting that keeps what the protected columns stand for, and the other columns of a message
and of an entry of the outbox. -/
structure Rekeys (cipher : Cipher κ) (key key' : Option κ) (f : Cells.Rewriting) : Prop where
  user : ∀ i row row' value, Opens cipher key row.payloadJson value → f.user i row = .ok row' →
    Opens cipher key' row'.payloadJson value
  conversation : ∀ i row row' value, Opens cipher key row.payloadJson value →
    f.conversation i row = .ok row' → Opens cipher key' row'.payloadJson value
  message : ∀ i row row' value, Opens cipher key row.payload value → f.message i row = .ok row' →
    row' = { row with payload := row'.payload } ∧ Opens cipher key' row'.payload value
  draft : ∀ i body body' value, Opens cipher key body value → f.draft i body = .ok body' →
    Opens cipher key' body' value
  outbox : ∀ i row row' value, Opens cipher key row.payload value → f.outbox i row = .ok row' →
    row' = { row with payload := row'.payload } ∧ Opens cipher key' row'.payload value
  snapshot : ∀ text text' value, Opens cipher key text value → f.snapshot text = .ok text' →
    Opens cipher key' text' value

/-- The rewritten tables stand for what the old ones stood for. -/
theorem Shows.rewritten {key key' : Option κ} (h : Shows cipher key s p)
    (hf : Rekeys cipher key key' f) (hr : Cells.Rewritten f s s') : Shows cipher key' s' p where
  store := {
    conversations := h.store.conversations.rewritten hr.conversations
      fun i row row' entry => hf.conversation i row row' entry.payloadJson
    messages := by
      refine h.store.messages.rewritten hr.messages ?_
      rintro i row row' _ ⟨value, rfl, hopens⟩ hrow
      obtain ⟨hrest, hopens'⟩ := hf.message i row row' value hopens hrow
      refine ⟨value, ?_, hopens'⟩
      rw [hrest]
    outbox := by
      refine h.store.outbox.rewritten hr.outbox ?_
      rintro i row row' _ ⟨value, rfl, hopens⟩ hrow
      obtain ⟨hrest, hopens'⟩ := hf.outbox i row row' value hopens hrow
      refine ⟨value, ?_, hopens'⟩
      rw [hrest]
    cursor := hr.rest.1.trans h.store.cursor }
  users := h.users.rewritten hr.users fun i row row' entry => hf.user i row row' entry.payloadJson
  drafts := h.drafts.rewritten hr.drafts fun i body body' value => hf.draft i body body' value
  snapshot := by
    have hsnapshot := hr.snapshot
    rcases rel_cases h.snapshot with ⟨hs, hp⟩ | ⟨text, value, hs, hp, hopens⟩ <;>
      rw [hs] at hsnapshot <;> rw [hp]
    · rw [← Except.ok.inj hsnapshot]
      exact .none
    · obtain ⟨text', htext, heq⟩ := map_eq_ok_iff.mp hsnapshot
      rw [← heq]
      exact .some (hf.snapshot text text' value hopens htext)

theorem encrypting_rekeys (draw : Table → Nat → Nonce) :
    Rekeys cipher none (some k) (Cells.encrypting cipher k draw) where
  user i row row' value hopens hr := by
    obtain ⟨payload, hp, rfl⟩ := map_eq_ok_iff.mp hr
    exact hopens.protected hp
  conversation i row row' value hopens hr := by
    obtain ⟨payload, hp, rfl⟩ := map_eq_ok_iff.mp hr
    exact hopens.protected hp
  message i row row' value hopens hr := by
    obtain ⟨payload, hp, rfl⟩ := map_eq_ok_iff.mp hr
    exact ⟨rfl, hopens.protected hp⟩
  draft i body body' value hopens hr := hopens.protected (Cells.checkedDraft_ok.mp hr).1
  outbox i row row' value hopens hr := by
    obtain ⟨payload, hp, rfl⟩ := map_eq_ok_iff.mp hr
    exact ⟨rfl, hopens.protected hp⟩
  snapshot text text' value hopens hr := hopens.protected hr

theorem decrypting_rekeys : Rekeys cipher (some k) none (Cells.decrypting cipher json k) where
  user i row row' value hopens hr := by
    obtain ⟨entry, he, rfl⟩ := map_eq_ok_iff.mp hr
    exact hopens.unprotected (opened_ok he)
  conversation i row row' value hopens hr := by
    obtain ⟨entry, he, rfl⟩ := map_eq_ok_iff.mp hr
    exact hopens.unprotected (opened_ok he)
  message i row row' value hopens hr := by
    obtain ⟨entry, he, rfl⟩ := map_eq_ok_iff.mp hr
    exact ⟨rfl, hopens.unprotected (opened_ok he)⟩
  draft i body body' value hopens hr := hopens.unprotected (Cells.checkedDraft_ok.mp hr).1
  outbox i row row' value hopens hr := by
    obtain ⟨payload, hp, rfl⟩ := map_eq_ok_iff.mp hr
    exact ⟨rfl, hopens.unprotected hp⟩
  snapshot text text' value hopens hr := hopens.unprotected hr

end

/-! ## Runs -/

section
variable {κ : Type} {cipher : Cipher κ} {json : JsonTexts} {rfc3339 : DateTime → String} {ι : Type}

/-- A cache in the clear stands for itself. -/
theorem Kept.shows {s : Cells} {encrypted : Bool} (h : Kept cipher none encrypted s) :
    Shows cipher none s s := by
  have hone : ∀ text, Under cipher none text → Opens cipher none text text := fun text htext =>
    opens_none_iff.mpr ⟨rfl, under_none_iff.mp htext⟩
  have hself : ∀ {κ' υ : Type} [Ord κ'] [Std.TransOrd κ'] {R : υ → υ → Prop} (m : Map κ' υ),
      (∀ k v, m.get k = some v → R v v) → m.Matches R m := fun m hm k => by
    cases hk : m.get k with
    | none => exact .none
    | some v => exact .some (hm k v hk)
  refine ⟨⟨?_, ?_, ?_, rfl⟩, ?_, ?_, ?_⟩
  · exact hself _ fun id row hrow => hone _ (h.all.store.conversations id row hrow)
  · exact hself _ fun id row hrow => ⟨_, rfl, hone _ (h.all.store.messages id row hrow)⟩
  · exact hself _ fun id row hrow => ⟨_, rfl, hone _ (h.all.store.outbox id row hrow)⟩
  · exact hself _ fun id row hrow => hone _ (h.all.users id row hrow)
  · exact hself _ fun id body hbody => hone _ (h.all.drafts id body hbody)
  · cases hs : s.bootstrapSnapshot with
    | none => exact .none
    | some value => exact .some (hone _ (h.all.snapshot value hs))

/-- What a writer leaves, in both. -/
theorem Shows.written {v : Vault κ} {p : Cells} {w : Writing} {draw : Table → Nat → Nonce}
    (h : Shows cipher v.key v.cells p) (hkept : Kept cipher v.key v.cells.cacheEncryption v.cells)
    (hw : w.Unmarked json) :
    let v' : Vault κ := { v with cells := ((w.run cipher json rfc3339 v.key draw).commit v.cells).2 }
    Shows cipher v'.key v'.cells
      (KeyTask.shadow cipher json rfc3339 v p (.writing w v.key) (.next true draw)) := by
  rcases Tx.commit_cases (w.run cipher json rfc3339 v.key draw) v.cells with
    ⟨u, s', hr, hc⟩ | ⟨e, hc⟩
  · obtain ⟨p', hp', hshows⟩ := simulated_writing hw _ _ _ _ h hr
    have hflag := ((keeps_writing hw).runs hr hkept).flag
    have hkey : Vault.key { v with cells := s' } = v.key := by rw [Vault.key, hflag, Vault.key]
    unfold Tx.Runs at hr
    dsimp only
    rw [hc]
    dsimp only
    rw [hkey, KeyTask.shadow, hr]
    dsimp only
    rw [Tx.commit_of_runs hp']
    exact hshows
  · have hr : ∃ e, w.run cipher json rfc3339 v.key draw v.cells = .error e := by
      cases hrun : w.run cipher json rfc3339 v.key draw v.cells with
      | error e => exact ⟨e, rfl⟩
      | ok r => simp [Tx.commit, hrun] at hc
    obtain ⟨e', hr⟩ := hr
    dsimp only
    rw [hc]
    dsimp only
    rw [KeyTask.shadow, hr]
    exact h

/-- While the tables are in the clear, what becomes of the keys does not matter. -/
theorem Shows.cleared {v v' : Vault κ} {p : Cells} (h : Shows cipher v.key v.cells p)
    (hflag : v.cells.cacheEncryption = false) (hcells : v'.cells = v.cells) :
    Shows cipher v'.key v'.cells p := by
  have hkey : v'.key = v.key := by simp [Vault.key, hcells, hflag]
  rw [hkey, hcells]
  exact h

/-- The store beside stands for the tables under the key they are under. -/
theorem shows_inductive [DecidableEq ι] : (shadowed cipher json rfc3339 ι).Inductive fun x =>
    ((keySwitching cipher json rfc3339 ι).lts.restrict (OrderlyStep json)).Reachable x.1 ∧
      Shows cipher x.1.1.key x.1.1.cells x.2 where
  init := by
    rintro ⟨⟨v, f⟩, p⟩ ⟨hinit, hflag, hp⟩
    refine ⟨.init hinit, ?_⟩
    obtain ⟨hsettled, -⟩ := hinit
    dsimp only at hsettled hflag hp ⊢
    rw [Vault.Settled, hflag, if_neg Bool.false_ne_true] at hsettled
    have hkey : v.key = none := by simp [Vault.key, hflag]
    rw [hkey, hp]
    exact hsettled.shows
  step := by
    rintro ⟨⟨v, f⟩, p⟩ ⟨i, l⟩ ⟨⟨v', f'⟩, p'⟩ ⟨hx, h⟩ ⟨hst, hp⟩
    refine ⟨hx.step hst, ?_⟩
    have hkept := (keyHeld_inductive.reachable hx).kept
    obtain ⟨hok, t, hstep, rfl⟩ := hst
    unfold OrderlyStep at hok
    dsimp only at h hok hstep hp hkept ⊢
    subst hp
    change (f i).step cipher json rfc3339 v l = some (v', t) at hstep
    cases l with
    | next ok draw =>
      change (f i).next cipher json rfc3339 v ok draw = some (v', t) at hstep
      cases hi : f i with
      | idle =>
        rw [hi] at hstep
        cases hstep
      | writing w key =>
        rw [hi] at hok hstep
        obtain ⟨rfl, hw⟩ := hok
        cases hstep
        cases ok with
        | false => exact h
        | true => exact h.written hkept hw
      | encrypting key =>
        rw [hi] at hok hstep
        obtain ⟨hflag, hc⟩ := hok
        simp only [KeyTask.next] at hstep
        split at hstep
        · rename_i r hr
          cases hstep
          have hr : (Cells.encryptExistingCache cipher key draw).Runs v.cells r.1 r.2 := hr
          obtain ⟨hr, -, hon⟩ := Cells.encrypt_runs.mp hr
          have hkey : Vault.key { v with cells := r.2 } = some key := Vault.key_eq hon hc
          rw [Vault.key, hflag, if_neg Bool.false_ne_true] at h
          rw [hkey]
          exact h.rewritten (encrypting_rekeys draw) hr
        · cases hstep
          exact h
      | decrypting key =>
        rw [hi] at hok hstep
        simp only [KeyTask.next] at hstep
        split at hstep
        · rename_i r hr
          cases hstep
          have hr : (Cells.decryptExistingCache cipher json key).Runs v.cells r.1 r.2 := hr
          obtain ⟨hr, -, hoff⟩ := Cells.decrypt_runs.mp hr
          have hopens : Shows cipher (some key) v.cells p := by
            cases hflag : v.cells.cacheEncryption with
            | true => rwa [Vault.key_eq hflag (hok hflag)] at h
            | false =>
              rw [Vault.key, hflag, if_neg Bool.false_ne_true] at h
              exact h.of_none _
          have hkey : Vault.key { v with cells := r.2 } = none := by simp [Vault.key, hoff]
          rw [hkey]
          exact hopens.rewritten decrypting_rekeys hr
        · cases hstep
          exact h
      | remembering key =>
        rw [hi] at hstep
        cases hstep
        exact h
      | reading =>
        rw [hi] at hstep
        simp only [KeyTask.next] at hstep
        split at hstep <;> cases hstep <;> exact h
      | _ =>
        -- the tables are in the clear
        rw [hi] at hok hstep
        cases ok <;> cases hstep <;> exact h.cleared hok rfl
    | _ =>
      -- a call begins
      cases hi : f i <;> rw [hi] at hstep <;> cases hstep
      exact h

/-- **Encryption is transparent.** In every run whose steps are orderly, from a cache in the clear
on, when no call is in progress every read with the key in memory is the one of a cache that never
had a key and took the same writes. -/
theorem encryption_transparent [DecidableEq ι] {lowercase : String → String}
    {x : (Vault κ × (ι → KeyTask κ)) × Cells} (hx : (shadowed cipher json rfc3339 ι).Reachable x)
    (hidle : ∀ i, x.1.2 i = .idle) :
    ReadsAlike cipher json rfc3339 lowercase x.1.1.memory x.1.1.cells x.2 := by
  obtain ⟨hx, h⟩ := shows_inductive.reachable hx
  obtain ⟨hsettled, -⟩ := switching_settles hx hidle
  unfold Vault.Settled at hsettled
  cases hflag : x.1.1.cells.cacheEncryption with
  | false =>
    rw [Vault.key, hflag, if_neg Bool.false_ne_true] at h
    exact (h.of_none _).readsAlike
  | true =>
    rw [hflag, if_pos rfl] at hsettled
    obtain ⟨key, hm, hc, -⟩ := hsettled
    rw [Vault.key_eq hflag hc] at h
    rw [hm]
    exact h.readsAlike

end

/-! ## A draft, encrypted -/

/-- One orderly step of the switch on the left or a writer on the right. -/
noncomputable def draftNext (x : (Vault Nat × (Bool → KeyTask Nat)) × Cells)
    (l : Bool × KeyStep Nat) : Option ((Vault Nat × (Bool → KeyTask Nat)) × Cells) :=
  if OrderlyStep noJson x.1 l then
    (draftSwitching.next x.1 l).map fun y =>
      (y, (x.1.2 l.1).shadow Cipher.tagged noJson (fun _ => "") x.1.1 x.2 l.2)
  else none

theorem draftNext_step {x x' : (Vault Nat × (Bool → KeyTask Nat)) × Cells}
    {l : Bool × KeyStep Nat} (h : draftNext x l = some x') :
    (shadowed Cipher.tagged noJson (fun _ => "") Bool).step x l x' := by
  unfold draftNext at h
  split at h
  · rename_i hok
    obtain ⟨y, hy, rfl⟩ := Option.map_eq_some_iff.mp h
    exact ⟨⟨hok, Threads.step_of_next hy⟩, rfl⟩
  · cases h

/-- A draft is saved, the cache is encrypted, the draft is saved again: it is read. -/
theorem encryption_transparent_draft :
    ∃ x, (shadowed Cipher.tagged noJson (fun _ => "") Bool).Reachable x ∧
      x.1.1.cells.cacheEncryption = true ∧ (x.1.1.cells.drafts.get 9).any marked = true ∧
      Cells.loadDraft Cipher.tagged x.1.1.memory x.1.1.cells 9 = .ok "hi" := by
  obtain ⟨x, hx, hp⟩ := @LTS.reaches_of_exec _ _
    (shadowed Cipher.tagged noJson (fun _ => "") Bool) draftNext
    ((inTheClear, fun _ => .idle), oneConversation)
    ⟨⟨inTheClear_settled, fun _ => rfl⟩, rfl, rfl⟩
    [(true, .write (.draft 9 "h")), (true, .next true zeroNonces), (false, .enable 7),
      (false, .next true zeroNonces), (false, .next true zeroNonces),
      (false, .next true zeroNonces), (true, .write (.draft 9 "hi")),
      (true, .next true zeroNonces)]
    (fun _ _ _ _ h => draftNext_step h)
    (fun x => (x.1.2 false).isIdle && (x.1.2 true).isIdle && x.1.1.cells.cacheEncryption &&
      (x.1.1.cells.drafts.get 9).any marked && x.2.drafts.get 9 == some "hi")
    (by decide +kernel)
  simp only [Bool.and_eq_true, beq_iff_eq] at hp
  obtain ⟨⟨⟨⟨hfalse, htrue⟩, hflag⟩, hmarked⟩, hdraft⟩ := hp
  have h : ReadsAlike Cipher.tagged noJson (fun _ => "") id x.1.1.memory x.1.1.cells x.2 :=
    encryption_transparent hx (bothIdle hfalse htrue)
  refine ⟨x, hx, hflag, hmarked, ?_⟩
  rw [h.draft, Cells.loadDraft, hdraft]
  exact Cipher.tagged.unprotect_clear none (by decide)

end IamRust
