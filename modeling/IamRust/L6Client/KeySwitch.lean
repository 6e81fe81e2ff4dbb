import IamRust.L0Core.Interleave
import IamRust.L6Client.Cells

/-!
# Switching the encryption of the cache

A writer reads the key and writes in a later transaction. A switch works in
steps: the key goes into the credential store, the tables are rewritten, the
key in memory is set; or the tables are rewritten, the key in memory is
dropped, then the one in the credential store. Nothing keeps the steps of two
calls apart.

* `Kept`: the tables under a key, or under none.
* `switching_settles`: in every run whose steps are orderly, when no call is in
  progress the tables are under the key that memory and the credential store
  hold, or in the clear, and every column can be read.
* `plaintext_in_encrypted_cache`: a draft saved across a switch.
-/
namespace IamRust

open Core

/-! ## The calls -/

/-- What a writer writes. -/
inductive Writing where
  | bootstrap (value : BootstrapResponse)
  | messages (messages : List Message)
  | draft (conversationId : ConversationId) (body : String)
  | outbox (clientMessageId : MessageId) (conversationId : ConversationId) (payloadJson : String)
    (now : DateTime)

/-- The tables, the key in memory and the one in the credential store. -/
structure Vault (κ : Type) where
  cells : Cells
  memory : Option κ
  credential : Option κ

/-- Where a call is. -/
inductive KeyTask (κ : Type) where
  | idle
  | writing (w : Writing) (key : Option κ)
  | saving (key : κ)
  | encrypting (key : κ)
  | remembering (key : κ)
  | undoing
  | reading
  | decrypting (key : κ)
  | forgetting
  | clearing

/-- A call begins, or takes its next step: `ok` says whether the database or the credential store
works. -/
inductive KeyStep (κ : Type) where
  | write (w : Writing)
  | enable (key : κ)
  | disable
  | next (ok : Bool) (draw : Table → Nat → Nonce)

section
variable {κ : Type} (cipher : Cipher κ) (json : JsonTexts) (rfc3339 : DateTime → String)

def Writing.run (key : Option κ) (draw : Table → Nat → Nonce) : Writing → Tx String Cells Unit
  | .bootstrap value => Cells.cacheBootstrap cipher json key draw value
  | .messages sent => Cells.cacheMessages cipher json rfc3339 key draw sent
  | .draft conversationId body => Cells.saveDraft cipher key draw conversationId body
  | .outbox clientMessageId conversationId payloadJson now =>
    Cells.enqueueOutbox cipher json rfc3339 key draw clientMessageId conversationId payloadJson now

/-- The next step of a call that is in progress.
mirrors crates/client-core/src/lib.rs:705-732 -/
def KeyTask.next (v : Vault κ) (ok : Bool) (draw : Table → Nat → Nonce) :
    KeyTask κ → Option (Vault κ × KeyTask κ)
  | .idle => none
  | .writing w key =>
    some (if ok then { v with cells := ((w.run cipher json rfc3339 key draw).commit v.cells).2 }
      else v, .idle)
  | .saving key =>
    some (if ok then ({ v with credential := some key }, .encrypting key) else (v, .idle))
  | .encrypting key =>
    match ok, Cells.encryptExistingCache cipher key draw v.cells with
    | true, .ok r => some ({ v with cells := r.2 }, .remembering key)
    | _, _ => some (v, .undoing)
  | .remembering key => some ({ v with memory := some key }, .idle)
  | .undoing => some (if ok then { v with credential := none } else v, .idle)
  | .reading =>
    match v.memory with
    | none => some (v, .idle)
    | some key => some (v, .decrypting key)
  | .decrypting key =>
    match ok, Cells.decryptExistingCache cipher json key v.cells with
    | true, .ok r => some ({ v with cells := r.2 }, .forgetting)
    | _, _ => some (v, .idle)
  | .forgetting => some ({ v with memory := none }, .clearing)
  | .clearing => some (if ok then { v with credential := none } else v, .idle)

/-- A switch that finds nothing to do returns at once.
mirrors crates/client-core/src/lib.rs:705-708 -/
def KeyTask.step (v : Vault κ) (t : KeyTask κ) : KeyStep κ → Option (Vault κ × KeyTask κ)
  | .write w =>
    match t with
    | .idle => some (v, .writing w v.memory)
    | _ => none
  | .enable key =>
    match t with
    | .idle => some (v, if v.memory.isSome then .idle else .saving key)
    | _ => none
  | .disable =>
    match t with
    | .idle => some (v, if v.memory.isSome then .reading else .idle)
    | _ => none
  | .next ok draw => t.next cipher json rfc3339 v ok draw

/-! ## What the tables are under -/

/-- The text is an unmarked one protected under the key, or an unmarked one. -/
def Under (key : Option κ) (text : String) : Prop :=
  ∃ value nonce, marked value = false ∧ protect cipher value key nonce = .ok text

/-- The tables are under the key, and with a key nothing can be searched; `encrypted` is what they
record. -/
structure Kept (key : Option κ) (encrypted : Bool) (s : Cells) : Prop where
  all : s.All (Under cipher key)
  search : key.isSome = true → s.search = []
  flag : s.cacheEncryption = encrypted

/-- The key the tables are under. -/
def Vault.key (v : Vault κ) : Option κ := if v.cells.cacheEncryption then v.credential else none

/-- **What the switch is for.** Encrypted tables are under the key that memory and the credential
store hold. -/
def Vault.Settled (v : Vault κ) : Prop :=
  if v.cells.cacheEncryption then
    ∃ key, v.memory = some key ∧ v.credential = some key ∧ Kept cipher (some key) true v.cells
  else Kept cipher none false v.cells

/-- Any number of calls, from a cache that is settled. -/
def keySwitching (ι : Type) [DecidableEq ι] : Threads ι (Vault κ) (KeyTask κ) (KeyStep κ) where
  init v f := v.Settled cipher ∧ ∀ i, f i = .idle
  step _ v t l := t.step cipher json rfc3339 v l

/-- No text to be written starts with the mark. -/
def Writing.Unmarked : Writing → Prop
  | .bootstrap value =>
      (∀ p ∈ value.profile :: value.friends, marked (json.profile.print p) = false) ∧
      (∀ c ∈ value.conversations, marked (json.conversation.print c) = false) ∧
      marked (json.bootstrap.print value) = false
  | .messages sent => ∀ m ∈ sent, marked (json.message.print m) = false
  | .draft _ body => marked body = false
  | .outbox _ _ payloadJson _ => marked payloadJson = false

/-- A writer writes unmarked texts under the key the tables are under. A switch stores or drops a
key only while the tables are in the clear, encrypts them under the stored key, and sets the key in
memory to the one they are under; what it decrypts is under its key. -/
def KeyTask.Orderly (v : Vault κ) : KeyTask κ → Prop
  | .writing w key => key = v.key ∧ w.Unmarked json
  | .saving _ | .undoing | .forgetting | .clearing => v.cells.cacheEncryption = false
  | .encrypting key => v.cells.cacheEncryption = false ∧ v.credential = some key
  | .remembering key => v.cells.cacheEncryption = true ∧ v.credential = some key
  | .decrypting key => v.cells.cacheEncryption = true → v.credential = some key
  | .idle | .reading => True

/-- The condition on the steps. -/
def OrderlyStep {ι : Type} (x : Vault κ × (ι → KeyTask κ)) (l : ι × KeyStep κ) : Prop :=
  (x.2 l.1).Orderly json x.1

end

/-! ## One text -/

section
variable {κ : Type} {cipher : Cipher κ} {key : Option κ} {text : String}

theorem under_none_iff : Under cipher none text ↔ marked text = false := by
  constructor
  · rintro ⟨value, nonce, hvalue, hp⟩
    cases hp
    exact hvalue
  · exact fun h => ⟨text, ⟨List.replicate 12 0, rfl⟩, h, rfl⟩

/-- A text under a key is read under it. -/
theorem Under.readable (h : Under cipher key text) :
    ∃ value, marked value = false ∧ unprotect cipher text key = .ok value := by
  obtain ⟨value, nonce, hvalue, hp⟩ := h
  exact ⟨value, hvalue, cipher.unprotect_protect hvalue hp⟩

theorem Under.marked {k : κ} (h : Under cipher (some k) text) : marked text = true := by
  obtain ⟨value, nonce, hvalue, hp⟩ := h
  simp only [protect, hvalue, Bool.false_eq_true, if_false] at hp
  split at hp
  · cases hp
  · cases hp
    exact marked_append _

/-- What is opened under the key of the text, or from a text in the clear, is in the clear. -/
theorem Under.opened {k : κ} {value : String}
    (h : Under cipher (some k) text ∨ Under cipher none text)
    (hu : unprotect cipher text (some k) = .ok value) : Under cipher none value := by
  rw [under_none_iff]
  rcases h with h | h
  · obtain ⟨v, hv, hv'⟩ := h.readable
    rw [hu] at hv'
    cases hv'
    exact hv
  · have hclear := under_none_iff.mp h
    rw [cipher.unprotect_clear (some k) hclear] at hu
    cases hu
    exact hclear

end

/-! ## The tables rewritten -/

section
variable {κ : Type} {cipher : Cipher κ} {json : JsonTexts} {k : κ} {s s' : Cells} {u : Unit}

theorem encrypting_takes (draw : Table → Nat → Nonce) :
    (Cells.encrypting cipher k draw).Takes (Under cipher none) (Under cipher (some k)) := by
  have hone : ∀ text nonce text', Under cipher none text →
      protect cipher text (some k) nonce = .ok text' → Under cipher (some k) text' :=
    fun text nonce _ h hp => ⟨text, nonce, under_none_iff.mp h, hp⟩
  constructor
  case draft => exact fun i body body' h hp => hone _ _ _ h (Cells.checkedDraft_ok.mp hp).1
  case snapshot => exact fun value value' h hp => hone _ _ _ h hp
  all_goals
    intro i row row' h hr
    obtain ⟨payload, hp, rfl⟩ := map_eq_ok_iff.mp hr
    exact hone _ _ _ h hp

theorem opened_ok {α : Type} {text : JsonText α} {payload error : String} {r : String × α}
    (h : Cells.opened cipher text k payload error = .ok r) :
    unprotect cipher payload (some k) = .ok r.1 := by
  unfold Cells.opened at h
  split at h
  · cases h
  · split at h
    · cases h
    · cases h
      assumption

theorem decrypting_takes {P : String → Prop}
    (hP : ∀ text, P text → Under cipher (some k) text ∨ Under cipher none text) :
    (Cells.decrypting cipher json k).Takes P (Under cipher none) := by
  constructor
  case draft => exact fun i body body' h hu => .opened (hP _ h) (Cells.checkedDraft_ok.mp hu).1
  case snapshot => exact fun value value' h hu => .opened (hP _ h) hu
  case outbox =>
    intro i row row' h hr
    obtain ⟨payload, hu, rfl⟩ := map_eq_ok_iff.mp hr
    exact .opened (hP _ h) hu
  all_goals
    intro i row row' h hr
    obtain ⟨entry, hentry, rfl⟩ := map_eq_ok_iff.mp hr
    exact .opened (hP _ h) (opened_ok hentry)

/-- Tables in the clear, encrypted. -/
theorem Cells.All.encrypted {draw : Table → Nat → Nonce} (h : s.All (Under cipher none))
    (hr : (Cells.encryptExistingCache cipher k draw).Runs s u s') :
    Kept cipher (some k) true s' := by
  obtain ⟨⟨⟩, s₁, hrewrite, hr⟩ := Tx.runs_bind.mp hr
  rw [Tx.runs_modify_bind, Tx.runs_modify] at hr
  subst hr
  have hall := h.rewrite (encrypting_takes draw) hrewrite
  exact ⟨⟨⟨hall.store.conversations, hall.store.messages, hall.store.outbox⟩, hall.users,
    hall.drafts, hall.snapshot⟩, fun _ => rfl, rfl⟩

/-- Tables under the key or in the clear, decrypted. -/
theorem Cells.All.decrypted {key : Option κ} (h : s.All (Under cipher key))
    (hkey : key = some k ∨ key = none)
    (hr : (Cells.decryptExistingCache cipher json k).Runs s u s') : Kept cipher none false s' := by
  obtain ⟨⟨⟩, s₁, hrewrite, hr⟩ := Tx.runs_bind.mp hr
  rw [Tx.runs_modify_bind, Tx.runs_modify] at hr
  subst hr
  have hall := h.rewrite (decrypting_takes fun text ht => by
    rcases hkey with rfl | rfl
    · exact .inl ht
    · exact .inr ht) hrewrite
  exact ⟨⟨⟨hall.store.conversations, hall.store.messages, hall.store.outbox⟩, hall.users,
    hall.drafts, hall.snapshot⟩, nofun, rfl⟩

end

/-! ## The writers -/

section
variable {κ : Type} {cipher : Cipher κ} {json : JsonTexts} {rfc3339 : DateTime → String}
  {key : Option κ} {encrypted : Bool} {draw : Table → Nat → Nonce}

/-- `Kept` in the tables both stores have. -/
structure StoreKept (cipher : Cipher κ) (key : Option κ)
    (s : LocalStore CachedConversation String String) : Prop where
  all : Cells.StoreAll (Under cipher key) s
  search : key.isSome = true → s.search = []

theorem keeps_onStore {t : Tx String (LocalStore CachedConversation String String) Unit}
    (ht : Tx.Keeps (Tx.Preserving (StoreKept cipher key)) t) :
    Tx.Keeps (Tx.Preserving (Kept cipher key encrypted)) (Cells.onStore t) where
  runs {s u s'} hr h := by
    unfold Tx.Runs Cells.onStore at hr
    split at hr
    · rename_i a store hstore
      cases hr
      have hkept := ht.runs hstore ⟨h.all.store, h.search⟩
      exact ⟨⟨hkept.all, h.all.users, h.all.drafts, h.all.snapshot⟩, hkept.search, h.flag⟩
    · cases hr

theorem keeps_cacheProfile {profile : UserProfile} {i : Nat}
    (hp : marked (json.profile.print profile) = false) :
    Tx.Keeps (Tx.Preserving (Kept cipher key encrypted))
      (Cells.cacheProfile cipher json key draw profile i) := by
  unfold Cells.cacheProfile
  refine Tx.keeps_ofExcept_then fun payload hpayload => Tx.keeps_modify fun s h => ?_
  exact ⟨⟨h.all.store, Map.forall_insert h.all.users ⟨_, _, hp, hpayload⟩, h.all.drafts,
    h.all.snapshot⟩, h.search, h.flag⟩

theorem keeps_cacheConversation {conversation : Conversation} {i : Nat}
    (hp : marked (json.conversation.print conversation) = false) :
    Tx.Keeps (Tx.Preserving (Kept cipher key encrypted))
      (Cells.cacheConversation cipher json key draw conversation i) := by
  unfold Cells.cacheConversation
  refine Tx.keeps_ofExcept_then fun payload hpayload => Tx.keeps_modify fun s h => ?_
  exact ⟨⟨⟨Map.forall_insert h.all.store.conversations ⟨_, _, hp, hpayload⟩,
    h.all.store.messages, h.all.store.outbox⟩, h.all.users, h.all.drafts, h.all.snapshot⟩,
    h.search, h.flag⟩

theorem keeps_cacheMessage {asPayload : Message → Except String String} {message : Message}
    (hp : ∀ payload, asPayload message = .ok payload → Under cipher key payload) :
    Tx.Keeps (Tx.Preserving (StoreKept cipher key))
      (cacheMessage rfc3339 key.isSome asPayload message) where
  runs {s u s'} hr h := by
    obtain ⟨payload, hpayload, -, rfl⟩ := cacheMessage_runs.mp hr
    refine ⟨⟨h.all.conversations, Map.forall_insert (fun id row hrow =>
      h.all.messages id row (Map.get_of_retain hrow)) ?_, h.all.outbox⟩, fun hkey => ?_⟩
    · rw [LocalStore.row_payload]
      exact hp payload hpayload
    · have hnone : message.searchRows key.isSome = [] := by
        unfold Message.searchRows
        rw [hkey]
        split <;> rfl
      unfold LocalStore.cached LocalStore.supersede
      rw [hnone]
      simp [h.search hkey]

theorem keeps_enqueue {clientMessageId : MessageId} {conversationId : ConversationId}
    {payload : String} {now : DateTime} (hp : Under cipher key payload) :
    Tx.Keeps (Tx.Preserving (StoreKept cipher key))
      (enqueueOutbox rfc3339 clientMessageId conversationId payload now :
        Tx String (LocalStore CachedConversation String String) Unit) where
  runs {s u s'} hr h := by
    obtain ⟨-, rfl⟩ := enqueueOutbox_runs.mp hr
    refine ⟨⟨h.all.conversations, h.all.messages, Map.forall_insert h.all.outbox ?_⟩, h.search⟩
    unfold LocalStore.enqueued
    split <;> exact hp

/-- A writer keeps the tables under the key it read. -/
theorem keeps_writing {w : Writing} (hw : w.Unmarked json) :
    Tx.Keeps (Tx.Preserving (Kept cipher key encrypted)) (w.run cipher json rfc3339 key draw) := by
  cases w with
  | bootstrap value =>
    obtain ⟨hprofiles, hconversations, hsnapshot⟩ := hw
    refine Tx.keeps_then (Tx.keeps_forEach_mem fun entry he =>
      keeps_cacheProfile (hprofiles _ (List.fst_mem_of_mem_zipIdx he))) fun _ => ?_
    refine Tx.keeps_then (Tx.keeps_forEach_mem fun entry he =>
      keeps_cacheConversation (hconversations _ (List.fst_mem_of_mem_zipIdx he))) fun _ => ?_
    refine Tx.keeps_ofExcept_then fun snapshot hp => ?_
    refine Tx.keeps_then (Tx.keeps_modify fun s h => ?_) fun _ => Tx.keeps_modify fun s h => ?_
    · refine ⟨⟨h.all.store, h.all.users, h.all.drafts, fun value hvalue => ?_⟩, h.search, h.flag⟩
      cases hvalue
      exact ⟨_, _, hsnapshot, hp⟩
    · exact ⟨⟨⟨h.all.store.conversations, h.all.store.messages, h.all.store.outbox⟩, h.all.users,
        h.all.drafts, h.all.snapshot⟩, h.search, h.flag⟩
  | messages messages =>
    refine keeps_onStore (Tx.keeps_forEach_mem fun entry he =>
      keeps_cacheMessage fun payload hp => ?_)
    exact ⟨_, _, hw _ (List.fst_mem_of_mem_zipIdx he), hp⟩
  | draft conversationId body =>
    refine Tx.keeps_failIf_then fun _ => Tx.keeps_ofExcept_then fun text hp => ?_
    refine ⟨fun {s u s'} hr h => ?_⟩
    simp only [Tx.runs_get_bind, Tx.runs_failIf_bind, Tx.runs_modify] at hr
    obtain ⟨-, rfl⟩ := hr
    exact ⟨⟨h.all.store, h.all.users, Map.forall_insert h.all.drafts ⟨_, _, hw, hp⟩,
      h.all.snapshot⟩, h.search, h.flag⟩
  | outbox clientMessageId conversationId payloadJson now =>
    exact Tx.keeps_failIf_then fun _ => Tx.keeps_ofExcept_then fun payload hp =>
      keeps_onStore (keeps_enqueue ⟨_, _, hw, hp⟩)

end

/-! ## Runs -/

instance {json : JsonTexts} : (w : Writing) → Decidable (w.Unmarked json)
  | .bootstrap _ => inferInstanceAs (Decidable (_ ∧ _ ∧ _))
  | .messages _ => inferInstanceAs (Decidable (∀ _ ∈ _, _))
  | .draft _ _ => inferInstanceAs (Decidable (_ = _))
  | .outbox _ _ _ _ => inferInstanceAs (Decidable (_ = _))

instance {κ : Type} [DecidableEq κ] {json : JsonTexts} {v : Vault κ} :
    (t : KeyTask κ) → Decidable (t.Orderly json v)
  | .writing _ _ => inferInstanceAs (Decidable (_ ∧ _))
  | .saving _ | .undoing | .forgetting | .clearing => inferInstanceAs (Decidable (_ = _))
  | .encrypting _ | .remembering _ => inferInstanceAs (Decidable (_ ∧ _))
  | .decrypting _ => inferInstanceAs (Decidable (_ → _))
  | .idle | .reading => inferInstanceAs (Decidable True)

instance {κ ι : Type} [DecidableEq κ] {json : JsonTexts} {x : Vault κ × (ι → KeyTask κ)}
    {l : ι × KeyStep κ} : Decidable (OrderlyStep json x l) :=
  inferInstanceAs (Decidable (KeyTask.Orderly ..))

section
variable {κ : Type} {cipher : Cipher κ} {json : JsonTexts} {rfc3339 : DateTime → String} {ι : Type}

theorem Vault.key_eq {v : Vault κ} {key : κ} (hflag : v.cells.cacheEncryption = true)
    (hc : v.credential = some key) : v.key = some key := by
  rw [Vault.key, if_pos hflag, hc]

/-- The tables are under the stored key or in the clear, and a stored key they are under is in
memory or about to be. -/
structure KeyHeld (cipher : Cipher κ) (x : Vault κ × (ι → KeyTask κ)) : Prop where
  kept : Kept cipher x.1.key x.1.cells.cacheEncryption x.1.cells
  held : x.1.cells.cacheEncryption = true → ∃ key, x.1.credential = some key ∧
    (x.1.memory = some key ∨ ∃ i, x.2 i = .remembering key)

/-- Tables in the clear need no key. -/
theorem KeyHeld.clear {x : Vault κ × (ι → KeyTask κ)} (h : Kept cipher none false x.1.cells) :
    KeyHeld cipher x where
  kept := by
    have hkey : x.1.key = none := by simp [Vault.key, h.flag]
    rw [hkey, h.flag]
    exact h
  held hflag := by
    rw [h.flag] at hflag
    cases hflag

/-- Tables under the stored key. -/
theorem KeyHeld.under {x : Vault κ × (ι → KeyTask κ)} {key : κ}
    (h : Kept cipher (some key) true x.1.cells) (hc : x.1.credential = some key)
    (hm : x.1.memory = some key ∨ ∃ i, x.2 i = .remembering key) : KeyHeld cipher x where
  kept := by
    rw [Vault.key_eq h.flag hc, h.flag]
    exact h
  held _ := ⟨key, hc, hm⟩

theorem KeyHeld.kept_clear {x : Vault κ × (ι → KeyTask κ)} (h : KeyHeld cipher x)
    (hflag : x.1.cells.cacheEncryption = false) : Kept cipher none false x.1.cells := by
  have hkept := h.kept
  rwa [Vault.key, hflag] at hkept

/-- A call that is not about to set the key moves on. -/
theorem KeyHeld.turned [DecidableEq ι] {v : Vault κ} {f : ι → KeyTask κ} {i : ι} {t : KeyTask κ}
    (h : KeyHeld cipher (v, f)) (hi : ∀ key, f i ≠ .remembering key) :
    KeyHeld cipher (v, Function.update f i t) where
  kept := h.kept
  held hflag := by
    obtain ⟨key, hc, hm | ⟨j, hj⟩⟩ := h.held hflag
    · exact ⟨key, hc, .inl hm⟩
    · have hji : j ≠ i := by
        rintro rfl
        exact hi key hj
      exact ⟨key, hc, .inr ⟨j, by simpa [hji] using hj⟩⟩

/-- What a writer leaves. -/
theorem KeyHeld.written {v : Vault κ} {f : ι → KeyTask κ} {w : Writing}
    {draw : Table → Nat → Nonce} (h : KeyHeld cipher (v, f)) (hw : w.Unmarked json) :
    KeyHeld cipher
      ({ v with cells := ((w.run cipher json rfc3339 v.key draw).commit v.cells).2 }, f) := by
  have hkept : Kept cipher v.key v.cells.cacheEncryption
      ((w.run cipher json rfc3339 v.key draw).commit v.cells).2 := by
    unfold Tx.commit
    split
    · rename_i s' hr
      exact (keeps_writing hw).runs hr h.kept
    · exact h.kept
  have hflag := hkept.flag
  constructor
  · rw [Vault.key, hflag]
    exact hkept
  · intro hon
    exact h.held (hflag ▸ hon)

variable [DecidableEq ι]

theorem keyHeld_inductive :
    ((keySwitching cipher json rfc3339 ι).lts.restrict (OrderlyStep json)).Inductive
      (KeyHeld cipher) where
  init := by
    rintro ⟨v, f⟩ ⟨hsettled, -⟩
    unfold Vault.Settled at hsettled
    split at hsettled
    · obtain ⟨key, hm, hc, hkept⟩ := hsettled
      exact .under hkept hc (.inl hm)
    · exact .clear hsettled
  step := by
    rintro ⟨v, f⟩ ⟨i, l⟩ ⟨v', f'⟩ h ⟨hok, t, hstep, rfl⟩
    unfold OrderlyStep at hok
    dsimp only at hok hstep
    change (f i).step cipher json rfc3339 v l = some (v', t) at hstep
    cases l with
    | next ok draw =>
      change (f i).next cipher json rfc3339 v ok draw = some (v', t) at hstep
      cases hi : f i with
      | idle =>
        rw [hi] at hstep
        cases hstep
      | writing w key =>
        rw [hi] at hok hstep
        obtain ⟨rfl, hw⟩ := hok
        cases hstep
        have hturned := h.turned (t := .idle) (i := i) (by simp [hi])
        cases ok with
        | false => exact hturned
        | true => exact hturned.written hw
      | saving key =>
        rw [hi] at hok hstep
        cases ok <;> cases hstep <;> exact .clear (h.kept_clear hok)
      | encrypting key =>
        rw [hi] at hok hstep
        obtain ⟨hflag, hc⟩ := hok
        simp only [KeyTask.next] at hstep
        split at hstep
        · rename_i r hr
          cases hstep
          have hr : (Cells.encryptExistingCache cipher key draw).Runs v.cells r.1 r.2 := hr
          exact .under ((h.kept_clear hflag).all.encrypted hr) hc (.inr ⟨i, by simp⟩)
        · cases hstep
          exact h.turned (by simp [hi])
      | remembering key =>
        rw [hi] at hok hstep
        cases hstep
        exact ⟨h.kept, fun _ => ⟨key, hok.2, .inl rfl⟩⟩
      | undoing =>
        rw [hi] at hok hstep
        cases ok <;> cases hstep <;> exact .clear (h.kept_clear hok)
      | reading =>
        rw [hi] at hstep
        simp only [KeyTask.next] at hstep
        split at hstep <;> cases hstep <;> exact h.turned (by simp [hi])
      | decrypting key =>
        rw [hi] at hok hstep
        simp only [KeyTask.next] at hstep
        split at hstep
        · rename_i r hr
          cases hstep
          have hr : (Cells.decryptExistingCache cipher json key).Runs v.cells r.1 r.2 := hr
          refine .clear (h.kept.all.decrypted ?_ hr)
          cases hflag : v.cells.cacheEncryption with
          | false => exact .inr (by simp [Vault.key, hflag])
          | true => exact .inl (Vault.key_eq hflag (hok hflag))
        · cases hstep
          exact h.turned (by simp [hi])
      | forgetting =>
        rw [hi] at hok hstep
        cases hstep
        exact .clear (h.kept_clear hok)
      | clearing =>
        rw [hi] at hok hstep
        cases ok <;> cases hstep <;> exact .clear (h.kept_clear hok)
    | _ =>
      -- a call begins
      cases hi : f i <;> rw [hi] at hstep <;> cases hstep
      exact h.turned (by simp [hi])

/-- **When no call is in progress the cache is settled**, in every run whose steps are orderly, and
every column can be read with the key in memory. -/
theorem switching_settles {x : Vault κ × (ι → KeyTask κ)}
    (hx : ((keySwitching cipher json rfc3339 ι).lts.restrict (OrderlyStep json)).Reachable x)
    (hidle : ∀ i, x.2 i = .idle) :
    x.1.Settled cipher ∧
      x.1.cells.All fun text => ∃ value, unprotect cipher text x.1.memory = .ok value := by
  have h := keyHeld_inductive.reachable hx
  cases hflag : x.1.cells.cacheEncryption with
  | false =>
    have hkept := h.kept_clear hflag
    refine ⟨by rwa [Vault.Settled, hflag, if_neg Bool.false_ne_true], hkept.all.imp ?_⟩
    intro text htext
    exact ⟨text, cipher.unprotect_clear x.1.memory (under_none_iff.mp htext)⟩
  | true =>
    obtain ⟨key, hc, hm⟩ := h.held hflag
    have hm : x.1.memory = some key := by
      rcases hm with hm | ⟨i, hi⟩
      · exact hm
      · rw [hidle i] at hi
        cases hi
    have hkept := h.kept
    rw [Vault.key_eq hflag hc, hflag] at hkept
    refine ⟨by rw [Vault.Settled, if_pos hflag]; exact ⟨key, hm, hc, hkept⟩, hkept.all.imp ?_⟩
    intro text htext
    obtain ⟨value, -, hvalue⟩ := htext.readable
    exact ⟨value, by rw [hm]; exact hvalue⟩

end

/-! ## A draft across a switch -/

def noJson : JsonTexts where
  profile := ⟨fun _ => "", fun _ => none⟩
  conversation := ⟨fun _ => "", fun _ => none⟩
  message := ⟨fun _ => "", fun _ => none⟩
  bootstrap := ⟨fun _ => "", fun _ => none⟩
  isJson _ := false

def zeroNonces : Table → Nat → Nonce := fun _ _ => zeroNonce

def inTheClear : Vault Nat := ⟨oneConversation, none, none⟩

theorem inTheClear_settled : inTheClear.Settled Cipher.tagged := by
  have hone : Under Cipher.tagged none "{}" := under_none_iff.mpr (by decide)
  have hrows : ∀ id row, inTheClear.cells.conversations.get id = some row →
      Under Cipher.tagged none row.payloadJson :=
    fun id row hrow => Map.forall_insert
      (P := fun row : CachedConversation => Under Cipher.tagged none row.payloadJson)
      Map.forall_empty hone id row hrow
  exact ⟨⟨⟨hrows, Map.forall_empty, Map.forall_empty⟩, Map.forall_empty, Map.forall_empty, nofun⟩,
    nofun, rfl⟩

/-- The switch on the left, a writer on the right. -/
noncomputable def draftSwitching : Threads Bool (Vault Nat) (KeyTask Nat) (KeyStep Nat) :=
  keySwitching Cipher.tagged noJson (fun _ => "") Bool

def KeyTask.isIdle : KeyTask Nat → Bool
  | .idle => true
  | _ => false

theorem bothIdle {f : Bool → KeyTask Nat} (hfalse : (f false).isIdle = true)
    (htrue : (f true).isIdle = true) : ∀ i, f i = .idle := by
  have hone : ∀ t : KeyTask Nat, t.isIdle = true → t = .idle := fun t h => by
    cases t <;> first | rfl | cases h
  intro i
  cases i with
  | false => exact hone _ hfalse
  | true => exact hone _ htrue

/-- A draft that is saved and then encrypted. -/
theorem switching_settles_draft : ∃ x,
    (draftSwitching.lts.restrict (OrderlyStep noJson)).Reachable x ∧
    x.1.cells.cacheEncryption = true ∧ (x.1.cells.drafts.get 9).any marked = true ∧
    x.1.Settled Cipher.tagged := by
  obtain ⟨x, hx, hp⟩ := Threads.reaches_checked draftSwitching
    (fun x l (h : decide (OrderlyStep noJson x l) = true) => of_decide_eq_true h)
    (inTheClear, fun _ => .idle) ⟨inTheClear_settled, fun _ => rfl⟩
    [(true, .write (.draft 9 "hi")), (true, .next true zeroNonces), (false, .enable 7),
      (false, .next true zeroNonces), (false, .next true zeroNonces),
      (false, .next true zeroNonces)]
    (fun x => (x.2 false).isIdle && (x.2 true).isIdle && x.1.cells.cacheEncryption &&
      (x.1.cells.drafts.get 9).any marked) (by decide +kernel)
  simp only [Bool.and_eq_true] at hp
  obtain ⟨⟨⟨hfalse, htrue⟩, hflag⟩, hdraft⟩ := hp
  exact ⟨x, hx, hflag, hdraft, (switching_settles hx (bothIdle hfalse htrue)).1⟩

/-- The writer finds no key, the switch is made, the writer writes: the cache is recorded as
encrypted and the draft is in the clear. -/
theorem plaintext_in_encrypted_cache : ∃ x, draftSwitching.lts.Reachable x ∧
    (∀ i, x.2 i = .idle) ∧ x.1.cells.cacheEncryption = true ∧
    x.1.cells.drafts.get 9 = some "hi" ∧ ¬ x.1.Settled Cipher.tagged := by
  obtain ⟨x, hx, hp⟩ := Threads.reaches draftSwitching (inTheClear, fun _ => .idle)
    ⟨inTheClear_settled, fun _ => rfl⟩
    [(true, .write (.draft 9 "hi")), (false, .enable 7), (false, .next true zeroNonces),
      (false, .next true zeroNonces), (false, .next true zeroNonces), (true, .next true zeroNonces)]
    (fun x => (x.2 false).isIdle && (x.2 true).isIdle && x.1.cells.cacheEncryption &&
      x.1.cells.drafts.get 9 == some "hi") (by decide +kernel)
  simp only [Bool.and_eq_true, beq_iff_eq] at hp
  obtain ⟨⟨⟨hfalse, htrue⟩, hflag⟩, hdraft⟩ := hp
  refine ⟨x, hx, bothIdle hfalse htrue, hflag, hdraft, fun hsettled => ?_⟩
  rw [Vault.Settled, if_pos hflag] at hsettled
  obtain ⟨key, -, -, hkept⟩ := hsettled
  exact absurd (hkept.all.drafts 9 "hi" hdraft).marked (by decide)

end IamRust
